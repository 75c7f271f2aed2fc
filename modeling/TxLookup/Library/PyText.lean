import Mathlib.Data.List.DropRight

/-!
# Python text

A `str` is a list of code points. Lone surrogates are allowed, as in Python, so
a text may fail to encode. Decoding walks the bytes one character or one
malformed sequence at a time; the strict and the replacing decoder share it.
-/
namespace TxLookup.Library

abbrev PyStr := List Nat

instance : LawfulBEq PyStr := inferInstanceAs (LawfulBEq (List Nat))

abbrev Bytes := List UInt8

/-- The text of a Python string literal. -/
def py (s : String) : PyStr := s.toList.map Char.toNat

namespace PyText

/-- `str.isspace` of one character. -/
def isSpace (c : Nat) : Bool :=
  (9 ≤ c && c ≤ 13) || (28 ≤ c && c ≤ 32) || c == 0x85 || c == 0xa0 || c == 0x1680 ||
    (0x2000 ≤ c && c ≤ 0x200a) || c == 0x2028 || c == 0x2029 || c == 0x202f || c == 0x205f ||
    c == 0x3000

def strip (s : PyStr) : PyStr :=
  ((s.dropWhile isSpace).reverse.dropWhile isSpace).reverse

/-- The upper-case form of every character whose upper-case form is ASCII; the
others keep a non-ASCII form and are left as they are. -/
def upperChar (c : Nat) : PyStr :=
  if 97 ≤ c ∧ c ≤ 122 then [c - 32]
  else if c = 0xdf then py "SS"
  else if c = 0x131 then py "I"
  else if c = 0x17f then py "S"
  else if c = 0xfb00 then py "FF"
  else if c = 0xfb01 then py "FI"
  else if c = 0xfb02 then py "FL"
  else if c = 0xfb03 then py "FFI"
  else if c = 0xfb04 then py "FFL"
  else if c = 0xfb05 ∨ c = 0xfb06 then py "ST"
  else [c]

/-- `str.upper`, exact for comparisons with ASCII texts. -/
def upper (s : PyStr) : PyStr := s.flatMap upperChar

/-- `str.lower`, exact for comparisons with ASCII texts. -/
def lower (s : PyStr) : PyStr :=
  s.map (fun c => if 65 ≤ c ∧ c ≤ 90 then c + 32 else if c = 0x212a then 107 else c)

def isSurrogate (c : Nat) : Bool := 0xd800 ≤ c && c ≤ 0xdfff

/-- `str.encode("utf-8")` does not raise. -/
def encodable (s : PyStr) : Bool := s.all (fun c => !isSurrogate c)

/-- A value PostgreSQL accepts for a text column. -/
def storable (s : PyStr) : Bool := s.all (fun c => !isSurrogate c && c != 0)

/-- Dropping characters a test accepts does not change whether the test holds of all. -/
theorem all_dropWhile {p drop : Nat → Bool} (h : ∀ c, drop c = true → p c = true) (s : PyStr) :
    (s.dropWhile drop).all p = s.all p := by
  induction s with
  | nil => rfl
  | cons c s ih =>
    by_cases hc : drop c = true
    · rw [List.dropWhile_cons_of_pos hc, List.all_cons, h c hc, ih, Bool.true_and]
    · rw [List.dropWhile_cons_of_neg hc]

theorem storable_strip (s : PyStr) : storable (strip s) = storable s := by
  have hspace : ∀ c, isSpace c = true → (!isSurrogate c && c != 0) = true := by
    intro c hc
    simp only [isSpace, Bool.or_eq_true, Bool.and_eq_true, decide_eq_true_eq, beq_iff_eq] at hc
    simp only [isSurrogate, Bool.and_eq_true, Bool.not_eq_true', Bool.and_eq_false_iff,
      decide_eq_false_iff_not, bne_iff_ne]
    omega
  unfold storable strip
  rw [List.all_reverse, all_dropWhile hspace, List.all_reverse, all_dropWhile hspace]

/-- Stripping once is enough: the first character left is no blank, nor the last. -/
theorem strip_strip (s : PyStr) : strip (strip s) = strip s := by
  have hstrip : ∀ t : PyStr, strip t = (t.dropWhile isSpace).rdropWhile isSpace := fun _ => rfl
  have hfront : (strip s).dropWhile isSpace = strip s := by
    rw [List.dropWhile_eq_self_iff]
    intro hpos
    have hkept : strip s <+: s.dropWhile isSpace := List.rdropWhile_prefix _ _
    rw [hkept.getElem hpos]
    exact List.dropWhile_get_zero_not _ _ _
  rw [hstrip (strip s), hfront]
  exact List.rdropWhile_idempotent _ _

/-! ## UTF-8 -/

def isCont (b : Nat) : Bool := 0x80 ≤ b && b ≤ 0xbf

/-- One decoding step: a character or a malformed sequence, with its length. -/
inductive Piece where
  | char (c : Nat) (len : Nat)
  | bad (len : Nat)

/-- The admissible second bytes after the lead byte of a longer sequence. -/
def second (b0 b1 : Nat) : Bool :=
  if b0 = 0xe0 then 0xa0 ≤ b1 && b1 ≤ 0xbf
  else if b0 = 0xed then 0x80 ≤ b1 && b1 ≤ 0x9f
  else if b0 = 0xf0 then 0x90 ≤ b1 && b1 ≤ 0xbf
  else if b0 = 0xf4 then 0x80 ≤ b1 && b1 ≤ 0x8f
  else isCont b1

def piece (b0 : Nat) (rest : List Nat) : Piece :=
  if b0 < 0x80 then .char b0 1
  else if 0xc2 ≤ b0 ∧ b0 ≤ 0xdf then
    match rest with
    | b1 :: _ => if isCont b1 then .char ((b0 - 0xc0) * 64 + (b1 - 0x80)) 2 else .bad 1
    | [] => .bad 1
  else if 0xe0 ≤ b0 ∧ b0 ≤ 0xef then
    match rest with
    | b1 :: rest =>
      if second b0 b1 then
        match rest with
        | b2 :: _ =>
          if isCont b2 then
            .char ((b0 - 0xe0) * 4096 + (b1 - 0x80) * 64 + (b2 - 0x80)) 3
          else .bad 2
        | [] => .bad 2
      else .bad 1
    | [] => .bad 1
  else if 0xf0 ≤ b0 ∧ b0 ≤ 0xf4 then
    match rest with
    | b1 :: rest =>
      if second b0 b1 then
        match rest with
        | b2 :: rest =>
          if isCont b2 then
            match rest with
            | b3 :: _ =>
              if isCont b3 then
                .char ((b0 - 0xf0) * 262144 + (b1 - 0x80) * 4096 + (b2 - 0x80) * 64 +
                  (b3 - 0x80)) 4
              else .bad 3
            | [] => .bad 3
          else .bad 2
        | [] => .bad 2
      else .bad 1
    | [] => .bad 1
  else .bad 1

/-- All pieces of a byte string; `skip` counts bytes already consumed. -/
def pieces : Nat → List Nat → List Piece
  | _, [] => []
  | 0, b :: rest =>
    match piece b rest with
    | .char c len => .char c len :: pieces (len - 1) rest
    | .bad len => .bad len :: pieces (len - 1) rest
  | skip + 1, _ :: rest => pieces skip rest

/-- `bytes.decode("utf-8")`; `none` is `UnicodeDecodeError`. -/
def decode? (bs : Bytes) : Option PyStr :=
  (pieces 0 (bs.map UInt8.toNat)).mapM fun
    | .char c _ => some c
    | .bad _ => none

/-- `bytes.decode("utf-8", errors="replace")`. -/
def decodeReplace (bs : Bytes) : PyStr :=
  (pieces 0 (bs.map UInt8.toNat)).map fun
    | .char c _ => c
    | .bad _ => 0xfffd

end PyText

/-- Python's truth value of an optional text: neither `None` nor empty. -/
def truthy : Option PyStr → Bool
  | some (_ :: _) => true
  | _ => false

/-- Python's `a or b` on optional texts. -/
def pyOr (a b : Option PyStr) : Option PyStr := if truthy a then a else b

theorem truthy_iff {a : Option PyStr} : truthy a = true ↔ ∃ s, a = some s ∧ s ≠ [] := by
  rcases a with _ | _ | ⟨c, s⟩ <;> simp [truthy]

theorem truthy_pyOr (a b : Option PyStr) : truthy (pyOr a b) = (truthy a || truthy b) := by
  unfold pyOr
  cases h : truthy a <;> simp [h]

theorem truthy_some {s : PyStr} (h : s ≠ []) : truthy (some s) = true :=
  truthy_iff.mpr ⟨s, rfl, h⟩

end TxLookup.Library

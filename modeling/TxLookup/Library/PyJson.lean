import TxLookup.Library.PyValue

/-!
# JSON text

`json.dumps` with `ensure_ascii=False`: only quotes, backslashes and control
characters are escaped, every other character is written as it is. The text of a
value therefore encodes exactly when the texts in the value do, and it has no line
end. With `ensure_ascii` it always encodes.
-/
namespace TxLookup.Library

open PyText

def hexDigit (n : Nat) : Nat := if n < 10 then 48 + n else 87 + n

/-- A character inside a quoted text. -/
def dumpChar (c : Nat) : PyStr :=
  if c = 34 ∨ c = 92 then [92, c]
  else if c = 8 then py "\\b"
  else if c = 9 then py "\\t"
  else if c = 10 then py "\\n"
  else if c = 12 then py "\\f"
  else if c = 13 then py "\\r"
  else if c < 32 then py "\\u00" ++ [hexDigit (c / 16), hexDigit (c % 16)]
  else [c]

def dumpStr (s : PyStr) : PyStr := [34] ++ s.flatMap dumpChar ++ [34]

def dumpInt (n : Int) : PyStr :=
  (if n < 0 then [45] else []) ++ (Nat.toDigits 10 n.natAbs).map Char.toNat

variable (floatRepr : PyFloat → PyStr)

mutual

/-- `json.dumps(value, ensure_ascii=False)`, given the text of a float. -/
def Json.dumps : Json → PyStr
  | .null => py "null"
  | .bool true => py "true"
  | .bool false => py "false"
  | .int n => dumpInt n
  | .float x => floatRepr x
  | .str s => dumpStr s
  | .arr items => [91] ++ Json.dumpItems items ++ [93]
  | .obj fields => [123] ++ Json.dumpFields fields ++ [125]

def Json.dumpItems : List Json → PyStr
  | [] => []
  | [v] => v.dumps
  | v :: vs => v.dumps ++ py ", " ++ Json.dumpItems vs

def Json.dumpFields : List (PyStr × Json) → PyStr
  | [] => []
  | [(k, v)] => dumpStr k ++ py ": " ++ v.dumps
  | (k, v) :: kvs => dumpStr k ++ py ": " ++ v.dumps ++ py ", " ++ Json.dumpFields kvs

end

mutual

/-- No text in the value has a lone surrogate. -/
def Json.encodable : Json → Bool
  | .float x => PyText.encodable (floatRepr x)
  | .str s => PyText.encodable s
  | .arr items => Json.encodableItems items
  | .obj fields => Json.encodableFields fields
  | _ => true

def Json.encodableItems : List Json → Bool
  | [] => true
  | v :: vs => v.encodable && Json.encodableItems vs

def Json.encodableFields : List (PyStr × Json) → Bool
  | [] => true
  | (k, v) :: kvs => PyText.encodable k && v.encodable && Json.encodableFields kvs

end

def hex4 (n : Nat) : PyStr :=
  [hexDigit (n / 4096), hexDigit (n / 256 % 16), hexDigit (n / 16 % 16), hexDigit (n % 16)]

/-- A character of the text of a value under `ensure_ascii`: by its number, as a
surrogate pair from 0x10000 on. -/
def escapeChar (c : Nat) : PyStr :=
  if c < 127 then [c]
  else if c < 0x10000 then py "\\u" ++ hex4 c
  else py "\\u" ++ hex4 (0xd800 + (c - 0x10000) / 1024 % 1024) ++
    py "\\u" ++ hex4 (0xdc00 + (c - 0x10000) % 1024)

/-- `json.dumps(value)`. The characters to escape stand in quoted texts only. -/
def Json.dumpsAscii (v : Json) : PyStr := (v.dumps floatRepr).flatMap escapeChar

theorem encodableFields_eq (fields : List (PyStr × Json)) :
    Json.encodableFields floatRepr fields =
      ((fields.map Prod.fst).all PyText.encodable &&
        (fields.map Prod.snd).all (Json.encodable floatRepr)) := by
  induction fields with
  | nil => rfl
  | cons kv fields ih =>
    rw [Json.encodableFields, ih, List.map_cons, List.map_cons, List.all_cons, List.all_cons]
    ac_rfl

theorem encodable_append (s t : PyStr) :
    PyText.encodable (s ++ t) = (PyText.encodable s && PyText.encodable t) :=
  List.all_append

theorem encodable_dumpChar (c : Nat) : PyText.encodable (dumpChar c) = !isSurrogate c := by
  by_cases h : c < 128
  · have hall : ∀ c < 128, PyText.encodable (dumpChar c) = !isSurrogate c := by decide
    exact hall c h
  · unfold dumpChar
    repeat rw [if_neg (by omega)]
    simp [PyText.encodable]

theorem encodable_dumpStr (s : PyStr) : PyText.encodable (dumpStr s) = PyText.encodable s := by
  have hquote : PyText.encodable [34] = true := by decide
  have hbody : PyText.encodable (s.flatMap dumpChar) = PyText.encodable s := by
    unfold PyText.encodable
    rw [List.all_flatMap]
    exact congrArg s.all (funext encodable_dumpChar)
  rw [dumpStr, encodable_append, encodable_append, hquote, hbody, Bool.true_and, Bool.and_true]

theorem encodable_dumpInt (n : Int) : PyText.encodable (dumpInt n) = true := by
  rw [dumpInt, encodable_append, Bool.and_eq_true]
  constructor
  · split <;> decide
  · rw [PyText.encodable, List.all_eq_true]
    intro d hd
    obtain ⟨c, hc, rfl⟩ := List.mem_map.mp hd
    have hdigit := Nat.isDigit_of_mem_toDigits (by decide) (by decide) hc
    simp only [Char.isDigit, Bool.and_eq_true, decide_eq_true_eq] at hdigit
    have hle : c.toNat ≤ 57 := hdigit.2
    simp only [isSurrogate, Bool.not_eq_true', Bool.and_eq_false_iff, decide_eq_false_iff_not]
    omega

mutual

theorem encodable_dumps (v : Json) :
    PyText.encodable (v.dumps floatRepr) = v.encodable floatRepr := by
  cases v with
  | null => rfl
  | bool b => cases b <;> rfl
  | int n => exact encodable_dumpInt n
  | float x => rfl
  | str s => exact encodable_dumpStr s
  | arr items =>
    have hopen : PyText.encodable [91] = true := by decide
    have hclose : PyText.encodable [93] = true := by decide
    rw [Json.dumps, encodable_append, encodable_append, hopen, hclose,
      encodable_dumpItems items, Json.encodable, Bool.true_and, Bool.and_true]
  | obj fields =>
    have hopen : PyText.encodable [123] = true := by decide
    have hclose : PyText.encodable [125] = true := by decide
    rw [Json.dumps, encodable_append, encodable_append, hopen, hclose,
      encodable_dumpFields fields, Json.encodable, Bool.true_and, Bool.and_true]

theorem encodable_dumpItems (vs : List Json) :
    PyText.encodable (Json.dumpItems floatRepr vs) = Json.encodableItems floatRepr vs := by
  match vs with
  | [] => rfl
  | [v] =>
    rw [Json.dumpItems, encodable_dumps v, Json.encodableItems, Json.encodableItems, Bool.and_true]
  | v :: w :: vs =>
    have hcomma : PyText.encodable (py ", ") = true := by decide
    rw [Json.dumpItems, encodable_append, encodable_append, hcomma, encodable_dumps v,
      encodable_dumpItems (w :: vs), Bool.and_true]
    · rfl
    · exact List.cons_ne_nil w vs

theorem encodable_dumpFields (kvs : List (PyStr × Json)) :
    PyText.encodable (Json.dumpFields floatRepr kvs) = Json.encodableFields floatRepr kvs := by
  have hcolon : PyText.encodable (py ": ") = true := by decide
  match kvs with
  | [] => rfl
  | [(k, v)] =>
    rw [Json.dumpFields, encodable_append, encodable_append, hcolon, encodable_dumpStr,
      encodable_dumps v, Json.encodableFields, Json.encodableFields, Bool.and_true, Bool.and_true]
  | (k, v) :: kv :: kvs =>
    have hcomma : PyText.encodable (py ", ") = true := by decide
    rw [Json.dumpFields, encodable_append, encodable_append, encodable_append, encodable_append,
      hcolon, hcomma, encodable_dumpStr, encodable_dumps v, encodable_dumpFields (kv :: kvs),
      Bool.and_true, Bool.and_true]
    · rfl
    · exact List.cons_ne_nil kv kvs

end

/-! ## Control characters -/

/-- The text has no control character, and so no line end. -/
def printable (s : PyStr) : Bool := s.all (fun c => 32 ≤ c)

theorem printable_append (s t : PyStr) : printable (s ++ t) = (printable s && printable t) :=
  List.all_append

theorem printable_dumpChar (c : Nat) : printable (dumpChar c) = true := by
  by_cases h : c < 128
  · have hall : ∀ c < 128, printable (dumpChar c) = true := by decide
    exact hall c h
  · unfold dumpChar
    repeat rw [if_neg (by omega)]
    simp only [printable, List.all_cons, List.all_nil, Bool.and_true, decide_eq_true_eq]
    omega

theorem printable_dumpStr (s : PyStr) : printable (dumpStr s) = true := by
  have hquote : printable [34] = true := by decide
  have hbody : printable (s.flatMap dumpChar) = true := by
    unfold printable
    rw [List.all_flatMap, List.all_eq_true]
    exact fun c _ => printable_dumpChar c
  rw [dumpStr, printable_append, printable_append, hquote, hbody]
  rfl

theorem printable_dumpInt (n : Int) : printable (dumpInt n) = true := by
  rw [dumpInt, printable_append, Bool.and_eq_true]
  constructor
  · split <;> decide
  · rw [printable, List.all_eq_true]
    intro d hd
    obtain ⟨c, hc, rfl⟩ := List.mem_map.mp hd
    have hdigit := Nat.isDigit_of_mem_toDigits (by decide) (by decide) hc
    simp only [Char.isDigit, Bool.and_eq_true, decide_eq_true_eq] at hdigit
    have hge : 48 ≤ c.toNat := hdigit.1
    simp only [decide_eq_true_eq]
    omega

variable {floatRepr}

mutual

/-- The text of a value has no control character if that of a float has none. -/
theorem printable_dumps (hfloat : ∀ x, printable (floatRepr x) = true) (v : Json) :
    printable (v.dumps floatRepr) = true := by
  cases v with
  | null => rfl
  | bool b => cases b <;> rfl
  | int n => exact printable_dumpInt n
  | float x => exact hfloat x
  | str s => exact printable_dumpStr s
  | arr items =>
    rw [Json.dumps, printable_append, printable_append, printable_dumpItems hfloat items]
    rfl
  | obj fields =>
    rw [Json.dumps, printable_append, printable_append, printable_dumpFields hfloat fields]
    rfl

theorem printable_dumpItems (hfloat : ∀ x, printable (floatRepr x) = true) (vs : List Json) :
    printable (Json.dumpItems floatRepr vs) = true := by
  match vs with
  | [] => rfl
  | [v] => exact printable_dumps hfloat v
  | v :: w :: vs =>
    rw [Json.dumpItems, printable_append, printable_append, printable_dumps hfloat v,
      printable_dumpItems hfloat (w :: vs)]
    · rfl
    · exact List.cons_ne_nil w vs

theorem printable_dumpFields (hfloat : ∀ x, printable (floatRepr x) = true)
    (kvs : List (PyStr × Json)) : printable (Json.dumpFields floatRepr kvs) = true := by
  match kvs with
  | [] => rfl
  | [(k, v)] =>
    rw [Json.dumpFields, printable_append, printable_append, printable_dumpStr,
      printable_dumps hfloat v]
    rfl
  | (k, v) :: kv :: kvs =>
    rw [Json.dumpFields, printable_append, printable_append, printable_append, printable_append,
      printable_dumpStr, printable_dumps hfloat v, printable_dumpFields hfloat (kv :: kvs)]
    · rfl
    · exact List.cons_ne_nil kv kvs

end

/-! ## ASCII -/

theorem hexDigit_lt {n : Nat} (h : n < 16) : hexDigit n < 128 := by
  unfold hexDigit
  split <;> omega

def ascii (s : PyStr) : Bool := s.all (fun c => c < 128)

theorem ascii_append (s t : PyStr) : ascii (s ++ t) = (ascii s && ascii t) :=
  List.all_append

theorem ascii_hex4 {n : Nat} (h : n < 0x10000) : ascii (hex4 n) = true := by
  have h0 := @hexDigit_lt (n / 4096) (by omega)
  have h1 := @hexDigit_lt (n / 256 % 16) (by omega)
  have h2 := @hexDigit_lt (n / 16 % 16) (by omega)
  have h3 := @hexDigit_lt (n % 16) (by omega)
  simp only [ascii, hex4, List.all_cons, List.all_nil, Bool.and_true, Bool.and_eq_true,
    decide_eq_true_eq]
  exact ⟨h0, h1, h2, h3⟩

theorem ascii_escapeChar (c : Nat) : ascii (escapeChar c) = true := by
  have hu : ascii (py "\\u") = true := by decide
  unfold escapeChar
  split
  · next h =>
    simp only [ascii, List.all_cons, List.all_nil, Bool.and_true, decide_eq_true_eq]
    omega
  · split
    · next h =>
      rw [ascii_append, hu, ascii_hex4 h]
      rfl
    · have hhigh : 0xd800 + (c - 0x10000) / 1024 % 1024 < 0x10000 := by omega
      have hlow : 0xdc00 + (c - 0x10000) % 1024 < 0x10000 := by omega
      rw [ascii_append, ascii_append, ascii_append, hu, ascii_hex4 hhigh, ascii_hex4 hlow]
      rfl

/-- What `ensure_ascii` writes always encodes. -/
theorem encodable_dumpsAscii (v : Json) :
    PyText.encodable (v.dumpsAscii floatRepr) = true := by
  rw [PyText.encodable, List.all_eq_true]
  intro c hc
  obtain ⟨d, -, hd⟩ := List.mem_flatMap.mp hc
  have hascii := List.all_eq_true.mp (ascii_escapeChar d) c hd
  rw [decide_eq_true_eq] at hascii
  simp only [isSurrogate, Bool.not_eq_true', Bool.and_eq_false_iff, decide_eq_false_iff_not]
  omega

end TxLookup.Library

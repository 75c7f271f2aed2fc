import TxLookup.Library.JsonScan
import TxLookup.Library.PyFile

/-!
# Numbers and texts are read back

A number is read the same before any text that does not continue it, and `dumpInt`
writes one. Inside quotes every character is read back from what is written for it,
with and without `ensure_ascii`.
-/
namespace TxLookup.Library.JsonText

open PyText

variable {floatOf : PyStr → PyFloat}

/-! ## Numbers -/

/-- What ends a number: the text after it does not continue it. -/
def Stops (rest : PyStr) : Prop :=
  ∀ c ∈ rest.head?, isDigit c = false ∧ c ≠ 46 ∧ c ≠ 101 ∧ c ≠ 69

theorem dropWhile_append_of_head {p : Nat → Bool} {s t : PyStr} (h : ∀ c ∈ t.head?, p c = false) :
    (s ++ t).dropWhile p = s.dropWhile p ++ t := by
  rw [List.dropWhile_append]
  split
  · next hall =>
    rw [List.isEmpty_iff.mp hall, List.nil_append]
    cases t with
    | nil => rfl
    | cons c t => exact List.dropWhile_cons_of_neg (by rw [h c rfl]; exact Bool.false_ne_true)
  · rfl

theorem takeWhile_append_of_head {p : Nat → Bool} {s t : PyStr} (h : ∀ c ∈ t.head?, p c = false) :
    (s ++ t).takeWhile p = s.takeWhile p := by
  rw [List.takeWhile_append]
  split
  · next hall =>
    have hnone : t.takeWhile p = [] := by
      cases t with
      | nil => rfl
      | cons c t => exact List.takeWhile_cons_of_neg (by rw [h c rfl]; exact Bool.false_ne_true)
    rw [hnone, List.append_nil, (List.takeWhile_prefix p).eq_of_length hall]
  · rfl

theorem Stops.digits {rest : PyStr} (h : Stops rest) : ∀ c ∈ rest.head?, isDigit c = false :=
  fun c hc => (h c hc).1

theorem wholePart_append {s whole rest t : PyStr} (h : wholePart s = some (whole, rest))
    (ht : Stops t) : wholePart (s ++ t) = some (whole, rest ++ t) := by
  cases s with
  | nil => cases h
  | cons c s =>
    rw [List.cons_append, wholePart]
    rw [wholePart] at h
    split at h
    · next hc =>
      cases h
      rw [if_pos hc]
    · next hc =>
      rw [if_neg hc]
      split at h
      · next hd =>
        cases h
        rw [if_pos hd, takeWhile_append_of_head ht.digits, dropWhile_append_of_head ht.digits]
      · cases h

theorem fractionText_other {c : Nat} {s : PyStr} (hc : c ≠ 46) :
    fractionText (c :: s) = ([], c :: s) := by
  unfold fractionText
  split
  · next heq =>
    cases heq
    exact absurd rfl hc
  · rfl

theorem fractionText_append {s t : PyStr} (ht : Stops t) :
    fractionText (s ++ t) = ((fractionText s).1, (fractionText s).2 ++ t) := by
  match s with
  | [] =>
    match t with
    | [] => rfl
    | c :: t =>
      rw [List.nil_append, fractionText_other (ht c rfl).2.1]
      rfl
  | [c] =>
    by_cases hc : c = 46
    · subst hc
      cases t with
      | nil => rfl
      | cons d t =>
        show (if isDigit d = true then _ else _) = _
        rw [if_neg (by rw [(ht d rfl).1]; exact Bool.false_ne_true)]
        rfl
    · rw [List.cons_append, fractionText_other hc, fractionText_other hc]
      rfl
  | c :: d :: s =>
    by_cases hc : c = 46
    · subst hc
      rw [List.cons_append, List.cons_append, fractionText, fractionText]
      split
      · rw [takeWhile_append_of_head ht.digits, dropWhile_append_of_head ht.digits]
      · rfl
    · rw [List.cons_append, fractionText_other hc, fractionText_other hc]
      rfl

theorem exponentSign_append (c : Nat) (s t : PyStr) :
    exponentSign (c :: s ++ t) = ((exponentSign (c :: s)).1, (exponentSign (c :: s)).2 ++ t) := by
  by_cases hplus : c = 43
  · subst hplus
    rfl
  by_cases hminus : c = 45
  · subst hminus
    rfl
  have hother : ∀ s : PyStr, exponentSign (c :: s) = ([], c :: s) := by
    intro s
    rw [exponentSign]
    · exact fun _ heq => hplus (List.cons.inj heq).1
    · exact fun _ heq => hminus (List.cons.inj heq).1
  rw [List.cons_append, hother, hother]
  rfl

/-- A whole exponent is read the same before a text that does not continue it. -/
theorem exponentText_append {s exponent t : PyStr} (h : exponentText s = (exponent, []))
    (ht : Stops t) : exponentText (s ++ t) = (exponent, t) := by
  cases s with
  | nil =>
    cases h
    cases t with
    | nil => rfl
    | cons c t =>
      have hc := ht c rfl
      rw [List.nil_append, exponentText]
      dsimp only
      rw [if_neg]
      rintro ⟨rfl | rfl, -⟩
      · exact hc.2.2.1 rfl
      · exact hc.2.2.2 rfl
  | cons e s =>
    unfold exponentText at h
    dsimp only at h
    split at h
    · next hcond =>
      obtain ⟨he, hdigit⟩ := hcond
      have hsign : exponentSign (s ++ t) = ((exponentSign s).1, (exponentSign s).2 ++ t) := by
        cases s with
        | nil => cases hdigit
        | cons c s => exact exponentSign_append c s t
      have hhead : ((exponentSign s).2 ++ t).head?.any isDigit = true := by
        cases hs : (exponentSign s).2 with
        | nil =>
          rw [hs] at hdigit
          cases hdigit
        | cons c cs =>
          rw [hs] at hdigit
          exact hdigit
      injection h with hexponent hdrop
      rw [List.cons_append]
      unfold exponentText
      dsimp only
      rw [hsign]
      dsimp only
      rw [if_pos ⟨he, hhead⟩, takeWhile_append_of_head ht.digits,
        dropWhile_append_of_head ht.digits, hdrop, hexponent, List.nil_append]
    · cases h

/-- A text that is a number is read the same before a text that does not continue it. -/
theorem scanNumber_append {s t : PyStr} {v : Json} (h : scanNumber floatOf s = .ok (v, []))
    (ht : Stops t) : scanNumber floatOf (s ++ t) = .ok (v, t) := by
  have hsign : numberSign (s ++ t) = ((numberSign s).1, (numberSign s).2 ++ t) := by
    cases s with
    | nil => cases h
    | cons c s =>
      by_cases hminus : c = 45
      · subst hminus
        rfl
      have hother : ∀ s : PyStr, numberSign (c :: s) = ([], c :: s) := by
        intro s
        rw [numberSign]
        exact fun _ heq => hminus (List.cons.inj heq).1
      rw [List.cons_append, hother, hother]
      rfl
  obtain ⟨whole, rest, hwhole, hrest, hvalue⟩ := scanNumber_eq_ok h
  unfold scanNumber
  rw [hsign]
  dsimp only
  rw [wholePart_append hwhole ht]
  dsimp only
  rw [fractionText_append ht]
  dsimp only
  rw [exponentText_append (Prod.ext rfl hrest.symm) ht]
  dsimp only
  rcases hvalue with ⟨hfraction, hexponent, hlen, rfl⟩ | ⟨hfloat, rfl⟩
  · rw [if_pos ⟨hfraction, hexponent⟩, if_pos hlen]
  · rw [if_neg hfloat]

def digitText (n : Nat) : PyStr := (Nat.toDigits 10 n).map Char.toNat

theorem isDigit_of_mem_digitText {n c : Nat} (h : c ∈ digitText n) : isDigit c = true := by
  obtain ⟨d, hd, rfl⟩ := List.mem_map.mp h
  have hdigit := Nat.isDigit_of_mem_toDigits (by decide) (by decide) hd
  simp only [Char.isDigit, Bool.and_eq_true, decide_eq_true_eq] at hdigit
  have hge : 48 ≤ d.toNat := hdigit.1
  have hle : d.toNat ≤ 57 := hdigit.2
  simp only [isDigit, Bool.and_eq_true, decide_eq_true_eq]
  exact ⟨hge, hle⟩

theorem intValue_digitText (n : Nat) : intValue (digitText n) = n := by
  have hfold : ∀ (cs : List Char) (m : Nat),
      (cs.map Char.toNat).foldl (fun n c => 10 * n + (c - 48)) m = Nat.ofDigitChars 10 cs m := by
    intro cs
    induction cs with
    | nil => exact fun m => Nat.ofDigitChars_nil.symm
    | cons c cs ih =>
      intro m
      rw [List.map_cons, List.foldl_cons, ih, Nat.ofDigitChars_cons]
      rfl
  exact (hfold _ 0).trans Nat.ofDigitChars_ten_toDigits

/-- The first digit of a positive number is not a zero. -/
theorem digitText_head {n : Nat} (hn : 0 < n) : ∃ c s, digitText n = c :: s ∧ c ≠ 48 := by
  induction n using Nat.strong_induction_on with
  | h n ih =>
    by_cases hlt : n < 10
    · have hall : ∀ n < 10, 0 < n → (n.digitChar).toNat ≠ 48 := by decide
      refine ⟨(n.digitChar).toNat, [], ?_, hall n hlt hn⟩
      rw [digitText, Nat.toDigits_of_lt_base hlt]
      rfl
    · obtain ⟨c, s, hs, hc⟩ := ih (n / 10) (by omega) (by omega)
      refine ⟨c, s ++ [(Nat.digitChar (n % 10)).toNat], ?_, hc⟩
      rw [digitText, Nat.toDigits_of_base_le (by decide) (by omega), List.map_append]
      rw [digitText] at hs
      rw [hs]
      rfl

theorem wholePart_digitText (n : Nat) : wholePart (digitText n) = some (digitText n, []) := by
  rcases Nat.eq_zero_or_pos n with rfl | hn
  · rfl
  · obtain ⟨c, s, hs, hc⟩ := digitText_head hn
    have hall : ∀ d ∈ c :: s, isDigit d = true := fun d hd => isDigit_of_mem_digitText (hs ▸ hd)
    have hrest : ∀ d ∈ s, isDigit d = true := fun d hd => hall d (List.mem_cons_of_mem c hd)
    rw [hs, wholePart, if_neg hc, if_pos (hall c List.mem_cons_self),
      List.takeWhile_eq_self_iff.mpr hrest, List.dropWhile_eq_nil_iff.mpr hrest]

theorem digitText_length_le {n : Nat} (h : n < 10 ^ maxStrDigits) :
    (digitText n).length ≤ maxStrDigits := by
  rw [digitText, List.length_map]
  exact (Nat.length_toDigits_le_iff (by decide) (by decide)).mpr h

theorem scanNumber_dumpInt {n : Int} (h : n.natAbs < 10 ^ maxStrDigits) :
    scanNumber floatOf (dumpInt n) = .ok (.int n, []) := by
  have hsplit : numberSign (dumpInt n) = (if n < 0 then [45] else [], digitText n.natAbs) := by
    rw [dumpInt]
    split
    · rfl
    · show numberSign (digitText n.natAbs) = _
      unfold numberSign
      split
      · next body heq =>
        have hdigit := @isDigit_of_mem_digitText n.natAbs 45 (heq ▸ List.mem_cons_self)
        cases hdigit
      · rfl
  unfold scanNumber
  rw [hsplit]
  dsimp only
  rw [wholePart_digitText]
  show (if ([] : PyStr) = [] ∧ ([] : PyStr) = [] then _ else _) = _
  rw [if_pos ⟨rfl, rfl⟩, if_pos (digitText_length_le h), intValue_digitText]
  by_cases hneg : n < 0
  · rw [if_pos hneg, if_neg (List.cons_ne_nil _ _)]
    have habs : -(n.natAbs : Int) = n := by omega
    rw [habs]
    rfl
  · rw [if_neg hneg, if_pos rfl]
    have habs : (n.natAbs : Int) = n := by omega
    rw [habs]
    rfl

/-! ## Strings -/

theorem scanString_skip (opening : Nat) (pre s : PyStr) :
    scanString opening pre.length (pre ++ s) = scanString opening 0 s := by
  induction pre with
  | nil => rfl
  | cons c pre ih => exact ih

theorem scanString_escape {opening c : Nat} {escape s : PyStr}
    (h : scanEscape opening (escape ++ s) = .ok (c, escape.length)) :
    scanString opening 0 (92 :: (escape ++ s)) = push c (scanString opening 0 s) := by
  rw [scanString, if_neg (by decide), if_pos rfl, h]
  dsimp only
  rw [scanString_skip]

theorem hexValue?_hexDigit {n : Nat} (h : n < 16) : hexValue? (hexDigit n) = some n := by
  have hall : ∀ n < 16, hexValue? (hexDigit n) = some n := by decide
  exact hall n h

theorem hex4?_hex4 {n : Nat} (h : n < 0x10000) :
    hex4? (hexDigit (n / 4096)) (hexDigit (n / 256 % 16)) (hexDigit (n / 16 % 16))
      (hexDigit (n % 16)) = some n := by
  rw [hex4?, hexValue?_hexDigit (by omega), hexValue?_hexDigit (by omega),
    hexValue?_hexDigit (by omega), hexValue?_hexDigit (by omega)]
  refine congrArg some ?_
  omega

theorem unicodeEscape_hex4 {n : Nat} {s : PyStr} (h : n < 0x10000) (hhigh : isHigh n = false)
    (hs : s ≠ []) : unicodeEscape (hex4 n ++ s) = .ok (n, 5) := by
  show unicodeEscape (_ :: _ :: _ :: _ :: s) = _
  rw [unicodeEscape, hex4?_hex4 h]
  dsimp only
  rw [if_neg hs, hhigh]
  rfl

theorem unicodeEscape_pair {high low : Nat} {s : PyStr} (hhigh : isHigh high = true)
    (hlow : isLow low = true) (hs : s ≠ []) :
    unicodeEscape (hex4 high ++ (py "\\u" ++ hex4 low) ++ s) =
      .ok (joinSurrogates high low, 11) := by
  have hhigh' : high < 0x10000 := by
    simp only [isHigh, Bool.and_eq_true, decide_eq_true_eq] at hhigh
    omega
  have hlow' : low < 0x10000 := by
    simp only [isLow, Bool.and_eq_true, decide_eq_true_eq] at hlow
    omega
  show unicodeEscape (_ :: _ :: _ :: _ :: 92 :: 117 :: _ :: _ :: _ :: _ :: s) = _
  rw [unicodeEscape, hex4?_hex4 hhigh']
  dsimp only
  rw [if_neg (List.cons_ne_nil _ _), if_pos hhigh]
  show (if s = [] then _ else _) = _
  rw [if_neg hs, hex4?_hex4 hlow']
  dsimp only
  rw [if_pos hlow]

theorem scanString_hex4 {opening n : Nat} {rest : PyStr} (h : n < 0x10000)
    (hhigh : isHigh n = false) (hrest : rest ≠ []) :
    scanString opening 0 (py "\\u" ++ hex4 n ++ rest) = push n (scanString opening 0 rest) :=
  @scanString_escape opening n (117 :: hex4 n) rest (unicodeEscape_hex4 h hhigh hrest)

theorem scanString_pair {opening high low : Nat} {rest : PyStr} (hhigh : isHigh high = true)
    (hlow : isLow low = true) (hrest : rest ≠ []) :
    scanString opening 0 (py "\\u" ++ hex4 high ++ py "\\u" ++ hex4 low ++ rest) =
      push (joinSurrogates high low) (scanString opening 0 rest) :=
  @scanString_escape opening (joinSurrogates high low) (117 :: (hex4 high ++ (py "\\u" ++ hex4 low)))
    rest (unicodeEscape_pair hhigh hlow hrest)

/-- The text written for the character inside quotes is read as the character. -/
def Spells (esc : Nat → PyStr) (c : Nat) : Prop :=
  ∀ (opening : Nat) (rest : PyStr), rest ≠ [] →
    scanString opening 0 ((dumpChar c).flatMap esc ++ rest) = push c (scanString opening 0 rest)

/-- Characters below 127 are written as they are. -/
def Quiet (esc : Nat → PyStr) : Prop := ∀ c < 127, esc c = [c]

theorem Quiet.flatMap {esc : Nat → PyStr} (h : Quiet esc) {s : PyStr} (hs : ∀ c ∈ s, c < 127) :
    s.flatMap esc = s := by
  rw [List.flatMap_congr fun c hc => h c (hs c hc), List.flatMap_singleton']

theorem scanString_dumpChar {opening c : Nat} {rest : PyStr} (hrest : rest ≠ []) :
    scanString opening 0 (dumpChar c ++ rest) = push c (scanString opening 0 rest) := by
  have hsimple : ∀ e, simpleEscape? e = some c → e ≠ 117 →
      scanString opening 0 ([92, e] ++ rest) = push c (scanString opening 0 rest) := by
    intro e he hu
    refine @scanString_escape opening c [e] rest ?_
    rw [List.singleton_append, scanEscape, if_neg hu, he]
    rfl
  unfold dumpChar
  split
  · next h =>
    rcases h with rfl | rfl
    · exact hsimple 34 rfl (by decide)
    · exact hsimple 92 rfl (by decide)
  split
  · next h => exact hsimple 98 (congrArg some h.symm) (by decide)
  split
  · next h => exact hsimple 116 (congrArg some h.symm) (by decide)
  split
  · next h => exact hsimple 110 (congrArg some h.symm) (by decide)
  split
  · next h => exact hsimple 102 (congrArg some h.symm) (by decide)
  split
  · next h => exact hsimple 114 (congrArg some h.symm) (by decide)
  split
  · next h =>
    have hhex : py "\\u00" ++ [hexDigit (c / 16), hexDigit (c % 16)] = 92 :: 117 :: hex4 c := by
      have hall : ∀ c < 32, py "\\u00" ++ [hexDigit (c / 16), hexDigit (c % 16)] =
          92 :: 117 :: hex4 c := by decide
      exact hall c h
    rw [hhex]
    have hhigh : isHigh c = false := by
      simp only [isHigh, Bool.and_eq_false_iff, decide_eq_false_iff_not]
      omega
    exact scanString_hex4 (by omega) hhigh hrest
  · next hquote _ _ _ _ _ hcontrol =>
    rw [List.singleton_append, scanString, if_neg (fun h => hquote (.inl h)),
      if_neg (fun h => hquote (.inr h)), if_neg hcontrol]

theorem dumpChar_of_ge {c : Nat} (hc : 93 ≤ c) : dumpChar c = [c] := by
  unfold dumpChar
  repeat rw [if_neg (by omega)]

theorem dumpChar_lt {c d : Nat} (hc : c < 127) (hd : d ∈ dumpChar c) : d < 127 := by
  by_cases hlow : c < 93
  · have hall : ∀ c < 93, (dumpChar c).all (fun d => d < 127) = true := by decide
    exact of_decide_eq_true (List.all_eq_true.mp (hall c hlow) d hd)
  · rw [dumpChar_of_ge (by omega), List.mem_singleton] at hd
    omega

/-- `ensure_ascii=False`. -/
theorem spells_self (c : Nat) : Spells (fun c => [c]) c := by
  intro opening rest hrest
  rw [List.flatMap_singleton']
  exact scanString_dumpChar hrest

theorem quiet_escapeChar : Quiet escapeChar := fun _ hc => if_pos hc

/-- With `ensure_ascii`, a character of its own. -/
theorem spells_escapeChar {c : Nat} (h : isScalar c = true) : Spells escapeChar c := by
  intro opening rest hrest
  by_cases hc : c < 127
  · rw [quiet_escapeChar.flatMap fun d hd => dumpChar_lt hc hd]
    exact scanString_dumpChar hrest
  · rw [isScalar_iff] at h
    rw [dumpChar_of_ge (by omega), List.flatMap_singleton, escapeChar, if_neg hc]
    split
    · next hbmp =>
      have hhigh : isHigh c = false := by
        simp only [isHigh, Bool.and_eq_false_iff, decide_eq_false_iff_not]
        omega
      exact scanString_hex4 hbmp hhigh hrest
    · next hbmp =>
      have hjoin : joinSurrogates (0xd800 + (c - 0x10000) / 1024 % 1024)
          (0xdc00 + (c - 0x10000) % 1024) = c := by
        unfold joinSurrogates
        omega
      have hhigh : isHigh (0xd800 + (c - 0x10000) / 1024 % 1024) = true := by
        simp only [isHigh, Bool.and_eq_true, decide_eq_true_eq]
        omega
      have hlow : isLow (0xdc00 + (c - 0x10000) % 1024) = true := by
        simp only [isLow, Bool.and_eq_true, decide_eq_true_eq]
        omega
      rw [scanString_pair hhigh hlow hrest, hjoin]

/-- A text is read up to its closing quote. -/
theorem scanString_body {esc : Nat → PyStr} {s : PyStr} (h : ∀ c ∈ s, Spells esc c)
    (opening : Nat) (rest : PyStr) :
    scanString opening 0 ((s.flatMap dumpChar).flatMap esc ++ 34 :: rest) = .ok (s, rest) := by
  induction s with
  | nil => rfl
  | cons c s ih =>
    rw [List.forall_mem_cons] at h
    rw [List.flatMap_cons, List.flatMap_append, List.append_assoc,
      h.1 opening _ (List.append_ne_nil_of_right_ne_nil _ (List.cons_ne_nil _ _)), ih h.2]
    rfl

end TxLookup.Library.JsonText

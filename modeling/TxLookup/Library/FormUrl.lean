import TxLookup.Library.PyFile

/-!
# Form-encoded queries

`parse_qsl` and `urlencode` of `urllib.parse`, with `&` as the separator and
blank values kept. Percent escapes are decoded as UTF-8 with replacement, one
run of ASCII characters at a time; quoting is that of `quote_plus`. Reading back
what was written from well-formed texts gives the pairs that were written.
-/
namespace TxLookup.Library.FormUrl

open PyText

def hexValue (c : Nat) : Option Nat :=
  if 48 ≤ c ∧ c ≤ 57 then some (c - 48)
  else if 65 ≤ c ∧ c ≤ 70 then some (c - 55)
  else if 97 ≤ c ∧ c ≤ 102 then some (c - 87)
  else none

/-- `unquote_to_bytes` of an ASCII text. An escape that is not two hexadecimal
digits stands for itself. -/
def unquoteToBytes : PyStr → Bytes
  | 37 :: hi :: lo :: s =>
    match hexValue hi, hexValue lo with
    | some h, some l => UInt8.ofNat (h * 16 + l) :: unquoteToBytes s
    | _, _ => 37 :: unquoteToBytes (hi :: lo :: s)
  | c :: s => UInt8.ofNat c :: unquoteToBytes s
  | [] => []

/-- `run` is the ASCII run read so far. -/
def unquoteFrom (run : PyStr) : PyStr → PyStr
  | [] => decodeReplace (unquoteToBytes run)
  | c :: s =>
    if c < 128 then unquoteFrom (run ++ [c]) s
    else decodeReplace (unquoteToBytes run) ++ c :: unquoteFrom [] s

/-- `unquote(text.replace("+", " "))`. -/
def unquotePlus (s : PyStr) : PyStr := unquoteFrom [] (s.map (fun c => if c = 43 then 32 else c))

/-- The name before the first `=` and the value after it. -/
def parsePair (nameValue : PyStr) : PyStr × PyStr :=
  (unquotePlus (nameValue.takeWhile (· != 61)),
    unquotePlus ((nameValue.dropWhile (· != 61)).drop 1))

/-- `parse_qsl(query, keep_blank_values=True)`. -/
def parseQsl (query : PyStr) : List (PyStr × PyStr) :=
  ((query.splitOn 38).filter (fun nameValue => !nameValue.isEmpty)).map parsePair

/-- The characters `quote` never escapes. -/
def alwaysSafe (b : Nat) : Bool :=
  (65 ≤ b && b ≤ 90) || (97 ≤ b && b ≤ 122) || (48 ≤ b && b ≤ 57) || b == 95 || b == 46 ||
    b == 45 || b == 126

def upperHexDigit (n : Nat) : Nat := if n < 10 then 48 + n else 55 + n

def quoteByte (b : Nat) : PyStr :=
  if alwaysSafe b then [b]
  else if b = 32 then [43]
  else [37, upperHexDigit (b / 16), upperHexDigit (b % 16)]

/-- `quote_plus`; `none` is `UnicodeEncodeError`. -/
def quotePlus (s : PyStr) : Option PyStr :=
  if encodable s then some ((s.flatMap encodeChar).flatMap quoteByte) else none

def quotePair (pair : PyStr × PyStr) : Option PyStr := do
  return (← quotePlus pair.1) ++ 61 :: (← quotePlus pair.2)

/-- `urlencode` of a list of pairs. -/
def urlencode (pairs : List (PyStr × PyStr)) : Option PyStr :=
  (pairs.mapM quotePair).map (List.intercalate [38])

/-! ## One text -/

theorem hexValue_upperHexDigit {n : Nat} (h : n < 16) : hexValue (upperHexDigit n) = some n := by
  unfold upperHexDigit hexValue
  split_ifs with h1 h2 h3 <;> first | omega | (congr 1; omega)

/-- What an escape of a text consists of: ASCII characters, none a separator. -/
def component (c : Nat) : Bool := c < 128 && c != 38 && c != 61

theorem component_iff {c : Nat} : component c = true ↔ c < 128 ∧ c ≠ 38 ∧ c ≠ 61 := by
  simp only [component, Bool.and_eq_true, decide_eq_true_eq, bne_iff_ne, and_assoc]

theorem alwaysSafe_bounds {b : Nat} (h : alwaysSafe b = true) :
    b < 128 ∧ b ≠ 37 ∧ b ≠ 38 ∧ b ≠ 43 ∧ b ≠ 61 := by
  simp only [alwaysSafe, Bool.or_eq_true, Bool.and_eq_true, decide_eq_true_eq, beq_iff_eq] at h
  omega

theorem upperHexDigit_bounds {n : Nat} (h : n < 16) :
    48 ≤ upperHexDigit n ∧ upperHexDigit n < 128 ∧ upperHexDigit n ≠ 61 := by
  unfold upperHexDigit
  split_ifs <;> omega

theorem component_quoteByte {b : Nat} (hb : b < 256) : ∀ c ∈ quoteByte b, component c = true := by
  unfold quoteByte
  split_ifs with hsafe hspace
  · have := alwaysSafe_bounds hsafe
    simp only [List.forall_mem_cons, component_iff, List.not_mem_nil, false_implies, implies_true,
      and_true]
    omega
  · decide
  · have hhi := upperHexDigit_bounds (show b / 16 < 16 by omega)
    have hlo := upperHexDigit_bounds (show b % 16 < 16 by omega)
    simp only [List.forall_mem_cons, component_iff, List.not_mem_nil, false_implies, implies_true,
      and_true]
    omega

/-- `text.replace("+", " ")`. -/
def plusToSpace (s : PyStr) : PyStr := s.map (fun c => if c = 43 then 32 else c)

theorem unquoteToBytes_cons {c : Nat} (h : c ≠ 37) (s : PyStr) :
    unquoteToBytes (c :: s) = UInt8.ofNat c :: unquoteToBytes s := by
  rw [unquoteToBytes]
  intro hi lo s' hc _
  exact h hc

/-- The escape of a byte is read back as that byte. -/
theorem unquoteToBytes_quoteByte {b : Nat} (hb : b < 256) (s : PyStr) :
    unquoteToBytes (plusToSpace (quoteByte b) ++ s) = UInt8.ofNat b :: unquoteToBytes s := by
  unfold quoteByte
  split_ifs with hsafe hspace
  · obtain ⟨-, hpercent, -, hplus, -⟩ := alwaysSafe_bounds hsafe
    simp only [plusToSpace, List.map_cons, List.map_nil, if_neg hplus, List.cons_append,
      List.nil_append]
    exact unquoteToBytes_cons hpercent s
  · subst hspace
    exact unquoteToBytes_cons (by decide) s
  · have hhi := upperHexDigit_bounds (show b / 16 < 16 by omega)
    have hlo := upperHexDigit_bounds (show b % 16 < 16 by omega)
    have hplus : plusToSpace [37, upperHexDigit (b / 16), upperHexDigit (b % 16)] =
        [37, upperHexDigit (b / 16), upperHexDigit (b % 16)] := by
      simp only [plusToSpace, List.map_cons, List.map_nil, if_neg (show (37 : Nat) ≠ 43 by decide),
        if_neg (show upperHexDigit (b / 16) ≠ 43 by omega),
        if_neg (show upperHexDigit (b % 16) ≠ 43 by omega)]
    rw [hplus, List.cons_append, List.cons_append, List.cons_append, List.nil_append,
      unquoteToBytes, hexValue_upperHexDigit (by omega), hexValue_upperHexDigit (by omega)]
    simp only
    rw [Nat.div_add_mod']

theorem unquoteToBytes_quoteBytes (bytes : List Nat) (h : ∀ b ∈ bytes, b < 256) :
    unquoteToBytes (plusToSpace (bytes.flatMap quoteByte)) = bytes.map UInt8.ofNat := by
  induction bytes with
  | nil => rfl
  | cons b bytes ih =>
    obtain ⟨hb, hbytes⟩ := List.forall_mem_cons.mp h
    rw [List.flatMap_cons, plusToSpace, List.map_append, ← plusToSpace, ← plusToSpace,
      unquoteToBytes_quoteByte hb, ih hbytes, List.map_cons]

/-- An ASCII text is one run. -/
theorem unquoteFrom_ascii (run : PyStr) {s : PyStr} (h : ∀ c ∈ s, c < 128) :
    unquoteFrom run s = decodeReplace (unquoteToBytes (run ++ s)) := by
  induction s generalizing run with
  | nil => rw [unquoteFrom, List.append_nil]
  | cons c s ih =>
    obtain ⟨hc, hs⟩ := List.forall_mem_cons.mp h
    rw [unquoteFrom, if_pos hc, ih _ hs, List.append_assoc, List.cons_append, List.nil_append]

/-- The quoted form of a text that encodes. -/
def quoted (s : PyStr) : PyStr := (s.flatMap encodeChar).flatMap quoteByte

theorem quotePlus_of_wellFormed {s : PyStr} (h : wellFormed s = true) :
    quotePlus s = some (quoted s) :=
  if_pos (encodable_of_wellFormed h)

theorem component_quoted {s : PyStr} (h : wellFormed s = true) :
    ∀ c ∈ quoted s, component c = true := by
  intro c hc
  obtain ⟨b, hb, hc⟩ := List.mem_flatMap.mp hc
  exact component_quoteByte (encode_byte_lt h b hb) c hc

theorem unquotePlus_quoted {s : PyStr} (h : wellFormed s = true) : unquotePlus (quoted s) = s := by
  have hascii : ∀ c ∈ plusToSpace (quoted s), c < 128 := by
    intro c hc
    obtain ⟨c', hc', rfl⟩ := List.mem_map.mp hc
    have := component_iff.mp (component_quoted h c' hc')
    split_ifs <;> omega
  calc unquotePlus (quoted s)
      = decodeReplace (unquoteToBytes (plusToSpace (quoted s))) := unquoteFrom_ascii [] hascii
    _ = decodeReplace (encode s) :=
        congrArg decodeReplace (unquoteToBytes_quoteBytes _ (encode_byte_lt h))
    _ = s := decodeReplace_encode h

/-! ## A query -/

def quotedPair (pair : PyStr × PyStr) : PyStr := quoted pair.1 ++ 61 :: quoted pair.2

/-- Both texts of a pair are well-formed. -/
def WellFormedTexts (pair : PyStr × PyStr) : Prop :=
  wellFormed pair.1 = true ∧ wellFormed pair.2 = true

theorem parsePair_quotedPair {pair : PyStr × PyStr} (h : WellFormedTexts pair) :
    parsePair (quotedPair pair) = pair := by
  have hname : ∀ c ∈ quoted pair.1, (c != 61) = true := by
    intro c hc
    exact bne_iff_ne.mpr (component_iff.mp (component_quoted h.1 c hc)).2.2
  rw [parsePair, quotedPair, List.takeWhile_append_of_pos hname, List.dropWhile_append_of_pos hname]
  simp only [List.takeWhile_cons_of_neg, List.dropWhile_cons_of_neg, bne_self_eq_false,
    Bool.false_eq_true, not_false_eq_true, List.append_nil, List.drop_succ_cons, List.drop_zero]
  rw [unquotePlus_quoted h.1, unquotePlus_quoted h.2]

theorem urlencode_of_wellFormed {pairs : List (PyStr × PyStr)}
    (h : ∀ pair ∈ pairs, WellFormedTexts pair) :
    urlencode pairs = some (List.intercalate [38] (pairs.map quotedPair)) := by
  have hall : pairs.mapM quotePair = some (pairs.map quotedPair) := by
    induction pairs with
    | nil => rfl
    | cons pair pairs ih =>
      obtain ⟨hpair, hpairs⟩ := List.forall_mem_cons.mp h
      have hquote : quotePair pair = some (quotedPair pair) := by
        rw [quotePair, quotePlus_of_wellFormed hpair.1, quotePlus_of_wellFormed hpair.2]
        rfl
      rw [List.mapM_cons, hquote, ih hpairs]
      rfl
  rw [urlencode, hall, Option.map_some]

/-- `parse_qsl` reads back what `urlencode` wrote. -/
theorem parseQsl_urlencode {pairs : List (PyStr × PyStr)} (hne : pairs ≠ [])
    (h : ∀ pair ∈ pairs, WellFormedTexts pair) :
    ∃ text, urlencode pairs = some text ∧ parseQsl text = pairs := by
  refine ⟨_, urlencode_of_wellFormed h, ?_⟩
  have hsep : ∀ part ∈ pairs.map quotedPair, 38 ∉ part := by
    intro part hpart hmem
    obtain ⟨pair, hpair, rfl⟩ := List.mem_map.mp hpart
    have hno : ∀ s, wellFormed s = true → 38 ∉ quoted s := fun s hs hc =>
      (component_iff.mp (component_quoted hs 38 hc)).2.1 rfl
    rcases List.mem_append.mp hmem with hc | hc
    · exact hno _ (h pair hpair).1 hc
    · rcases List.mem_cons.mp hc with hc | hc
      · cases hc
      · exact hno _ (h pair hpair).2 hc
  have hfull : ∀ part ∈ pairs.map quotedPair, (!part.isEmpty) = true := by
    intro part hpart
    obtain ⟨pair, -, rfl⟩ := List.mem_map.mp hpart
    simp [quotedPair]
  rw [parseQsl, List.splitOn_intercalate 38 hsep (fun hnil => hne (List.map_eq_nil_iff.mp hnil)),
    List.filter_eq_self.mpr hfull, List.map_map]
  calc pairs.map (parsePair ∘ quotedPair)
      = pairs.map id := List.map_congr_left fun pair hpair => parsePair_quotedPair (h pair hpair)
    _ = pairs := List.map_id pairs

/-! ## What is read is well-formed -/

theorem wellFormed_unquoteFrom (run : PyStr) {s : PyStr} (h : wellFormed s = true) :
    wellFormed (unquoteFrom run s) = true := by
  induction s generalizing run with
  | nil => exact wellFormed_decodeReplace _
  | cons c s ih =>
    obtain ⟨hc, hs⟩ := List.forall_mem_cons.mp (wellFormed_iff.mp h)
    have hs := wellFormed_iff.mpr hs
    rw [unquoteFrom]
    split
    · exact ih _ hs
    · rw [wellFormed, List.all_append, List.all_cons, hc, ← wellFormed, ← wellFormed,
        wellFormed_decodeReplace, ih [] hs]
      rfl

theorem wellFormed_unquotePlus {s : PyStr} (h : wellFormed s = true) :
    wellFormed (unquotePlus s) = true := by
  refine wellFormed_unquoteFrom [] (wellFormed_iff.mpr fun c hc => ?_)
  obtain ⟨c', hc', rfl⟩ := List.mem_map.mp hc
  split
  · rfl
  · exact wellFormed_iff.mp h c' hc'

theorem mem_intercalate {sep : PyStr} {parts : List PyStr} {part : PyStr} (h : part ∈ parts)
    {c : Nat} (hc : c ∈ part) : c ∈ sep.intercalate parts := by
  induction parts with
  | nil => cases h
  | cons p parts ih =>
    by_cases hnil : parts = []
    · subst hnil
      rw [List.intercalate_singleton]
      rw [List.mem_singleton] at h
      exact h ▸ hc
    · rw [List.intercalate_cons_of_ne_nil hnil]
      rcases List.mem_cons.mp h with rfl | h
      · exact List.mem_append_left _ (List.mem_append_left _ hc)
      · exact List.mem_append_right _ (ih h)

theorem wellFormed_parseQsl {query : PyStr} (h : wellFormed query = true) :
    ∀ pair ∈ parseQsl query, WellFormedTexts pair := by
  intro pair hpair
  obtain ⟨part, hpart, rfl⟩ := List.mem_map.mp hpair
  have hmem : ∀ c ∈ part, isScalar c = true := by
    intro c hc
    have hquery : List.intercalate [38] (query.splitOn 38) = query := List.intercalate_splitOn 38
    refine wellFormed_iff.mp h c ?_
    rw [← hquery]
    exact mem_intercalate (List.mem_filter.mp hpart).1 hc
  constructor
  · refine wellFormed_unquotePlus (wellFormed_iff.mpr fun c hc => hmem c ?_)
    exact (List.takeWhile_subset _) hc
  · refine wellFormed_unquotePlus (wellFormed_iff.mpr fun c hc => hmem c ?_)
    exact (List.dropWhile_subset _) (List.mem_of_mem_drop hc)

end TxLookup.Library.FormUrl

import TxLookup.Library.PyText
import Mathlib.Data.List.TakeWhile

/-!
# Text files

Encoding a text as UTF-8 undoes its decoding, and decoding the encoding of a
well-formed text gives the text. A text file is read line by line, where every
kind of line end counts as one newline; lines that hold no line end of their own
come back as they were written.
-/
namespace TxLookup.Library.PyText

/-! ## Encoding -/

/-- The bytes of one character that is no surrogate. -/
def encodeChar (c : Nat) : List Nat :=
  if c < 0x80 then [c]
  else if c < 0x800 then [0xc0 + c / 64, 0x80 + c % 64]
  else if c < 0x10000 then [0xe0 + c / 4096, 0x80 + c / 64 % 64, 0x80 + c % 64]
  else [0xf0 + c / 262144, 0x80 + c / 4096 % 64, 0x80 + c / 64 % 64, 0x80 + c % 64]

/-- The bytes of a text that is encodable. -/
def encode (s : PyStr) : Bytes := (s.flatMap encodeChar).map UInt8.ofNat

/-- `str.encode("utf-8")`; `none` is `UnicodeEncodeError`. -/
def encode? (s : PyStr) : Option Bytes := if encodable s then some (encode s) else none

/-- A Unicode scalar value: a code point that is no surrogate. -/
def isScalar (c : Nat) : Bool := c < 0x110000 && !isSurrogate c

/-- Well-formed Unicode text. -/
def wellFormed (s : PyStr) : Bool := s.all isScalar

theorem isScalar_iff {c : Nat} : isScalar c = true ↔ c < 0x110000 ∧ (c < 0xd800 ∨ 0xdfff < c) := by
  simp only [isScalar, isSurrogate, Bool.and_eq_true, decide_eq_true_eq, Bool.not_eq_true',
    Bool.and_eq_false_iff, decide_eq_false_iff_not]
  omega

theorem wellFormed_iff {s : PyStr} : wellFormed s = true ↔ ∀ c ∈ s, isScalar c = true :=
  List.all_eq_true

theorem encodable_of_wellFormed {s : PyStr} (h : wellFormed s = true) : encodable s = true := by
  rw [encodable, List.all_eq_true]
  intro c hc
  have hscalar := wellFormed_iff.mp h c hc
  rw [isScalar, Bool.and_eq_true] at hscalar
  exact hscalar.2

theorem encodeChar_ne_nil (c : Nat) : encodeChar c ≠ [] := by
  unfold encodeChar
  split_ifs <;> exact List.cons_ne_nil _ _

theorem encode_ne_nil {s : PyStr} (h : s ≠ []) : encode s ≠ [] := by
  obtain ⟨c, s, rfl⟩ := List.exists_cons_of_ne_nil h
  rw [encode, List.flatMap_cons, List.map_append]
  exact List.append_ne_nil_of_left_ne_nil
    (fun h => encodeChar_ne_nil c (List.map_eq_nil_iff.mp h)) _

theorem isCont_iff {b : Nat} : isCont b = true ↔ 0x80 ≤ b ∧ b ≤ 0xbf := by
  simp only [isCont, Bool.and_eq_true, decide_eq_true_eq]

/-- Second bytes are continuation bytes that keep the character out of the
shorter forms, the surrogates and the values beyond the last character. -/
theorem second_bounds {b0 b1 : Nat} (h : second b0 b1 = true) : 0x80 ≤ b1 ∧ b1 ≤ 0xbf ∧
    (b0 = 0xe0 → 0xa0 ≤ b1) ∧ (b0 = 0xf0 → 0x90 ≤ b1) ∧ (b0 = 0xf4 → b1 ≤ 0x8f) ∧
      (b0 = 0xed → b1 ≤ 0x9f) := by
  unfold second at h
  split_ifs at h <;> simp only [isCont, Bool.and_eq_true, decide_eq_true_eq] at h <;> omega

theorem encodeChar_two {b0 b1 : Nat} (h0 : 0xc2 ≤ b0 ∧ b0 ≤ 0xdf) (h1 : 0x80 ≤ b1 ∧ b1 ≤ 0xbf) :
    encodeChar ((b0 - 0xc0) * 64 + (b1 - 0x80)) = [b0, b1] := by
  rw [encodeChar, if_neg (by omega), if_pos (by omega)]
  simp only [List.cons.injEq, and_true]
  omega

theorem encodeChar_three {b0 b1 b2 : Nat} (h0 : 0xe0 ≤ b0 ∧ b0 ≤ 0xef)
    (h1 : second b0 b1 = true) (h2 : 0x80 ≤ b2 ∧ b2 ≤ 0xbf) :
    encodeChar ((b0 - 0xe0) * 4096 + (b1 - 0x80) * 64 + (b2 - 0x80)) = [b0, b1, b2] ∧
      isScalar ((b0 - 0xe0) * 4096 + (b1 - 0x80) * 64 + (b2 - 0x80)) = true := by
  obtain ⟨hlow, hhigh, he0, -, -, hed⟩ := second_bounds h1
  constructor
  · rw [encodeChar, if_neg (by omega), if_neg (by omega), if_pos (by omega)]
    simp only [List.cons.injEq, and_true]
    omega
  · rw [isScalar_iff]
    omega

theorem encodeChar_four {b0 b1 b2 b3 : Nat} (h0 : 0xf0 ≤ b0 ∧ b0 ≤ 0xf4)
    (h1 : second b0 b1 = true) (h2 : 0x80 ≤ b2 ∧ b2 ≤ 0xbf) (h3 : 0x80 ≤ b3 ∧ b3 ≤ 0xbf) :
    encodeChar ((b0 - 0xf0) * 262144 + (b1 - 0x80) * 4096 + (b2 - 0x80) * 64 + (b3 - 0x80)) =
        [b0, b1, b2, b3] ∧
      isScalar ((b0 - 0xf0) * 262144 + (b1 - 0x80) * 4096 + (b2 - 0x80) * 64 + (b3 - 0x80)) =
        true := by
  obtain ⟨hlow, hhigh, -, hf0, hf4, -⟩ := second_bounds h1
  constructor
  · rw [encodeChar, if_neg (by omega), if_neg (by omega), if_neg (by omega)]
    simp only [List.cons.injEq, and_true]
    omega
  · rw [isScalar_iff]
    omega

/-- A character that was read encodes to the bytes it was read from. -/
theorem encodeChar_of_piece {b0 : Nat} {rest : List Nat} {c len : Nat}
    (h : piece b0 rest = .char c len) :
    encodeChar c ++ rest.drop (len - 1) = b0 :: rest ∧ isScalar c = true := by
  unfold piece at h
  -- one case for each length of a sequence, by the lead byte
  by_cases h1 : b0 < 0x80
  · rw [if_pos h1] at h
    cases h
    rw [encodeChar, if_pos h1]
    refine ⟨rfl, ?_⟩
    rw [isScalar_iff]
    omega
  rw [if_neg h1] at h
  by_cases h2 : 0xc2 ≤ b0 ∧ b0 ≤ 0xdf
  · rw [if_pos h2] at h
    split at h
    · next b1 rest =>
      split_ifs at h with hb1
      obtain ⟨rfl, rfl⟩ := Piece.char.inj h
      rw [isCont_iff] at hb1
      rw [encodeChar_two h2 hb1]
      refine ⟨rfl, ?_⟩
      rw [isScalar_iff]
      omega
    · cases h
  rw [if_neg h2] at h
  by_cases h3 : 0xe0 ≤ b0 ∧ b0 ≤ 0xef
  · rw [if_pos h3] at h
    split at h
    · next b1 rest =>
      split_ifs at h with hb1
      split at h
      · next b2 rest =>
        split_ifs at h with hb2
        obtain ⟨rfl, rfl⟩ := Piece.char.inj h
        obtain ⟨hbytes, hscalar⟩ := encodeChar_three h3 hb1 (isCont_iff.mp hb2)
        rw [hbytes]
        exact ⟨rfl, hscalar⟩
      · cases h
    · cases h
  rw [if_neg h3] at h
  by_cases h4 : 0xf0 ≤ b0 ∧ b0 ≤ 0xf4
  · rw [if_pos h4] at h
    split at h
    · next b1 rest =>
      split_ifs at h with hb1
      split at h
      · next b2 rest =>
        split_ifs at h with hb2
        split at h
        · next b3 rest =>
          split_ifs at h with hb3
          obtain ⟨rfl, rfl⟩ := Piece.char.inj h
          obtain ⟨hbytes, hscalar⟩ :=
            encodeChar_four h4 hb1 (isCont_iff.mp hb2) (isCont_iff.mp hb3)
          rw [hbytes]
          exact ⟨rfl, hscalar⟩
        · cases h
      · cases h
    · cases h
  · rw [if_neg h4] at h
    cases h

/-- Skipping bytes is reading from later on. -/
theorem pieces_skip (n : Nat) (bs : List Nat) : pieces n bs = pieces 0 (bs.drop n) := by
  induction n generalizing bs with
  | zero => rfl
  | succ n ih =>
    cases bs with
    | nil => rfl
    | cons b bs => exact ih bs

/-- The character of a piece, unless it is malformed. -/
def Piece.char? : Piece → Option Nat
  | .char c _ => some c
  | .bad _ => none

theorem encode_of_pieces (n : Nat) : ∀ (bs : List Nat) (s : PyStr), bs.length ≤ n →
    (pieces 0 bs).mapM Piece.char? = some s → s.flatMap encodeChar = bs ∧ wellFormed s = true := by
  induction n with
  | zero =>
    intro bs s hlength h
    obtain rfl := List.length_eq_zero_iff.mp (Nat.le_zero.mp hlength)
    cases h
    exact ⟨rfl, rfl⟩
  | succ n ih =>
    intro bs s hlength h
    cases bs with
    | nil =>
      cases h
      exact ⟨rfl, rfl⟩
    | cons b rest =>
      rw [pieces] at h
      cases hpiece : piece b rest with
      | bad len =>
        rw [hpiece] at h
        cases h
      | char c len =>
        rw [hpiece, List.mapM_cons] at h
        obtain ⟨c', hc, h⟩ := Option.bind_eq_some_iff.mp h
        obtain ⟨s', hs, h⟩ := Option.bind_eq_some_iff.mp h
        cases hc
        cases h
        rw [pieces_skip] at hs
        have hshort : (rest.drop (len - 1)).length ≤ n := by
          rw [List.length_drop]
          rw [List.length_cons] at hlength
          omega
        obtain ⟨hrest, hformed⟩ := ih _ s' hshort hs
        obtain ⟨hbytes, hscalar⟩ := encodeChar_of_piece hpiece
        refine ⟨?_, ?_⟩
        · rw [List.flatMap_cons, hrest, hbytes]
        · rw [wellFormed, List.all_cons, hscalar]
          exact hformed

/-- Encoding undoes strict decoding, which yields encodable texts only. -/
theorem encode_of_decode? {bs : Bytes} {s : PyStr} (h : decode? bs = some s) :
    encode s = bs ∧ encodable s = true := by
  obtain ⟨hbytes, hformed⟩ := encode_of_pieces _ (bs.map UInt8.toNat) s (Nat.le_refl _) h
  refine ⟨?_, encodable_of_wellFormed hformed⟩
  rw [encode, hbytes, List.map_map]
  exact (List.map_congr_left (fun b _ => UInt8.ofNat_toNat)).trans (List.map_id bs)

theorem char_of_pieces (n : Nat) : ∀ bs : List Nat, bs.length ≤ n → ∀ c len,
    .char c len ∈ pieces 0 bs → isScalar c = true := by
  induction n with
  | zero =>
    intro bs hlength c len hmem
    rw [List.length_eq_zero_iff.mp (Nat.le_zero.mp hlength)] at hmem
    cases hmem
  | succ n ih =>
    intro bs hlength c len hmem
    cases bs with
    | nil => cases hmem
    | cons b rest =>
      rw [List.length_cons] at hlength
      have hrest : ∀ len, (rest.drop len).length ≤ n := by
        intro len
        rw [List.length_drop]
        omega
      rw [pieces] at hmem
      cases hpiece : piece b rest with
      | char c' len' =>
        rw [hpiece] at hmem
        rcases List.mem_cons.mp hmem with heq | hmem
        · obtain ⟨rfl, rfl⟩ := Piece.char.inj heq
          exact (encodeChar_of_piece hpiece).2
        · rw [pieces_skip] at hmem
          exact ih _ (hrest _) c len hmem
      | bad len' =>
        rw [hpiece] at hmem
        rcases List.mem_cons.mp hmem with heq | hmem
        · cases heq
        · rw [pieces_skip] at hmem
          exact ih _ (hrest _) c len hmem

/-- The replacing decoder yields well-formed texts. -/
theorem wellFormed_decodeReplace (bs : Bytes) : wellFormed (decodeReplace bs) = true := by
  rw [wellFormed_iff]
  intro c hc
  obtain ⟨p, hp, rfl⟩ := List.mem_map.mp hc
  cases p with
  | char c len => exact char_of_pieces _ _ (Nat.le_refl _) c len hp
  | bad len => rfl

theorem encodable_decodeReplace (bs : Bytes) : encodable (decodeReplace bs) = true :=
  encodable_of_wellFormed (wellFormed_decodeReplace bs)

/-- On valid UTF-8 the replacing decoder replaces nothing. -/
theorem decodeReplace_of_decode? {bs : Bytes} {s : PyStr} (h : decode? bs = some s) :
    decodeReplace bs = s := by
  unfold decode? at h
  unfold decodeReplace
  generalize pieces 0 (bs.map UInt8.toNat) = ps at h
  induction ps generalizing s with
  | nil =>
    cases h
    rfl
  | cons p ps ih =>
    rw [List.mapM_cons] at h
    obtain ⟨c, hc, h⟩ := Option.bind_eq_some_iff.mp h
    obtain ⟨s', hs, h⟩ := Option.bind_eq_some_iff.mp h
    cases h
    cases p with
    | bad len => cases hc
    | char c' len =>
      cases hc
      rw [List.map_cons, ih hs]

/-- What a character encodes to is read as that character, whatever follows. -/
theorem piece_encodeChar {c : Nat} (h : isScalar c = true) :
    ∃ b bytes, encodeChar c = b :: bytes ∧ (∀ x ∈ b :: bytes, x < 256) ∧
      ∀ rest, piece b (bytes ++ rest) = .char c (bytes.length + 1) := by
  rw [isScalar_iff] at h
  have hcont : ∀ n, isCont (0x80 + n % 64) = true := by
    intro n
    rw [isCont_iff]
    omega
  by_cases h1 : c < 0x80
  · refine ⟨c, [], by rw [encodeChar, if_pos h1], ?_, fun rest => ?_⟩
    · simp only [List.forall_mem_cons, List.not_mem_nil, false_implies, implies_true, and_true]
      omega
    · rw [piece.eq_def, if_pos h1]
      rfl
  by_cases h2 : c < 0x800
  · refine ⟨0xc0 + c / 64, [0x80 + c % 64], by rw [encodeChar, if_neg h1, if_pos h2], ?_,
      fun rest => ?_⟩
    · simp only [List.forall_mem_cons, List.not_mem_nil, false_implies, implies_true, and_true]
      omega
    · rw [piece.eq_def, if_neg (by omega), if_pos (by omega)]
      simp only [List.cons_append, List.nil_append, hcont, if_true, List.length_cons,
        List.length_nil, Piece.char.injEq, and_true]
      omega
  by_cases h3 : c < 0x10000
  · have hsecond : second (0xe0 + c / 4096) (0x80 + c / 64 % 64) = true := by
      unfold second
      split_ifs <;> simp only [isCont, Bool.and_eq_true, decide_eq_true_eq] <;> omega
    refine ⟨0xe0 + c / 4096, [0x80 + c / 64 % 64, 0x80 + c % 64],
      by rw [encodeChar, if_neg h1, if_neg h2, if_pos h3], ?_, fun rest => ?_⟩
    · simp only [List.forall_mem_cons, List.not_mem_nil, false_implies, implies_true, and_true]
      omega
    · rw [piece.eq_def, if_neg (by omega), if_neg (by omega), if_pos (by omega)]
      simp only [List.cons_append, List.nil_append, hsecond, hcont, if_true, List.length_cons,
        List.length_nil, Piece.char.injEq, and_true]
      omega
  · have hsecond : second (0xf0 + c / 262144) (0x80 + c / 4096 % 64) = true := by
      unfold second
      split_ifs <;> simp only [isCont, Bool.and_eq_true, decide_eq_true_eq] <;> omega
    refine ⟨0xf0 + c / 262144, [0x80 + c / 4096 % 64, 0x80 + c / 64 % 64, 0x80 + c % 64],
      by rw [encodeChar, if_neg h1, if_neg h2, if_neg h3], ?_, fun rest => ?_⟩
    · simp only [List.forall_mem_cons, List.not_mem_nil, false_implies, implies_true, and_true]
      omega
    · rw [piece.eq_def, if_neg (by omega), if_neg (by omega), if_neg (by omega), if_pos (by omega)]
      simp only [List.cons_append, List.nil_append, hsecond, hcont, if_true, List.length_cons,
        List.length_nil, Piece.char.injEq, and_true]
      omega

theorem pieces_encodeChar {c : Nat} (h : isScalar c = true) (rest : List Nat) :
    pieces 0 (encodeChar c ++ rest) = .char c (encodeChar c).length :: pieces 0 rest := by
  obtain ⟨b, bytes, henc, -, hpiece⟩ := piece_encodeChar h
  rw [henc, List.cons_append, pieces, hpiece, List.length_cons]
  simp only [Nat.add_sub_cancel]
  rw [pieces_skip, List.drop_left]

theorem encode_byte_lt {s : PyStr} (h : wellFormed s = true) :
    ∀ b ∈ s.flatMap encodeChar, b < 256 := by
  intro b hb
  obtain ⟨c, hc, hb⟩ := List.mem_flatMap.mp hb
  obtain ⟨b', bytes, henc, hlt, -⟩ := piece_encodeChar (wellFormed_iff.mp h c hc)
  rw [henc] at hb
  exact hlt b hb

theorem toNat_encode {s : PyStr} (h : wellFormed s = true) :
    (encode s).map UInt8.toNat = s.flatMap encodeChar := by
  rw [encode, List.map_map]
  calc (s.flatMap encodeChar).map (UInt8.toNat ∘ UInt8.ofNat)
      = (s.flatMap encodeChar).map id :=
        List.map_congr_left fun b hb => UInt8.toNat_ofNat_of_lt' (encode_byte_lt h b hb)
    _ = s.flatMap encodeChar := List.map_id _

/-- Decoding undoes the encoding of a well-formed text. -/
theorem decodeReplace_encode {s : PyStr} (h : wellFormed s = true) :
    decodeReplace (encode s) = s := by
  rw [decodeReplace, toNat_encode h]
  induction s with
  | nil => rfl
  | cons c s ih =>
    obtain ⟨hc, hs⟩ := List.forall_mem_cons.mp (wellFormed_iff.mp h)
    rw [List.flatMap_cons, pieces_encodeChar hc, List.map_cons, ih (wellFormed_iff.mpr hs)]

theorem decode?_encode {s : PyStr} (h : wellFormed s = true) : decode? (encode s) = some s := by
  rw [decode?, toNat_encode h]
  induction s with
  | nil => rfl
  | cons c s ih =>
    obtain ⟨hc, hs⟩ := List.forall_mem_cons.mp (wellFormed_iff.mp h)
    rw [List.flatMap_cons, pieces_encodeChar hc, List.mapM_cons, ih (wellFormed_iff.mpr hs)]
    rfl

/-! ## Lines -/

/-- A text is blank if all its characters are white space. -/
theorem strip_eq_nil_iff (s : PyStr) : strip s = [] ↔ ∀ c ∈ s, isSpace c = true := by
  rw [strip, List.reverse_eq_nil_iff, List.dropWhile_eq_nil_iff]
  simp only [List.mem_reverse]
  constructor
  · intro h
    by_contra hsome
    rw [not_forall] at hsome
    have hne : s.dropWhile isSpace ≠ [] := by
      intro hnil
      obtain ⟨c, hc⟩ := hsome
      exact hc (List.dropWhile_eq_nil_iff.mp hnil c)
    have hhead := List.head_dropWhile_not isSpace hne
    rw [h _ (List.head_mem hne)] at hhead
    cases hhead
  · intro h c hc
    exact h c ((List.dropWhile_sublist isSpace).subset hc)

/-- What iterating over a text file yields: each line with a newline at its end,
but for a last line that has none. `current` is the line read so far, reversed. -/
def linesFrom (current : PyStr) : PyStr → List PyStr
  | [] => if current = [] then [] else [current.reverse]
  | 13 :: 10 :: s => (10 :: current).reverse :: linesFrom [] s
  | c :: s =>
    if c = 10 ∨ c = 13 then (10 :: current).reverse :: linesFrom [] s
    else linesFrom (c :: current) s

def textLines (s : PyStr) : List PyStr := linesFrom [] s

/-- The text holds no line end. -/
def oneLine (s : PyStr) : Bool := s.all (fun c => c != 10 && c != 13)

theorem linesFrom_append {body : PyStr} (h : oneLine body = true) (current s : PyStr) :
    linesFrom current (body ++ 10 :: s) =
      (current.reverse ++ body ++ [10]) :: linesFrom [] s := by
  induction body generalizing current with
  | nil => simp [linesFrom]
  | cons c body ih =>
    rw [oneLine, List.all_cons, Bool.and_eq_true, Bool.and_eq_true, bne_iff_ne, bne_iff_ne] at h
    obtain ⟨⟨h10, h13⟩, hbody⟩ := h
    have hstep : linesFrom current (c :: (body ++ 10 :: s)) =
        linesFrom (c :: current) (body ++ 10 :: s) := by
      rw [linesFrom]
      · exact if_neg (not_or.mpr ⟨h10, h13⟩)
      · intro s' hc _
        exact h13 hc
    rw [List.cons_append, hstep, ih hbody, List.reverse_cons]
    simp only [List.append_assoc, List.cons_append, List.nil_append]

/-- Texts without line ends, written one to a line, are read back one by one. -/
theorem textLines_written (bodies : List PyStr) (h : ∀ body ∈ bodies, oneLine body = true) :
    textLines (bodies.flatMap (fun body => body ++ py "\n")) =
      bodies.map (fun body => body ++ py "\n") := by
  induction bodies with
  | nil => rfl
  | cons body bodies ih =>
    have hbody := h body List.mem_cons_self
    have hrest := ih (fun b hb => h b (List.mem_cons_of_mem _ hb))
    rw [textLines] at hrest ⊢
    rw [List.flatMap_cons, List.map_cons, List.append_assoc]
    exact (linesFrom_append hbody [] _).trans (congrArg _ hrest)

end TxLookup.Library.PyText

import TxLookup.Library.JsonText
import TxLookup.Library.Fold

/-!
# What the JSON scanner consumes

Every value takes at least one character, so the recursion of the scanner is bounded
by the length of the text: two levels for each character are enough.
-/
namespace TxLookup.Library.JsonText

open PyText

variable {floatOf : PyStr → PyFloat}

theorem skipWs_length (s : PyStr) : (skipWs s).length ≤ s.length :=
  (List.dropWhile_suffix _).length_le

theorem push_eq_ok {c : Nat} {r : Except JsonError (PyStr × PyStr)} {p : PyStr × PyStr}
    (h : push c r = .ok p) : ∃ q, r = .ok q ∧ p = (c :: q.1, q.2) := by
  cases r with
  | error e => cases h
  | ok q =>
    cases h
    exact ⟨q, rfl, rfl⟩

theorem map_eq_ok {ε α β : Type} {f : α → β} {r : Except ε α} {b : β} (h : r.map f = .ok b) :
    ∃ a, r = .ok a ∧ f a = b := by
  cases r with
  | error e => cases h
  | ok a =>
    cases h
    exact ⟨a, rfl, rfl⟩

theorem map_ne_error {ε α β : Type} {f : α → β} {r : Except ε α} {e : ε} (h : r ≠ .error e) :
    r.map f ≠ .error e := by
  cases r with
  | error e' =>
    intro he
    cases he
    exact h rfl
  | ok a => exact fun he => by cases he

theorem fail_ne_fuel {α : Type} (message : String) (s : PyStr) :
    (fail message s : Except JsonError α) ≠ .error .fuel := fun h => by cases h

/-! ## Strings -/

theorem unicodeEscape_ne_fuel (s : PyStr) : unicodeEscape s ≠ .error .fuel := by
  unfold unicodeEscape
  split
  · split
    · exact fail_ne_fuel _ _
    · split
      · exact fail_ne_fuel _ _
      · split
        · split
          · split
            · nofun
            · split
              · exact fail_ne_fuel _ _
              · split <;> nofun
          · nofun
        · nofun
  · exact fail_ne_fuel _ _

theorem scanEscape_ne_fuel (opening : Nat) (s : PyStr) : scanEscape opening s ≠ .error .fuel := by
  unfold scanEscape unterminated
  split
  · nofun
  · split
    · exact unicodeEscape_ne_fuel _
    · split
      · nofun
      · exact fail_ne_fuel _ _

theorem scanString_ne_fuel (opening : Nat) (s : PyStr) (skip : Nat) :
    scanString opening skip s ≠ .error .fuel := by
  induction s generalizing skip with
  | nil => cases skip <;> nofun
  | cons c s ih =>
    cases skip with
    | succ skip => exact ih skip
    | zero =>
      unfold scanString
      split
      · nofun
      · split
        · split
          · exact map_ne_error (ih _)
          · next e he =>
            rintro h
            cases h
            exact scanEscape_ne_fuel opening s he
        · split
          · exact fail_ne_fuel _ _
          · exact map_ne_error (ih 0)

/-- A string takes at least its closing quote. -/
theorem scanString_length {opening : Nat} {s : PyStr} {skip : Nat} {p : PyStr × PyStr}
    (h : scanString opening skip s = .ok p) : p.2.length < s.length := by
  induction s generalizing skip p with
  | nil => cases skip <;> cases h
  | cons c s ih =>
    have hlonger : ∀ n, n < s.length → n < (c :: s).length := fun n hn => by
      rw [List.length_cons]
      omega
    cases skip with
    | succ skip => exact hlonger _ (ih h)
    | zero =>
      unfold scanString at h
      split at h
      · cases h
        exact Nat.lt_succ_self _
      · split at h
        · split at h
          · obtain ⟨q, hq, rfl⟩ := push_eq_ok h
            have hrest := ih hq
            exact hlonger _ hrest
          · cases h
        · split at h
          · cases h
          · obtain ⟨q, hq, rfl⟩ := push_eq_ok h
            have hrest := ih hq
            exact hlonger _ hrest

/-! ## Numbers and literals -/

theorem wholePart_length {s : PyStr} {p : PyStr × PyStr} (h : wholePart s = some p) :
    p.2.length < s.length := by
  cases s with
  | nil => cases h
  | cons c s =>
    rw [wholePart] at h
    split at h
    · cases h
      exact Nat.lt_succ_self _
    · split at h
      · cases h
        exact Nat.lt_succ_of_le (List.dropWhile_suffix _).length_le
      · cases h

theorem fractionText_length (s : PyStr) : (fractionText s).2.length ≤ s.length := by
  unfold fractionText
  split
  · next d s =>
    split
    · have hdrop := (List.dropWhile_suffix (l := s) isDigit).length_le
      simp only [List.length_cons]
      omega
    · exact le_rfl
  · exact le_rfl

theorem exponentSign_length (s : PyStr) : (exponentSign s).2.length ≤ s.length := by
  unfold exponentSign
  split
  · exact Nat.le_succ _
  · exact Nat.le_succ _
  · exact le_rfl

theorem exponentText_length (s : PyStr) : (exponentText s).2.length ≤ s.length := by
  cases s with
  | nil => exact le_rfl
  | cons e s =>
    unfold exponentText
    dsimp only
    split
    · have hdrop := (List.dropWhile_suffix (l := (exponentSign s).2) isDigit).length_le
      have hsign := exponentSign_length s
      simp only [List.length_cons]
      omega
    · exact le_rfl

theorem numberSign_spec (s : PyStr) : s = (numberSign s).1 ++ (numberSign s).2 ∧
    ((numberSign s).1 = [] ∨ (numberSign s).1 = [45]) := by
  unfold numberSign
  split
  · exact ⟨rfl, .inr rfl⟩
  · exact ⟨rfl, .inl rfl⟩

/-- Everything a number can come to: the parts of its text, and what follows. -/
theorem scanNumber_eq_ok {s : PyStr} {p : Json × PyStr} (h : scanNumber floatOf s = .ok p) :
    ∃ whole rest, wholePart (numberSign s).2 = some (whole, rest) ∧
      p.2 = (exponentText (fractionText rest).2).2 ∧
      (((fractionText rest).1 = [] ∧ (exponentText (fractionText rest).2).1 = [] ∧
          whole.length ≤ maxStrDigits ∧
          p.1 = .int (if (numberSign s).1 = [] then intValue whole else -intValue whole)) ∨
        (¬ ((fractionText rest).1 = [] ∧ (exponentText (fractionText rest).2).1 = []) ∧
          p.1 = .float (floatOf ((numberSign s).1 ++ whole ++ (fractionText rest).1 ++
            (exponentText (fractionText rest).2).1)))) := by
  unfold scanNumber at h
  dsimp only at h
  split at h
  · cases h
  · next whole rest hwhole =>
    refine ⟨whole, rest, hwhole, ?_⟩
    split at h
    · next hint =>
      split at h
      · next hlen =>
        cases h
        exact ⟨rfl, .inl ⟨hint.1, hint.2, hlen, rfl⟩⟩
      · cases h
    · next hfloat =>
      cases h
      exact ⟨rfl, .inr ⟨hfloat, rfl⟩⟩

theorem scanNumber_length {s : PyStr} {p : Json × PyStr} (h : scanNumber floatOf s = .ok p) :
    p.2.length < s.length := by
  obtain ⟨whole, rest, hwhole, hrest, -⟩ := scanNumber_eq_ok h
  have hsign := congrArg List.length (numberSign_spec s).1
  have hbody := wholePart_length hwhole
  have hfraction := fractionText_length rest
  have hexponent := exponentText_length (fractionText rest).2
  rw [List.length_append] at hsign
  rw [hrest]
  dsimp only at hbody
  omega

theorem scanNumber_ne_fuel (s : PyStr) : scanNumber floatOf s ≠ .error .fuel := by
  unfold scanNumber
  dsimp only
  split
  · exact fail_ne_fuel _ _
  · split
    · split <;> nofun
    · nofun

theorem scanLiteral_length {s : PyStr} {p : Json × PyStr} (h : scanLiteral s = some p) :
    p.2.length < s.length := by
  obtain ⟨entry, hentry, hp⟩ := List.exists_of_findSome?_eq_some h
  split at hp
  · next hfront =>
    cases hp
    have hne : ∀ entry ∈ literals, entry.1 ≠ [] := by decide
    have hpos := List.length_pos_iff.mpr (hne entry hentry)
    have hle := (List.isPrefixOf_iff_prefix.mp hfront).length_le
    rw [List.length_drop]
    omega
  · cases hp

/-! ## Values -/

/-- A successful scan leaves less than it was given. -/
theorem scan_length (fuel : Nat) :
    (∀ s p, scanOnce floatOf fuel s = .ok p → p.2.length < s.length) ∧
    (∀ s p, scanItems floatOf fuel s = .ok p → p.2.length < s.length) ∧
    (∀ s p, scanMembers floatOf fuel s = .ok p → p.2.length < s.length) := by
  induction fuel with
  | zero =>
    refine ⟨fun s p h => ?_, fun s p h => ?_, fun s p h => ?_⟩
    · rw [scanOnce] at h
      cases h
    · rw [scanItems] at h
      cases h
    · rw [scanMembers] at h
      cases h
  | succ fuel ih =>
    obtain ⟨ihOnce, ihItems, ihMembers⟩ := ih
    refine ⟨fun s p h => ?_, fun s p h => ?_, fun s p h => ?_⟩
    · unfold scanOnce at h
      split at h
      · cases h
      · next c rest =>
        have hskip := skipWs_length rest
        split at h
        · obtain ⟨q, hq, rfl⟩ := map_eq_ok h
          exact Nat.lt_succ_of_lt (scanString_length hq)
        split at h
        · split at h
          · next rest' heq =>
            cases h
            rw [heq] at hskip
            simp only [List.length_cons] at hskip ⊢
            omega
          · obtain ⟨q, hq, rfl⟩ := map_eq_ok h
            have hlen := ihMembers _ _ hq
            simp only [List.length_cons] at hlen ⊢
            omega
        split at h
        · split at h
          · next rest' heq =>
            cases h
            rw [heq] at hskip
            simp only [List.length_cons] at hskip ⊢
            omega
          · obtain ⟨q, hq, rfl⟩ := map_eq_ok h
            have hlen := ihItems _ _ hq
            simp only [List.length_cons] at hlen ⊢
            omega
        split at h
        · next q hq =>
          cases h
          exact scanLiteral_length hq
        · exact scanNumber_length h
    · rw [scanItems] at h
      obtain ⟨q, hq, h⟩ := bind_eq_ok.mp h
      have hlen := ihOnce _ _ hq
      have hskip := skipWs_length q.2
      dsimp only at h
      split at h
      · next rest' heq =>
        cases h
        rw [heq] at hskip
        simp only [List.length_cons] at hskip
        dsimp only
        omega
      · next rest' heq =>
        obtain ⟨q', hq', rfl⟩ := map_eq_ok h
        have hlen' := ihItems _ _ hq'
        have hskip' := skipWs_length rest'
        rw [heq] at hskip
        simp only [List.length_cons] at hskip
        dsimp only
        omega
      · cases h
    · unfold scanMembers at h
      split at h
      · next rest =>
        obtain ⟨q, hq, h⟩ := bind_eq_ok.mp h
        have hlen := scanString_length hq
        have hskip := skipWs_length q.2
        dsimp only at h
        split at h
        · next rest' heq =>
          rw [heq] at hskip
          obtain ⟨q', hq', h⟩ := bind_eq_ok.mp h
          have hlen' := ihOnce _ _ hq'
          have hskip' := skipWs_length rest'
          have hskip'' := skipWs_length q'.2
          simp only [List.length_cons] at hskip
          split at h
          · next rest'' heq' =>
            cases h
            rw [heq'] at hskip''
            simp only [List.length_cons] at hskip'' ⊢
            omega
          · next rest'' heq' =>
            obtain ⟨q'', hq'', rfl⟩ := map_eq_ok h
            have hlen'' := ihMembers _ _ hq''
            have hlast := skipWs_length rest''
            rw [heq'] at hskip''
            simp only [List.length_cons] at hskip'' ⊢
            omega
          · cases h
        · cases h
      · cases h

theorem bind_ne_error {ε α β : Type} {x : Except ε α} {f : α → Except ε β} {e : ε}
    (hx : x ≠ .error e) (hf : ∀ a, x = .ok a → f a ≠ .error e) : (x >>= f) ≠ .error e := by
  cases x with
  | error e' =>
    intro h
    cases h
    exact hx rfl
  | ok a => exact hf a rfl

/-- Two levels for each character are enough, and one more for items or members. -/
theorem scan_ne_fuel (fuel : Nat) :
    (∀ s : PyStr, 2 * s.length + 1 ≤ fuel → scanOnce floatOf fuel s ≠ .error .fuel) ∧
    (∀ s : PyStr, 2 * s.length + 2 ≤ fuel → scanItems floatOf fuel s ≠ .error .fuel) ∧
    (∀ s : PyStr, 2 * s.length + 2 ≤ fuel → scanMembers floatOf fuel s ≠ .error .fuel) := by
  induction fuel with
  | zero =>
    exact ⟨fun _ h => absurd h (Nat.not_succ_le_zero _), fun _ h => absurd h (Nat.not_succ_le_zero _),
      fun _ h => absurd h (Nat.not_succ_le_zero _)⟩
  | succ fuel ih =>
    obtain ⟨ihOnce, ihItems, ihMembers⟩ := ih
    refine ⟨fun s hs => ?_, fun s hs => ?_, fun s hs => ?_⟩
    · unfold scanOnce
      split
      · exact fail_ne_fuel _ _
      · next c rest =>
        have hskip := skipWs_length rest
        rw [List.length_cons] at hs
        split
        · exact map_ne_error (scanString_ne_fuel _ _ _)
        split
        · split
          · nofun
          · exact map_ne_error (ihMembers _ (by omega))
        split
        · split
          · nofun
          · exact map_ne_error (ihItems _ (by omega))
        split
        · nofun
        · exact scanNumber_ne_fuel _
    · rw [scanItems]
      refine bind_ne_error (ihOnce s (by omega)) fun q hq => ?_
      have hlen := (scan_length fuel).1 _ _ hq
      have hskip := skipWs_length q.2
      dsimp only
      split
      · nofun
      · next rest' heq =>
        have hskip' := skipWs_length rest'
        rw [heq, List.length_cons] at hskip
        exact map_ne_error (ihItems _ (by omega))
      · exact fail_ne_fuel _ _
    · unfold scanMembers
      split
      · next rest =>
        rw [List.length_cons] at hs
        refine bind_ne_error (scanString_ne_fuel _ _ _) fun q hq => ?_
        have hlen := scanString_length hq
        have hskip := skipWs_length q.2
        dsimp only
        split
        · next rest' heq =>
          have hskip' := skipWs_length rest'
          rw [heq, List.length_cons] at hskip
          refine bind_ne_error (ihOnce _ (by omega)) fun q' hq' => ?_
          have hlen' := (scan_length fuel).1 _ _ hq'
          have hskip'' := skipWs_length q'.2
          split
          · nofun
          · next rest'' heq' =>
            have hlast := skipWs_length rest''
            rw [heq', List.length_cons] at hskip''
            exact map_ne_error (ihMembers _ (by omega))
          · exact fail_ne_fuel _ _
        · exact fail_ne_fuel _ _
      · exact fail_ne_fuel _ _

/-- `json.loads` comes to a value or to an error of its own. -/
theorem loads_ne_fuel (text : PyStr) : loads floatOf text ≠ .error .fuel := by
  unfold loads
  split
  · exact fail_ne_fuel _ _
  · refine bind_ne_error ((scan_ne_fuel _).1 _ le_rfl) fun q _ => ?_
    dsimp only
    unfold atEnd
    split
    · nofun
    · exact fail_ne_fuel _ _

end TxLookup.Library.JsonText

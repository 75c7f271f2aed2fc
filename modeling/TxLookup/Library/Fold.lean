import Mathlib.Data.List.Forall2

/-!
# Steps and loops that may raise

A sequence succeeds if its parts do, and raises what its first failing part raises.
A loop over a list in `Except` ends at the first step that raises. If what a step
does when it succeeds is known, so is the loop.
-/
namespace TxLookup.Library

theorem bind_eq_ok {ε α β : Type} {x : Except ε α} {f : α → Except ε β} {b : β} :
    (x >>= f) = .ok b ↔ ∃ a, x = .ok a ∧ f a = .ok b := by
  cases x with
  | error exc =>
    constructor
    · intro h
      cases h
    · intro hparts
      obtain ⟨a, ha, -⟩ := hparts
      cases ha
  | ok a =>
    constructor
    · intro h
      exact ⟨a, rfl, h⟩
    · intro hparts
      obtain ⟨a', ha, h⟩ := hparts
      cases ha
      exact h

theorem bind_eq_error {ε α β : Type} {x : Except ε α} {f : α → Except ε β} {exc : ε} :
    (x >>= f) = .error exc ↔ x = .error exc ∨ ∃ a, x = .ok a ∧ f a = .error exc := by
  cases x with
  | error exc' =>
    constructor
    · intro h
      cases h
      exact .inl rfl
    · intro hparts
      rcases hparts with h | ⟨a, ha, -⟩
      · cases h
        rfl
      · cases ha
  | ok a =>
    constructor
    · intro h
      exact .inr ⟨a, rfl, h⟩
    · intro hparts
      rcases hparts with h | ⟨a', ha, h⟩
      · cases h
      · cases ha
        exact h

/-- An exception outside `allowed` is raised. -/
def Escapes {ε α : Type} (allowed : ε → Prop) (x : Except ε α) : Prop :=
  ∃ exc, x = .error exc ∧ ¬ allowed exc

section
variable {ε α β : Type} {allowed : ε → Prop}

theorem not_escapes_ok (a : α) : ¬ Escapes allowed (.ok a : Except ε α) := by
  intro hparts
  obtain ⟨exc, h, -⟩ := hparts
  cases h

theorem not_escapes_error {exc : ε} (h : allowed exc) :
    ¬ Escapes allowed (.error exc : Except ε α) := by
  intro hparts
  obtain ⟨exc', heq, hnot⟩ := hparts
  cases heq
  exact hnot h

/-- What escapes from a sequence escapes from its first failing part. -/
theorem escapes_bind {x : Except ε α} {f : α → Except ε β} :
    Escapes allowed (x >>= f) ↔ Escapes allowed x ∨ ∃ a, x = .ok a ∧ Escapes allowed (f a) := by
  unfold Escapes
  constructor
  · intro hparts
    obtain ⟨exc, h, hnot⟩ := hparts
    rcases bind_eq_error.mp h with h | ⟨a, ha, h⟩
    · exact .inl ⟨exc, h, hnot⟩
    · exact .inr ⟨a, ha, exc, h, hnot⟩
  · intro hparts
    rcases hparts with ⟨exc, h, hnot⟩ | ⟨a, ha, exc, h, hnot⟩
    · exact ⟨exc, bind_eq_error.mpr (.inl h), hnot⟩
    · exact ⟨exc, bind_eq_error.mpr (.inr ⟨a, ha, h⟩), hnot⟩

/-- A first part that only raises what is allowed. -/
theorem escapes_bind_of_not {x : Except ε α} {f : α → Except ε β} (h : ¬ Escapes allowed x) :
    Escapes allowed (x >>= f) ↔ ∃ a, x = .ok a ∧ Escapes allowed (f a) := by
  rw [escapes_bind, or_iff_right h]

theorem escapes_map {x : Except ε α} {f : α → β} :
    Escapes allowed (x.map f) ↔ Escapes allowed x := by
  cases x with
  | ok a => exact iff_of_false (not_escapes_ok (f a)) (not_escapes_ok a)
  | error exc =>
    constructor
    · intro hparts
      obtain ⟨exc', h, hnot⟩ := hparts
      cases h
      exact ⟨exc, rfl, hnot⟩
    · intro hparts
      obtain ⟨exc', h, hnot⟩ := hparts
      cases h
      exact ⟨exc, rfl, hnot⟩

end

/-- A comprehension returns what its calls return, one after the other. -/
theorem mapM_eq_ok_iff {ε α β : Type} {f : α → Except ε β} {as : List α} {bs : List β} :
    as.mapM f = .ok bs ↔ List.Forall₂ (fun a b => f a = .ok b) as bs := by
  induction as generalizing bs with
  | nil =>
    constructor
    · intro h
      cases h
      exact .nil
    · intro h
      cases h
      rfl
  | cons a as ih =>
    rw [List.mapM_cons]
    constructor
    · intro h
      obtain ⟨b, hb, h⟩ := bind_eq_ok.mp h
      obtain ⟨bs', hbs, h⟩ := bind_eq_ok.mp h
      cases h
      exact .cons hb (ih.mp hbs)
    · intro h
      cases h with
      | cons hb hbs => exact bind_eq_ok.mpr ⟨_, hb, bind_eq_ok.mpr ⟨_, ih.mpr hbs, rfl⟩⟩

/-- A comprehension over calls that return a known value, each under its condition. -/
theorem mapM_eq_ok {ε α β : Type} {f : α → Except ε β} {p : α → Prop} {g : α → β}
    (h : ∀ a b, f a = .ok b ↔ p a ∧ b = g a) {as : List α} {bs : List β} :
    as.mapM f = .ok bs ↔ (∀ a ∈ as, p a) ∧ bs = as.map g := by
  have hcall : ∀ a b, f a = .ok b ↔ p a ∧ g a = b := by
    intro a b
    rw [h, eq_comm]
  simp only [mapM_eq_ok_iff, hcall]
  rw [List.forall₂_and_left, ← List.forall₂_map_left_iff, List.forall₂_eq_eq_eq, eq_comm]

variable {σ ε α : Type} {f : σ → α → Except ε σ}

theorem foldlM_cons_ok {s t : σ} {a : α} {as : List α} (h : (a :: as).foldlM f s = .ok t) :
    ∃ m, f s a = .ok m ∧ as.foldlM f m = .ok t := by
  rw [List.foldlM_cons] at h
  exact bind_eq_ok.mp h

/-- What every step preserves holds at the end. -/
theorem foldlM_invariant {P : σ → Prop} (hstep : ∀ s a t, P s → f s a = .ok t → P t)
    {as : List α} {s t : σ} (hs : P s) (h : as.foldlM f s = .ok t) : P t := by
  induction as generalizing s with
  | nil =>
    cases h
    exact hs
  | cons a as ih =>
    obtain ⟨m, hm, hrest⟩ := foldlM_cons_ok h
    exact ih (hstep s a m hs hm) hrest

/-- A loop none of whose steps raises. -/
theorem foldlM_of_ok {step : σ → α → σ} {as : List α}
    (h : ∀ a ∈ as, ∀ s, f s a = .ok (step s a)) (s : σ) :
    as.foldlM f s = .ok (as.foldl step s) := by
  induction as generalizing s with
  | nil => rfl
  | cons a as ih =>
    rw [List.foldlM_cons, h a List.mem_cons_self s, List.foldl_cons]
    exact ih (fun b hb => h b (List.mem_cons_of_mem _ hb)) _

/-- A loop one of whose steps raises whatever the state: it raises, and what it
raises is raised by a step. -/
theorem foldlM_of_error {as : List α} {a : α} (ha : a ∈ as) (h : ∀ s, ∃ exc, f s a = .error exc)
    (s : σ) : ∃ exc, as.foldlM f s = .error exc ∧ ∃ b ∈ as, ∃ s', f s' b = .error exc := by
  induction as generalizing s with
  | nil => cases ha
  | cons b as ih =>
    rw [List.foldlM_cons]
    cases hb : f s b with
    | error exc => exact ⟨exc, rfl, b, List.mem_cons_self, s, hb⟩
    | ok t =>
      rcases List.mem_cons.mp ha with rfl | ha
      · obtain ⟨exc, hexc⟩ := h s
        rw [hb] at hexc
        cases hexc
      · obtain ⟨exc, hexc, c, hc, s', hs'⟩ := ih ha t
        exact ⟨exc, hexc, c, List.mem_cons_of_mem _ hc, s', hs'⟩

end TxLookup.Library

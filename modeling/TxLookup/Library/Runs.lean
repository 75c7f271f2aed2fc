import Mathlib.Data.List.Induction

/-!
# Runs of a partial step function

A run is a list of actions, each enabled in the state it meets. A condition on
single steps is a predicate on the state before the step and the action; an
invariant preserved by the steps that meet it holds after every run of them.
The last section is about total steps, where a run is a fold.
-/
namespace TxLookup.Library.Runs

variable {σ α : Type*}

/-- The state after the actions, `none` if one of them is not enabled. -/
def runAll (step : σ → α → Option σ) : σ → List α → Option σ
  | s, [] => some s
  | s, a :: as =>
    match step s a with
    | some s' => runAll step s' as
    | none => none

/-- Every step of the run meets the condition. -/
def Meets (step : σ → α → Option σ) (ok : σ → α → Prop) : σ → List α → Prop
  | _, [] => True
  | s, a :: as => ok s a ∧
    match step s a with
    | some s' => Meets step ok s' as
    | none => True

def decideMeets (step : σ → α → Option σ) (ok : σ → α → Prop) [∀ s a, Decidable (ok s a)] :
    ∀ s as, Decidable (Meets step ok s as)
  | _, [] => .isTrue trivial
  | s, a :: as =>
    have _ : Decidable (match step s a with
        | some s' => Meets step ok s' as
        | none => True) :=
      match step s a with
      | some s' => decideMeets step ok s' as
      | none => .isTrue trivial
    inferInstanceAs (Decidable (_ ∧ _))

instance (step : σ → α → Option σ) (ok : σ → α → Prop) [∀ s a, Decidable (ok s a)] (s : σ)
    (as : List α) : Decidable (Meets step ok s as) := decideMeets step ok s as

variable {step : σ → α → Option σ} {ok : σ → α → Prop} {inv : σ → Prop}

theorem runAll_cons {s s' : σ} {a : α} {as : List α} (h : runAll step s (a :: as) = some s') :
    ∃ t, step s a = some t ∧ runAll step t as = some s' := by
  rw [runAll] at h
  cases hs : step s a with
  | none => rw [hs] at h; cases h
  | some t => rw [hs] at h; exact ⟨t, rfl, h⟩

theorem runAll_of_step {s t : σ} {a : α} (h : step s a = some t) (as : List α) :
    runAll step s (a :: as) = runAll step t as := by
  rw [runAll, h]

/-- Steps that meet the condition and keep the invariant keep it along a run. -/
theorem invariant_of_run (hstep : ∀ s a s', inv s → ok s a → step s a = some s' → inv s')
    {as : List α} {s s' : σ} (hinv : inv s) (hok : Meets step ok s as)
    (hrun : runAll step s as = some s') : inv s' := by
  induction as generalizing s with
  | nil =>
    obtain rfl := Option.some.inj hrun
    exact hinv
  | cons a as ih =>
    obtain ⟨t, ht, hrest⟩ := runAll_cons hrun
    obtain ⟨ha, hmeets⟩ := hok
    rw [ht] at hmeets
    exact ih (hstep s a t hinv ha ht) hmeets hrest

/-- A condition that every action meets in every state. -/
theorem meets_of_forall {as : List α} (h : ∀ a ∈ as, ∀ s, ok s a) (s : σ) : Meets step ok s as := by
  induction as generalizing s with
  | nil => trivial
  | cons a as ih =>
    refine ⟨h a List.mem_cons_self s, ?_⟩
    cases step s a with
    | none => trivial
    | some t => exact ih (fun b hb => h b (List.mem_cons_of_mem a hb)) t

/-- What every step keeps holds after every run. -/
theorem invariant_of_steps (hstep : ∀ s a s', inv s → step s a = some s' → inv s') {as : List α}
    {s s' : σ} (hinv : inv s) (hrun : runAll step s as = some s') : inv s' :=
  @invariant_of_run σ α step (fun _ _ => True) inv (fun s a s' h _ => hstep s a s' h) as s s' hinv
    (meets_of_forall (fun _ _ _ => trivial) s) hrun

/-! ## Total steps -/

/-- Every step of a run of a total step function meets the condition. -/
abbrev Along (f : σ → α → σ) (ok : σ → α → Prop) (s : σ) (as : List α) : Prop :=
  Meets (fun s a => some (f s a)) ok s as

variable {f : σ → α → σ}

theorem along_append {s : σ} {as bs : List α} :
    Along f ok s (as ++ bs) ↔ Along f ok s as ∧ Along f ok (as.foldl f s) bs := by
  induction as generalizing s with
  | nil => exact ⟨fun h => ⟨trivial, h⟩, fun h => h.2⟩
  | cons a as ih =>
    change (ok s a ∧ Along f ok (f s a) (as ++ bs)) ↔ (ok s a ∧ Along f ok (f s a) as) ∧ _
    rw [ih, and_assoc]
    rfl

theorem along_concat {s : σ} {as : List α} {a : α} :
    Along f ok s (as ++ [a]) ↔ Along f ok s as ∧ ok (as.foldl f s) a := by
  rw [along_append]
  exact and_congr_right fun _ => ⟨fun h => h.1, fun h => ⟨h, trivial⟩⟩

/-- The condition speaks of each prefix of the run and the action after it. -/
theorem along_iff {s : σ} {as : List α} :
    Along f ok s as ↔ ∀ pre a post, as = pre ++ a :: post → ok (pre.foldl f s) a := by
  constructor
  · rintro h pre a post rfl
    exact (along_append.mp h).2.1
  · intro h
    induction as using List.reverseRecOn with
    | nil => trivial
    | append_singleton as a ih =>
      refine along_concat.mpr ⟨ih fun pre b post hsplit => ?_, h as a [] rfl⟩
      exact h pre b (post ++ [a]) (by rw [hsplit, List.append_assoc, List.cons_append])

/-- Where a step keeps the invariant exactly if it meets the condition, the
invariant holds throughout a run exactly if all its steps meet the condition. -/
theorem always_iff_along {s : σ} {as : List α} (hstart : inv s)
    (hstep : ∀ pre a post, as = pre ++ a :: post → inv (pre.foldl f s) →
      (inv ((pre ++ [a]).foldl f s) ↔ ok (pre.foldl f s) a)) :
    (∀ pre post, as = pre ++ post → inv (pre.foldl f s)) ↔ Along f ok s as := by
  rw [along_iff]
  constructor
  · intro h pre a post hsplit
    refine (hstep pre a post hsplit (h pre (a :: post) hsplit)).mp (h (pre ++ [a]) post ?_)
    rw [hsplit, List.append_cons]
  · intro h pre post hsplit
    induction pre using List.reverseRecOn generalizing post with
    | nil => exact hstart
    | append_singleton pre a ih =>
      have hshort : as = pre ++ a :: post := by
        rw [hsplit, ← List.append_cons]
      exact (hstep pre a post hshort (ih (a :: post) hshort)).mpr (h pre a post hshort)

/-- A reflexive and transitive relation holds between any two moments of a run
exactly if every step keeps it. -/
theorem related_iff_along {R : σ → σ → Prop} (hrefl : ∀ s, R s s)
    (htrans : ∀ s t u, R s t → R t u → R s u) {s : σ} {as : List α} :
    (∀ pre mid post, as = pre ++ mid ++ post → R (pre.foldl f s) ((pre ++ mid).foldl f s)) ↔
      Along f (fun t a => R t (f t a)) s as := by
  rw [along_iff]
  constructor
  · intro h pre a post hsplit
    have hstep := h pre [a] post (by rw [hsplit, List.append_assoc]; rfl)
    rwa [List.foldl_append] at hstep
  · intro h pre mid post hsplit
    induction mid using List.reverseRecOn generalizing post with
    | nil =>
      rw [List.append_nil]
      exact hrefl _
    | append_singleton mid a ih =>
      have hshort : as = pre ++ mid ++ (a :: post) := by
        rw [hsplit, List.append_assoc, List.append_assoc, List.append_assoc]
        rfl
      refine htrans _ _ _ (ih (a :: post) hshort) ?_
      rw [← List.append_assoc, List.foldl_append (l := pre ++ mid)]
      exact h (pre ++ mid) a post hshort

/-! ## Up to the first failure -/

/-- A run that stops at the first element that fails a test treats the elements
before it one way and the others, that element included, another way. -/
theorem forall_splits_iff (p : α → Bool) (before after : α → Prop) (as : List α) :
    (∀ pre a post, as = pre ++ a :: post →
      ((∀ b ∈ pre ++ [a], p b = true) → before a) ∧
        ((¬ ∀ b ∈ pre ++ [a], p b = true) → after a)) ↔
      (∀ a ∈ as.takeWhile p, before a) ∧ ∀ a ∈ as.dropWhile p, after a := by
  induction as with
  | nil => simp
  | cons x as ih =>
    cases hx : p x with
    | true =>
      rw [List.takeWhile_cons_of_pos hx, List.dropWhile_cons_of_pos hx, List.forall_mem_cons,
        and_assoc, ← ih]
      have hcons : ∀ pre a, (∀ b ∈ x :: pre ++ [a], p b = true) ↔
          ∀ b ∈ pre ++ [a], p b = true := by
        intro pre a
        rw [List.cons_append, List.forall_mem_cons, and_iff_right hx]
      constructor
      · intro h
        refine ⟨(h [] x as rfl).1 ?_, fun pre a post hsplit => ?_⟩
        · simpa using hx
        · have hlong := h (x :: pre) a post (by rw [hsplit, List.cons_append])
          rwa [hcons] at hlong
      · rintro ⟨hfirst, hrest⟩ pre a post hsplit
        cases pre with
        | nil =>
          obtain ⟨rfl, -⟩ := List.cons.inj hsplit
          refine ⟨fun _ => hfirst, fun hnot => absurd ?_ hnot⟩
          simpa using hx
        | cons y pre =>
          obtain ⟨rfl, htail⟩ := List.cons.inj hsplit
          rw [hcons]
          exact hrest pre a post htail
    | false =>
      have hx' : ¬ p x = true := by rw [hx]; exact Bool.false_ne_true
      have hmem : ∀ pre a post, x :: as = pre ++ a :: post → x ∈ pre ++ [a] := by
        intro pre a post hsplit
        cases pre with
        | nil => exact List.mem_singleton.mpr (List.cons.inj hsplit).1
        | cons y pre =>
          rw [(List.cons.inj hsplit).1]
          exact List.mem_cons_self
      rw [List.takeWhile_cons_of_neg hx', List.dropWhile_cons_of_neg hx']
      constructor
      · refine fun h => ⟨fun a ha => (List.not_mem_nil ha).elim, fun a ha => ?_⟩
        obtain ⟨pre, post, hsplit⟩ := List.append_of_mem ha
        exact (h pre a post hsplit).2 fun hall => hx' (hall x (hmem pre a post hsplit))
      · rintro ⟨-, hafter⟩ pre a post hsplit
        have ha : a ∈ x :: as := by
          rw [hsplit]
          exact List.mem_append_right _ List.mem_cons_self
        exact ⟨fun hall => absurd (hall x (hmem pre a post hsplit)) hx', fun _ => hafter a ha⟩

end TxLookup.Library.Runs

import Mathlib.Init

/-!
# Transactions that commit or roll back

A session works on its own view of a state. A scope runs a body in a session,
installs the view if the body and the commit succeed, and else restores the
committed state and raises again. A body is described by the faults it can meet
on its way, in order, and by what it does if it meets none.
-/
namespace TxLookup.Library.Transaction

structure Session (σ : Type) where
  committed : σ
  pending : σ

/-- A computation in a session, which returns or raises. -/
def SessionM (σ ε α : Type) : Type := Session σ → Except ε α × Session σ

variable {σ ε α β : Type}

namespace SessionM

instance : Monad (SessionM σ ε) where
  pure a := fun s => (.ok a, s)
  bind m k := fun s =>
    match m s with
    | (.ok a, s') => k a s'
    | (.error exc, s') => (.error exc, s')

/-- A statement, which may raise before it has any effect. -/
def statement (fault : Option ε) (f : σ → α × σ) : SessionM σ ε α := fun s =>
  match fault with
  | some exc => (.error exc, s)
  | none => (.ok (f s.pending).1, { s with pending := (f s.pending).2 })

/-- A statement that only reads. -/
def query (fault : Option ε) (f : σ → α) : SessionM σ ε α := statement fault (fun s => (f s, s))

/-- A statement that only writes. -/
def execute (fault : Option ε) (f : σ → σ) : SessionM σ ε Unit := statement fault (fun s => ((), f s))

/-- A computation outside the database. -/
def ofExcept (x : Except ε α) : SessionM σ ε α := fun s => (x, s)

/-- Run the body, then commit; roll back and raise again if either raises. -/
def scope (commitFault : Option ε) (body : SessionM σ ε α) : SessionM σ ε α := fun s =>
  match body s with
  | (.ok a, s') =>
    match commitFault with
    | none => (.ok a, ⟨s'.pending, s'.pending⟩)
    | some exc => (.error exc, ⟨s'.committed, s'.committed⟩)
  | (.error exc, s') => (.error exc, ⟨s'.committed, s'.committed⟩)

end SessionM

open SessionM

/-- The first call that raises. -/
def firstFault (faults : List (Option ε)) : Option ε := faults.findSome? id

theorem firstFault_append (faults more : List (Option ε)) :
    firstFault (faults ++ more) = (firstFault faults).or (firstFault more) :=
  List.findSome?_append

theorem firstFault_eq_none {faults : List (Option ε)} :
    firstFault faults = none ↔ ∀ fault ∈ faults, fault = none :=
  List.findSome?_eq_none_iff

/-- From the view `v`, the computation raises the first of the faults, or returns
`a` with the view `v'`. It leaves the committed state alone either way. -/
def Does (m : SessionM σ ε α) (v : σ) (faults : List (Option ε)) (a : α) (v' : σ) : Prop :=
  ∀ c, (firstFault faults = none → m ⟨c, v⟩ = (.ok a, ⟨c, v'⟩)) ∧
    ∀ exc, firstFault faults = some exc → ∃ p, m ⟨c, v⟩ = (.error exc, ⟨c, p⟩)

theorem Does.pure (a : α) (v : σ) : Does (pure a : SessionM σ ε α) v [] a v :=
  fun _ => ⟨fun _ => rfl, fun _ h => by cases h⟩

theorem Does.statement (fault : Option ε) (f : σ → α × σ) (v : σ) :
    Does (SessionM.statement fault f) v [fault] (f v).1 (f v).2 := by
  intro c
  cases fault with
  | none => exact ⟨fun _ => rfl, fun _ h => by cases h⟩
  | some exc =>
    refine ⟨(fun h => by cases h), fun _ h => ⟨v, ?_⟩⟩
    cases h
    rfl

theorem Does.query (fault : Option ε) (f : σ → α) (v : σ) :
    Does (SessionM.query fault f) v [fault] (f v) v :=
  Does.statement fault _ v

theorem Does.execute (fault : Option ε) (f : σ → σ) (v : σ) :
    Does (SessionM.execute fault f) v [fault] () (f v) :=
  Does.statement fault _ v

theorem Does.ofOk (a : α) (v : σ) : Does (SessionM.ofExcept (.ok a) : SessionM σ ε α) v [] a v :=
  fun _ => ⟨fun _ => rfl, fun _ h => by cases h⟩

/-- A computation that only raises is a fault of its own. -/
theorem Does.raise {m : SessionM σ ε α} {exc : ε} (h : ∀ s, m s = (.error exc, s)) (a : α)
    (v v' : σ) : Does m v [some exc] a v' := by
  intro c
  refine ⟨(fun hnone => by cases hnone), fun exc' hexc => ⟨v, ?_⟩⟩
  cases hexc
  exact h _

/-- The faults of a sequence are those of its parts. -/
theorem Does.bind {m : SessionM σ ε α} {k : α → SessionM σ ε β} {v v' v'' : σ}
    {faults more : List (Option ε)} {a : α} {b : β} (hm : Does m v faults a v')
    (hk : Does (k a) v' more b v'') : Does (m >>= k) v (faults ++ more) b v'' := by
  intro c
  have hbind : ∀ s, (m >>= k) s = match m s with
      | (.ok a, s') => k a s'
      | (.error exc, s') => (.error exc, s') := fun _ => rfl
  rw [hbind, firstFault_append]
  obtain ⟨hok, herror⟩ := hm c
  cases hfault : firstFault faults with
  | none =>
    rw [hok hfault]
    exact hk c
  | some exc =>
    obtain ⟨p, hp⟩ := herror exc hfault
    rw [hp]
    refine ⟨(fun h => by cases h), fun exc' h => ⟨p, ?_⟩⟩
    cases h
    rfl

/-- A scope commits what its body does, or changes nothing and raises. -/
theorem Does.scope {body : SessionM σ ε α} {v v' : σ} {faults : List (Option ε)} {a : α}
    (h : Does body v faults a v') (commitFault : Option ε) :
    (firstFault (faults ++ [commitFault]) = none →
      SessionM.scope commitFault body ⟨v, v⟩ = (.ok a, ⟨v', v'⟩)) ∧
    ∀ exc, firstFault (faults ++ [commitFault]) = some exc →
      SessionM.scope commitFault body ⟨v, v⟩ = (.error exc, ⟨v, v⟩) := by
  obtain ⟨hok, herror⟩ := h v
  rw [firstFault_append]
  unfold SessionM.scope
  cases hfault : firstFault faults with
  | none =>
    rw [hok hfault]
    cases commitFault with
    | none => exact ⟨fun _ => rfl, fun _ h => by cases h⟩
    | some exc =>
      refine ⟨(fun h => by cases h), fun exc' h => ?_⟩
      cases h
      rfl
  | some exc =>
    obtain ⟨p, hp⟩ := herror exc hfault
    rw [hp]
    refine ⟨(fun h => by cases h), fun exc' h => ?_⟩
    cases h
    rfl

end TxLookup.Library.Transaction

import TxLookup.Consumer.Sessions
import Mathlib.Data.Fintype.Option

/-!
# Pairing under interleaving

A pairing is lost in one of three ways: two transactions of a relation miss each
other's rows, a stale snapshot overwrites a complete pair row, or a complete
snapshot is refused for its earlier stamp. `Benign` excludes exactly these steps
(and the second leg of an empty `related_id`, which is never paired).
-/
namespace TxLookup.Consumer

open Library Library.Runs Db KeyedTable

/-- The rows hold a row of the leg in the relation. -/
def HasLeg (rows : List LedgerEntry) (k : PyStr) (leg : Leg) : Prop :=
  ∃ e ∈ rows, e.relatedId = some k ∧ e.entryType = leg.entryType

instance (rows : List LedgerEntry) (k : PyStr) (leg : Leg) : Decidable (HasLeg rows k leg) :=
  inferInstanceAs (Decidable (∃ e ∈ rows, _))

def PairComplete (db : Database) (k : PyStr) : Prop :=
  ∃ p, db.paymentLedgerPairs.find? k = some p ∧ p.Complete

/-- Every relation with a row of each leg has a complete pair row. -/
def Paired (db : Database) : Prop :=
  ∀ k, (∀ leg : Leg, HasLeg db.ledgerEntries.rows k leg) → PairComplete db k

namespace Phase

/-- The transaction was shown a row of the leg by its SELECT of the entries. -/
def knows (leg : Leg) : Phase → Bool
  | .scanned _ _ entries => entries.any (fun e => e.entryType = leg.entryType)
  | .ordered _ _ snapshot | .guarded _ snapshot | .passed _ (some snapshot) =>
    (leg.tx (pairValues snapshot 0)).isSome
  | .stamped _ values | .wrote _ values => (leg.tx values).isSome
  | _ => false

/-- The transaction has made its SELECT of the entries and is still in flight. -/
def selected : Phase → Bool
  | .scanned .. | .ordered .. | .guarded .. | .stamped .. | .wrote .. | .passed _ (some _) => true
  | _ => false

/-- The transaction has yet to look, or has seen both legs and is writing them. -/
def Covering (phase : Phase) : Prop :=
  (∃ row k, phase = .inserted row k) ∨ phase.selected ∧ ∀ leg, phase.knows leg

end Phase

/-- A pair write neither replaces a complete row by an incomplete one nor fails
to replace an incomplete row by a complete one. -/
def HarmlessWrite (db : Database) (values : PaymentLedgerPair) : Prop :=
  ∀ p ∈ db.paymentLedgerPairs.find? values.paymentOrderId,
    (p.Complete → p.updatedAt ≤ values.updatedAt → values.Complete) ∧
      (values.Complete → p.Complete ∨ p.updatedAt ≤ values.updatedAt)

instance (db : Database) (values : PaymentLedgerPair) : Decidable (HarmlessWrite db values) :=
  inferInstanceAs (Decidable (∀ p ∈ _, _))

namespace Sessions

variable {n : Nat}

/-- The committed ledger rows, or the uncommitted row of a transaction. -/
def rowsOf (s : Sessions n) : Option (Fin n) → List LedgerEntry
  | none => s.committed.ledgerEntries.rows
  | some j => (s.phase j).row.toList

def Covering (s : Sessions n) : Option (Fin n) → Prop
  | none => False
  | some j => (s.phase j).Covering

/-- The step does not start a lost pairing: an empty `related_id` does not get
its second leg, no two transactions miss each other, and no pair write is harmful. -/
def Benign (events : Fin n → LedgerEntryUpserted) (s : Sessions n) (a : Fin n × Statement) : Prop :=
  match a.2, s.phase a.1 with
  | .upsertLedger _, .ready =>
    (events a.1).relatedId = some [] → ∀ leg : Leg, (events a.1).entryType = leg.entryType →
      ∀ w, ¬ HasLeg (s.rowsOf w) [] leg.opposite
  | .selectEntries _, .inserted row k =>
    ∀ leg : Leg, row.entryType = leg.entryType →
      ¬ HasLeg (s.visible a.1).ledgerEntries.rows k leg.opposite →
        ∀ j, (s.phase j).selected = true → HasLeg (s.rowsOf (some j)) k leg.opposite →
          (s.phase j).knows leg = true
  | .upsertPair, .stamped _ values => HarmlessWrite s.committed values
  | _, _ => True

instance (events : Fin n → LedgerEntryUpserted) (s : Sessions n) (a : Fin n × Statement) :
    Decidable (s.Benign events a) := by
  unfold Benign
  split <;> infer_instance

/-- What a statement other than the commit does to its own transaction. -/
inductive Advance (events : Fin n → LedgerEntryUpserted) (s : Sessions n) (i : Fin n) :
    Statement → Phase → Prop where
  | insert {clock k} (hphase : s.phase i = .ready) (ht : pairingTarget (events i) = some k) :
    Advance events s i (.upsertLedger clock) (.inserted (storedEntry (events i) clock) k)
  | insertOnly {clock} (hphase : s.phase i = .ready) (ht : pairingTarget (events i) = none) :
    Advance events s i (.upsertLedger clock) (.passed (storedEntry (events i) clock) none)
  | scan {scan row k} (hphase : s.phase i = .inserted row k) :
    Advance events s i (.selectEntries scan)
      (if (selectRelated scan (s.visible i) k).isEmpty then .passed row none
        else .scanned row k (selectRelated scan (s.visible i) k))
  | order {clock row k entries} (order : Option PaymentOrderSnapshot)
    (hphase : s.phase i = .scanned row k entries) :
    Advance events s i (.selectOrder clock)
      (.ordered row k (computePairing k (entries.map asSnapshot) order clock))
  | guard {row k snapshot} (hphase : s.phase i = .ordered row k snapshot) :
    Advance events s i .selectPair (.guarded row snapshot)
  | refuse {row k snapshot} (hphase : s.phase i = .ordered row k snapshot)
    (hc : snapshot.complete = false) :
    Advance events s i .selectPair (.passed row (some { snapshot with skipped := true }))
  | stamp {clock row snapshot} (hphase : s.phase i = .guarded row snapshot) :
    Advance events s i (.readClock clock) (.stamped row (pairValues snapshot clock))
  | write {row values} (hphase : s.phase i = .stamped row values)
    (hfree : ¬ s.LockedElsewhere i values.paymentOrderId) :
    Advance events s i .upsertPair (.wrote row values)

/-- A commit installs the ledger row and, if there is one, the pair row. -/
inductive Commits (s : Sessions n) (i : Fin n) : Database → Prop where
  | row {row snapshot} (hphase : s.phase i = .passed row snapshot) :
    Commits s i (withRow s.committed row)
  | pair {row values} (hphase : s.phase i = .wrote row values) :
    Commits s i { withRow s.committed row with
      paymentLedgerPairs :=
        upsertRow paymentLedgerPairs values s.committed.paymentLedgerPairs }

/-- Everything a step can do. -/
theorem step_cases {events : Fin n → LedgerEntryUpserted} {s s' : Sessions n} {i : Fin n}
    {statement : Statement} (h : step events s (i, statement) = some s') :
    (∃ clock phase, Advance events s i statement phase ∧ s' = s.move i clock phase) ∨
      ∃ db, statement = .commit ∧ Commits s i db ∧
        s' = { s.enter i .committed with committed := db } := by
  have hread : ∀ {clock phase}, s.readAt clock (s.enter i phase) = some s' →
      s' = s.move i clock phase := fun h => (readAt_eq_some.mp h).2.symm
  have henter : ∀ phase, s.enter i phase = s.move i s.now phase := fun _ => rfl
  unfold step at h
  simp only at h
  split at h
  · rename_i clock hphase
    cases ht : pairingTarget (events i) with
    | none =>
      rw [ht] at h
      exact Or.inl ⟨_, _, .insertOnly hphase ht, hread h⟩
    | some k =>
      rw [ht] at h
      exact Or.inl ⟨_, _, .insert hphase ht, hread h⟩
  · rename_i scan row k hphase
    exact Or.inl ⟨_, _, .scan hphase, (Option.some.inj h).symm.trans (henter _)⟩
  · rename_i clock row k entries hphase
    exact Or.inl ⟨_, _, .order _ hphase, hread h⟩
  · rename_i row k snapshot hphase
    have hs := (Option.some.inj h).symm.trans (henter _)
    by_cases hu : shouldUpdatePair (existingComplete
        ((s.visible i).paymentLedgerPairs.find? k)) snapshot.complete = true
    · rw [if_pos hu] at hs
      exact Or.inl ⟨_, _, .guard hphase, hs⟩
    · rw [if_neg hu] at hs
      rw [shouldUpdatePair_iff, Classical.not_imp, Bool.not_eq_true] at hu
      exact Or.inl ⟨_, _, .refuse hphase hu.2, hs⟩
  · rename_i clock row snapshot hphase
    exact Or.inl ⟨_, _, .stamp hphase, hread h⟩
  · rename_i row values hphase
    split at h
    · cases h
    · rename_i hfree
      exact Or.inl ⟨_, _, .write hphase hfree, (Option.some.inj h).symm.trans (henter _)⟩
  · rename_i row values hphase
    exact Or.inr ⟨_, rfl, .pair hphase, (Option.some.inj h).symm⟩
  · rename_i row snapshot hphase
    exact Or.inr ⟨_, rfl, .row hphase, (Option.some.inj h).symm⟩
  · cases h

end Sessions

end TxLookup.Consumer

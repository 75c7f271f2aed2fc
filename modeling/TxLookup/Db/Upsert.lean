import TxLookup.Db.Columns
import TxLookup.Library.KeyedTable
import TxLookup.Library.SqlLogic

/-!
# `latest_wins_upsert`

The statement is built from the columns the table has: the predicate exists only
for tables with an update and an ingestion stamp, and reads versions only where
there is a version column. `ledger_entries` and `payment_orders` have all three,
`payment_ledger_pairs` has no version.
-/
namespace TxLookup.Db

open Library Library.SqlLogic

/-- The metadata columns a table may have; `none` is an absent column. -/
structure Columns (ρ : Type) where
  updatedAt : Option (ρ → Option DateTime)
  sourceVersion : Option (ρ → Option Int)
  ingestedAt : Option (ρ → Option DateTime)

/-- The WHERE predicate over the proposed row (`excluded`) and the stored row. -/
def Columns.predicate {ρ : Type} (c : Columns ρ) : Option (ρ → ρ → Truth) :=
  match c.updatedAt, c.ingestedAt with
  | some updatedAt, some ingestedAt => some fun excluded existing =>
    let updatedCondition :=
      conj [isNotNull (updatedAt excluded),
        disj [isNull (updatedAt existing), ge (updatedAt excluded) (updatedAt existing)]]
    let versionConditions := match c.sourceVersion with
      | some version =>
        [conj [isNull (updatedAt excluded), isNotNull (version excluded),
          disj [isNull (version existing), ge (version excluded) (version existing)]]]
      | none => []
    let incomingVersion := match c.sourceVersion with
      | some version => [isNull (version excluded)]
      | none => []
    let existingVersion := match c.sourceVersion with
      | some version => [isNull (version existing)]
      | none => []
    let fallbackChecks :=
      [isNull (updatedAt excluded)] ++ incomingVersion ++ [isNull (updatedAt existing)] ++
        existingVersion ++ [ge (ingestedAt excluded) (ingestedAt existing)]
    disj ([updatedCondition] ++ versionConditions ++ [conj fallbackChecks])
  | _, _ => none

structure TableDef (ρ : Type) where
  key : ρ → PyStr
  columns : Columns ρ

/-- Whether a conflicting insert overwrites the stored row. -/
def TableDef.wins {ρ : Type} (T : TableDef ρ) (excluded existing : ρ) : Bool :=
  match T.columns.predicate with
  | some p => holds (p excluded existing)
  | none => true

abbrev TableDef.Table {ρ : Type} (T : TableDef ρ) := KeyedTable T.key

/-- What `INSERT … ON CONFLICT DO UPDATE` of all other columns under the predicate
does with a row whose values are as the columns hold them. -/
def upsertRow {ρ : Type} (T : TableDef ρ) (row : ρ) (t : T.Table) : T.Table :=
  t.upsert T.wins row

def ledgerEntries : TableDef LedgerEntry where
  key := LedgerEntry.txId
  columns :=
    { updatedAt := some LedgerEntry.updatedAt
      sourceVersion := some LedgerEntry.sourceVersion
      ingestedAt := some fun r => some r.ingestedAt }

def paymentOrders : TableDef PaymentOrder where
  key := PaymentOrder.orderId
  columns :=
    { updatedAt := some PaymentOrder.updatedAt
      sourceVersion := some PaymentOrder.sourceVersion
      ingestedAt := some fun r => some r.ingestedAt }

def paymentLedgerPairs : TableDef PaymentLedgerPair where
  key := PaymentLedgerPair.paymentOrderId
  columns :=
    { updatedAt := some fun r => some r.updatedAt
      sourceVersion := none
      ingestedAt := some fun r => some r.ingestedAt }

/-- The two business tables the consumer writes and the table it derives. -/
structure Database where
  ledgerEntries : ledgerEntries.Table
  paymentOrders : paymentOrders.Table
  paymentLedgerPairs : paymentLedgerPairs.Table

def Database.empty : Database := ⟨KeyedTable.empty, KeyedTable.empty, KeyedTable.empty⟩

/-! ## What the predicate decides -/

/-- The metadata of a row of a versioned table. -/
structure Stamp where
  updatedAt : Option DateTime
  sourceVersion : Option Int
  ingestedAt : DateTime
  deriving DecidableEq, Repr

namespace Stamp

/-- The three priorities: the update stamp first, then the version, and the
ingestion time only between two rows without any metadata. -/
def replaces (new old : Stamp) : Bool :=
  match new.updatedAt, new.sourceVersion with
  | some u, _ => old.updatedAt.all (· ≤ u)
  | none, some v => old.sourceVersion.all (· ≤ v)
  | none, none =>
    old.updatedAt.isNone && old.sourceVersion.isNone && decide (old.ingestedAt ≤ new.ingestedAt)

/-- The row carries an update stamp or a version. -/
def versioned (s : Stamp) : Bool := s.updatedAt.isSome || s.sourceVersion.isSome

end Stamp

theorem predicate_versioned {ρ : Type} (u : ρ → Option DateTime) (v : ρ → Option Int)
    (i : ρ → DateTime) (T : TableDef ρ)
    (hT : T.columns = ⟨some u, some v, some fun r => some (i r)⟩) (new old : ρ) :
    T.wins new old = (Stamp.mk (u new) (v new) (i new)).replaces ⟨u old, v old, i old⟩ := by
  simp only [TableDef.wins, hT, Columns.predicate, Stamp.replaces]
  cases hu : u new <;> cases hv : v new <;> cases hu' : u old <;> cases hv' : v old <;>
    simp [isNull, isNotNull, ge]

/-- A pair row is overwritten exactly by a row stamped no earlier. -/
theorem paymentLedgerPairs_wins (new old : PaymentLedgerPair) :
    paymentLedgerPairs.wins new old = decide (old.updatedAt ≤ new.updatedAt) := by
  by_cases h : old.updatedAt ≤ new.updatedAt <;>
    simp [TableDef.wins, paymentLedgerPairs, Columns.predicate, isNull, isNotNull, ge, h]

/-- What the pair table holds for the key of an upserted row: the stored row if
that is stamped later, else the new one. -/
theorem upsert_pair_cases (values : PaymentLedgerPair) (t : paymentLedgerPairs.Table) :
    (∃ p, t.find? values.paymentOrderId = some p ∧ values.updatedAt < p.updatedAt ∧
      (upsertRow paymentLedgerPairs values t).find? values.paymentOrderId = some p) ∨
    ((∀ p, t.find? values.paymentOrderId = some p → p.updatedAt ≤ values.updatedAt) ∧
      (upsertRow paymentLedgerPairs values t).find? values.paymentOrderId =
        some values) := by
  have hoffer : (upsertRow paymentLedgerPairs values t).find? values.paymentOrderId =
      Settle.offer paymentLedgerPairs.wins (t.find? values.paymentOrderId) values :=
    KeyedTable.find?_upsert_self paymentLedgerPairs.wins values t
  rw [hoffer]
  cases hp : t.find? values.paymentOrderId with
  | none =>
    refine Or.inr ⟨fun p h => ?_, rfl⟩
    cases h
  | some p =>
    have hwins := paymentLedgerPairs_wins values p
    by_cases hle : p.updatedAt ≤ values.updatedAt
    · refine Or.inr ⟨fun p' h => ?_, ?_⟩
      · rw [← Option.some.inj h]
        exact hle
      · rw [Settle.offer, if_pos (hwins.trans (decide_eq_true hle))]
    · have hloses := hwins.trans (decide_eq_false hle)
      refine Or.inl ⟨p, rfl, not_le.mp hle, ?_⟩
      simp only [Settle.offer, hloses, Bool.false_eq_true, if_false]

/-- A table whose rows carry all three kinds of metadata. `restamp` changes the
ingestion time alone, and the columns hold keys and metadata as they are. -/
structure StampedTable (ρ : Type) extends TableDef ρ where
  stamp : ρ → Stamp
  restamp : DateTime → ρ → ρ
  accepted : ρ → Bool
  held : ρ → ρ
  wins_stamp : ∀ new old, toTableDef.wins new old = (stamp new).replaces (stamp old)
  key_restamp : ∀ t r, key (restamp t r) = key r
  stamp_restamp : ∀ t r, stamp (restamp t r) = { stamp r with ingestedAt := t }
  restamp_restamp : ∀ t t' r, restamp t (restamp t' r) = restamp t r
  key_held : ∀ r, key (held r) = key r
  stamp_held : ∀ r, stamp (held r) = stamp r

/-- The business columns: every column but the ingestion time. -/
def StampedTable.business {ρ : Type} (T : StampedTable ρ) (r : ρ) : ρ := T.restamp 0 r

/-- The statement on the values of the caller: the columns convert them, and one
that a column refuses makes the statement raise, which is `none`. -/
def latestWinsUpsert {ρ : Type} (T : StampedTable ρ) (values : ρ) (t : T.Table) :
    Option T.Table :=
  if T.accepted values = true then some (upsertRow T.toTableDef (T.held values) t) else none

def ledgerEntriesStamped : StampedTable LedgerEntry where
  toTableDef := ledgerEntries
  stamp r := ⟨r.updatedAt, r.sourceVersion, r.ingestedAt⟩
  restamp t r := { r with ingestedAt := t }
  accepted := LedgerEntry.accepted
  held := LedgerEntry.held
  wins_stamp := predicate_versioned _ _ _ ledgerEntries rfl
  key_restamp _ _ := rfl
  stamp_restamp _ _ := rfl
  restamp_restamp _ _ _ := rfl
  key_held _ := rfl
  stamp_held _ := rfl

def paymentOrdersStamped : StampedTable PaymentOrder where
  toTableDef := paymentOrders
  stamp r := ⟨r.updatedAt, r.sourceVersion, r.ingestedAt⟩
  restamp t r := { r with ingestedAt := t }
  accepted := PaymentOrder.accepted
  held := PaymentOrder.held
  wins_stamp := predicate_versioned _ _ _ paymentOrders rfl
  key_restamp _ _ := rfl
  stamp_restamp _ _ := rfl
  restamp_restamp _ _ _ := rfl
  key_held _ := rfl
  stamp_held _ := rfl

end TxLookup.Db

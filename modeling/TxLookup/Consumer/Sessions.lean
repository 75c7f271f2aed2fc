import TxLookup.Consumer.PairRow
import TxLookup.Library.Runs

/-!
# Concurrent sessions under READ COMMITTED

Each of `n` transactions processes one ledger event, and the statements of
different transactions interleave. A statement sees the committed rows and the
transaction's own ledger row; the pair upsert waits while another transaction
holds the pair row, so what it decides at the statement is still what holds at
the commit, where the writes are installed. The transactions write different
`tx_id`s, so their ledger statements never wait for each other.
-/
namespace TxLookup.Consumer

open Library Db KeyedTable

/-- Where a transaction stands between two statements, with its ledger row and
what it remembers. -/
inductive Phase where
  | ready
  | inserted (row : LedgerEntry) (relatedId : PyStr)
  | scanned (row : LedgerEntry) (relatedId : PyStr) (entries : List LedgerEntry)
  | ordered (row : LedgerEntry) (relatedId : PyStr) (snapshot : PairingSnapshot)
  | guarded (row : LedgerEntry) (snapshot : PairingSnapshot)
  | stamped (row : LedgerEntry) (values : PaymentLedgerPair)
  | wrote (row : LedgerEntry) (values : PaymentLedgerPair)
  /-- No pair write is left: there was no target, or the guard refused. -/
  | passed (row : LedgerEntry) (snapshot : Option PairingSnapshot)
  | committed
  deriving DecidableEq

namespace Phase

/-- The ledger row the transaction has written and not yet committed. -/
def row : Phase → Option LedgerEntry
  | .inserted row _ | .scanned row _ _ | .ordered row _ _ | .guarded row _ | .stamped row _
  | .wrote row _ | .passed row _ => some row
  | .ready | .committed => none

/-- The pair row the transaction holds. -/
def lock : Phase → Option PyStr
  | .wrote _ values => some values.paymentOrderId
  | _ => none

end Phase

/-- The committed database, the last clock reading and the transactions. -/
structure Sessions (n : Nat) where
  committed : Database
  now : DateTime
  phase : Fin n → Phase

/-- The statements of `upsert_ledger_entry` in one session. Three of them take a
clock reading first, one leaves the row order to the database. -/
inductive Statement where
  | upsertLedger (clock : DateTime)
  | selectEntries (scan : ScanOrder)
  | selectOrder (clock : DateTime)
  | selectPair
  | readClock (clock : DateTime)
  | upsertPair
  | commit

namespace Sessions

variable {n : Nat}

def enter (s : Sessions n) (i : Fin n) (phase : Phase) : Sessions n :=
  { s with phase := fun j => if j = i then phase else s.phase j }

/-- A clock reading, which is never earlier than the one before. -/
def readAt (s : Sessions n) (clock : DateTime) (next : Sessions n) : Option (Sessions n) :=
  if s.now ≤ clock then some { next with now := clock } else none

/-- What a statement of the transaction sees. -/
def visible (s : Sessions n) (i : Fin n) : Database :=
  match (s.phase i).row with
  | some row =>
    { s.committed with
      ledgerEntries := upsertRow ledgerEntries row s.committed.ledgerEntries }
  | none => s.committed

def LockedElsewhere (s : Sessions n) (i : Fin n) (relatedId : PyStr) : Prop :=
  ∃ j, j ≠ i ∧ (s.phase j).lock = some relatedId

instance (s : Sessions n) (i : Fin n) (relatedId : PyStr) :
    Decidable (s.LockedElsewhere i relatedId) :=
  inferInstanceAs (Decidable (∃ _, _))

/-- One statement; `none` when it is not the transaction's next one, waits for a
lock, or would read an earlier clock. -/
def step (events : Fin n → LedgerEntryUpserted) (s : Sessions n) (a : Fin n × Statement) :
    Option (Sessions n) :=
  let i := a.1
  match a.2, s.phase i with
  | .upsertLedger clock, .ready =>
    let row := storedEntry (events i) clock
    s.readAt clock (s.enter i (match pairingTarget (events i) with
      | some relatedId => .inserted row relatedId
      | none => .passed row none))
  | .selectEntries scan, .inserted row relatedId =>
    let entries := selectRelated scan (s.visible i) relatedId
    some (s.enter i (if entries.isEmpty then .passed row none else .scanned row relatedId entries))
  | .selectOrder clock, .scanned row relatedId entries =>
    let paymentOrder := (s.visible i).paymentOrders.find? relatedId
    let snapshot := computePairing relatedId (entries.map asSnapshot)
      (paymentOrder.map orderSnapshot) clock
    s.readAt clock (s.enter i (.ordered row relatedId snapshot))
  | .selectPair, .ordered row relatedId snapshot =>
    let existingPair := (s.visible i).paymentLedgerPairs.find? relatedId
    some (s.enter i
      (if shouldUpdatePair (existingComplete existingPair) snapshot.complete
        then .guarded row snapshot
        else .passed row (some { snapshot with skipped := true })))
  | .readClock clock, .guarded row snapshot =>
    s.readAt clock (s.enter i (.stamped row (pairValues snapshot clock)))
  | .upsertPair, .stamped row values =>
    if s.LockedElsewhere i values.paymentOrderId then none
    else some (s.enter i (.wrote row values))
  | .commit, .wrote row values =>
    some { s.enter i .committed with
      committed :=
        { s.committed with
          ledgerEntries := upsertRow ledgerEntries row s.committed.ledgerEntries
          paymentLedgerPairs :=
            upsertRow paymentLedgerPairs values s.committed.paymentLedgerPairs } }
  | .commit, .passed row _ =>
    some { s.enter i .committed with
      committed :=
        { s.committed with
          ledgerEntries := upsertRow ledgerEntries row s.committed.ledgerEntries } }
  | _, _ => none

/-- All sessions are open and nothing has been executed. -/
def start (n : Nat) (db : Database) (now : DateTime) : Sessions n where
  committed := db
  now := now
  phase := fun _ => .ready

@[simp] theorem enter_phase_self (s : Sessions n) (i : Fin n) (phase : Phase) :
    (s.enter i phase).phase i = phase := if_pos rfl

@[simp] theorem enter_phase_ne (s : Sessions n) {i j : Fin n} (h : j ≠ i) (phase : Phase) :
    (s.enter i phase).phase j = s.phase j := if_neg h

@[simp] theorem enter_committed (s : Sessions n) (i : Fin n) (phase : Phase) :
    (s.enter i phase).committed = s.committed := rfl

@[simp] theorem enter_now (s : Sessions n) (i : Fin n) (phase : Phase) :
    (s.enter i phase).now = s.now := rfl

theorem readAt_eq_some {s next s' : Sessions n} {clock : DateTime} :
    s.readAt clock next = some s' ↔ s.now ≤ clock ∧ { next with now := clock } = s' := by
  unfold readAt
  split
  · rename_i h
    simp [h]
  · rename_i h
    simp [h]

/-! ## A transaction that runs alone -/

open Library.Runs

/-- The statements of one session in which nothing is skipped. -/
def script (env : Surroundings) : List Statement :=
  [.upsertLedger env.ingestedNow, .selectEntries env.scan, .selectOrder env.computeNow,
    .selectPair, .readClock env.pairNow, .upsertPair, .commit]

/-- The sessions after statements of transaction `i` alone. -/
def move (s : Sessions n) (i : Fin n) (clock : DateTime) (phase : Phase) : Sessions n :=
  { s.enter i phase with now := clock }

theorem move_enter (s : Sessions n) (i : Fin n) (clock : DateTime) (phase phase' : Phase) :
    (s.move i clock phase).enter i phase' = s.move i clock phase' := by
  have h : ∀ j, (if j = i then phase' else if j = i then phase else s.phase j) =
      if j = i then phase' else s.phase j := by
    intro j
    split <;> rfl
  simp only [move, enter, h]

theorem readAt_move {s : Sessions n} {i : Fin n} {clock clock' : DateTime} {phase phase' : Phase}
    (h : clock ≤ clock') : (s.move i clock phase).readAt clock' (s.move i clock phase') =
      some (s.move i clock' phase') :=
  if_pos h

theorem move_phase (s : Sessions n) (i : Fin n) (clock : DateTime) (phase : Phase) :
    (s.move i clock phase).phase i = phase := if_pos rfl

section
variable (events : Fin n → LedgerEntryUpserted) (s : Sessions n) (i : Fin n)

/-- From a phase, the statements lead transaction `i` alone to a commit that
leaves the database `db`. -/
def Finishes (clock : DateTime) (phase : Phase) (statements : List Statement) (db : Database) :
    Prop :=
  ∃ s', runAll (step events) (s.move i clock phase) (statements.map (fun st => (i, st))) = some s' ∧
    s'.committed = db ∧ s'.phase i = .committed ∧ ∀ j, j ≠ i → s'.phase j = s.phase j

variable {events s i}

theorem finishes_cons {clock clock' : DateTime} {phase phase' : Phase} {statement : Statement}
    {statements : List Statement} {db : Database}
    (h : step events (s.move i clock phase) (i, statement) = some (s.move i clock' phase'))
    (hrest : Finishes events s i clock' phase' statements db) :
    Finishes events s i clock phase (statement :: statements) db := by
  obtain ⟨s', hrun, hdone⟩ := hrest
  refine ⟨s', ?_, hdone⟩
  rw [List.map_cons, runAll_of_step h]
  exact hrun

/-- The database with the ledger row of the transaction. -/
def withRow (db : Database) (row : LedgerEntry) : Database :=
  { db with ledgerEntries := upsertRow ledgerEntries row db.ledgerEntries }

theorem finishes_passed (clock : DateTime) (row : LedgerEntry)
    (snapshot : Option PairingSnapshot) :
    Finishes events s i clock (.passed row snapshot) [.commit] (withRow s.committed row) := by
  refine ⟨{ (s.move i clock .committed) with committed := withRow s.committed row }, ?_, rfl,
    move_phase s i clock .committed, fun j hj => if_neg hj⟩
  simp only [List.map_cons, List.map_nil, runAll, step, move_phase, move_enter]
  rfl

theorem finishes_wrote (clock : DateTime) (row : LedgerEntry) (values : PaymentLedgerPair) :
    Finishes events s i clock (.wrote row values) [.commit]
      { withRow s.committed row with
        paymentLedgerPairs :=
          upsertRow paymentLedgerPairs values s.committed.paymentLedgerPairs } := by
  refine ⟨{ (s.move i clock .committed) with committed := _ }, ?_, rfl,
    move_phase s i clock .committed, fun j hj => if_neg hj⟩
  simp only [List.map_cons, List.map_nil, runAll, step, move_phase, move_enter]
  rfl

theorem visible_move (clock : DateTime) {phase : Phase} {row : LedgerEntry}
    (h : phase.row = some row) : (s.move i clock phase).visible i = withRow s.committed row := by
  unfold visible
  rw [move_phase, h]
  rfl

/-- Once the ledger row is written, the rest of the transaction is the pairing step. -/
theorem finishes_pairing {row : LedgerEntry} {k : PyStr} (env : Surroundings)
    (h₂ : env.ingestedNow ≤ env.computeNow) (h₃ : env.computeNow ≤ env.pairNow)
    (hlock : ¬ s.LockedElsewhere i k) :
    ∃ statements, statements.Sublist (script env).tail ∧
      Finishes events s i env.ingestedNow (.inserted row k) statements
        (updatePairingForRelatedId env k (withRow s.committed row)).1 := by
  have hentries : step events (s.move i env.ingestedNow (.inserted row k))
      (i, .selectEntries env.scan) = some (s.move i env.ingestedNow
        (if (selectRelated env.scan (withRow s.committed row) k).isEmpty then .passed row none
          else .scanned row k (selectRelated env.scan (withRow s.committed row) k))) := by
    simp only [step, move_phase, move_enter]
    rw [visible_move _ rfl]
  unfold updatePairingForRelatedId
  simp only
  by_cases hempty : (selectRelated env.scan (withRow s.committed row) k).isEmpty = true
  · rw [if_pos hempty] at hentries ⊢
    exact ⟨[.selectEntries env.scan, .commit], by simp [script],
      finishes_cons hentries (finishes_passed _ _ _)⟩
  rw [if_neg hempty] at hentries ⊢
  have horder : ∀ entries, step events (s.move i env.ingestedNow (.scanned row k entries))
      (i, .selectOrder env.computeNow) = some (s.move i env.computeNow (.ordered row k
        (computePairing k (entries.map asSnapshot)
          (((withRow s.committed row).paymentOrders.find? k).map orderSnapshot)
          env.computeNow))) := by
    intro entries
    simp only [step, move_phase, move_enter]
    rw [visible_move _ rfl]
    exact readAt_move h₂
  have hguard : ∀ snapshot, step events (s.move i env.computeNow (.ordered row k snapshot))
      (i, .selectPair) = some (s.move i env.computeNow
        (if shouldUpdatePair (existingComplete
            ((withRow s.committed row).paymentLedgerPairs.find? k)) snapshot.complete
          then .guarded row snapshot else .passed row (some { snapshot with skipped := true }))) := by
    intro snapshot
    simp only [step, move_phase, move_enter]
    rw [visible_move _ rfl]
  have hclock : ∀ snapshot, step events (s.move i env.computeNow (.guarded row snapshot))
      (i, .readClock env.pairNow) =
        some (s.move i env.pairNow (.stamped row (pairValues snapshot env.pairNow))) := by
    intro snapshot
    simp only [step, move_phase, move_enter]
    exact readAt_move h₃
  have hwrite : ∀ values : PaymentLedgerPair, values.paymentOrderId = k →
      step events (s.move i env.pairNow (.stamped row values)) (i, .upsertPair) =
        some (s.move i env.pairNow (.wrote row values)) := by
    intro values hk
    have hfree : ¬ (s.move i env.pairNow (.stamped row values)).LockedElsewhere i
        values.paymentOrderId := by
      rintro ⟨j, hj, hl⟩
      refine hlock ⟨j, hj, ?_⟩
      rw [← hk, ← hl]
      exact congrArg Phase.lock (if_neg hj).symm
    simp only [step, move_phase, move_enter]
    exact if_neg hfree
  by_cases hupdate : shouldUpdatePair
      (existingComplete ((withRow s.committed row).paymentLedgerPairs.find? k))
      (computePairing k ((selectRelated env.scan (withRow s.committed row) k).map asSnapshot)
        (((withRow s.committed row).paymentOrders.find? k).map orderSnapshot)
        env.computeNow).complete = true
  · have hguard := hguard (computePairing k
      ((selectRelated env.scan (withRow s.committed row) k).map asSnapshot)
      (((withRow s.committed row).paymentOrders.find? k).map orderSnapshot) env.computeNow)
    rw [if_pos hupdate] at hguard ⊢
    exact ⟨(script env).tail, List.Sublist.refl _, finishes_cons hentries (finishes_cons (horder _)
      (finishes_cons hguard (finishes_cons (hclock _) (finishes_cons (hwrite _ rfl)
        (finishes_wrote _ _ _)))))⟩
  · have hguard := hguard (computePairing k
      ((selectRelated env.scan (withRow s.committed row) k).map asSnapshot)
      (((withRow s.committed row).paymentOrders.find? k).map orderSnapshot) env.computeNow)
    rw [if_neg hupdate] at hguard ⊢
    exact ⟨[.selectEntries env.scan, .selectOrder env.computeNow, .selectPair, .commit],
      by simp [script], finishes_cons hentries (finishes_cons (horder _)
        (finishes_cons hguard (finishes_passed _ _ _)))⟩

end

/-- Uninterrupted, a transaction does what one call does to the committed database. -/
theorem alone_refines_call (events : Fin n → LedgerEntryUpserted) (s : Sessions n) (i : Fin n)
    (env : Surroundings) (hready : s.phase i = .ready) (h₁ : s.now ≤ env.ingestedNow)
    (h₂ : env.ingestedNow ≤ env.computeNow) (h₃ : env.computeNow ≤ env.pairNow)
    (hlock : ∀ k, pairingTarget (events i) = some k → ¬ s.LockedElsewhere i k) :
    ∃ statements : List Statement, statements.Sublist (script env) ∧
      ∃ s', runAll (step events) s (statements.map (fun st => (i, st))) = some s' ∧
        s'.committed = Call.apply s.committed ⟨.ledger (events i), env⟩ ∧
        s'.phase i = .committed ∧ ∀ j, j ≠ i → s'.phase j = s.phase j := by
  have hfirst : step events s (i, .upsertLedger env.ingestedNow) =
      some (s.move i env.ingestedNow (match pairingTarget (events i) with
        | some k => .inserted (storedEntry (events i) env.ingestedNow) k
        | none => .passed (storedEntry (events i) env.ingestedNow) none)) := by
    simp only [step, hready]
    exact if_pos h₁
  have hfinish : ∃ statements, statements.Sublist (script env).tail ∧
      Finishes events s i env.ingestedNow (match pairingTarget (events i) with
        | some k => .inserted (storedEntry (events i) env.ingestedNow) k
        | none => .passed (storedEntry (events i) env.ingestedNow) none) statements
        (Call.apply s.committed ⟨.ledger (events i), env⟩) := by
    simp only [Call.apply, upsertLedgerEntry]
    cases htarget : pairingTarget (events i) with
    | none => exact ⟨[.commit], by simp [script], finishes_passed _ _ _⟩
    | some k => exact finishes_pairing env h₂ h₃ (hlock k htarget)
  obtain ⟨statements, hsub, s', hrun, hdone⟩ := hfinish
  refine ⟨.upsertLedger env.ingestedNow :: statements, hsub.cons_cons _, s', ?_, hdone⟩
  rw [List.map_cons, runAll_of_step hfirst]
  exact hrun

end Sessions

end TxLookup.Consumer

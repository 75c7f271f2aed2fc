import TxLookup.Consumer.LostPairing
import TxLookup.Consumer.PairBacking

/-!
# What every interleaving keeps

A transaction pairs rows it read some statements ago. Whatever was committed in
between, the rows are still there with their relation, type and wallet, so no pair
row ever names a leg that the ledger does not have. What an interleaving can lose
is only the second leg of a pair row; the next transaction of the relation that
nobody interrupts writes it.
-/
namespace TxLookup.Consumer

open Library Library.Runs Db KeyedTable

/-- The event writes the leg of the relation. -/
def IsLeg (event : LedgerEntryUpserted) (k : PyStr) (leg : Leg) (tx wallet : PyStr) : Prop :=
  event.txId = tx ∧ event.entryType = leg.entryType ∧ event.relatedId = some k ∧
    event.walletId = wallet

/-- The row has the type, the relation and the wallet of the event. -/
def SameLeg (event : LedgerEntryUpserted) (r : LedgerEntry) : Prop :=
  r.entryType = event.entryType ∧ r.relatedId = event.relatedId ∧ r.walletId = event.walletId

instance (event : LedgerEntryUpserted) (r : LedgerEntry) : Decidable (SameLeg event r) :=
  inferInstanceAs (Decidable (_ ∧ _ ∧ _))

/-- The row has a transaction and a wallet. -/
def Identified (r : LedgerEntry) : Prop := r.txId ≠ [] ∧ r.walletId ≠ []

/-- A leg without a transaction has no wallet. -/
def Matched (p : PaymentLedgerPair) : Prop := ∀ leg : Leg, leg.tx p = none → leg.wallet p = none

theorem sameLeg_of_isRow {event event' : LedgerEntryUpserted} {row : LedgerEntry}
    (h : Phase.IsRow event' row) (hsame : event'.entryType = event.entryType ∧
      event'.relatedId = event.relatedId ∧ event'.walletId = event.walletId) :
    SameLeg event row := by
  obtain ⟨t, rfl⟩ := h
  exact hsame

section
variable {event : LedgerEntryUpserted} {row : LedgerEntry} {db : Database}
  {k : PyStr} {leg : Leg} {tx wallet : PyStr}

/-- Writing the event's row over rows that agree with it adds its leg and loses none. -/
theorem backed_withRow (hrow : Phase.IsRow event row)
    (hsame : ∀ r ∈ db.ledgerEntries.rows, r.txId = event.txId → SameLeg event r) :
    Backed (Sessions.withRow db row).ledgerEntries k leg tx wallet ↔
      Backed db.ledgerEntries k leg tx wallet ∨ IsLeg event k leg tx wallet := by
  have hmem : ∀ e ∈ (Sessions.withRow db row).ledgerEntries.rows, e = row ∨ e ∈ db.ledgerEntries.rows :=
    fun e he => mem_upsert he
  obtain ⟨t, rfl⟩ := hrow
  have hkept : ∃ e ∈ (Sessions.withRow db (storedEntry event t)).ledgerEntries.rows,
      e.txId = event.txId ∧ SameLeg event e := by
    obtain ⟨e, he⟩ := Settle.offer_isSome ledgerEntries.wins
      (db.ledgerEntries.find? event.txId) (storedEntry event t)
    obtain ⟨hm, hkey⟩ := (find?_eq_some_iff _).mp
      ((find?_upsert_self ledgerEntries.wins (storedEntry event t) db.ledgerEntries).trans he)
    refine ⟨e, hm, hkey, ?_⟩
    rcases hmem e hm with rfl | hold
    · exact ⟨rfl, rfl, rfl⟩
    · exact hsame e hold hkey
  constructor
  · rintro ⟨e, he, htx, hty, hrel, hw⟩
    rcases hmem e he with rfl | hold
    · exact .inr ⟨htx, hty, hrel, hw⟩
    · exact .inl ⟨e, hold, htx, hty, hrel, hw⟩
  · obtain ⟨e', he', htx', hty', hrel', hw'⟩ := hkept
    rintro (⟨e, he, htx, hty, hrel, hw⟩ | ⟨htx, hty, hrel, hw⟩)
    · by_cases hkey : e.txId = event.txId
      · obtain ⟨hty'', hrel'', hw''⟩ := hsame e he hkey
        exact ⟨e', he', htx'.trans (hkey.symm.trans htx), hty'.trans (hty''.symm.trans hty),
          hrel'.trans (hrel''.symm.trans hrel), hw'.trans (hw''.symm.trans hw)⟩
      · exact ⟨e, mem_upsert_of_ne he hkey, htx, hty, hrel, hw⟩
    · exact ⟨e', he', htx'.trans htx, hty'.trans hty, hrel'.trans hrel, hw'.trans hw⟩

end

/-! ## What a transaction remembers -/

/-- The pair row names the transaction and the wallet on the leg. -/
def Names (p : PaymentLedgerPair) (k : PyStr) (leg : Leg) (tx : PyStr) (wallet : Option PyStr) :
    Prop :=
  p.paymentOrderId = k ∧ leg.tx p = some tx ∧ leg.wallet p = wallet

/-- The pair row the transaction has computed. -/
def Phase.proposed : Phase → Option PaymentLedgerPair
  | .ordered _ _ snapshot | .guarded _ snapshot => some (pairValues snapshot 0)
  | .stamped _ values | .wrote _ values => some values
  | _ => none

/-- The transaction remembers the leg, from its SELECT or in the pair row it has
computed. -/
def Phase.Shows (k : PyStr) (leg : Leg) (tx : PyStr) (wallet : Option PyStr) (phase : Phase) :
    Prop :=
  match phase with
  | .scanned _ k' entries =>
    k' = k ∧ ∃ e ∈ entries, e.txId = tx ∧ e.entryType = leg.entryType ∧ some e.walletId = wallet
  | phase => ∃ p ∈ phase.proposed, Names p k leg tx wallet

section
variable {k k' : PyStr} {entries : List LedgerEntry} {order : Option PaymentOrderSnapshot}
  {clock t : DateTime}

theorem computePairing_tx (leg : Leg) :
    leg.tx (pairValues (computePairing k (entries.map asSnapshot) order clock) t) =
      (entries.find? (fun e => e.entryType = leg.entryType)).map (·.txId) := by
  cases leg <;>
    simp only [Leg.tx, pairValues, computePairing, firstOfType_snapshots, Option.map_map] <;> rfl

theorem computePairing_wallet (leg : Leg) :
    leg.wallet (pairValues (computePairing k (entries.map asSnapshot) order clock) t) =
      (entries.find? (fun e => e.entryType = leg.entryType)).map (·.walletId) := by
  cases leg <;>
    simp only [Leg.wallet, pairValues, computePairing, firstOfType_snapshots, Option.map_map] <;> rfl

theorem computePairing_matched :
    Matched (pairValues (computePairing k (entries.map asSnapshot) order clock) t) := by
  intro leg h
  rw [computePairing_tx, Option.map_eq_none_iff] at h
  rw [computePairing_wallet, h]
  rfl

/-- A snapshot names rows it was computed from. -/
theorem computePairing_names {leg : Leg} {tx : PyStr} {wallet : Option PyStr}
    (h : Names (pairValues (computePairing k' (entries.map asSnapshot) order clock) t) k leg tx
      wallet) :
    k' = k ∧ ∃ e ∈ entries, e.txId = tx ∧ e.entryType = leg.entryType ∧
      some e.walletId = wallet := by
  obtain ⟨hk, htx, hwallet⟩ := h
  rw [computePairing_tx] at htx
  obtain ⟨e, he, htx⟩ := Option.map_eq_some_iff.mp htx
  rw [computePairing_wallet, he] at hwallet
  have hty := List.find?_some he
  exact ⟨hk, e, List.mem_of_find?_eq_some he, htx, by simpa using hty, hwallet⟩

end

/-- A pair row keeps its legs when it gets its stamps. -/
theorem names_stamp {snapshot : PairingSnapshot} {t t' : DateTime} {k : PyStr} {leg : Leg}
    {tx : PyStr} {wallet : Option PyStr} (h : Names (pairValues snapshot t) k leg tx wallet) :
    Names (pairValues snapshot t') k leg tx wallet := by
  cases leg <;> exact h

theorem matched_stamp {snapshot : PairingSnapshot} {t t' : DateTime}
    (h : Matched (pairValues snapshot t)) : Matched (pairValues snapshot t') := by
  intro leg
  cases leg with
  | payment => exact h .payment
  | receive => exact h .receive

namespace Sessions

variable {n : Nat} {events : Fin n → LedgerEntryUpserted}

/-- A statement remembers a leg only if its transaction did, or if it sees it. -/
theorem Advance.shows {s : Sessions n} {i : Fin n} {statement : Statement} {phase : Phase}
    (ha : Advance events s i statement phase) {k : PyStr} {leg : Leg} {tx : PyStr}
    {wallet : Option PyStr} (h : phase.Shows k leg tx wallet) :
    (s.phase i).Shows k leg tx wallet ∨ ∃ w, wallet = some w ∧
      Backed (s.visible i).ledgerEntries k leg tx w := by
  cases ha with
  | insert | insertOnly | refuse =>
    obtain ⟨p, hp, -⟩ := h
    cases hp
  | @scan scan row k' hphase =>
    split at h
    · obtain ⟨p, hp, -⟩ := h
      cases hp
    · obtain ⟨rfl, e, he, htx, hty, hw⟩ := h
      obtain ⟨hm, hrel⟩ := mem_selectRelated.mp he
      exact .inr ⟨e.walletId, hw.symm, e, hm, htx, hty, hrel, rfl⟩
  | order order hphase =>
    obtain ⟨p, hp, h⟩ := h
    cases hp
    rw [hphase]
    exact .inl (computePairing_names h)
  | stamp hphase =>
    obtain ⟨p, hp, h⟩ := h
    cases hp
    rw [hphase]
    exact .inl ⟨_, rfl, names_stamp h⟩
  | guard hphase | write hphase =>
    rw [hphase]
    exact .inl h

/-- A pair row is computed from one SELECT, and is matched then. -/
theorem Advance.proposed {s : Sessions n} {i : Fin n} {statement : Statement} {phase : Phase}
    (ha : Advance events s i statement phase) {p : PaymentLedgerPair}
    (h : phase.proposed = some p) (hold : ∀ q, (s.phase i).proposed = some q → Matched q) :
    Matched p := by
  cases ha with
  | insert | insertOnly | refuse => cases h
  | scan hphase => split at h <;> cases h
  | order order hphase =>
    cases h
    exact computePairing_matched
  | stamp hphase =>
    cases h
    rw [hphase] at hold
    exact matched_stamp (hold _ rfl)
  | guard hphase | write hphase =>
    rw [hphase] at hold
    exact hold p h

/-- What holds in every state of every interleaving: the row a transaction writes
is its event's, stored rows agree with the events of their transactions, and every
leg that is remembered or stored is in the ledger, or is about to be, with its wallet. -/
structure Shown (events : Fin n → LedgerEntryUpserted) (s : Sessions n) : Prop where
  row : ∀ i row, (s.phase i).row = some row → Phase.IsRow (events i) row
  same : ∀ i, ∀ r ∈ s.committed.ledgerEntries.rows, r.txId = (events i).txId →
    SameLeg (events i) r
  ids : ∀ r ∈ s.committed.ledgerEntries.rows, Identified r
  memory : ∀ i k leg tx wallet, (s.phase i).Shows k leg tx wallet → ∃ w, wallet = some w ∧
    (Backed s.committed.ledgerEntries k leg tx w ∨ IsLeg (events i) k leg tx w)
  proposed : ∀ i p, (s.phase i).proposed = some p → Matched p
  pairs : PairsBacked s.committed
  matched : ∀ p ∈ s.committed.paymentLedgerPairs.rows, Matched p

theorem Advance.isRow {s : Sessions n} (h : Shown events s) {i : Fin n} {statement : Statement}
    {phase : Phase} (ha : Advance events s i statement phase) {row : LedgerEntry}
    (hrow : phase.row = some row) : Phase.IsRow (events i) row := by
  have hkeeps : (s.phase i).row = some row → Phase.IsRow (events i) row := h.row i row
  cases ha with
  | insert | insertOnly =>
    cases hrow
    exact ⟨_, rfl⟩
  | scan hphase =>
    rw [hphase] at hkeeps
    split at hrow <;> exact hkeeps hrow
  | order order hphase | guard hphase | refuse hphase | stamp hphase | write hphase =>
    rw [hphase] at hkeeps
    exact hkeeps hrow

/-- What a transaction sees is committed or its own. -/
theorem backed_of_visible {s : Sessions n} (h : Shown events s) {i : Fin n} {k : PyStr}
    {leg : Leg} {tx wallet : PyStr}
    (hb : Backed (s.visible i).ledgerEntries k leg tx wallet) :
    Backed s.committed.ledgerEntries k leg tx wallet ∨ IsLeg (events i) k leg tx wallet := by
  unfold visible at hb
  cases hrow : (s.phase i).row with
  | none =>
    rw [hrow] at hb
    exact .inl hb
  | some row =>
    rw [hrow] at hb
    exact (backed_withRow (h.row i row hrow) (h.same i)).mp hb

theorem shown_advance {s : Sessions n} (h : Shown events s) {i : Fin n} {statement : Statement}
    {phase : Phase} (ha : Advance events s i statement phase) (clock : DateTime) :
    Shown events (s.move i clock phase) where
  row := fun j row hrow => by
    by_cases hj : j = i
    · subst hj
      rw [move_phase] at hrow
      exact ha.isRow h hrow
    · rw [move, enter_phase_ne s hj phase] at hrow
      exact h.row j row hrow
  same := h.same
  ids := h.ids
  memory := fun j k leg tx wallet hshows => by
    by_cases hj : j = i
    · subst hj
      rw [move_phase] at hshows
      rcases ha.shows hshows with hold | ⟨w, hw, hb⟩
      · exact h.memory j k leg tx wallet hold
      · exact ⟨w, hw, backed_of_visible h hb⟩
    · rw [move, enter_phase_ne s hj phase] at hshows
      exact h.memory j k leg tx wallet hshows
  proposed := fun j p hp => by
    by_cases hj : j = i
    · subst hj
      rw [move_phase] at hp
      exact ha.proposed hp (h.proposed j)
    · rw [move, enter_phase_ne s hj phase] at hp
      exact h.proposed j p hp
  pairs := h.pairs
  matched := h.matched

/-- A commit adds the ledger row of its transaction, and at most a pair row that
names what the transaction remembers. -/
theorem Commits.cases {s : Sessions n} {i : Fin n} {db : Database} (hc : s.Commits i db) :
    ∃ row, (s.phase i).row = some row ∧
      db.ledgerEntries = (withRow s.committed row).ledgerEntries ∧
      (db.paymentLedgerPairs = s.committed.paymentLedgerPairs ∨ ∃ values,
        s.phase i = .wrote row values ∧ db.paymentLedgerPairs =
          upsertRow paymentLedgerPairs values s.committed.paymentLedgerPairs) := by
  cases hc with
  | @row row snapshot hphase => exact ⟨row, by rw [hphase]; rfl, rfl, .inl rfl⟩
  | @pair row values hphase => exact ⟨row, by rw [hphase]; rfl, rfl, .inr ⟨values, hphase, rfl⟩⟩

/-- Events of one transaction agree on its leg. -/
def SameLegs (events : Fin n → LedgerEntryUpserted) : Prop :=
  ∀ i j, (events i).txId = (events j).txId → (events i).entryType = (events j).entryType ∧
    (events i).relatedId = (events j).relatedId ∧ (events i).walletId = (events j).walletId

theorem shown_commit (hevents : SameLegs events) {s : Sessions n} (h : Shown events s) {i : Fin n}
    {db : Database} (hc : s.Commits i db) :
    Shown events { s.enter i .committed with committed := db } := by
  obtain ⟨row, hrow, hledger, hpairs⟩ := hc.cases
  have hisrow := h.row i row hrow
  have hbacked : ∀ {k leg tx w}, Backed db.ledgerEntries k leg tx w ↔
      Backed s.committed.ledgerEntries k leg tx w ∨ IsLeg (events i) k leg tx w := by
    intro k leg tx w
    rw [hledger]
    exact backed_withRow hisrow (h.same i)
  have hmem : ∀ r ∈ db.ledgerEntries.rows, r = row ∨ r ∈ s.committed.ledgerEntries.rows := by
    intro r hr
    rw [hledger] at hr
    exact mem_upsert hr
  have hphase : ∀ j, (s.enter i .committed).phase j = .committed ∨
      (s.enter i .committed).phase j = s.phase j := by
    intro j
    by_cases hj : j = i
    · exact .inl (by rw [hj, enter_phase_self])
    · exact .inr (enter_phase_ne s hj .committed)
  constructor
  case row =>
    intro j r hr
    change ((s.enter i .committed).phase j).row = some r at hr
    rcases hphase j with hj | hj
    · rw [hj] at hr
      cases hr
    · rw [hj] at hr
      exact h.row j r hr
  case same =>
    intro j r hr htx
    rcases hmem r hr with rfl | hold
    · refine sameLeg_of_isRow hisrow (hevents i j ?_)
      obtain ⟨t, rfl⟩ := hisrow
      exact htx
    · exact h.same j r hold htx
  case ids =>
    intro r hr
    rcases hmem r hr with rfl | hold
    · obtain ⟨t, rfl⟩ := hisrow
      exact ⟨(events i).txId_ne, (events i).walletId_ne⟩
    · exact h.ids r hold
  case memory =>
    intro j k leg tx wallet hshows
    change ((s.enter i .committed).phase j).Shows k leg tx wallet at hshows
    rcases hphase j with hj | hj
    · rw [hj] at hshows
      obtain ⟨p, hp, -⟩ := hshows
      cases hp
    · rw [hj] at hshows
      obtain ⟨w, hw, hb⟩ := h.memory j k leg tx wallet hshows
      exact ⟨w, hw, hb.imp_left fun hb => hbacked.mpr (.inl hb)⟩
  case proposed =>
    intro j p hp
    change ((s.enter i .committed).phase j).proposed = some p at hp
    rcases hphase j with hj | hj
    · rw [hj] at hp
      cases hp
    · rw [hj] at hp
      exact h.proposed j p hp
  case matched =>
    intro p hp
    change p ∈ db.paymentLedgerPairs.rows at hp
    rcases hpairs with hsame | ⟨values, hwrote, hinstalled⟩
    · exact h.matched p (hsame ▸ hp)
    · rw [hinstalled] at hp
      rcases mem_upsert hp with rfl | hp
      · exact h.proposed i p (by rw [hwrote]; rfl)
      · exact h.matched p hp
  case pairs =>
    intro p hp leg tx htx
    have hold : p ∈ s.committed.paymentLedgerPairs.rows → ∃ w, leg.wallet p = some w ∧
        Backed db.ledgerEntries p.paymentOrderId leg tx w := by
      intro hp
      obtain ⟨w, hw, hb⟩ := h.pairs p hp leg tx htx
      exact ⟨w, hw, hbacked.mpr (.inl hb)⟩
    change p ∈ db.paymentLedgerPairs.rows at hp
    rcases hpairs with hsame | ⟨values, hwrote, hinstalled⟩
    · exact hold (hsame ▸ hp)
    · rw [hinstalled] at hp
      rcases mem_upsert hp with rfl | hp
      · obtain ⟨w, hw, hb⟩ := h.memory i p.paymentOrderId leg tx (leg.wallet p)
          (by rw [hwrote]; exact ⟨p, rfl, rfl, htx, rfl⟩)
        exact ⟨w, hw, hbacked.mpr hb⟩
      · exact hold hp

theorem shown_step (hevents : SameLegs events) (s : Sessions n) (a : Fin n × Statement)
    (s' : Sessions n) (h : Shown events s) (hstep : step events s a = some s') :
    Shown events s' := by
  obtain ⟨i, statement⟩ := a
  rcases step_cases hstep with ⟨clock, phase, ha, rfl⟩ | ⟨db, -, hc, rfl⟩
  · exact shown_advance h ha clock
  · exact shown_commit hevents h hc

/-- The stored rows that the sessions start from. -/
structure Seeded (events : Fin n → LedgerEntryUpserted) (db : Database) : Prop where
  same : ∀ i, ∀ r ∈ db.ledgerEntries.rows, r.txId = (events i).txId → SameLeg (events i) r
  ids : ∀ r ∈ db.ledgerEntries.rows, Identified r
  pairs : PairsBacked db
  matched : ∀ p ∈ db.paymentLedgerPairs.rows, Matched p

theorem shown_start {db : Database} (h : Seeded events db) (now : DateTime) :
    Shown events (start n db now) where
  row := fun i row hrow => by cases hrow
  same := h.same
  ids := h.ids
  memory := fun i k leg tx wallet hshows => by
    obtain ⟨p, hp, -⟩ := hshows
    cases hp
  proposed := fun i p hp => by cases hp
  pairs := h.pairs
  matched := h.matched

theorem shown_run (hevents : SameLegs events) {db : Database} (hdb : Seeded events db)
    {now : DateTime} {run : List (Fin n × Statement)} {s : Sessions n}
    (hrun : runAll (step events) (start n db now) run = some s) : Shown events s :=
  invariant_of_steps (shown_step hevents) (shown_start hdb now) hrun

end Sessions

/-- However the transactions interleave, in every state each leg of each pair row
names a committed ledger row of that type and relation, in the wallet stored with
the leg. Transactions of one `tx_id` wait for one another in the database, so it
has no more interleavings than are considered here. -/
theorem interleaved_pairs_backed {n : Nat} (events : Fin n → LedgerEntryUpserted)
    (hevents : Sessions.SameLegs events) (db : Database) (hdb : Sessions.Seeded events db)
    (now : DateTime) (run : List (Fin n × Statement)) (s : Sessions n)
    (hrun : runAll (Sessions.step events) (Sessions.start n db now) run = some s) :
    PairsBacked s.committed :=
  (Sessions.shown_run hevents hdb hrun).pairs

/-- The race of two legs loses a pairing, and still names no leg that is not there. -/
theorem raceRun_backed : ∃ s, runAll (Sessions.step twoLegs) (Sessions.start 2 Database.empty 0)
    raceRun = some s ∧ PairsBacked s.committed := by
  have hrun : (runAll (Sessions.step twoLegs) (Sessions.start 2 Database.empty 0)
      raceRun).isSome = true := by decide
  obtain ⟨s, hs⟩ := Option.isSome_iff_exists.mp hrun
  refine ⟨s, hs, interleaved_pairs_backed twoLegs ?_ Database.empty ⟨?_, ?_, ?_, ?_⟩ 0 raceRun s
    hs⟩
  · unfold Sessions.SameLegs
    decide
  · intro i r hr
    cases hr
  · intro r hr
    cases hr
  · intro p hp
    cases hp
  · intro p hp
    cases hp

/-! ## The next transaction repairs a lost pairing -/

/-- The pair row the transaction is about to write, with its stamps. -/
def Phase.written : Phase → Option PaymentLedgerPair
  | .stamped _ values | .wrote _ values => some values
  | _ => none

namespace Sessions

variable {n : Nat} {events : Fin n → LedgerEntryUpserted}

/-- No stored pair row, and none that is about to be written, is stamped later
than the clock. -/
structure Stamped (s : Sessions n) : Prop where
  stored : ∀ p ∈ s.committed.paymentLedgerPairs.rows, p.updatedAt ≤ s.now
  written : ∀ i values, (s.phase i).written = some values → values.updatedAt ≤ s.now

/-- The clock does not go back, and a stamp is the reading of its statement. -/
theorem step_clock {s s' : Sessions n} {i : Fin n} {statement : Statement}
    (h : step events s (i, statement) = some s') : s.now ≤ s'.now ∧
      ∀ clock, statement = .readClock clock → s'.now = clock := by
  have hread : ∀ {clock next}, s.readAt clock next = some s' → s.now ≤ s'.now ∧ s'.now = clock := by
    intro clock next h
    obtain ⟨hle, rfl⟩ := readAt_eq_some.mp h
    exact ⟨hle, rfl⟩
  have hstill : ∀ {t : Sessions n}, t.now = s.now → some t = some s' → s.now ≤ s'.now := by
    intro t ht h
    rw [← Option.some.inj h, ht]
  unfold step at h
  simp only at h
  split at h
  case h_5 =>
    obtain ⟨hle, hnow⟩ := hread h
    refine ⟨hle, fun clock hc => ?_⟩
    cases hc
    exact hnow
  case h_1 => exact ⟨(hread h).1, fun _ hc => by cases hc⟩
  case h_3 => exact ⟨(hread h).1, fun _ hc => by cases hc⟩
  case h_6 =>
    split at h
    · cases h
    · exact ⟨hstill (by rfl) h, fun _ hc => by cases hc⟩
  case h_9 => cases h
  all_goals exact ⟨hstill (by rfl) h, fun _ hc => by cases hc⟩

theorem Advance.written {s : Sessions n} {i : Fin n} {statement : Statement} {phase : Phase}
    (ha : Advance events s i statement phase) {values : PaymentLedgerPair}
    (h : phase.written = some values) : (s.phase i).written = some values ∨
      ∃ clock, statement = .readClock clock ∧ values.updatedAt = clock := by
  cases ha with
  | insert | insertOnly | order | guard | refuse => cases h
  | scan hphase => split at h <;> cases h
  | @stamp clock row snapshot hphase =>
    cases h
    exact .inr ⟨clock, rfl, rfl⟩
  | write hphase hfree =>
    rw [hphase]
    exact .inl h

theorem stamped_step (s : Sessions n) (a : Fin n × Statement) (s' : Sessions n) (h : Stamped s)
    (hstep : step events s a = some s') : Stamped s' := by
  obtain ⟨i, statement⟩ := a
  obtain ⟨hle, hclock⟩ := step_clock hstep
  rcases step_cases hstep with ⟨clock, phase, ha, rfl⟩ | ⟨db, -, hc, rfl⟩
  · refine ⟨fun p hp => (h.stored p hp).trans hle, fun j values hv => ?_⟩
    by_cases hj : j = i
    · subst hj
      rw [move_phase] at hv
      rcases ha.written hv with hold | ⟨t, hst, ht⟩
      · exact (h.written j values hold).trans hle
      · rw [ht, hclock t hst]
    · rw [move, enter_phase_ne s hj phase] at hv
      exact (h.written j values hv).trans hle
  · obtain ⟨row, -, -, hpairs⟩ := hc.cases
    refine ⟨fun p hp => ?_, fun j values hv => ?_⟩
    · change p ∈ db.paymentLedgerPairs.rows at hp
      rcases hpairs with hsame | ⟨values, hwrote, hinstalled⟩
      · exact h.stored p (hsame ▸ hp)
      · rw [hinstalled] at hp
        rcases mem_upsert hp with rfl | hp
        · exact h.written i p (by rw [hwrote]; rfl)
        · exact h.stored p hp
    · change ((s.enter i .committed).phase j).written = some values at hv
      by_cases hj : j = i
      · rw [hj, enter_phase_self] at hv
        cases hv
      · rw [enter_phase_ne s hj] at hv
        exact h.written j values hv

theorem stamped_run {db : Database} {now : DateTime}
    (hdb : ∀ p ∈ db.paymentLedgerPairs.rows, p.updatedAt ≤ now)
    {run : List (Fin n × Statement)} {s : Sessions n}
    (hrun : runAll (step events) (start n db now) run = some s) : Stamped s :=
  invariant_of_steps stamped_step ⟨hdb, fun i values hv => by cases hv⟩ hrun

end Sessions

/-- The pair row of the relation is complete, and its legs are rows of the ledger. -/
def PairedFromLedger (db : Database) (k : PyStr) : Prop :=
  ∃ p, db.paymentLedgerPairs.find? k = some p ∧ p.Complete ∧
    ∀ (leg : Leg) (tx : PyStr), leg.tx p = some tx →
      ∃ wallet, leg.wallet p = some wallet ∧ Backed db.ledgerEntries k leg tx wallet

theorem PairedFromLedger.complete {db : Database} {k : PyStr} (h : PairedFromLedger db k) :
    PairComplete db k := by
  obtain ⟨p, hp, hcomplete, -⟩ := h
  exact ⟨p, hp, hcomplete⟩

/-- A refresh that is not stamped earlier than the stored pair row completes it
from the ledger as soon as the ledger has both legs. -/
theorem refresh_completes {db : Database} {call : Call} {k : PyStr} (href : call.Refreshes k)
    (hstamp : ∀ p, db.paymentLedgerPairs.find? k = some p → p.updatedAt ≤ call.env.pairNow)
    (hlegs : BothLegs (call.apply db).ledgerEntries k) : PairedFromLedger (call.apply db) k := by
  obtain ⟨event, -, -, happly⟩ := apply_of_refreshes href db
  have hledger : (call.apply db).ledgerEntries =
      (insertLedgerEntry call.env event db).ledgerEntries := by
    rw [happly, updatePairing_ledger]
  rw [hledger] at hlegs
  have hcomplete := (freshPair_complete_iff call.env k _).mpr hlegs
  obtain ⟨e, he, hrel, -⟩ := hlegs .payment
  refine ⟨_, ?_, hcomplete, fun leg tx htx => ?_⟩
  · rw [happly]
    exact updatePairing_installs _ _ _ ⟨e, he, hrel⟩
      fun p hp => ⟨hstamp p hp, fun _ => hcomplete⟩
  · rw [hledger]
    exact freshPair_backed _ _ _ leg htx

/-- Whatever pairings an interleaving has lost, the next transaction of a relation
that runs alone does what its call does, and leaves a complete pair row of the ledger's
legs if the ledger has both. -/
theorem uninterrupted_transaction_repairs {n : Nat} (events : Fin n → LedgerEntryUpserted)
    (db : Database) (now : DateTime)
    (hstamps : ∀ p ∈ db.paymentLedgerPairs.rows, p.updatedAt ≤ now)
    (run : List (Fin n × Statement)) (s : Sessions n)
    (hrun : runAll (Sessions.step events) (Sessions.start n db now) run = some s)
    (i : Fin n) (hready : s.phase i = .ready) (k : PyStr)
    (htarget : pairingTarget (events i) = some k) (hlock : ¬ s.LockedElsewhere i k)
    (env : Surroundings) (h₁ : s.now ≤ env.ingestedNow) (h₂ : env.ingestedNow ≤ env.computeNow)
    (h₃ : env.computeNow ≤ env.pairNow) :
    ∃ statements : List Statement, statements.Sublist (Sessions.script env) ∧
      ∃ s', runAll (Sessions.step events) s (statements.map (fun st => (i, st))) = some s' ∧
        s'.phase i = .committed ∧
        s'.committed = Call.apply s.committed ⟨.ledger (events i), env⟩ ∧
        (BothLegs s'.committed.ledgerEntries k → PairedFromLedger s'.committed k) := by
  have hfree : ∀ k', pairingTarget (events i) = some k' → ¬ s.LockedElsewhere i k' := by
    intro k' hk'
    obtain rfl := Option.some.inj (htarget.symm.trans hk')
    exact hlock
  obtain ⟨statements, hsub, s', halone, hcommitted, hphase, -⟩ :=
    Sessions.alone_refines_call events s i env hready h₁ h₂ h₃ hfree
  refine ⟨statements, hsub, s', halone, hphase, hcommitted, fun hlegs => ?_⟩
  rw [hcommitted] at hlegs ⊢
  refine refresh_completes ⟨events i, rfl, htarget⟩ (fun p hp => ?_) hlegs
  have hstored := (Sessions.stamped_run hstamps hrun).stored p ((find?_eq_some_iff _).mp hp).1
  exact hstored.trans (h₁.trans (h₂.trans h₃))

/-- The two legs of the race and a refund of the same order. -/
def threeOfOrder (i : Fin 3) : LedgerEntryUpserted :=
  if i = 0 then plainEvent "tx-1" "w1" "PAYMENT" "po-1"
  else if i = 1 then plainEvent "tx-2" "w2" "RECEIVE" "po-1"
  else plainEvent "tx-3" "w1" "REFUND_IN" "po-1"

/-- The race of the first two; the refund has not begun. -/
def raceOfThree : List (Fin 3 × Statement) :=
  raceRun.map (fun a => (a.1.castSucc, a.2))

/-- The race loses the pairing, and the refund restores it. -/
theorem raceOfThree_repaired :
    ∃ s, runAll (Sessions.step threeOfOrder) (Sessions.start 3 Database.empty 0) raceOfThree =
        some s ∧ ¬ PairComplete s.committed (py "po-1") ∧
      ∃ statements : List Statement, statements.Sublist (Sessions.script (.still 7)) ∧
        ∃ s', runAll (Sessions.step threeOfOrder) s (statements.map (fun st => (2, st))) = some s' ∧
          s'.phase 2 = .committed ∧ BothLegs s'.committed.ledgerEntries (py "po-1") ∧
            PairedFromLedger s'.committed (py "po-1") ∧ PairComplete s'.committed (py "po-1") := by
  have hrun : ∃ s ∈ runAll (Sessions.step threeOfOrder) (Sessions.start 3 Database.empty 0)
      raceOfThree, s.phase 2 = .ready ∧ s.now ≤ 7 ∧ ¬ s.LockedElsewhere 2 (py "po-1") ∧
        (∀ p ∈ s.committed.paymentLedgerPairs.find? (py "po-1"), ¬ p.Complete) ∧
        BothLegs (Call.apply s.committed ⟨.ledger (threeOfOrder 2), .still 7⟩).ledgerEntries
          (py "po-1") := by decide
  obtain ⟨s, hs, hready, hnow, hlock, hincomplete, hlegs⟩ := hrun
  obtain ⟨statements, hsub, s', halone, hphase, hcommitted, hrepairs⟩ :=
    uninterrupted_transaction_repairs threeOfOrder Database.empty 0 (fun p hp => by cases hp)
      raceOfThree s hs 2 hready (py "po-1") (by decide) hlock (.still 7) hnow le_rfl le_rfl
  rw [← hcommitted] at hlegs
  have hpaired := hrepairs hlegs
  refine ⟨s, hs, fun hcomplete => ?_, statements, hsub, s', halone, hphase, hlegs, hpaired,
    hpaired.complete⟩
  obtain ⟨p, hp, hc⟩ := hcomplete
  exact hincomplete p hp hc

end TxLookup.Consumer

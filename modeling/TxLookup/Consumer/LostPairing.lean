import TxLookup.Consumer.Interleaving
import TxLookup.Consumer.PairHistory

/-!
# When no pairing is lost

Two rows that make a pair always have a complete pair row, or one of their
transactions is still in flight and has yet to look or is writing both legs.
Every benign step keeps this; at the commits nobody is left to promise anything.
-/
namespace TxLookup.Consumer

open Library Library.Runs Db KeyedTable

/-! ## What a transaction remembers -/

namespace Phase

/-- The transaction was shown its own row. -/
def OwnLeg (event : LedgerEntryUpserted) (phase : Phase) : Prop :=
  ∀ leg : Leg, event.entryType = leg.entryType → phase.knows leg = true

def IsRow (event : LedgerEntryUpserted) (row : LedgerEntry) : Prop :=
  ∃ t, row = storedEntry event t

/-- What is true of a transaction's memory in each phase. -/
def Sound (event : LedgerEntryUpserted) (phase : Phase) : Prop :=
  match phase with
  | .ready | .committed => True
  | .inserted row k => IsRow event row ∧ pairingTarget event = some k
  | .scanned row k _ => IsRow event row ∧ pairingTarget event = some k ∧ phase.OwnLeg event
  | .ordered row k snapshot => IsRow event row ∧ pairingTarget event = some k ∧
      phase.OwnLeg event ∧ snapshot.paymentOrderId = k ∧
        (snapshot.complete = true ↔ ∀ leg, phase.knows leg = true)
  | .guarded row snapshot => IsRow event row ∧
      pairingTarget event = some snapshot.paymentOrderId ∧ phase.OwnLeg event
  | .stamped row values | .wrote row values => IsRow event row ∧
      pairingTarget event = some values.paymentOrderId ∧ phase.OwnLeg event
  | .passed row (some _) => IsRow event row ∧ phase.OwnLeg event ∧
      ¬ ∀ leg, phase.knows leg = true
  | .passed row none => IsRow event row ∧ pairingTarget event = none

theorem Sound.row {event : LedgerEntryUpserted} {phase : Phase} (h : phase.Sound event)
    {row : LedgerEntry} (hrow : phase.row = some row) : IsRow event row := by
  cases phase with
  | ready | committed => cases hrow
  | passed r snapshot =>
    obtain rfl := Option.some.inj hrow
    cases snapshot <;> exact h.1
  | _ =>
    obtain rfl := Option.some.inj hrow
    exact h.1

theorem Sound.own {event : LedgerEntryUpserted} {phase : Phase} (h : phase.Sound event)
    (hsel : phase.selected = true) : phase.OwnLeg event := by
  cases phase with
  | ready | committed | inserted => cases hsel
  | passed r snapshot =>
    cases snapshot with
    | none => cases hsel
    | some snapshot => exact h.2.1
  | scanned | guarded | stamped | wrote => exact h.2.2
  | ordered => exact h.2.2.1

end Phase

/-- A snapshot has a leg when the rows it was computed from have one. -/
theorem computePairing_leg (leg : Leg) (k : PyStr) (entries : List LedgerEntry)
    (order : Option PaymentOrderSnapshot) (clock t : DateTime) :
    (leg.tx (pairValues (computePairing k (entries.map asSnapshot) order clock) t)).isSome =
      entries.any (fun e => e.entryType = leg.entryType) := by
  have hleg : leg.tx (pairValues (computePairing k (entries.map asSnapshot) order clock) t) =
      (entries.find? (fun e => e.entryType = leg.entryType)).map (·.txId) := by
    cases leg <;>
      simp only [Leg.tx, pairValues, computePairing, firstOfType_snapshots, Option.map_map] <;> rfl
  rw [hleg, Option.isSome_map, List.isSome_find?]

theorem computePairing_complete (k : PyStr) (entries : List LedgerEntry)
    (order : Option PaymentOrderSnapshot) (clock t : DateTime) :
    (computePairing k (entries.map asSnapshot) order clock).complete = true ↔
      ∀ leg : Leg, (leg.tx (pairValues
        (computePairing k (entries.map asSnapshot) order clock) t)).isSome = true := by
  rw [← complete_iff]
  simp only [PaymentLedgerPair.Complete, pairValues, computePairing, Bool.and_eq_true,
    Option.isSome_map]

/-- A harmless write leaves a complete row if there was one or if it is one. -/
theorem HarmlessWrite.complete {db : Database} {values : PaymentLedgerPair}
    (h : HarmlessWrite db values)
    (hc : PairComplete db values.paymentOrderId ∨ values.Complete) :
    ∃ p, (upsertRow paymentLedgerPairs values db.paymentLedgerPairs).find?
      values.paymentOrderId = some p ∧ p.Complete := by
  rcases upsert_pair_cases values db.paymentLedgerPairs with
    ⟨p, hp, hlate, hstays⟩ | ⟨hearly, hinstalled⟩
  · refine ⟨p, hstays, ?_⟩
    rcases hc with ⟨q, hq, hcomplete⟩ | hcomplete
    · exact Option.some.inj (hq.symm.trans hp) ▸ hcomplete
    · exact ((h p hp).2 hcomplete).resolve_right (not_le.mpr hlate)
  · refine ⟨values, hinstalled, ?_⟩
    rcases hc with ⟨q, hq, hcomplete⟩ | hcomplete
    · exact (h q hq).1 hcomplete (hearly q hq)
    · exact hcomplete

namespace Sessions

variable {n : Nat} {events : Fin n → LedgerEntryUpserted}

/-- The invariant of benign runs. -/
structure Inv (events : Fin n → LedgerEntryUpserted) (s : Sessions n) : Prop where
  sound : ∀ i, (s.phase i).Sound (events i)
  fresh : ∀ i, s.phase i ≠ .committed → ∀ r ∈ s.committed.ledgerEntries.rows,
    r.txId ≠ (events i).txId
  lock : ∀ i j k, (s.phase i).lock = some k → (s.phase j).lock = some k → i = j
  harmless : ∀ i row values, s.phase i = .wrote row values → HarmlessWrite s.committed values
  covered : ∀ k leg w w', HasLeg (s.rowsOf w) k leg → HasLeg (s.rowsOf w') k leg.opposite →
    PairComplete s.committed k ∨ s.Covering w ∨ s.Covering w'

theorem hasLeg_phase {s : Sessions n} {i : Fin n} {k : PyStr} {leg : Leg} :
    HasLeg (s.rowsOf (some i)) k leg ↔ ∃ row, (s.phase i).row = some row ∧
      row.relatedId = some k ∧ row.entryType = leg.entryType := by
  constructor
  · rintro ⟨e, he, h⟩
    exact ⟨e, Option.mem_toList.mp he, h⟩
  · rintro ⟨e, he, h⟩
    exact ⟨e, Option.mem_toList.mpr he, h⟩

/-- The transaction's own row is among the rows it sees, with all committed ones. -/
theorem mem_visible {s : Sessions n} (h : Inv events s) {i : Fin n} {row : LedgerEntry}
    (hrow : (s.phase i).row = some row) {e : LedgerEntry}
    (he : e = row ∨ e ∈ s.committed.ledgerEntries.rows) :
    e ∈ (s.visible i).ledgerEntries.rows := by
  have hkey : ∀ r ∈ s.committed.ledgerEntries.rows, r.txId ≠ row.txId := by
    obtain ⟨t, rfl⟩ := (h.sound i).row hrow
    refine h.fresh i ?_
    intro hc
    rw [hc] at hrow
    cases hrow
  unfold visible
  rw [hrow]
  rcases he with rfl | he
  · have hnone : s.committed.ledgerEntries.find? (ledgerEntries.key e) = none :=
      (find?_eq_none_iff _).mpr hkey
    have hf := find?_upsert_self ledgerEntries.wins e s.committed.ledgerEntries
    rw [hnone] at hf
    exact ((find?_eq_some_iff _).mp hf).1
  · exact mem_upsert_of_ne he (hkey e he)

theorem hasLeg_visible {s : Sessions n} (h : Inv events s) {i : Fin n} {row : LedgerEntry}
    (hrow : (s.phase i).row = some row) {k : PyStr} {leg : Leg}
    (hleg : HasLeg s.committed.ledgerEntries.rows k leg) :
    HasLeg (s.visible i).ledgerEntries.rows k leg := by
  obtain ⟨e, he, hk⟩ := hleg
  exact ⟨e, mem_visible h hrow (Or.inr he), hk⟩

/-- The SELECT of the entries shows a leg exactly when a visible row has it. -/
theorem scanned_knows (s : Sessions n) (i : Fin n) (scan : ScanOrder) (row : LedgerEntry)
    (k : PyStr) (leg : Leg) :
    (Phase.scanned row k (selectRelated scan (s.visible i) k)).knows leg = true ↔
      HasLeg (s.visible i).ledgerEntries.rows k leg := by
  simp only [Phase.knows, List.any_eq_true, decide_eq_true_eq]
  constructor
  · rintro ⟨e, he, ht⟩
    obtain ⟨hm, hr⟩ := mem_selectRelated.mp he
    exact ⟨e, hm, hr, ht⟩
  · rintro ⟨e, hm, hr, ht⟩
    exact ⟨e, mem_selectRelated.mpr ⟨hm, hr⟩, ht⟩

theorem row_related {event : LedgerEntryUpserted} {row : LedgerEntry} (h : Phase.IsRow event row)
    {k : PyStr} (ht : pairingTarget event = some k) : row.relatedId = some k := by
  obtain ⟨t, rfl⟩ := h
  exact (pairingTarget_eq_some.mp ht).1

/-- Every statement keeps the memory of its transaction sound. -/
theorem Advance.sound {s : Sessions n} (h : Inv events s) {i : Fin n} {statement : Statement}
    {phase : Phase} (ha : Advance events s i statement phase) : phase.Sound (events i) := by
  have hs := h.sound i
  cases ha with
  | insert hphase ht => exact ⟨⟨_, rfl⟩, ht⟩
  | insertOnly hphase ht => exact ⟨⟨_, rfl⟩, ht⟩
  | @scan scan row k hphase =>
    rw [hphase] at hs
    obtain ⟨hrow, ht⟩ := hs
    have hown : row ∈ selectRelated scan (s.visible i) k :=
      mem_selectRelated.mpr ⟨mem_visible h (by rw [hphase]; rfl) (Or.inl rfl), row_related hrow ht⟩
    have hne : (selectRelated scan (s.visible i) k).isEmpty = false :=
      List.isEmpty_eq_false_iff.mpr (List.ne_nil_of_mem hown)
    rw [if_neg (by simp [hne])]
    refine ⟨hrow, ht, fun leg hleg => ?_⟩
    obtain ⟨t, rfl⟩ := hrow
    exact List.any_eq_true.mpr ⟨_, hown, decide_eq_true hleg⟩
  | @order clock row k entries order hphase =>
    rw [hphase] at hs
    obtain ⟨hrow, ht, hown⟩ := hs
    refine ⟨hrow, ht, fun leg hleg => ?_, rfl, computePairing_complete k entries order clock 0⟩
    exact (computePairing_leg leg k entries order clock 0).trans (hown leg hleg)
  | guard hphase =>
    rw [hphase] at hs
    obtain ⟨hrow, ht, hown, hid, _⟩ := hs
    exact ⟨hrow, by rw [hid]; exact ht, hown⟩
  | refuse hphase hc =>
    rw [hphase] at hs
    obtain ⟨hrow, _, hown, _, hcomplete⟩ := hs
    refine ⟨hrow, hown, fun hall => ?_⟩
    rw [hcomplete.mpr hall] at hc
    cases hc
  | @stamp clock row snapshot hphase =>
    rw [hphase] at hs
    obtain ⟨hrow, ht, hown⟩ := hs
    exact ⟨hrow, ht, fun leg hleg => by cases leg <;> exact hown _ hleg⟩
  | write hphase hfree =>
    rw [hphase] at hs
    exact hs

/-! ## Every benign step keeps the invariant -/

theorem rowsOf_move_ne {s : Sessions n} {i : Fin n} (clock : DateTime) (phase : Phase)
    {w : Option (Fin n)} (hw : w ≠ some i) : (s.move i clock phase).rowsOf w = s.rowsOf w := by
  cases w with
  | none => rfl
  | some j =>
    have hj : j ≠ i := fun h => hw (congrArg some h)
    simp only [rowsOf, move, enter_phase_ne s hj phase]

theorem covering_move_ne {s : Sessions n} {i : Fin n} (clock : DateTime) (phase : Phase)
    {w : Option (Fin n)} (hw : w ≠ some i) :
    (s.move i clock phase).Covering w ↔ s.Covering w := by
  cases w with
  | none => rfl
  | some j =>
    have hj : j ≠ i := fun h => hw (congrArg some h)
    simp only [Covering, move, enter_phase_ne s hj phase]

/-- No single row has both legs. -/
theorem not_both_legs {s : Sessions n} {i : Fin n} {k : PyStr} {leg : Leg}
    (h : HasLeg (s.rowsOf (some i)) k leg) : ¬ HasLeg (s.rowsOf (some i)) k leg.opposite := by
  intro h'
  obtain ⟨row, hrow, _, ht⟩ := hasLeg_phase.mp h
  obtain ⟨row', hrow', _, ht'⟩ := hasLeg_phase.mp h'
  rw [hrow] at hrow'
  obtain rfl := Option.some.inj hrow'
  exact leg.entryType_opposite (ht'.symm.trans ht)

/-- When transaction `i` moves on, only pairs with its own row need a look. -/
theorem covered_move {s : Sessions n} (h : Inv events s) {i : Fin n} (clock : DateTime)
    {phase : Phase} (hnew : ∀ k leg w, w ≠ some i →
      HasLeg ((s.move i clock phase).rowsOf (some i)) k leg → HasLeg (s.rowsOf w) k leg.opposite →
        PairComplete s.committed k ∨ phase.Covering ∨ s.Covering w) :
    ∀ k leg w w', HasLeg ((s.move i clock phase).rowsOf w) k leg →
      HasLeg ((s.move i clock phase).rowsOf w') k leg.opposite →
        PairComplete s.committed k ∨ (s.move i clock phase).Covering w ∨
          (s.move i clock phase).Covering w' := by
  have hself : (s.move i clock phase).Covering (some i) ↔ phase.Covering := by
    simp only [Covering, move_phase]
  intro k leg w w' hw hw'
  by_cases hwi : w = some i
  · subst hwi
    have hwi' : w' ≠ some i := by
      rintro rfl
      exact not_both_legs hw hw'
    rw [hself, covering_move_ne clock phase hwi']
    exact hnew k leg w' hwi' hw (rowsOf_move_ne clock phase hwi' ▸ hw')
  by_cases hwi' : w' = some i
  · subst hwi'
    rw [hself, covering_move_ne clock phase hwi]
    have hw := rowsOf_move_ne clock phase hwi ▸ hw
    rw [← leg.opposite_opposite] at hw
    exact (hnew k leg.opposite w hwi hw' hw).imp_right Or.symm
  · rw [covering_move_ne clock phase hwi, covering_move_ne clock phase hwi']
    exact h.covered k leg w w' (rowsOf_move_ne clock phase hwi ▸ hw)
      (rowsOf_move_ne clock phase hwi' ▸ hw')

/-- A statement that keeps the row and the promise of its transaction keeps all promises. -/
theorem covered_of_mono {s : Sessions n} (h : Inv events s) {i : Fin n} (clock : DateTime)
    {phase : Phase} (hrow : phase.row = (s.phase i).row)
    (hmono : (s.phase i).Covering → phase.Covering) :
    ∀ k leg w, w ≠ some i → HasLeg ((s.move i clock phase).rowsOf (some i)) k leg →
      HasLeg (s.rowsOf w) k leg.opposite →
        PairComplete s.committed k ∨ phase.Covering ∨ s.Covering w := by
  intro k leg w _ hi hw
  have hi' : HasLeg (s.rowsOf (some i)) k leg := by
    rw [hasLeg_phase, move_phase, hrow] at hi
    exact hasLeg_phase.mpr hi
  exact (h.covered k leg (some i) w hi' hw).imp_right (Or.imp_left hmono)

/-- The events the consumer pairs: no other kind of relation. -/
def OrderEvents (events : Fin n → LedgerEntryUpserted) : Prop :=
  ∀ i, (events i).relatedType = none ∨ (events i).relatedType = some PAYMENT_ORDER

/-- A transaction with a row in a proper relation that has not looked is about to. -/
theorem covering_of_not_selected {s : Sessions n} (htype : OrderEvents events)
    (h : Inv events s) {j : Fin n} {k : PyStr} (hk : k ≠ []) {leg : Leg}
    (hrow : HasLeg (s.rowsOf (some j)) k leg) (hsel : ¬ (s.phase j).selected = true) :
    (s.phase j).Covering := by
  obtain ⟨row, hrowj, hrel, _⟩ := hasLeg_phase.mp hrow
  have hs := h.sound j
  obtain ⟨t, ht⟩ := hs.row hrowj
  have hrelj : (events j).relatedId = some k := by rw [← hrel, ht]; rfl
  have htarget : pairingTarget (events j) = some k :=
    pairingTarget_eq_some.mpr ⟨hrelj, hk, htype j⟩
  cases hphase : s.phase j with
  | ready | committed => rw [hphase] at hrowj; cases hrowj
  | inserted row k => exact Or.inl ⟨row, k, rfl⟩
  | passed row snapshot =>
    rw [hphase] at hs hsel
    cases snapshot with
    | some snapshot => exact absurd rfl hsel
    | none =>
      obtain ⟨_, hnone⟩ := hs
      rw [htarget] at hnone
      cases hnone
  | _ => rw [hphase] at hsel; exact absurd rfl hsel

/-- The SELECT of the entries keeps all promises, unless it misses a transaction
that missed it. -/
theorem covered_scan {s : Sessions n} (htype : OrderEvents events) (h : Inv events s) {i : Fin n} (clock : DateTime)
    {scan : ScanOrder} {row : LedgerEntry} {k : PyStr} (hphase : s.phase i = .inserted row k)
    (hok : s.Benign events (i, .selectEntries scan)) :
    ∀ k' leg w, w ≠ some i → HasLeg ((s.move i clock
        (.scanned row k (selectRelated scan (s.visible i) k))).rowsOf (some i)) k' leg →
      HasLeg (s.rowsOf w) k' leg.opposite → PairComplete s.committed k' ∨
        (Phase.scanned row k (selectRelated scan (s.visible i) k)).Covering ∨ s.Covering w := by
  intro k' leg w hwi hi hw
  have hrow : (s.phase i).row = some row := by rw [hphase]; rfl
  have hsound := h.sound i
  rw [hphase] at hsound
  obtain ⟨hisrow, ht⟩ := hsound
  obtain ⟨row', hrow', hrel, hty⟩ := hasLeg_phase.mp hi
  rw [move_phase] at hrow'
  obtain rfl := Option.some.inj hrow'
  have hk : k' = k := Option.some.inj (hrel.symm.trans (row_related hisrow ht))
  subst hk
  have hown : HasLeg (s.visible i).ledgerEntries.rows k' leg :=
    ⟨row, mem_visible h hrow (Or.inl rfl), hrel, hty⟩
  by_cases hother : HasLeg (s.visible i).ledgerEntries.rows k' leg.opposite
  · refine Or.inr (Or.inl (Or.inr ⟨rfl, (Leg.forall_iff_opposite leg).mpr ⟨?_, ?_⟩⟩))
    · exact (scanned_knows s i scan row k' leg).mpr hown
    · exact (scanned_knows s i scan row k' leg.opposite).mpr hother
  cases w with
  | none => exact absurd (hasLeg_visible h hrow hw) hother
  | some j =>
    obtain ⟨rowj, hrowj, hrelj, htyj⟩ := hasLeg_phase.mp hw
    obtain ⟨t, ht'⟩ := (h.sound j).row hrowj
    have hevent : (events j).entryType = leg.opposite.entryType := by rw [← htyj, ht']; rfl
    by_cases hsel : (s.phase j).selected = true
    · -- the other transaction has looked: it was shown this leg, and its own
      simp only [Benign, hphase] at hok
      refine Or.inr (Or.inr (Or.inr ⟨hsel, (Leg.forall_iff_opposite leg).mpr ⟨?_, ?_⟩⟩))
      · exact hok leg hty hother j hsel hw
      · exact (h.sound j).own hsel leg.opposite hevent
    · obtain ⟨_, hne, _⟩ := pairingTarget_eq_some.mp ht
      exact Or.inr (Or.inr (covering_of_not_selected htype h hne hw hsel))

/-- A remembered pair of legs is remembered until it is written. -/
theorem Advance.covering_mono {s : Sessions n} (h : Inv events s) {i : Fin n}
    {statement : Statement} {phase : Phase} (ha : Advance events s i statement phase)
    (hsel : (s.phase i).selected = true) : (s.phase i).Covering → phase.Covering := by
  have hs := h.sound i
  rintro (⟨row, k, hphase⟩ | ⟨_, hall⟩)
  · rw [hphase] at hsel
    cases hsel
  refine Or.inr ?_
  cases ha with
  | insert hphase ht => rw [hphase] at hsel; cases hsel
  | insertOnly hphase ht => rw [hphase] at hsel; cases hsel
  | scan hphase => rw [hphase] at hsel; cases hsel
  | order order hphase =>
    rw [hphase] at hall
    exact ⟨rfl, fun leg => (computePairing_leg leg _ _ order _ 0).trans (hall leg)⟩
  | guard hphase =>
    rw [hphase] at hall
    exact ⟨rfl, hall⟩
  | refuse hphase hc =>
    rw [hphase] at hall hs
    obtain ⟨_, _, _, _, hcomplete⟩ := hs
    rw [hcomplete.mpr hall] at hc
    cases hc
  | stamp hphase =>
    rw [hphase] at hall
    refine ⟨rfl, fun leg => ?_⟩
    cases leg with
    | payment => exact hall .payment
    | receive => exact hall .receive
  | write hphase hfree =>
    rw [hphase] at hall
    exact ⟨rfl, hall⟩

theorem Advance.row {s : Sessions n} {i : Fin n} {statement : Statement} {phase : Phase}
    (ha : Advance events s i statement phase) (hsel : (s.phase i).selected = true) :
    phase.row = (s.phase i).row := by
  cases ha with
  | insert hphase ht => rw [hphase] at hsel; cases hsel
  | insertOnly hphase ht => rw [hphase] at hsel; cases hsel
  | scan hphase => rw [hphase] at hsel; cases hsel
  | order order hphase => rw [hphase]; rfl
  | guard hphase => rw [hphase]; rfl
  | refuse hphase hc => rw [hphase]; rfl
  | stamp hphase => rw [hphase]; rfl
  | write hphase hfree => rw [hphase]; rfl

/-- A benign statement keeps the promises. -/
theorem Advance.covered {s : Sessions n} (htype : OrderEvents events) (h : Inv events s)
    {i : Fin n} {statement : Statement} {phase : Phase}
    (ha : Advance events s i statement phase) (hok : s.Benign events (i, statement))
    (clock : DateTime) : ∀ k leg w, w ≠ some i →
      HasLeg ((s.move i clock phase).rowsOf (some i)) k leg → HasLeg (s.rowsOf w) k leg.opposite →
        PairComplete s.committed k ∨ phase.Covering ∨ s.Covering w := by
  by_cases hsel : (s.phase i).selected = true
  · exact covered_of_mono h clock (ha.row hsel) (ha.covering_mono h hsel)
  have hsound := ha.sound h
  cases ha with
  | insert hphase ht => exact fun k leg w _ _ _ => Or.inr (Or.inl (Or.inl ⟨_, _, rfl⟩))
  | insertOnly hphase ht =>
    intro k leg w _ hi hw
    obtain ⟨row, hrow, hrel, hty⟩ := hasLeg_phase.mp hi
    rw [move_phase] at hrow
    obtain rfl := Option.some.inj hrow
    -- without a target the relation is the empty one
    have hk : k = [] := by
      by_contra hne
      rw [pairingTarget_eq_some.mpr ⟨hrel, hne, htype i⟩] at ht
      cases ht
    subst hk
    simp only [Benign, hphase] at hok
    exact absurd hw (hok hrel leg hty w)
  | @scan scan row k hphase =>
    have hne : (selectRelated scan (s.visible i) k).isEmpty = false := by
      by_contra hempty
      rw [Bool.not_eq_false] at hempty
      rw [if_pos hempty] at hsound
      rw [hphase] at hsel
      have hs := h.sound i
      rw [hphase] at hs
      obtain ⟨_, ht⟩ := hs
      obtain ⟨_, hnone⟩ := hsound
      rw [ht] at hnone
      cases hnone
    rw [if_neg (by simp [hne])]
    exact covered_scan htype h clock hphase hok
  | order order hphase => rw [hphase] at hsel; exact absurd rfl hsel
  | guard hphase => rw [hphase] at hsel; exact absurd rfl hsel
  | refuse hphase hc => rw [hphase] at hsel; exact absurd rfl hsel
  | stamp hphase => rw [hphase] at hsel; exact absurd rfl hsel
  | write hphase hfree => rw [hphase] at hsel; exact absurd rfl hsel

theorem inv_advance {s : Sessions n} (htype : OrderEvents events) (h : Inv events s) {i : Fin n}
    {statement : Statement} {phase : Phase} (ha : Advance events s i statement phase)
    (hok : s.Benign events (i, statement)) (clock : DateTime) :
    Inv events (s.move i clock phase) where
  sound := fun j => by
    by_cases hj : j = i
    · subst hj
      rw [move_phase]
      exact ha.sound h
    · rw [move, enter_phase_ne s hj phase]
      exact h.sound j
  fresh := fun j hj => by
    refine h.fresh j (fun hc => ?_)
    by_cases hji : j = i
    · subst hji
      cases ha <;> simp_all
    · rw [move, enter_phase_ne s hji phase] at hj
      exact hj hc
  lock := by
    have hfree : ∀ j k, j ≠ i → phase.lock = some k → (s.phase j).lock ≠ some k := by
      intro j k hj hl hlj
      cases ha with
      | write hphase hnot => exact hnot ⟨j, hj, hlj.trans hl.symm⟩
      | scan hphase => split at hl <;> cases hl
      | _ => cases hl
    intro j j' k hl hl'
    by_cases hj : j = i <;> by_cases hj' : j' = i
    · rw [hj, hj']
    · subst hj
      rw [move_phase] at hl
      rw [move, enter_phase_ne s hj' phase] at hl'
      exact absurd hl' (hfree j' k hj' hl)
    · subst hj'
      rw [move_phase] at hl'
      rw [move, enter_phase_ne s hj phase] at hl
      exact absurd hl (hfree j k hj hl')
    · rw [move, enter_phase_ne s hj phase] at hl
      rw [move, enter_phase_ne s hj' phase] at hl'
      exact h.lock j j' k hl hl'
  harmless := fun j row values hj => by
    by_cases hji : j = i
    · subst hji
      rw [move_phase] at hj
      cases ha with
      | write hphase hfree =>
        simp only [Benign, hphase] at hok
        cases hj
        exact hok
      | scan hphase => split at hj <;> cases hj
      | _ => cases hj
    · rw [move, enter_phase_ne s hji phase] at hj
      exact h.harmless j row values hj
  covered := covered_move h clock (ha.covered htype h hok clock)

/-- What a commit changes: one ledger row is added, at most the held pair row
changes, no complete pair row is lost, and a promise is kept. -/
theorem Commits.spec {s : Sessions n} (h : Inv events s) {i : Fin n} {db : Database}
    (hc : s.Commits i db) : ∃ row, (s.phase i).row = some row ∧
      db.ledgerEntries = upsertRow ledgerEntries row s.committed.ledgerEntries ∧
      (∀ k, (s.phase i).lock ≠ some k →
        db.paymentLedgerPairs.find? k = s.committed.paymentLedgerPairs.find? k) ∧
      (∀ k, PairComplete s.committed k → PairComplete db k) ∧
      ((s.phase i).Covering → ∀ k, row.relatedId = some k → PairComplete db k) := by
  have hs := h.sound i
  cases hc with
  | @row row snapshot hphase =>
    refine ⟨row, by rw [hphase]; rfl, rfl, fun k _ => rfl, fun k hk => hk, ?_⟩
    rw [hphase] at hs ⊢
    rintro (⟨_, _, hins⟩ | ⟨hsel, hall⟩)
    · cases hins
    · cases snapshot with
      | none => cases hsel
      | some snapshot =>
        obtain ⟨_, _, hmissing⟩ := hs
        exact absurd hall hmissing
  | @pair row values hphase =>
    have hharmless := h.harmless i row values hphase
    have hne : ∀ k, k ≠ values.paymentOrderId →
        (upsertRow paymentLedgerPairs values s.committed.paymentLedgerPairs).find? k =
          s.committed.paymentLedgerPairs.find? k :=
      fun k hk => find?_upsert_ne paymentLedgerPairs.wins values _ hk
    refine ⟨row, by rw [hphase]; rfl, rfl, fun k hk => hne k ?_, fun k hk => ?_, ?_⟩
    · rintro rfl
      rw [hphase] at hk
      exact hk rfl
    · by_cases hkv : k = values.paymentOrderId
      · subst hkv
        exact hharmless.complete (Or.inl hk)
      · obtain ⟨p, hp, hpc⟩ := hk
        exact ⟨p, (hne k hkv).trans hp, hpc⟩
    · rw [hphase] at hs ⊢
      obtain ⟨hrow, ht, _⟩ := hs
      rintro (⟨_, _, hins⟩ | ⟨_, hall⟩) k hk
      · cases hins
      · have hkv : k = values.paymentOrderId :=
          Option.some.inj (hk.symm.trans (row_related hrow ht))
        subst hkv
        exact hharmless.complete (Or.inr ((complete_iff values).mpr hall))

/-- A leg that is committed now was committed before or is the transaction's own,
and then its promise is kept. -/
theorem hasLeg_before_commit {s : Sessions n} {i : Fin n} {db : Database} {row : LedgerEntry}
    (hrow : (s.phase i).row = some row)
    (hledger : db.ledgerEntries = upsertRow ledgerEntries row s.committed.ledgerEntries)
    {k : PyStr}
    (hpromise : (s.phase i).Covering → row.relatedId = some k → PairComplete db k)
    (w : Option (Fin n)) (leg : Leg)
    (hw : HasLeg (Sessions.rowsOf { s.enter i .committed with committed := db } w) k leg) :
    ∃ w₀, HasLeg (s.rowsOf w₀) k leg ∧ (s.Covering w₀ → PairComplete db k ∨
      Sessions.Covering { s.enter i .committed with committed := db } w) := by
  obtain ⟨e, he, hrel, hty⟩ := hw
  cases w with
  | none =>
    change e ∈ db.ledgerEntries.rows at he
    rw [hledger] at he
    rcases mem_upsert he with rfl | he
    · exact ⟨some i, hasLeg_phase.mpr ⟨e, hrow, hrel, hty⟩,
        fun hcov => Or.inl (hpromise hcov hrel)⟩
    · exact ⟨none, ⟨e, he, hrel, hty⟩, fun hcov => hcov.elim⟩
  | some j =>
    change e ∈ ((s.enter i .committed).phase j).row.toList at he
    have hji : j ≠ i := by
      rintro rfl
      rw [enter_phase_self] at he
      cases he
    rw [enter_phase_ne s hji] at he
    refine ⟨some j, ⟨e, he, hrel, hty⟩, fun hcov => Or.inr ?_⟩
    change ((s.enter i .committed).phase j).Covering
    rw [enter_phase_ne s hji]
    exact hcov

/-- A commit keeps the invariant: its promise is now in the pair table. -/
theorem inv_commit {s : Sessions n} (hdistinct : Function.Injective fun i => (events i).txId)
    (h : Inv events s) {i : Fin n} {db : Database} (hc : s.Commits i db) :
    Inv events { s.enter i .committed with committed := db } := by
  obtain ⟨row, hrow, hledger, hother, hkeep, hpromise⟩ := hc.spec h
  have hself : (s.enter i .committed).phase i = .committed := enter_phase_self s i .committed
  have hne : ∀ {j}, j ≠ i → (s.enter i .committed).phase j = s.phase j :=
    fun hj => enter_phase_ne s hj .committed
  constructor
  case sound =>
    intro j
    by_cases hj : j = i
    · subst hj
      change ((s.enter j .committed).phase j).Sound (events j)
      rw [hself]
      trivial
    · change ((s.enter i .committed).phase j).Sound (events j)
      rw [hne hj]
      exact h.sound j
  case fresh =>
    intro j hj r hr
    change (s.enter i .committed).phase j ≠ .committed at hj
    have hji : j ≠ i := by
      rintro rfl
      exact hj hself
    rw [hne hji] at hj
    change r ∈ db.ledgerEntries.rows at hr
    rw [hledger] at hr
    rcases mem_upsert hr with rfl | hr
    · obtain ⟨t, rfl⟩ := (h.sound i).row hrow
      exact fun he => hji (hdistinct he).symm
    · exact h.fresh j hj r hr
  case lock =>
    intro j j' k hl hl'
    change ((s.enter i .committed).phase j).lock = some k at hl
    change ((s.enter i .committed).phase j').lock = some k at hl'
    by_cases hj : j = i
    · rw [hj, hself] at hl
      cases hl
    by_cases hj' : j' = i
    · rw [hj', hself] at hl'
      cases hl'
    rw [hne hj] at hl
    rw [hne hj'] at hl'
    exact h.lock j j' k hl hl'
  case harmless =>
    intro j row' values hj
    change (s.enter i .committed).phase j = .wrote row' values at hj
    have hji : j ≠ i := by
      rintro rfl
      rw [hself] at hj
      cases hj
    rw [hne hji] at hj
    have hfree : (s.phase i).lock ≠ some values.paymentOrderId :=
      fun hl => hji (h.lock i j _ hl (by rw [hj]; rfl)).symm
    intro p hp
    change p ∈ db.paymentLedgerPairs.find? values.paymentOrderId at hp
    rw [hother _ hfree] at hp
    exact h.harmless j row' values hj p hp
  case covered =>
    intro k leg w w' hw hw'
    obtain ⟨w₀, hw₀, hcov⟩ := hasLeg_before_commit hrow hledger (fun h => hpromise h k) w leg hw
    obtain ⟨w₀', hw₀', hcov'⟩ :=
      hasLeg_before_commit hrow hledger (fun h => hpromise h k) w' leg.opposite hw'
    rcases h.covered k leg w₀ w₀' hw₀ hw₀' with hcomplete | hc | hc
    · exact Or.inl (hkeep k hcomplete)
    · exact (hcov hc).imp_right Or.inl
    · exact (hcov' hc).imp_right Or.inr

theorem inv_step (htype : OrderEvents events)
    (hdistinct : Function.Injective fun i => (events i).txId) (s : Sessions n)
    (a : Fin n × Statement) (s' : Sessions n) (h : Inv events s) (hok : s.Benign events a)
    (hstep : step events s a = some s') : Inv events s' := by
  obtain ⟨i, statement⟩ := a
  rcases step_cases hstep with ⟨clock, phase, ha, rfl⟩ | ⟨db, _, hc, rfl⟩
  · exact inv_advance htype h ha hok clock
  · exact inv_commit hdistinct h hc

theorem inv_start {db : Database} (hpaired : Paired db)
    (hnew : ∀ i, db.ledgerEntries.find? (events i).txId = none) (now : DateTime) :
    Inv events (start n db now) where
  sound := fun _ => trivial
  fresh := fun i _ r hr => (find?_eq_none_iff _).mp (hnew i) r hr
  lock := fun i j k hl => by cases hl
  harmless := fun i row values hphase => by cases hphase
  covered := by
    have hready : ∀ (i : Fin n) {k leg}, ¬ HasLeg ((start n db now).rowsOf (some i)) k leg := by
      rintro i k leg ⟨e, he, _⟩
      cases he
    rintro k leg (_ | i) (_ | j) hw hw'
    · exact Or.inl (hpaired k ((Leg.forall_iff_opposite leg).mpr ⟨hw, hw'⟩))
    · exact absurd hw' (hready j)
    · exact absurd hw (hready i)
    · exact absurd hw (hready i)

end Sessions

/-- From a paired database, a run of benign statements over new transactions of
payment orders is paired in every state it reaches. -/
theorem benign_run_stays_paired {n : Nat} (events : Fin n → LedgerEntryUpserted)
    (htype : Sessions.OrderEvents events)
    (hdistinct : Function.Injective fun i => (events i).txId) (db : Database)
    (hnew : ∀ i, db.ledgerEntries.find? (events i).txId = none) (hpaired : Paired db)
    (now : DateTime) (run : List (Fin n × Statement)) (s : Sessions n)
    (hrun : runAll (Sessions.step events) (Sessions.start n db now) run = some s)
    (hok : Meets (Sessions.step events) (Sessions.Benign events) (Sessions.start n db now) run) :
    Paired s.committed := by
  have hinv : Sessions.Inv events s :=
    invariant_of_run (Sessions.inv_step htype hdistinct) (Sessions.inv_start hpaired hnew now)
      hok hrun
  intro k hlegs
  rcases hinv.covered k .payment none none (hlegs .payment) (hlegs .receive) with h | h | h
  · exact h
  · exact h.elim
  · exact h.elim

/-! ## Two transactions of one order -/

/-- A payment and its receiving leg, new to the ledger. -/
def twoLegs (i : Fin 2) : LedgerEntryUpserted :=
  if i = 0 then plainEvent "tx-1" "w1" "PAYMENT" "po-1"
  else plainEvent "tx-2" "w2" "RECEIVE" "po-1"

/-- One transaction after the other. -/
def serialRun : List (Fin 2 × Statement) :=
  (Sessions.script (.still 1)).map (fun st => (0, st)) ++
    (Sessions.script (.still 2)).map (fun st => (1, st))

theorem serialRun_stays_paired :
    ∃ s, runAll (Sessions.step twoLegs) (Sessions.start 2 Database.empty 0) serialRun = some s ∧
      Paired s.committed := by
  have hrun : (runAll (Sessions.step twoLegs) (Sessions.start 2 Database.empty 0)
      serialRun).isSome = true := by decide
  obtain ⟨s, hs⟩ := Option.isSome_iff_exists.mp hrun
  refine ⟨s, hs, benign_run_stays_paired twoLegs ?_ ?_ Database.empty ?_ ?_ 0 serialRun s hs ?_⟩
  · unfold Sessions.OrderEvents
    decide
  · unfold Function.Injective
    decide
  · decide
  · intro k hlegs
    obtain ⟨e, he, _⟩ := hlegs .payment
    cases he
  · decide

/-- Both transactions insert and look before either commits. -/
def raceRun : List (Fin 2 × Statement) :=
  [(0, .upsertLedger 1), (1, .upsertLedger 2), (0, .selectEntries .heap),
    (1, .selectEntries .heap), (0, .selectOrder 3), (0, .selectPair), (0, .readClock 4),
    (0, .upsertPair), (0, .commit), (1, .selectOrder 5), (1, .selectPair), (1, .readClock 6),
    (1, .upsertPair), (1, .commit)]

/-- The race starts paired, commits both transactions and ends unpaired. -/
theorem raceRun_loses_pairing :
    Paired Database.empty ∧ Sessions.OrderEvents twoLegs ∧
      (Function.Injective fun i => (twoLegs i).txId) ∧
      (∀ i, Database.empty.ledgerEntries.find? (twoLegs i).txId = none) ∧
      ∃ s ∈ runAll (Sessions.step twoLegs) (Sessions.start 2 Database.empty 0) raceRun,
        (∀ i, s.phase i = .committed) ∧ ¬ Paired s.committed := by
  refine ⟨fun k hlegs => ?_, by unfold Sessions.OrderEvents; decide,
    by unfold Function.Injective; decide, by decide, ?_⟩
  · obtain ⟨e, he, _⟩ := hlegs .payment
    cases he
  have hend : ∃ s ∈ runAll (Sessions.step twoLegs) (Sessions.start 2 Database.empty 0) raceRun,
      (∀ i, s.phase i = .committed) ∧
      (∀ leg, HasLeg s.committed.ledgerEntries.rows (py "po-1") leg) ∧
      ∀ p ∈ s.committed.paymentLedgerPairs.find? (py "po-1"), ¬ p.Complete := by decide
  obtain ⟨s, hs, hdone, hlegs, hincomplete⟩ := hend
  refine ⟨s, hs, hdone, fun hpaired => ?_⟩
  obtain ⟨p, hp, hc⟩ := hpaired (py "po-1") hlegs
  exact hincomplete p hp hc

end TxLookup.Consumer

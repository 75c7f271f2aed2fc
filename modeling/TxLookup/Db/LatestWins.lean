import TxLookup.Db.Upsert

/-!
# Runs of latest-wins upserts

A run of upserts seen at one key is a run of offers to a register, compared by
`Stamp.replaces`. The results cover both versioned tables, rows of other keys
interleaved arbitrarily, and any ingestion times unless stated otherwise.
-/
namespace TxLookup.Db.LatestWins

open Library Library.Settle KeyedTable

variable {ρ : Type} (T : StampedTable ρ)

/-- The upserts of a list of rows, in order. -/
def upsertRun (events : List ρ) (t : T.Table) : T.Table :=
  events.foldl (fun t r => upsertRow T.toTableDef r t) t

/-- At an absent key, a run settles the events of that key. -/
theorem find?_upsertRun {t : T.Table} {k : PyStr} (habs : t.find? k = none) (events : List ρ) :
    (upsertRun T events t).find? k = settle T.wins (events.filter (fun e => T.key e = k)) := by
  have h := find?_upsertAll T.wins events t k
  rw [habs] at h
  exact h

theorem upsertRun_filter {t : T.Table} {k : PyStr} (events : List ρ) (p : ρ → Bool)
    (hp : ∀ e ∈ events, T.key e = k → p e = true) :
    (upsertRun T (events.filter p) t).find? k = (upsertRun T events t).find? k := by
  have he := find?_upsertAll T.wins (events.filter p) t k
  have he' := find?_upsertAll T.wins events t k
  rw [List.filter_filter] at he
  refine he.trans (Eq.trans ?_ he'.symm)
  congr 1
  apply List.filter_congr
  intro e hmem
  by_cases hk : T.key e = k
  · simp [hk, hp e hmem hk]
  · simp [hk]

/-- A ledger event of transaction `tx-1` with the given metadata. -/
def sampleEntry (wallet : String) (updatedAt : Option DateTime) (sourceVersion : Option Int)
    (ingestedAt : DateTime) : LedgerEntry where
  txId := py "tx-1"
  walletId := py wallet
  entryType := py "PAYMENT"
  amount := .finite false 1000 (-2)
  amountSigned := none
  relatedId := some (py "po-1")
  relatedType := some (py "PAYMENT_ORDER")
  eventTime := 0
  createdAt := 0
  updatedAt := updatedAt
  sourceVersion := sourceVersion
  ingestedAt := ingestedAt

/-- An order event of order `po-1` with the given metadata. -/
def sampleOrder (status : String) (updatedAt : Option DateTime) (sourceVersion : Option Int)
    (ingestedAt : DateTime) : PaymentOrder where
  orderId := py "po-1"
  userId := none
  merchantName := none
  amount := .finite false 1000 (-2)
  status := py status
  createdAt := 0
  updatedAt := updatedAt
  sourceVersion := sourceVersion
  ingestedAt := ingestedAt

/-! ## Classes of metadata -/

/-- Which kind of metadata decides among a key's events. -/
inductive MetadataClass where
  | updatedAt
  | sourceVersion
  | ingestedAt

/-- The event belongs to the class: stamped, versioned without a stamp, or neither. -/
def MetadataClass.Holds : MetadataClass → Stamp → Prop
  | .updatedAt, s => s.updatedAt.isSome
  | .sourceVersion, s => s.updatedAt = none ∧ s.sourceVersion.isSome
  | .ingestedAt, s => s.updatedAt = none ∧ s.sourceVersion = none

instance : ∀ (c : MetadataClass) (s : Stamp), Decidable (c.Holds s)
  | .updatedAt, s => inferInstanceAs (Decidable (s.updatedAt.isSome = true))
  | .sourceVersion, s => inferInstanceAs (Decidable (s.updatedAt = none ∧ s.sourceVersion.isSome = true))
  | .ingestedAt, s => inferInstanceAs (Decidable (s.updatedAt = none ∧ s.sourceVersion = none))

/-- The column that decides in the class; the default is never read there. -/
def MetadataClass.rank : MetadataClass → Stamp → Int
  | .updatedAt, s => s.updatedAt.getD 0
  | .sourceVersion, s => s.sourceVersion.getD 0
  | .ingestedAt, s => s.ingestedAt

/-- Inside a class the three-branch predicate is a comparison of ranks. -/
theorem replaces_of_class (c : MetadataClass) {new old : Stamp} (hn : c.Holds new)
    (ho : c.Holds old) : new.replaces old = decide (c.rank old ≤ c.rank new) := by
  obtain ⟨u, v, i⟩ := new
  obtain ⟨u', v', i'⟩ := old
  cases c with
  | updatedAt =>
    obtain ⟨a, rfl⟩ := Option.isSome_iff_exists.mp hn
    obtain ⟨b, rfl⟩ := Option.isSome_iff_exists.mp ho
    simp only [Stamp.replaces, MetadataClass.rank, Option.all_some, Option.getD_some]
    rfl
  | sourceVersion =>
    obtain ⟨rfl, hv⟩ := hn
    obtain ⟨rfl, hv'⟩ := ho
    obtain ⟨a, rfl⟩ := Option.isSome_iff_exists.mp hv
    obtain ⟨b, rfl⟩ := Option.isSome_iff_exists.mp hv'
    simp only [Stamp.replaces, MetadataClass.rank, Option.all_some, Option.getD_some]
    rfl
  | ingestedAt =>
    obtain ⟨rfl, rfl⟩ := hn
    obtain ⟨rfl, rfl⟩ := ho
    simp only [Stamp.replaces, MetadataClass.rank, Option.isNone_none, Bool.true_and]
    rfl

theorem wins_of_class {c : MetadataClass} {k : PyStr} {rows : List ρ}
    (hc : ∀ r ∈ rows, T.key r = k → c.Holds (T.stamp r)) :
    ∀ x ∈ rows.filter (fun r => T.key r = k), ∀ y ∈ rows.filter (fun r => T.key r = k),
      T.wins x y = decide (c.rank (T.stamp y) ≤ c.rank (T.stamp x)) := by
  intro x hx y hy
  obtain ⟨hx, hxk⟩ := List.mem_filter.mp hx
  obtain ⟨hy, hyk⟩ := List.mem_filter.mp hy
  rw [T.wins_stamp]
  exact replaces_of_class c (hc x hx (of_decide_eq_true hxk)) (hc y hy (of_decide_eq_true hyk))

/-! ## The last event of greatest rank -/

/-- The statements for a list of values, in order. One that raises leaves the table. -/
def latestWinsRun (events : List ρ) (t : T.Table) : T.Table :=
  events.foldl (fun t values => (latestWinsUpsert T values t).getD t) t

theorem latestWinsRun_eq (events : List ρ) (t : T.Table) :
    latestWinsRun T events t = upsertRun T ((events.filter T.accepted).map T.held) t := by
  induction events generalizing t with
  | nil => rfl
  | cons values events ih =>
    rw [latestWinsRun, List.foldl_cons, ← latestWinsRun, ih, latestWinsUpsert]
    cases haccepted : T.accepted values with
    | false => rw [List.filter_cons_of_neg (by simp [haccepted])]; rfl
    | true => rw [List.filter_cons_of_pos haccepted]; rfl

/-- What is stored at a key comes from the accepted events of the key. -/
theorem filter_stored (events : List ρ) (k : PyStr) :
    ((events.filter T.accepted).map T.held).filter (fun r => T.key r = k) =
      (events.filter (fun e => T.key e = k ∧ T.accepted e = true)).map T.held := by
  rw [List.filter_map, List.filter_filter]
  congr 1
  refine List.filter_congr fun e _ => ?_
  simp only [Function.comp_apply, T.key_held, Bool.decide_and, Bool.decide_eq_true]

/-- Of the events of a key that the columns accept, the last one of greatest rank is
what a run leaves there, with each value as its column holds it, and other keys never
notice the run of this one. -/
theorem final_row_is_last_max (c : MetadataClass) (k : PyStr) (t : T.Table)
    (habs : t.find? k = none) (events : List ρ)
    (hne : ∃ e ∈ events, T.key e = k ∧ T.accepted e = true)
    (hc : ∀ e ∈ events, T.key e = k → T.accepted e = true → c.Holds (T.stamp e)) :
    (∃ m, (latestWinsRun T events t).find? k = some (T.held m) ∧
      LastMax (fun e => c.rank (T.stamp e))
        (events.filter (fun e => T.key e = k ∧ T.accepted e = true)) m) ∧
    ∀ k', k' ≠ k → (latestWinsRun T events t).find? k' =
      (latestWinsRun T (events.filter (fun e => T.key e ≠ k)) t).find? k' := by
  constructor
  · have hclass : ∀ r ∈ (events.filter T.accepted).map T.held, T.key r = k →
        c.Holds (T.stamp r) := by
      intro r hr hk
      obtain ⟨e, he, rfl⟩ := List.mem_map.mp hr
      obtain ⟨he, haccepted⟩ := List.mem_filter.mp he
      rw [T.key_held] at hk
      rw [T.stamp_held]
      exact hc e he hk haccepted
    have hwins := wins_of_class T hclass
    rw [filter_stored] at hwins
    rw [latestWinsRun_eq, find?_upsertRun T habs, filter_stored]
    obtain ⟨e, he, hk, haccepted⟩ := hne
    obtain ⟨r, hr, hmax⟩ := settle_lastMax hwins (List.ne_nil_of_mem (List.mem_map_of_mem
      (List.mem_filter.mpr ⟨he, decide_eq_true ⟨hk, haccepted⟩⟩)))
    obtain ⟨m, rfl, hlast⟩ := hmax.of_map
    exact ⟨m, hr, by simpa only [T.stamp_held] using hlast⟩
  · intro k' hk'
    have hothers : ((events.filter (fun e => T.key e ≠ k)).filter T.accepted).map T.held =
        ((events.filter T.accepted).map T.held).filter (fun r => T.key r ≠ k) := by
      rw [List.filter_comm, List.filter_map]
      congr 1
      exact List.filter_congr fun e _ => by simp only [Function.comp_apply, T.key_held]
    rw [latestWinsRun_eq, latestWinsRun_eq, hothers]
    refine (upsertRun_filter T _ _ ?_).symm
    intro r _ hr
    rw [hr]
    simpa using hk'

/-- Three stamped events of one transaction, the first two tied. -/
def tiedEntries : List LedgerEntry :=
  [sampleEntry "w1" (some 2) none 5, sampleEntry "w2" (some 2) (some 1) 4,
    sampleEntry "w3" (some 1) none 9]

theorem final_row_of_tied_stamps :
    (∃ m, (latestWinsRun ledgerEntriesStamped tiedEntries KeyedTable.empty).find? (py "tx-1") =
        some (ledgerEntriesStamped.held m) ∧
      LastMax (fun e => MetadataClass.updatedAt.rank (ledgerEntriesStamped.stamp e))
        (tiedEntries.filter (fun e => ledgerEntriesStamped.key e = py "tx-1" ∧
          ledgerEntriesStamped.accepted e = true)) m) ∧
    ∀ k', k' ≠ py "tx-1" →
      (latestWinsRun ledgerEntriesStamped tiedEntries KeyedTable.empty).find? k' =
        (latestWinsRun ledgerEntriesStamped
          (tiedEntries.filter (fun e => ledgerEntriesStamped.key e ≠ py "tx-1"))
          KeyedTable.empty).find? k' :=
  final_row_is_last_max ledgerEntriesStamped .updatedAt (py "tx-1") KeyedTable.empty rfl tiedEntries
    ⟨_, List.mem_cons_self, rfl, by decide⟩ (by decide)

/-- A stamped event with a third fractional digit. -/
def thirdDigitEntry : LedgerEntry :=
  { sampleEntry "w1" (some 2) none 5 with amount := .finite false 1 (-3) }

/-- It is the only event of its key, and the column stores another amount. -/
theorem final_row_is_rounded :
    MetadataClass.updatedAt.Holds (ledgerEntriesStamped.stamp thirdDigitEntry) ∧
      ¬ ∃ m, (latestWinsRun ledgerEntriesStamped [thirdDigitEntry] KeyedTable.empty).find?
          (py "tx-1") = some m ∧
        LastMax (fun e => MetadataClass.updatedAt.rank (ledgerEntriesStamped.stamp e))
          ([thirdDigitEntry].filter (fun e => ledgerEntriesStamped.key e = py "tx-1")) m := by
  refine ⟨by decide, ?_⟩
  rintro ⟨m, hm, pre, post, hl, -, -⟩
  have hmem : m ∈ [thirdDigitEntry].filter
      (fun e => ledgerEntriesStamped.key e = py "tx-1") := by
    rw [hl]
    exact List.mem_append_right _ List.mem_cons_self
  obtain rfl := List.mem_singleton.mp (List.mem_filter.mp hmem).1
  revert hm
  decide

/-! ## Runs under a clock that never goes back -/

/-- The ingestion times of the rows never decrease. -/
def IngestedInOrder (rows : List ρ) : Prop :=
  rows.Pairwise (fun old new => (T.stamp old).ingestedAt ≤ (T.stamp new).ingestedAt)

/-- Seen without ingestion times, such a run settles the rows without them. -/
theorem find?_upsertRun_business {t : T.Table} {k : PyStr} (habs : t.find? k = none)
    {rows : List ρ} (hclock : IngestedInOrder T rows) :
    ((upsertRun T rows t).find? k).map T.business =
      settle T.wins ((rows.map T.business).filter (fun r => T.key r = k)) := by
  have hfilter : (rows.map T.business).filter (fun r => T.key r = k) =
      (rows.filter (fun r => T.key r = k)).map T.business := by
    rw [List.filter_map]
    congr 1
    exact List.filter_congr (fun r _ => by
      simp only [Function.comp_apply, StampedTable.business, T.key_restamp])
  rw [find?_upsertRun T habs, hfilter]
  apply settle_map
  refine (hclock.sublist List.filter_sublist).imp ?_
  intro old new hle
  rw [T.wins_stamp, T.wins_stamp, StampedTable.business, StampedTable.business,
    T.stamp_restamp, T.stamp_restamp]
  simp only [Stamp.replaces, hle, le_refl]

/-- The events of a key belong to one class, of the allowed ones. -/
def OneClass (allowed : MetadataClass → Prop) (rows : List ρ) : Prop :=
  ∀ k, ∃ c, allowed c ∧ ∀ r ∈ rows, T.key r = k → c.Holds (T.stamp r)

/-- Rows of one key and one class that tie are identical. -/
def TiesIdentical (rows : List ρ) : Prop :=
  ∀ c : MetadataClass, ∀ r ∈ rows, ∀ r' ∈ rows, T.key r = T.key r' → c.Holds (T.stamp r) →
    c.Holds (T.stamp r') → c.rank (T.stamp r) = c.rank (T.stamp r') → r = r'

theorem OneClass.subset {T : StampedTable ρ} {allowed : MetadataClass → Prop} {rows rows' : List ρ}
    (h : OneClass T allowed rows) (hsub : rows' ⊆ rows) : OneClass T allowed rows' := by
  intro k
  obtain ⟨c, hallowed, hc⟩ := h k
  exact ⟨c, hallowed, fun r hr => hc r (hsub hr)⟩

theorem TiesIdentical.subset {T : StampedTable ρ} {rows rows' : List ρ} (h : TiesIdentical T rows)
    (hsub : rows' ⊆ rows) : TiesIdentical T rows' :=
  fun c r hr r' hr' => h c r (hsub hr) r' (hsub hr')

/-- The same rows, of one class per key, end alike in any order and however often
each is written. -/
theorem upsertRun_same {allowed : MetadataClass → Prop} {rows₁ rows₂ : List ρ}
    (hclock₁ : IngestedInOrder T rows₁) (hclock₂ : IngestedInOrder T rows₂)
    (hsame : ∀ r, r ∈ rows₁.map T.business ↔ r ∈ rows₂.map T.business)
    (hclass : OneClass T allowed (rows₁.map T.business))
    (hties : TiesIdentical T (rows₁.map T.business)) (k : PyStr) :
    ((upsertRun T rows₁ KeyedTable.empty).find? k).map T.business =
      ((upsertRun T rows₂ KeyedTable.empty).find? k).map T.business := by
  rw [find?_upsertRun_business T rfl hclock₁, find?_upsertRun_business T rfl hclock₂]
  obtain ⟨c, _, hc⟩ := hclass k
  refine settle_same_of_rank (fun r => ?_) (wins_of_class T hc) ?_
  · rw [List.mem_filter, List.mem_filter, hsame]
  intro x hx y hy hrank
  obtain ⟨hx, hxk⟩ := List.mem_filter.mp hx
  obtain ⟨hy, hyk⟩ := List.mem_filter.mp hy
  have hxk := of_decide_eq_true hxk
  have hyk := of_decide_eq_true hyk
  exact hties c x hx y hy (hxk.trans hyk.symm) (hc x hx hxk) (hc y hy hyk) hrank

/-- Replaying a suffix of such rows changes nothing but ingestion times. -/
theorem upsertRun_replay {allowed : MetadataClass → Prop} {rows again : List ρ}
    (hclock : IngestedInOrder T (rows ++ again))
    (hs : again.map T.business <:+ rows.map T.business)
    (hclass : OneClass T allowed (rows.map T.business)) (k : PyStr) :
    ((upsertRun T (rows ++ again) KeyedTable.empty).find? k).map T.business =
      ((upsertRun T rows KeyedTable.empty).find? k).map T.business := by
  have hclock' : IngestedInOrder T rows := hclock.sublist (List.sublist_append_left rows again)
  rw [find?_upsertRun_business T rfl hclock, find?_upsertRun_business T rfl hclock',
    List.map_append, List.filter_append]
  obtain ⟨c, _, hc⟩ := hclass k
  exact settle_replay (wins_of_class T hc) (hs.filter _)

/-! ## Events without metadata -/

theorem versioned_replaces {new old : Stamp} (hn : new.versioned = true)
    (ho : old.versioned = false) : new.replaces old = true := by
  obtain ⟨u, v, i⟩ := new
  obtain ⟨u', v', i'⟩ := old
  cases u <;> cases v <;> cases u' <;> cases v' <;> simp_all [Stamp.versioned, Stamp.replaces]

theorem unversioned_not_replaces {new old : Stamp} (hn : new.versioned = false)
    (ho : old.versioned = true) : new.replaces old = false := by
  obtain ⟨u, v, i⟩ := new
  obtain ⟨u', v', i'⟩ := old
  cases u <;> cases v <;> cases u' <;> cases v' <;> simp_all [Stamp.versioned, Stamp.replaces]

/-- Once a key has seen an event with metadata, its row is the one the events
with metadata alone produce, ingestion time included. -/
theorem unversioned_never_influences (k : PyStr) (t : T.Table) (habs : t.find? k = none)
    (events : List ρ) (hv : ∃ e ∈ events, T.key e = k ∧ (T.stamp e).versioned = true) :
    (upsertRun T events t).find? k =
      (upsertRun T (events.filter (fun e => (T.stamp e).versioned)) t).find? k := by
  rw [find?_upsertRun T habs, find?_upsertRun T habs, List.filter_comm]
  apply settle_filter
  · intro x _ y _ hx hy
    rw [T.wins_stamp]
    exact versioned_replaces hx hy
  · intro x _ y _ hx hy
    rw [T.wins_stamp]
    exact unversioned_not_replaces hx hy
  · obtain ⟨e, he, hk, hev⟩ := hv
    exact ⟨e, List.mem_filter.mpr ⟨he, by simpa using hk⟩, hev⟩

/-- An order first seen without metadata, then with a version, then without again. -/
def partlyVersionedOrders : List PaymentOrder :=
  [sampleOrder "NEW" none none 7, sampleOrder "PAID" none (some 1) 3, sampleOrder "OLD" none none 9]

theorem versioned_order_ignores_the_rest :
    (upsertRun paymentOrdersStamped partlyVersionedOrders KeyedTable.empty).find? (py "po-1") =
      (upsertRun paymentOrdersStamped
        (partlyVersionedOrders.filter (fun e => (paymentOrdersStamped.stamp e).versioned))
        KeyedTable.empty).find? (py "po-1") :=
  unversioned_never_influences paymentOrdersStamped (py "po-1") KeyedTable.empty rfl
    partlyVersionedOrders ⟨sampleOrder "PAID" none (some 1) 3, by decide, rfl, rfl⟩

/-! ## Convergence for mixed metadata -/

/-- Any two orders of the events, with any ingestion times, end in one row. -/
def Converges (k : PyStr) (events : List ρ) : Prop :=
  ∀ (t₁ t₂ : T.Table) (l₁ l₂ : List ρ), t₁.find? k = none → t₂.find? k = none →
    (l₁.map T.business).Perm (events.map T.business) →
    (l₂.map T.business).Perm (events.map T.business) →
    ((upsertRun T l₁ t₁).find? k).map T.business = ((upsertRun T l₂ t₂).find? k).map T.business

/-- The events of one key: each carries metadata, and no two of them agree on
the update stamp and the version together. -/
structure MixedEvents (k : PyStr) (events : List ρ) : Prop where
  sameKey : ∀ e ∈ events, T.key e = k
  carries : ∀ e ∈ events, (T.stamp e).versioned = true
  distinct : (events.map fun e => ((T.stamp e).updatedAt, (T.stamp e).sourceVersion)).Nodup

/-- `m` is strictly newer than `x`: a later update stamp where both have one, and
a larger version where `x` has no update stamp. -/
def Outranks (m x : Stamp) : Prop :=
  match m.updatedAt, x.updatedAt with
  | some u, some u' => u' < u
  | none, some _ => False
  | _, none => ∃ c, m.sourceVersion = some c ∧ ∀ d, x.sourceVersion = some d → d < c

theorem outranks_iff {m x : Stamp} (hm : m.versioned = true) (hx : x.versioned = true) :
    Outranks m x ↔ m.replaces x = true ∧ x.replaces m = false := by
  obtain ⟨u, v, i⟩ := m
  obtain ⟨u', v', i'⟩ := x
  cases u <;> cases v <;> cases u' <;> cases v' <;>
    simp_all [Outranks, Stamp.replaces, Stamp.versioned]
  all_goals exact le_of_lt

theorem wins_business {new old : ρ} (hn : (T.stamp new).versioned = true) :
    T.wins new old = T.wins (T.business new) (T.business old) := by
  rw [T.wins_stamp, T.wins_stamp, StampedTable.business, StampedTable.business,
    T.stamp_restamp, T.stamp_restamp]
  generalize T.stamp new = n at hn
  generalize T.stamp old = o
  obtain ⟨u, v, i⟩ := n
  cases u <;> cases v <;> simp_all [Stamp.replaces, Stamp.versioned]

theorem business_business (r : ρ) : T.business (T.business r) = T.business r :=
  T.restamp_restamp 0 0 r

/-- The run of one order of the events, seen without ingestion times. -/
theorem run_business {k : PyStr} {events l : List ρ} (h : MixedEvents T k events) {t : T.Table}
    (habs : t.find? k = none) (hp : (l.map T.business).Perm (events.map T.business)) :
    ((upsertRun T l t).find? k).map T.business = settle T.wins (l.map T.business) := by
  have hmem : ∀ e ∈ l, T.key e = k ∧ (T.stamp e).versioned = true := by
    intro e he
    obtain ⟨x, hx, hxe⟩ := List.mem_map.mp (hp.mem_iff.mp (List.mem_map_of_mem he))
    have hkey := congrArg T.key hxe
    have hstamp := congrArg (fun r => (T.stamp r).versioned) hxe
    simp only [StampedTable.business, T.key_restamp, T.stamp_restamp, Stamp.versioned] at hkey hstamp
    exact ⟨hkey ▸ h.sameKey x hx, by
      have hc := h.carries x hx
      simp only [Stamp.versioned] at hc ⊢
      rwa [← hstamp]⟩
  have hf : l.filter (fun e => T.key e = k) = l :=
    List.filter_eq_self.mpr (fun e he => by simpa using (hmem e he).1)
  rw [find?_upsertRun T habs, hf]
  apply settle_map
  apply List.pairwise_of_forall_mem_list
  intro old _ new hnew
  exact wins_business T (hmem new hnew).2

theorem MixedEvents.business_inj {T : StampedTable ρ} {k : PyStr} {events : List ρ}
    (h : MixedEvents T k events) :
    ∀ x ∈ events, ∀ y ∈ events, T.business x = T.business y → x = y := by
  intro x hx y hy he
  refine List.inj_on_of_nodup_map h.distinct hx hy ?_
  have hs := congrArg T.stamp he
  simp only [StampedTable.business, T.stamp_restamp, Stamp.mk.injEq, and_true] at hs
  exact Prod.ext hs.1 hs.2

/-- Convergence is a matter of the registers alone: tables and ingestion times drop out. -/
theorem converges_iff_settle {k : PyStr} {events : List ρ} (h : MixedEvents T k events) :
    Converges T k events ↔ ∀ l₁ l₂ : List ρ, l₁.Perm (events.map T.business) →
      l₂.Perm (events.map T.business) → settle T.wins l₁ = settle T.wins l₂ := by
  constructor
  · intro hc l₁ l₂ h₁ h₂
    have hid : ∀ l : List ρ, l.Perm (events.map T.business) → l.map T.business = l := by
      intro l hl
      refine (List.map_congr_left (fun x hx => ?_)).trans (List.map_id l)
      obtain ⟨e, _, rfl⟩ := List.mem_map.mp (hl.mem_iff.mp hx)
      exact business_business T e
    have hr := hc KeyedTable.empty KeyedTable.empty l₁ l₂ rfl rfl
      (by rwa [hid l₁ h₁]) (by rwa [hid l₂ h₂])
    rw [run_business T h rfl (by rwa [hid l₁ h₁]), run_business T h rfl (by rwa [hid l₂ h₂]),
      hid l₁ h₁, hid l₂ h₂] at hr
    exact hr
  · intro hc t₁ t₂ l₁ l₂ ha₁ ha₂ h₁ h₂
    rw [run_business T h ha₁ h₁, run_business T h ha₂ h₂]
    exact hc _ _ h₁ h₂

/-- Mixed metadata converges exactly when there is no event at all or one event
that is strictly newer than every other. -/
theorem converges_iff_outranked (k : PyStr) (events : List ρ) (h : MixedEvents T k events) :
    Converges T k events ↔
      events = [] ∨ ∃ m ∈ events, ∀ x ∈ events, x ≠ m → Outranks (T.stamp m) (T.stamp x) := by
  have hnd : (events.map T.business).Nodup :=
    h.distinct.of_map _ |>.map_on (fun x hx y hy he => h.business_inj x hx y hy he)
  have hout : ∀ m ∈ events, ∀ x ∈ events, Outranks (T.stamp m) (T.stamp x) ↔
      T.wins (T.business m) (T.business x) = true ∧ T.wins (T.business x) (T.business m) = false := by
    intro m hm x hx
    rw [outranks_iff (h.carries m hm) (h.carries x hx), ← wins_business T (h.carries m hm),
      ← wins_business T (h.carries x hx), T.wins_stamp, T.wins_stamp]
  rw [converges_iff_settle T h, settle_perm_iff hnd, List.map_eq_nil_iff]
  apply or_congr Iff.rfl
  constructor
  · rintro ⟨b, hb, htop⟩
    obtain ⟨m, hm, rfl⟩ := List.mem_map.mp hb
    refine ⟨m, hm, fun x hx hne => (hout m hm x hx).mpr ?_⟩
    exact htop _ (List.mem_map_of_mem hx) (fun he => hne (h.business_inj x hx m hm he))
  · rintro ⟨m, hm, hmax⟩
    refine ⟨T.business m, List.mem_map_of_mem hm, fun y hy hne => ?_⟩
    obtain ⟨x, hx, rfl⟩ := List.mem_map.mp hy
    exact (hout m hm x hx).mp (hmax x hx (fun he => hne (congrArg T.business he)))

/-- Two events whose update stamps differ. -/
def stampedEntries : List LedgerEntry :=
  [sampleEntry "w1" (some 1) none 0, sampleEntry "w2" (some 2) none 0]

theorem stampedEntries_converge_iff :
    Converges ledgerEntriesStamped (py "tx-1") stampedEntries ↔
      stampedEntries = [] ∨ ∃ m ∈ stampedEntries, ∀ x ∈ stampedEntries, x ≠ m →
        Outranks (ledgerEntriesStamped.stamp m) (ledgerEntriesStamped.stamp x) :=
  converges_iff_outranked ledgerEntriesStamped (py "tx-1") stampedEntries
    ⟨by decide, by decide, by decide⟩

/-- A stamped event and a version-only event of one transaction. -/
def mixedEntries : List LedgerEntry :=
  [sampleEntry "w1" (some 5) none 0, sampleEntry "w2" none (some 1) 0]

/-- A stamped event and a version-only event of one order. -/
def mixedOrders : List PaymentOrder :=
  [sampleOrder "PAID" (some 5) none 0, sampleOrder "NEW" none (some 1) 0]

/-- Such events overwrite each other, in both tables: the last arrival stays. -/
theorem mixed_metadata_keeps_last_arrival :
    (MixedEvents ledgerEntriesStamped (py "tx-1") mixedEntries ∧
      ¬ Converges ledgerEntriesStamped (py "tx-1") mixedEntries) ∧
    MixedEvents paymentOrdersStamped (py "po-1") mixedOrders ∧
      ¬ Converges paymentOrdersStamped (py "po-1") mixedOrders := by
  refine ⟨⟨⟨by decide, by decide, by decide⟩, ?_⟩, ⟨by decide, by decide, by decide⟩, ?_⟩
  · intro hc
    have h := hc KeyedTable.empty KeyedTable.empty mixedEntries mixedEntries.reverse rfl rfl
      (List.Perm.refl _) ((List.reverse_perm mixedEntries).map _)
    revert h
    decide
  · intro hc
    have h := hc KeyedTable.empty KeyedTable.empty mixedOrders mixedOrders.reverse rfl rfl
      (List.Perm.refl _) ((List.reverse_perm mixedOrders).map _)
    revert h
    decide

end TxLookup.Db.LatestWins

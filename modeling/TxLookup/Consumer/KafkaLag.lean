import TxLookup.Consumer.Runtime
import TxLookup.Library.Assoc
import TxLookup.Library.JsonPieces

/-!
# The lag gauge

The lag of a partition is kept under its topic and its number, joined by a bar; the
callback splits them again at the last bar. A topic may have bars of its own. So the
gauge exports, for each partition a message has come from, the lag that was read with
its last message, and nothing else.
-/
namespace TxLookup.Consumer

open Library Library.JsonText

/-- The position of a message, with what `get_watermark_offsets` answers. -/
structure LagCall where
  topic : PyStr
  partition : Int
  offset : Int
  watermarks : Except PyExc (Option (Int × Int))

/-- The lag that is recorded; zero when the watermarks cannot be read. -/
def LagCall.lag (call : LagCall) : Int :=
  match call.watermarks with
  | .ok (some (_, high)) => max 0 (high - call.offset - 1)
  | .ok none | .error _ => 0

def lagKey (topic : PyStr) (partition : Int) : PyStr := topic ++ py "|" ++ dumpInt partition

/-- `_kafka_lag_values` after a call. -/
def recordKafkaLag (values : List (PyStr × Int)) (topic : PyStr) (partition lag : Int) :
    List (PyStr × Int) :=
  Assoc.set values (lagKey topic partition) (max 0 lag)

/-- `key.rsplit("|", 1)`, if it has two parts. -/
def rsplitBar (key : PyStr) : Option (PyStr × PyStr) :=
  match key.reverse.dropWhile (· ≠ 124) with
  | [] => none
  | _ :: before => some (before.reverse, (key.reverse.takeWhile (· ≠ 124)).reverse)

structure LagObservation where
  value : Int
  topic : PyStr
  partition : PyStr

def observeLag (kv : PyStr × Int) : Option LagObservation :=
  (rsplitBar kv.1).map fun parts => ⟨kv.2, parts.1, parts.2⟩

/-- The callback; a key of one part would raise. -/
def kafkaLagCallback (values : List (PyStr × Int)) : Option (List LagObservation) :=
  values.mapM observeLag

/-- The values after a list of calls. -/
def recordLags (calls : List LagCall) : List (PyStr × Int) :=
  calls.foldl (fun values call => recordKafkaLag values call.topic call.partition call.lag) []

/-! ## The key of a partition -/

theorem bar_not_mem_dumpInt (n : Int) : 124 ∉ dumpInt n := by
  intro hbar
  rcases List.mem_append.mp hbar with hsign | hdigits
  · split at hsign
    · simp at hsign
    · cases hsign
  · have hdigit := isDigit_of_mem_digitText hdigits
    simp [isDigit] at hdigit

theorem rsplitBar_lagKey (topic : PyStr) (partition : Int) :
    rsplitBar (lagKey topic partition) = some (topic, dumpInt partition) := by
  have hbar : ∀ c ∈ (dumpInt partition).reverse, decide (c ≠ 124) = true := by
    intro c hc
    refine decide_eq_true fun heq => bar_not_mem_dumpInt partition ?_
    rw [← heq]
    exact List.mem_reverse.mp hc
  have hkey : (lagKey topic partition).reverse =
      (dumpInt partition).reverse ++ 124 :: topic.reverse := by
    simp [lagKey, py]
  rw [rsplitBar, hkey, List.dropWhile_append_of_pos hbar, List.takeWhile_append_of_pos hbar]
  simp

theorem dumpInt_injective : Function.Injective dumpInt := by
  intro m n h
  have hminus : ∀ k l : Nat, 45 :: digitText k ≠ digitText l := by
    intro k l heq
    have hdigit := @isDigit_of_mem_digitText l 45 (heq ▸ List.mem_cons_self)
    simp [isDigit] at hdigit
  have hdigits : ∀ k l : Nat, digitText k = digitText l → k = l := by
    intro k l heq
    rw [← intValue_digitText k, heq, intValue_digitText]
  have hnatAbs : ∀ n : Int, dumpInt n = (if n < 0 then [45] else []) ++ digitText n.natAbs :=
    fun _ => rfl
  rw [hnatAbs, hnatAbs] at h
  by_cases hm : m < 0 <;> by_cases hn : n < 0
  · simp only [if_pos hm, if_pos hn] at h
    have habs := hdigits _ _ (List.cons.inj h).2
    omega
  · simp only [if_pos hm, if_neg hn] at h
    exact absurd h (hminus _ _)
  · simp only [if_neg hm, if_pos hn] at h
    exact absurd h.symm (hminus _ _)
  · simp only [if_neg hm, if_neg hn] at h
    have habs := hdigits _ _ h
    omega

theorem lagKey_injective :
    Function.Injective fun part : PyStr × Int => lagKey part.1 part.2 := by
  intro part part' h
  have hsplit := congrArg rsplitBar h
  simp only [rsplitBar_lagKey, Option.some.injEq, Prod.mk.injEq] at hsplit
  exact Prod.ext hsplit.1 (dumpInt_injective hsplit.2)

/-! ## Every run -/

/-- The lag of each partition that a message has come from. -/
def partitionLags (calls : List LagCall) : List ((PyStr × Int) × Int) :=
  calls.foldl (fun d call => Assoc.set d (call.topic, call.partition) call.lag) []

/-- The lag read with the last message of a partition. -/
def lastLag (calls : List LagCall) (topic : PyStr) (partition : Int) : Option Int :=
  ((calls.filter fun call => call.topic = topic ∧ call.partition = partition).map
    LagCall.lag).getLast?

theorem LagCall.lag_nonneg (call : LagCall) : 0 ≤ call.lag := by
  unfold LagCall.lag
  split <;> omega

/-- Joined keys keep the partitions apart. -/
theorem recordLags_eq (calls : List LagCall) :
    recordLags calls = Assoc.rename (fun part => lagKey part.1 part.2) (partitionLags calls) := by
  induction calls using List.reverseRecOn with
  | nil => rfl
  | append_singleton calls call ih =>
    rw [recordLags, partitionLags, List.foldl_concat, List.foldl_concat, ← recordLags,
      ← partitionLags, ih, recordKafkaLag, max_eq_right call.lag_nonneg]
    exact Assoc.set_rename lagKey_injective _ (call.topic, call.partition) _

theorem lookup_partitionLags (calls : List LagCall) (topic : PyStr) (partition : Int) :
    (partitionLags calls).lookup (topic, partition) = lastLag calls topic partition := by
  induction calls using List.reverseRecOn with
  | nil => rfl
  | append_singleton calls call ih =>
    rw [partitionLags, List.foldl_concat, ← partitionLags, Assoc.lookup_set, ih, lastLag, lastLag,
      List.filter_append, List.map_append]
    by_cases hpart : call.topic = topic ∧ call.partition = partition
    · obtain ⟨rfl, rfl⟩ := hpart
      simp
    · have hne : (topic, partition) ≠ (call.topic, call.partition) := by
        intro heq
        obtain ⟨htopic, hpartition⟩ := Prod.mk.inj heq
        exact hpart ⟨htopic.symm, hpartition.symm⟩
      simp [hpart, hne]

theorem nodup_partitionLags (calls : List LagCall) : (Assoc.keys (partitionLags calls)).Nodup := by
  induction calls using List.reverseRecOn with
  | nil => exact List.nodup_nil
  | append_singleton calls call ih =>
    rw [partitionLags, List.foldl_concat]
    exact Assoc.nodup_keys_set ih _ _

def lagObservation (kv : (PyStr × Int) × Int) : LagObservation := ⟨kv.2, kv.1.1, dumpInt kv.1.2⟩

theorem kafkaLagCallback_rename (d : List ((PyStr × Int) × Int)) :
    kafkaLagCallback (Assoc.rename (fun part => lagKey part.1 part.2) d) =
      some (d.map lagObservation) := by
  induction d with
  | nil => rfl
  | cons kv d ih =>
    have hobserve : observeLag (lagKey kv.1.1 kv.1.2, kv.2) = some (lagObservation kv) := by
      rw [observeLag, rsplitBar_lagKey]
      rfl
    unfold kafkaLagCallback Assoc.rename at ih ⊢
    rw [List.map_cons, List.mapM_cons, hobserve, ih]
    rfl

/-- After any calls the callback raises nothing. It exports one value for each partition a
message has come from, which is the lag read with the last of them. -/
theorem lag_gauge_exact (calls : List LagCall) : ∃ observations,
    kafkaLagCallback (recordLags calls) = some observations ∧
    (observations.map fun o => (o.topic, o.partition)).Nodup ∧
    ∀ o : LagObservation, o ∈ observations ↔
      ∃ partition, o.partition = dumpInt partition ∧
        lastLag calls o.topic partition = some o.value := by
  refine ⟨(partitionLags calls).map lagObservation, ?_, ?_, fun o => ?_⟩
  · rw [recordLags_eq, kafkaLagCallback_rename]
  · rw [List.map_map]
    have hkeys : (fun o : LagObservation => (o.topic, o.partition)) ∘ lagObservation =
        (fun part : PyStr × Int => (part.1, dumpInt part.2)) ∘ Prod.fst := rfl
    rw [hkeys, ← List.map_map]
    refine (nodup_partitionLags calls).map fun part part' h => ?_
    obtain ⟨htopic, hpartition⟩ := Prod.mk.inj h
    exact Prod.ext htopic (dumpInt_injective hpartition)
  · constructor
    · intro ho
      obtain ⟨kv, hkv, rfl⟩ := List.mem_map.mp ho
      refine ⟨kv.1.2, rfl, ?_⟩
      rw [← lookup_partitionLags]
      exact Assoc.lookup_of_mem (nodup_partitionLags calls) hkv
    · rintro ⟨partition, hpartition, hlag⟩
      rw [← lookup_partitionLags] at hlag
      refine List.mem_map.mpr ⟨_, Assoc.mem_of_lookup hlag, ?_⟩
      rw [lagObservation, ← hpartition]

end TxLookup.Consumer

import TxLookup.Consumer.Main

/-!
# Which records are stored

The record of a failed message holds texts of the message: its topic, key and
value, and the correlation id found in it. The table stores the record if its
session works and the database takes these texts; the file if it can be written
and the texts encode.
-/
namespace TxLookup.Consumer

open Library Library.PyText Db

variable (rt : PyRuntime) (config : AppConfig)

/-- The texts of the message in its record. -/
def rowTexts (delivery : Delivery) (key : Option PyStr) : List PyStr :=
  [delivery.msg.topic] ++ key.toList ++ (payloadText delivery.msg).toList ++
    (correlationId rt delivery.msg).toList

/-- The other texts in the line of the file. -/
def lineTexts (delivery : Delivery) (exc : PyExc) : List PyStr :=
  [exc.str, config.profile.profileId, delivery.nowIso]

/-- The table takes the record. -/
def TableTakes (delivery : Delivery) (key : Option PyStr) : Prop :=
  config.dlqBackend = .db ∧ delivery.faults.sinks.session = true ∧
    ∀ text ∈ rowTexts rt delivery key, storable text = true

/-- The file takes the record. -/
def FileTakes (delivery : Delivery) (key : Option PyStr) (exc : PyExc) : Prop :=
  delivery.faults.sinks.file = true ∧
    ∀ text ∈ rowTexts rt delivery key ++ lineTexts config delivery exc, encodable text = true

variable {rt config}

/-- The record names the message. -/
def RecordFor (msg : Message) (payload : PyDict) : Prop :=
  payload.get (py "topic") = .str msg.topic ∧ payload.get (py "partition") = .int msg.partition ∧
    payload.get (py "offset") = .int msg.offset

theorem recordFor_dlqPayload (delivery : Delivery) (key : Option PyStr) (exc : PyExc) :
    RecordFor delivery.msg (dlqPayload rt config delivery key exc) := ⟨rfl, rfl, rfl⟩

theorem toText_optionalStr (s : Option PyStr) : toText rt (optionalStr s) = s := by
  cases s <;> rfl

theorem storable_textOrUnknown (s : PyStr) :
    storable (textOrUnknown rt (.str s)) = storable s := by
  have hor : rt.str ((Json.str s).or (.str [])) = s := by
    cases s <;> rfl
  rw [← storable_strip s, textOrUnknown, hor]
  split
  · next h => rw [h]; decide
  · next c cs h => rw [h]

theorem storable_classifyError (exc : PyExc) : storable (classifyError exc) = true := by
  cases exc <;> rfl

/-- The row of a failed message. -/
theorem dlqRow_dlqPayload (delivery : Delivery) (key : Option PyStr) (exc : PyExc)
    (now : DateTime) :
    dlqRow rt (dlqPayload rt config delivery key exc) now =
      { topic := textOrUnknown rt (.str delivery.msg.topic)
        partition := some delivery.msg.partition
        offset := some delivery.msg.offset
        key := key
        payload := payloadText delivery.msg
        error := textOrUnknown rt (.str (classifyError exc))
        correlationId := correlationId rt delivery.msg
        ingestedAt := now } := by
  rw [dlqRow, ConsumerDlqEvent.mk.injEq]
  exact ⟨rfl, rfl, rfl, toText_optionalStr key, toText_optionalStr _, rfl, toText_optionalStr _,
    rfl⟩

theorem all_toList (p : PyStr → Bool) (s : Option PyStr) : s.toList.all p = s.all p := by
  cases s <;> simp

theorem dlqRow_accepted (delivery : Delivery) (key : Option PyStr) (exc : PyExc)
    (now : DateTime) :
    (dlqRow rt (dlqPayload rt config delivery key exc) now).accepted =
      (rowTexts rt delivery key).all storable := by
  rw [dlqRow_dlqPayload, ConsumerDlqEvent.accepted, rowTexts]
  simp only [storable_textOrUnknown, storable_classifyError, Bool.and_true, List.all_append,
    all_toList, List.all_cons, List.all_nil]

theorem encodable_optionalStr (s : Option PyStr) :
    (optionalStr s).encodable rt.floatRepr = s.toList.all encodable := by
  cases s <;> simp [optionalStr, Json.encodable]

theorem encodable_classifyError (exc : PyExc) : encodable (classifyError exc) = true := by
  cases exc <;> rfl

theorem dlqLine_encodable (delivery : Delivery) (key : Option PyStr) (exc : PyExc) :
    encodable (dlqLine rt (dlqPayload rt config delivery key exc)) =
      (rowTexts rt delivery key ++ lineTexts config delivery exc).all encodable := by
  have hnewline : encodable (py "\n") = true := by decide
  have hkeys : ((dlqPayload rt config delivery key exc).map Prod.fst).all encodable = true := rfl
  have hvalues : (dlqPayload rt config delivery key exc).map Prod.snd =
      [.str delivery.msg.topic, .int delivery.msg.partition, .int delivery.msg.offset,
        optionalStr key, optionalStr (payloadText delivery.msg), .str (classifyError exc),
        .str exc.str, .str config.profile.profileId, optionalStr (correlationId rt delivery.msg),
        .str delivery.nowIso] := rfl
  rw [dlqLine, encodable_append, hnewline, Bool.and_true, PyRuntime.jsonDumps, encodable_dumps,
    Json.encodable, encodableFields_eq, hkeys, hvalues, rowTexts, lineTexts]
  simp only [List.all_cons, List.all_nil, List.all_append, encodable_optionalStr, Json.encodable,
    encodable_classifyError, Bool.and_true, Bool.true_and]
  ac_rfl

/-- A sink stores the record exactly if the table or the file takes it. -/
theorem storingSink_isSome (delivery : Delivery) (key : Option PyStr) (exc : PyExc) :
    (storingSink rt config.dlqBackend delivery.faults.sinks
        (dlqPayload rt config delivery key exc) delivery.now).isSome = true ↔
      TableTakes rt config delivery key ∨ FileTakes rt config delivery key exc := by
  rw [TableTakes, FileTakes, ← List.all_eq_true, ← List.all_eq_true,
    ← @dlqRow_accepted rt config delivery key exc delivery.now, ← dlqLine_encodable]
  unfold storingSink
  split
  · next h => exact ⟨fun _ => .inl h, fun _ => rfl⟩
  · next h =>
    split
    · next hf => exact ⟨fun _ => .inr hf, fun _ => rfl⟩
    · next hf =>
      constructor
      · intro hs
        cases hs
      · rintro (ht | hfile)
        · exact absurd ht h
        · exact absurd hfile hf

end TxLookup.Consumer

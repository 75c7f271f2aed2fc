import TxLookup.Consumer.Runtime

/-!
# Correlation ids

A correlation id comes from a message header or from the payload. Header values
are bytes, payload values are JSON; a value that does not decode or is blank
counts as absent.
-/
namespace TxLookup.Common

open Library Library.PyText Consumer

/-- A value a correlation id is read from. -/
inductive Carried where
  | bytes (bs : Bytes)
  | json (value : Json)

variable (rt : PyRuntime)

/-- `text or None` after stripping. -/
def blankToNone (text : PyStr) : Option PyStr :=
  match strip text with
  | [] => none
  | c :: cs => some (c :: cs)

def normalizeCorrelationId : Carried → Option PyStr
  | .bytes bs => (decode? bs).bind blankToNone
  | .json .null => none
  | .json value => blankToNone (rt.str value)

/-- Message headers: `None`, or keys with a value that may be `None`. -/
abbrev Headers := Option (List (PyStr × Option Bytes))

def headerKeys : List PyStr := [py "x-correlation-id", py "correlation-id", py "correlation_id"]

def payloadKeys : List PyStr := [py "correlation_id", py "correlationId", py "x_correlation_id"]

/-- The headers by lower-cased key; of equal keys the last one stays. -/
def normalizedHeaders (headers : List (PyStr × Option Bytes)) : List (PyStr × Option Bytes) :=
  ((headers.filter (fun kv => !kv.1.isEmpty)).map (fun kv => (lower kv.1, kv.2))).reverse

def extractCorrelationIdFromHeaders (headers : Headers) : Option PyStr :=
  match headers with
  | none => none
  | some headers =>
    match headerKeys.findSome? (fun key => (normalizedHeaders headers).lookup key) with
    | some (some bs) => normalizeCorrelationId rt (.bytes bs)
    | _ => none

def extractCorrelationIdFromPayload (payload : PyDict) : Option PyStr :=
  match payloadKeys.find? (fun key => PyDict.contains payload key) with
  | some key => normalizeCorrelationId rt (.json (payload.get key))
  | none => none

end TxLookup.Common

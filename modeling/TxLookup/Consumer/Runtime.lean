import TxLookup.Library.PyJson
import TxLookup.Db.Models

/-!
# Exceptions and library conversions

The exceptions the consumer can meet, with the text `str(exc)` gives, and the
conversions of Python's standard library the parser calls. The conversions are
a parameter: every theorem over a `PyRuntime` holds however they behave.
-/
namespace TxLookup.Consumer

open Library Db

/-- An exception and its message. `UnsupportedTopicError` and
`ContractCoreViolationError` are subclasses of `EventValidationError`. -/
inductive PyExc where
  | eventValidation (message : PyStr)
  | unsupportedTopic (message : PyStr)
  | contractCoreViolation (message : PyStr)
  | jsonDecode (message : PyStr)
  | unicode (message : PyStr)
  | overflow (message : PyStr)
  | other (message : PyStr)
  deriving DecidableEq, Repr

def PyExc.str : PyExc → PyStr
  | .eventValidation m | .unsupportedTopic m | .contractCoreViolation m | .jsonDecode m
  | .unicode m | .overflow m | .other m => m

/-- What `datetime.fromisoformat` returns: wall-clock microseconds since the
epoch and the UTC offset, if the text has one. -/
structure IsoDatetime where
  wall : Int
  utcoffset : Option Int

structure PyRuntime where
  /-- `json.loads` on bytes. -/
  jsonLoads : Bytes → Except PyExc Json
  /-- The text `json.dumps` gives a float. -/
  floatRepr : PyFloat → PyStr
  /-- `str` of a value that is not a text. -/
  strOf : Json → PyStr
  /-- `repr`. -/
  reprOf : Json → PyStr
  /-- `Decimal(text)`; `none` is an exception. -/
  decimal : PyStr → Option Decimal
  /-- `datetime.fromisoformat`; `none` is `ValueError`. -/
  fromisoformat : PyStr → Option IsoDatetime
  /-- `int(value)`; `none` is an exception. -/
  intOf : Json → Option Int

/-- Python's `str(value)`. -/
def PyRuntime.str (rt : PyRuntime) : Json → PyStr
  | .str s => s
  | v => rt.strOf v

/-- `json.dumps(value, ensure_ascii=False)`. -/
def PyRuntime.jsonDumps (rt : PyRuntime) (value : Json) : PyStr := value.dumps rt.floatRepr

end TxLookup.Consumer

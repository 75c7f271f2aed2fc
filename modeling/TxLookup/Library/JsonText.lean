import TxLookup.Library.PyJson
import TxLookup.Library.Assoc

/-!
# Reading JSON text

`json.loads` on a text, with the messages of its errors and the places they name.
The scanner takes a fuel that bounds its recursion; twice the length of the text is
always enough. Whatever is read has dictionaries with distinct keys and integers of
at most 4300 digits.
-/
namespace TxLookup.Library.JsonText

open PyText

/-- Why a text is refused. A place is given by the number of characters from it on. -/
inductive JsonError where
  /-- `JSONDecodeError`. -/
  | decode (message : PyStr) (left : Nat)
  /-- The `ValueError` of `int(text)` for too many digits. -/
  | digits (count : Nat)
  | fuel
  deriving DecidableEq, Repr

def fail {α : Type} (message : String) (s : PyStr) : Except JsonError α :=
  .error (.decode (py message) s.length)

def isWs (c : Nat) : Bool := c == 32 || c == 9 || c == 10 || c == 13

def skipWs (s : PyStr) : PyStr := s.dropWhile isWs

/-! ## Strings -/

def hexValue? (c : Nat) : Option Nat :=
  if 48 ≤ c ∧ c ≤ 57 then some (c - 48)
  else if 97 ≤ c ∧ c ≤ 102 then some (c - 87)
  else if 65 ≤ c ∧ c ≤ 70 then some (c - 55)
  else none

def hex4? (a b c d : Nat) : Option Nat := do
  let a ← hexValue? a
  let b ← hexValue? b
  let c ← hexValue? c
  let d ← hexValue? d
  return ((a * 16 + b) * 16 + c) * 16 + d

def isHigh (n : Nat) : Bool := 0xd800 ≤ n && n ≤ 0xdbff

def isLow (n : Nat) : Bool := 0xdc00 ≤ n && n ≤ 0xdfff

def joinSurrogates (high low : Nat) : Nat := 0x10000 + (high - 0xd800) * 1024 + (low - 0xdc00)

/-- The character after a backslash, other than `u`. -/
def simpleEscape? (c : Nat) : Option Nat :=
  if c = 34 ∨ c = 92 ∨ c = 47 then some c
  else if c = 98 then some 8
  else if c = 102 then some 12
  else if c = 110 then some 10
  else if c = 114 then some 13
  else if c = 116 then some 9
  else none

def push (c : Nat) (r : Except JsonError (PyStr × PyStr)) : Except JsonError (PyStr × PyStr) :=
  r.map fun p => (c :: p.1, p.2)

/-- The character of a `u` escape, from the text after the `u`, and the number of
characters it takes, the `u` included. A high surrogate is joined with the low one
that is escaped after it. -/
def unicodeEscape (s : PyStr) : Except JsonError (Nat × Nat) :=
  match s with
  | a :: b :: c :: d :: rest =>
    match hex4? a b c d with
    | none => fail "Invalid \\uXXXX escape" (117 :: s)
    | some n =>
      if rest = [] then fail "Invalid \\uXXXX escape" (117 :: s)
      else if isHigh n then
        match rest with
        | 92 :: 117 :: a' :: b' :: c' :: d' :: rest' =>
          if rest' = [] then .ok (n, 5)
          else
            match hex4? a' b' c' d' with
            | none => fail "Invalid \\uXXXX escape" (rest.drop 1)
            | some m => if isLow m then .ok (joinSurrogates n m, 11) else .ok (n, 5)
        | _ => .ok (n, 5)
      else .ok (n, 5)
  | s => fail "Invalid \\uXXXX escape" (117 :: s)

def unterminated {α : Type} (opening : Nat) : Except JsonError α :=
  .error (.decode (py "Unterminated string starting at") opening)

/-- The character of an escape, from the text after the backslash, and its length. -/
def scanEscape (opening : Nat) : PyStr → Except JsonError (Nat × Nat)
  | [] => unterminated opening
  | c :: s =>
    if c = 117 then unicodeEscape s
    else
      match simpleEscape? c with
      | some e => .ok (e, 1)
      | none => fail "Invalid \\escape" (92 :: c :: s)

/-- What follows the opening quote, up to the closing one, and the rest, after as
many characters as an escape has taken; `opening` is the place of the quote. -/
def scanString (opening : Nat) : Nat → PyStr → Except JsonError (PyStr × PyStr)
  | _, [] => unterminated opening
  | skip + 1, _ :: s => scanString opening skip s
  | 0, c :: s =>
    if c = 34 then .ok ([], s)
    else if c = 92 then
      match scanEscape opening s with
      | .ok (e, len) => push e (scanString opening len s)
      | .error e => .error e
    else if c < 32 then fail "Invalid control character at" (c :: s)
    else push c (scanString opening 0 s)

/-! ## Numbers -/

def isDigit (c : Nat) : Bool := 48 ≤ c && c ≤ 57

/-- A zero, or digits that do not begin with one. -/
def wholePart : PyStr → Option (PyStr × PyStr)
  | [] => none
  | c :: s =>
    if c = 48 then some ([48], s)
    else if isDigit c then some (c :: s.takeWhile isDigit, s.dropWhile isDigit)
    else none

/-- A point with digits, or nothing. -/
def fractionText : PyStr → PyStr × PyStr
  | 46 :: d :: s =>
    if isDigit d then (46 :: d :: s.takeWhile isDigit, s.dropWhile isDigit) else ([], 46 :: d :: s)
  | s => ([], s)

def exponentSign : PyStr → PyStr × PyStr
  | 43 :: s => ([43], s)
  | 45 :: s => ([45], s)
  | s => ([], s)

/-- `e` or `E` with an integer, or nothing. -/
def exponentText : PyStr → PyStr × PyStr
  | [] => ([], [])
  | e :: s =>
    let (sign, digits) := exponentSign s
    if (e = 101 ∨ e = 69) ∧ digits.head?.any isDigit = true then
      (e :: (sign ++ digits.takeWhile isDigit), digits.dropWhile isDigit)
    else ([], e :: s)

def intValue (digits : PyStr) : Nat := digits.foldl (fun n c => 10 * n + (c - 48)) 0

/-- The most digits `int(text)` takes. -/
def maxStrDigits : Nat := 4300

def numberSign : PyStr → PyStr × PyStr
  | 45 :: body => ([45], body)
  | body => ([], body)

/-- `float(text)` of a numeral is a parameter. -/
def scanNumber (floatOf : PyStr → PyFloat) (s : PyStr) : Except JsonError (Json × PyStr) :=
  let (sign, body) := numberSign s
  match wholePart body with
  | none => fail "Expecting value" s
  | some (whole, rest) =>
    let (fraction, rest) := fractionText rest
    let (exponent, rest) := exponentText rest
    if fraction = [] ∧ exponent = [] then
      if whole.length ≤ maxStrDigits then
        .ok (.int (if sign = [] then intValue whole else -intValue whole), rest)
      else .error (.digits whole.length)
    else .ok (.float (floatOf (sign ++ whole ++ fraction ++ exponent)), rest)

/-! ## Values -/

def literals : List (PyStr × Json) :=
  [(py "null", .null), (py "true", .bool true), (py "false", .bool false),
    (py "NaN", .float .nan), (py "Infinity", .float (.inf false)),
    (py "-Infinity", .float (.inf true))]

def scanLiteral (s : PyStr) : Option (Json × PyStr) :=
  literals.findSome? fun entry =>
    if entry.1.isPrefixOf s then some (entry.2, s.drop entry.1.length) else none

/-- The dictionary of the members: a later one replaces an earlier one. -/
def toDict (members : List (PyStr × Json)) : Json := .obj (Assoc.update [] members)

variable (floatOf : PyStr → PyFloat)

mutual

/-- `scan_once`: the value at the front of the text and what follows it. -/
def scanOnce : Nat → PyStr → Except JsonError (Json × PyStr)
  | 0, _ => .error .fuel
  | fuel + 1, s =>
    match s with
    | [] => fail "Expecting value" []
    | c :: rest =>
      if c = 34 then (scanString s.length 0 rest).map fun p => (.str p.1, p.2)
      else if c = 123 then
        match skipWs rest with
        | 125 :: rest => .ok (.obj [], rest)
        | rest => (scanMembers fuel rest).map fun p => (toDict p.1, p.2)
      else if c = 91 then
        match skipWs rest with
        | 93 :: rest => .ok (.arr [], rest)
        | rest => (scanItems fuel rest).map fun p => (.arr p.1, p.2)
      else
        match scanLiteral s with
        | some p => .ok p
        | none => scanNumber floatOf s

/-- The items of an array, up to its bracket. -/
def scanItems : Nat → PyStr → Except JsonError (List Json × PyStr)
  | 0, _ => .error .fuel
  | fuel + 1, s => do
    let (value, rest) ← scanOnce fuel s
    match skipWs rest with
    | 93 :: rest => return ([value], rest)
    | 44 :: rest => (scanItems fuel (skipWs rest)).map fun p => (value :: p.1, p.2)
    | rest => fail "Expecting ',' delimiter" rest

/-- The members of an object, up to its brace. -/
def scanMembers : Nat → PyStr → Except JsonError (List (PyStr × Json) × PyStr)
  | 0, _ => .error .fuel
  | fuel + 1, s =>
    match s with
    | 34 :: rest => do
      let (key, rest) ← scanString s.length 0 rest
      match skipWs rest with
      | 58 :: rest => do
        let (value, rest) ← scanOnce fuel (skipWs rest)
        match skipWs rest with
        | 125 :: rest => return ([(key, value)], rest)
        | 44 :: rest => (scanMembers fuel (skipWs rest)).map fun p => ((key, value) :: p.1, p.2)
        | rest => fail "Expecting ',' delimiter" rest
      | rest => fail "Expecting ':' delimiter" rest
    | s => fail "Expecting property name enclosed in double quotes" s

end

/-- A fuel that is enough for the text. -/
def fuelFor (s : PyStr) : Nat := 2 * s.length + 1

/-- The value, if nothing follows it. -/
def atEnd (value : Json) : PyStr → Except JsonError Json
  | [] => .ok value
  | rest => fail "Extra data" rest

/-- `json.loads(text)`. -/
def loads (text : PyStr) : Except JsonError Json :=
  if text.head? = some 0xfeff then fail "Unexpected UTF-8 BOM (decode using utf-8-sig)" text
  else do
    let (value, rest) ← scanOnce floatOf (fuelFor (skipWs text)) (skipWs text)
    atEnd value (skipWs rest)

/-- `str` of a `JSONDecodeError`. -/
def decodeMessage (text message : PyStr) (left : Nat) : PyStr :=
  let before := text.take (text.length - left)
  let column := (before.reverse.takeWhile (· ≠ 10)).length + 1
  message ++ py ": line " ++ dumpInt (before.count 10 + 1) ++ py " column " ++ dumpInt column ++
    py " (char " ++ dumpInt before.length ++ py ")"

end TxLookup.Library.JsonText

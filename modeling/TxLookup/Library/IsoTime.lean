import TxLookup.Library.JsonPieces

/-!
# Times in ISO form

`datetime.isoformat` of a UTC time without microseconds, from the microseconds since
the epoch. The text of a date and a time of day is made of digits and separators, none
of which is a plus sign or a blank.
-/
namespace TxLookup.Library.IsoTime

open PyText JsonText

structure CivilDate where
  year : Int
  month : Nat
  day : Nat
  deriving DecidableEq

/-- The Gregorian date of a day, counted from the epoch. Within an era of 400 years the
years begin in March, so that a leap day is the last of its year. -/
def civilDate (days : Int) : CivilDate :=
  let shifted := days + 719468
  let dayOfEra := (shifted % 146097).toNat
  let yearOfEra := (dayOfEra - dayOfEra / 1460 + dayOfEra / 36524 - dayOfEra / 146096) / 365
  let dayOfYear := dayOfEra - (365 * yearOfEra + yearOfEra / 4 - yearOfEra / 100)
  let fromMarch := (5 * dayOfYear + 2) / 153
  let month := if fromMarch < 10 then fromMarch + 3 else fromMarch - 9
  { year := shifted / 146097 * 400 + yearOfEra + if month ≤ 2 then 1 else 0
    month
    day := dayOfYear - (153 * fromMarch + 2) / 5 + 1 }

/-- A number with zeros in front, up to a width. -/
def padded (width n : Nat) : PyStr :=
  List.replicate (width - (digitText n).length) 48 ++ digitText n

/-- Date and time of day, in seconds since the epoch. -/
def dateAndTime (seconds : Int) : PyStr :=
  let date := civilDate (seconds / 86400)
  let second := (seconds % 86400).toNat
  padded 4 date.year.toNat ++ py "-" ++ padded 2 date.month ++ py "-" ++ padded 2 date.day ++
    py "T" ++ padded 2 (second / 3600) ++ py ":" ++ padded 2 (second / 60 % 60) ++ py ":" ++
    padded 2 (second % 60)

/-- `value.isoformat()`, for a time in UTC without microseconds. -/
def isoformat (micros : Int) : PyStr := dateAndTime (micros / 1000000) ++ py "+00:00"

example : isoformat 1709210096000000 = py "2024-02-29T12:34:56+00:00" := by decide

/-- `value.replace(microsecond=0)`. -/
def wholeSecond (micros : Int) : Int := micros - micros % 1000000

/-- The rest of `text.replace(old, new)`, of which `skip` characters are replaced. -/
def replaceFrom (old new : PyStr) : Nat → PyStr → PyStr
  | _, [] => []
  | skip + 1, _ :: s => replaceFrom old new skip s
  | 0, c :: s =>
    if old.isPrefixOf (c :: s) then new ++ replaceFrom old new (old.length - 1) s
    else c :: replaceFrom old new 0 s

/-- `text.replace(old, new)`, for an `old` that is not empty. -/
def replace (old new text : PyStr) : PyStr := replaceFrom old new 0 text

/-! ## The characters of a time -/

theorem padded_digits {width n c : Nat} (h : c ∈ padded width n) : isDigit c = true := by
  rcases List.mem_append.mp h with hzero | hdigit
  · rw [List.eq_of_mem_replicate hzero]
    rfl
  · exact isDigit_of_mem_digitText hdigit

/-- A digit, a hyphen, a colon or the letter between date and time. -/
def isTimeChar (c : Nat) : Bool := isDigit c || c == 45 || c == 58 || c == 84

theorem isTimeChar_dateAndTime (seconds : Int) : (dateAndTime seconds).all isTimeChar = true := by
  have hpadded : ∀ width n, (padded width n).all isTimeChar = true := by
    intro width n
    rw [List.all_eq_true]
    intro c hc
    rw [isTimeChar, padded_digits hc]
    rfl
  have hhyphen : (py "-").all isTimeChar = true := by decide
  have hcolon : (py ":").all isTimeChar = true := by decide
  have hletter : (py "T").all isTimeChar = true := by decide
  simp only [dateAndTime, List.all_append, hpadded, hhyphen, hcolon, hletter, Bool.and_self]

theorem isTimeChar_bounds {c : Nat} (h : isTimeChar c = true) : 45 ≤ c ∧ c ≤ 84 := by
  simp only [isTimeChar, isDigit, Bool.or_eq_true, Bool.and_eq_true, decide_eq_true_eq,
    beq_iff_eq] at h
  omega

/-- A text without the first character of `old` is not changed. -/
theorem replace_append {old new s : PyStr} {c : Nat} (hs : c ∉ s) (rest : PyStr) :
    replace (c :: old) new (s ++ rest) = s ++ replace (c :: old) new rest := by
  unfold replace
  induction s with
  | nil => rfl
  | cons d s ih =>
    rw [List.mem_cons, not_or] at hs
    have hhead : (c == d) = false := beq_eq_false_iff_ne.mpr hs.1
    rw [List.cons_append, replaceFrom, List.isPrefixOf_cons_cons, hhead, Bool.false_and,
      if_neg Bool.false_ne_true, ih hs.2]
    rfl

theorem replace_isoformat (micros : Int) : replace (py "+00:00") (py "Z") (isoformat micros) =
    dateAndTime (micros / 1000000) ++ py "Z" := by
  have hplus : 43 ∉ dateAndTime (micros / 1000000) := by
    intro hmem
    have hbounds := isTimeChar_bounds
      (List.all_eq_true.mp (isTimeChar_dateAndTime (micros / 1000000)) 43 hmem)
    omega
  exact replace_append hplus (py "+00:00")

/-- A text without blanks is not stripped. -/
theorem strip_eq_self {s : PyStr} (h : ∀ c ∈ s, isSpace c = false) : strip s = s := by
  have hkeep : ∀ t : PyStr, (∀ c ∈ t, isSpace c = false) → t.dropWhile isSpace = t := by
    intro t ht
    cases t with
    | nil => rfl
    | cons c t =>
      rw [List.dropWhile_cons_of_neg]
      rw [ht c List.mem_cons_self]
      exact Bool.false_ne_true
  rw [strip, hkeep s h, hkeep s.reverse (fun c hc => h c (List.mem_reverse.mp hc)),
    List.reverse_reverse]

theorem strip_dateAndTime (seconds : Int) :
    strip (dateAndTime seconds ++ py "Z") = dateAndTime seconds ++ py "Z" := by
  refine strip_eq_self fun c hc => ?_
  have hbounds : 45 ≤ c ∧ c ≤ 90 := by
    rcases List.mem_append.mp hc with hc | hc
    · have h := isTimeChar_bounds (List.all_eq_true.mp (isTimeChar_dateAndTime seconds) c hc)
      omega
    · rw [show py "Z" = [90] from rfl, List.mem_singleton] at hc
      omega
  simp only [isSpace, Bool.or_eq_false_iff, Bool.and_eq_false_iff, decide_eq_false_iff_not,
    beq_eq_false_iff_ne]
  omega

end TxLookup.Library.IsoTime

import PartialFractions.Failure
import PartialFractions.Number.Binary
import PartialFractions.Number.Decimal

/-!
Time stamps: seconds since 1970 as a date and a time of day, with microseconds unless they are zero.
-/
namespace PartialFractions.Journal

open Number

structure Date where
  year : Int
  month : Nat
  day : Nat
  deriving DecidableEq, Repr

/-- The day that lies `days` after 1 January 1970. Years are counted from March, so a leap day is
the last one, and in eras of 400 years, which have equally many days. -/
def Date.ofDays (days : Int) : Date :=
  let sinceMarch := days + 719468
  let era := sinceMarch / 146097
  let dayOfEra := (sinceMarch % 146097).toNat
  let yearOfEra :=
    (dayOfEra - dayOfEra / 1460 + dayOfEra / 36524 - dayOfEra / 146096) / 365
  let dayOfYear := dayOfEra - (365 * yearOfEra + yearOfEra / 4 - yearOfEra / 100)
  let shifted := (5 * dayOfYear + 2) / 153
  let month := if shifted < 10 then shifted + 3 else shifted - 9
  { year := era * 400 + yearOfEra + (if month ≤ 2 then 1 else 0)
    month
    day := dayOfYear - (153 * shifted + 2) / 5 + 1 }

def padded (width n : Nat) : String :=
  let ds := Nat.toDigits 10 n
  String.ofList (List.replicate (width - ds.length) '0' ++ ds)

/-- The whole number nearest to `v`, a tie to the even one; `none` for what is no finite number. -/
def nearestWhole? (v : Float) : Option Int :=
  match Binary.ofFloat v with
  | .finite negative m q =>
    let n : Int := roundEven (m * power 2 q) (power 2 (-q))
    some (if negative then -n else n)
  | _ => none

/-- The count of microseconds in `seconds`. The fraction of a second is rounded on its own. -/
def microseconds (seconds : Float) : Except Fault Int :=
  if seconds.isNaN then .error .undefinedTime
  else
    let whole := if seconds < 0 then seconds.ceil else seconds.floor
    match nearestWhole? whole, nearestWhole? ((seconds - whole) * 1000000) with
    | some n, some micro =>
      let total := n * 1000000 + micro
      let count := total / 1000000
      if -9223372036854775808 ≤ count && count < 9223372036854775808 then .ok total
      else .error .timeOutOfRange
    | _, _ => .error .timeOutOfRange

/-- The day of the time `seconds`, whose year is counted from 1900 in 32 bits and has at most four
digits. -/
def dayAt (seconds : Int) : Except Fault Date :=
  let date := Date.ofDays (seconds / 86400)
  let since := date.year - 1900
  if since < -2147483648 || 2147483648 ≤ since then .error .yearTooBig
  else
    let year := date.year.bmod 4294967296
    if 1 ≤ year && year ≤ 9999 then .ok date else .error (.yearOutOfRange year)

/-- The time stamp of a time in seconds since 1970. The day before has to be in the calendar too. -/
def timestamp (seconds : Float) : Except Fault String := do
  let total ← microseconds seconds
  let date ← dayAt (total / 1000000)
  discard (dayAt (total / 1000000 - 86400))
  let rest := (total % 86400000000).toNat
  let second := rest / 1000000
  let micro := rest % 1000000
  return padded 4 date.year.toNat ++ "-" ++ padded 2 date.month ++ "-" ++ padded 2 date.day ++ "T"
    ++ padded 2 (second / 3600) ++ ":" ++ padded 2 (second / 60 % 60) ++ ":"
    ++ padded 2 (second % 60) ++ (if micro = 0 then "" else "." ++ padded 6 micro)

end PartialFractions.Journal

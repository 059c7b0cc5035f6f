import CodeReview.Number.Decimal

/-!
# Spans of time

A span of time is a number of nanoseconds.  Three written forms: seconds with two places, as
messages show a waiting time; seconds with nine places; and the form of technical details, in the
largest unit that leaves a whole part.
-/

namespace CodeReview

open CodeReview.Number

/-- A span of time in nanoseconds. -/
abbrev Duration := Nat

namespace Duration

/-- Nanoseconds in a second. -/
def perSecond : Nat := 1000000000

/-- A whole number of seconds. -/
def ofSeconds (s : Nat) : Duration := s * perSecond

/-- A whole number of milliseconds. -/
def ofMillis (ms : Nat) : Duration := ms * 1000000

/-- The number of seconds as a 64-bit floating-point number, in units: the whole seconds and the
rest are each rounded before they are added. -/
def secondsUnits (d : Duration) : Nat :=
  let f := Format.double
  let whole := (f.round (d / perSecond) 1).getD 0
  let rest := (f.round (d % perSecond) perSecond).getD 0
  (f.round (whole + rest) (Nat.pow 2 f.unitBits)).getD 0

/-- Seconds with two places, computed from the floating-point number of seconds. -/
def seconds (d : Duration) : String :=
  fixed 2 d.secondsUnits (Nat.pow 2 Format.double.unitBits)

/-- Seconds with all nine places. -/
def exact (d : Duration) : String :=
  fixed 9 d perSecond

/-- A count of units with as many places as are needed. -/
def trimmed (n unit : Nat) : String :=
  let places := (digits unit).length - 1
  let rest := digits (n % unit)
  let padded := List.replicate (places - rest.length) '0' ++ rest
  let kept := (padded.reverse.dropWhile (· == '0')).reverse
  String.ofList (digits (n / unit) ++ if kept.isEmpty then [] else '.' :: kept)

/-- The form of technical details. -/
def detail (d : Duration) : String :=
  if perSecond ≤ d then trimmed d perSecond ++ "s"
  else if 1000000 ≤ d then trimmed d 1000000 ++ "ms"
  else if 1000 ≤ d then trimmed d 1000 ++ "µs"
  else trimmed d 1 ++ "ns"

end Duration

end CodeReview

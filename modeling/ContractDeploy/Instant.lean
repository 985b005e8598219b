/-!
# Moments

A moment is a number of milliseconds since the start of 1970 in universal time. It is written as a
day of the calendar, and as a time stamp with milliseconds.
-/

namespace ContractDeploy

/-- A moment, in milliseconds since the start of 1970. -/
structure Instant where
  /-- The milliseconds. -/
  millis : Nat

namespace Instant

/-- A number with at least `width` digits. -/
def padded (width n : Nat) : String :=
  let digits := Nat.toDigits 10 n
  String.ofList (List.replicate (width - digits.length) '0' ++ digits)

/-- The year, month and day on which the given number of days since the start of 1970 end up. Years
are counted from March, in eras of 400 years, so that the odd day of a leap year comes last. -/
def civil (days : Nat) : Nat × Nat × Nat :=
  let shifted := days + 719468
  let era := shifted / 146097
  let dayOfEra := shifted % 146097
  let yearOfEra := (dayOfEra - dayOfEra / 1460 + dayOfEra / 36524 - dayOfEra / 146096) / 365
  let dayOfYear := dayOfEra - (365 * yearOfEra + yearOfEra / 4 - yearOfEra / 100)
  let marchMonth := (5 * dayOfYear + 2) / 153
  let day := dayOfYear - (153 * marchMonth + 2) / 5 + 1
  let month := if marchMonth < 10 then marchMonth + 3 else marchMonth - 9
  let year := yearOfEra + 400 * era + (if month ≤ 2 then 1 else 0)
  (year, month, day)

/-- The day of the calendar, year first. -/
def day (instant : Instant) : String :=
  let (year, month, day) := civil (instant.millis / 86400000)
  padded 4 year ++ "-" ++ padded 2 month ++ "-" ++ padded 2 day

/-- The time stamp, with milliseconds and the sign of universal time. -/
def stamp (instant : Instant) : String :=
  let seconds := instant.millis / 1000
  instant.day ++ "T" ++ padded 2 (seconds / 3600 % 24) ++ ":" ++ padded 2 (seconds / 60 % 60) ++
    ":" ++ padded 2 (seconds % 60) ++ "." ++ padded 3 (instant.millis % 1000) ++ "Z"

example : (⟨951782400000⟩ : Instant).stamp = "2000-02-29T00:00:00.000Z" := by decide +kernel

example : (⟨1704067199999⟩ : Instant).stamp = "2023-12-31T23:59:59.999Z" := by decide +kernel

end Instant

end ContractDeploy

/-!
# Clocks and spans of time

A clock reading counts seconds, and comes with how far the clock may be off. As text, a span of time is
written in its largest unit, with as many decimals as it takes.
-/

namespace DidToken

/-! ### Clocks -/

/-- How far a clock may be off where nothing else is asked for, in seconds. -/
def defaultSkew : UInt64 := 300

/-- A clock reading, and how far it may be off. -/
structure Clock where
  now : UInt64
  skew : UInt64 := defaultSkew
deriving DecidableEq, Repr

/-- The clock some seconds later. After the largest reading it starts again from zero. -/
def Clock.advance (clock : Clock) (seconds : UInt64) : Clock :=
  { clock with now := clock.now + seconds }

end DidToken

namespace DidToken.Text.Duration

/-! ### Spans of time -/

/-- Thousandths as decimals, without zeros at the end; nothing for zero. -/
def decimals (thousandths : Nat) : String :=
  let digits := (Nat.toDigits 10 (1000 + thousandths)).drop 1
  match (digits.reverse.dropWhile (· = '0')).reverse with
  | [] => ""
  | ds => String.ofList ('.' :: ds)

/-- A span of so many milliseconds. -/
def ofMilliseconds (n : Nat) : String :=
  if 1000 ≤ n then toString (n / 1000) ++ decimals (n % 1000) ++ "s"
  else if n = 0 then "0ns"
  else toString n ++ "ms"

end DidToken.Text.Duration

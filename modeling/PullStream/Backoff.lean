import PullStream.Failure
import PullStream.Settings
import PullStream.Timer

/-!
Backoff: a delay that grows from one wait to the next.

The delay starts at an initial length and never exceeds a maximum. After each
wait it grows by an amount or by a factor, whether the wait lasted its full
length or was cut short; a reset brings the initial length back. The next delay
is computed in binary64 numbers and rounded to milliseconds, halves up.

A jitter lengthens the waits and leaves the delay alone: a wait takes the delay
and a drawn part of the fraction that the settings allow.
-/

namespace PullStream

/-- A growing delay: its settings and the length of the next wait. -/
structure Backoff where
  settings : Settings.Backoff
  current : Nat
  deriving DecidableEq, Repr

namespace Backoff

/-- The delay behind `current`. -/
def nextDelay (strategy : Settings.Strategy) (current : Nat) (increase : Binary64)
    (maximum : Nat) : Nat :=
  let next :=
    match strategy with
    | .linear => Binary64.ofNat current + increase
    | .exponential => Binary64.ofNat current * increase
  min next.toNat64 maximum

/-- The delays behind `current`, so many of them. -/
def delays (strategy : Settings.Strategy) (increase : Binary64) (maximum : Nat) :
    Nat → Nat → List Nat
  | 0, _ => []
  | n + 1, current =>
    let next := nextDelay strategy current increase maximum
    next :: delays strategy increase maximum n next

/-- The failure of settings that cannot be used. -/
def refusal (i : Settings.Invalid) : Failure :=
  { kind := .invalidArgument, description := "Invalid backoff configuration"
    detail := some i.message, origin := some i.message }

/-- A delay of its initial length, if the settings can be used. -/
def create (settings : Settings.Backoff) : Except Failure Backoff :=
  match settings.validate with
  | .ok () => .ok { settings, current := settings.initial }
  | .error i => .error (refusal i)

/-- Brings the initial length back. -/
def reset (b : Backoff) : Backoff :=
  { b with current := b.settings.initial }

/-- Lets the delay grow. -/
def advance (b : Backoff) : Backoff :=
  { b with
    current := nextDelay b.settings.strategy b.current b.settings.increase b.settings.maximum }

/-- The length of a wait for which `draw`, at least zero and less than one, has
been drawn. -/
def length (b : Backoff) (draw : Binary64) : Time :=
  if b.settings.jitter.atMost (.zero false) then b.current
  else
    let factor := Binary64.ofNat 1 + draw * b.settings.jitter
    (Binary64.ofNat b.current * factor).floorNat64

/-- Waits from `now`, or until the stop, and lets the delay grow either way. -/
def wait (b : Backoff) (draw : Binary64) (now : Time) (stop : Option Time) :
    Timer.End × Backoff :=
  (Timer.wait now (b.length draw) stop, b.advance)

/-- The draw that adds nothing. -/
def leastDraw : Binary64 := .zero false

end Backoff
end PullStream

/-!
Lengths of time as text.

A length under a second is written in milliseconds, a longer one in seconds with
up to three decimal places and no zeros at their end; no length at all is written
in nanoseconds.
-/

namespace PullStream.Text.Duration

/-- The decimal places of `n` thousandths, without the zeros at the end. -/
def thousandths (n : Nat) : String :=
  if n % 1000 = 0 then ""
  else if n % 100 = 0 then s!".{n / 100}"
  else if n % 10 = 0 then (if n < 100 then ".0" else ".") ++ toString (n / 10)
  else (if n < 10 then ".00" else if n < 100 then ".0" else ".") ++ toString n

/-- The text of a length in milliseconds. -/
def render (milliseconds : Nat) : String :=
  if milliseconds = 0 then "0ns"
  else if milliseconds < 1000 then s!"{milliseconds}ms"
  else s!"{milliseconds / 1000}{thousandths (milliseconds % 1000)}s"

example : [0, 999, 1000, 1500, 1001, 1010, 60000].map render =
    ["0ns", "999ms", "1s", "1.5s", "1.001s", "1.01s", "60s"] := by decide +kernel

end PullStream.Text.Duration

/-!
Powers of two and of ten, and the bound of numbers of 64 bits.
-/

namespace PullStream

/-- A power of two. -/
def twoTo (n : Nat) : Nat := Nat.pow 2 n

/-- A power of ten. -/
def tenTo (n : Nat) : Nat := Nat.pow 10 n

/-- The natural numbers of 64 bits lie below it. -/
def wordLimit : Nat := twoTo 64

end PullStream

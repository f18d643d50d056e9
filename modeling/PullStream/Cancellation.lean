import PullStream.Machine

/-!
Cancellation tokens: stop flags that spread to linked children.

A token is set once and for all. A linked child is set together with its parent,
and starts set if the parent is set; an independent child has nothing to do with
the parent. Setting a child leaves the parent alone.

A token lives as long as somebody holds it. A parent does not hold its children:
one that nobody holds any more is skipped when the parent is set, and what it
would have passed on is lost with it.

`Tokens` is all tokens of a program, each known by its number. `set` works on a
list of tokens still to be set; it ends because each round either shortens that
list or sets one more token.
-/

namespace PullStream

/-- How a child relates to its parent. -/
inductive ChildMode where
  /-- Set together with the parent. -/
  | linked
  /-- Never set by the parent. -/
  | independent
  deriving DecidableEq, Repr

/-- A token: its flag, the linked children it will set, and how many hold it. -/
structure Token where
  isSet : Bool := false
  children : List Nat := []
  holders : Nat := 1
  deriving DecidableEq, Repr

/-- Every token ever made, in order of creation. -/
structure Tokens where
  made : List Token := []
  deriving DecidableEq, Repr

namespace Token

/-- Whether anybody holds the token. -/
def isHeld (t : Token) : Bool := 0 < t.holders

/-- Held and not set. -/
def isOpen (t : Token) : Bool := t.isHeld && !t.isSet

/-- The token set, with nobody left to tell. -/
def raised (t : Token) : Token := { t with isSet := true, children := [] }

@[simp] theorem isOpen_raised (t : Token) : t.raised.isOpen = false := by
  simp [raised, isOpen]

end Token

namespace Tokens

/-! ### Looking -/

/-- The token of a number. -/
def get? (s : Tokens) (k : Nat) : Option Token := s.made[k]?

/-- Whether a token is set. -/
def isSet (s : Tokens) (k : Nat) : Bool := (s.get? k).any (·.isSet)

/-- Whether a token is held. -/
def isHeld (s : Tokens) (k : Nat) : Bool := (s.get? k).any (·.isHeld)

/-- Whether a token is held and not set. -/
def isOpen (s : Tokens) (k : Nat) : Bool := (s.get? k).any (·.isOpen)

/-- The linked children that a token would set. -/
def children (s : Tokens) (k : Nat) : List Nat := ((s.get? k).map (·.children)).getD []

/-- How many tokens are held and not set. -/
def openCount (s : Tokens) : Nat := s.made.countP (·.isOpen)

/-! ### Setting -/

/-- Changes one token. -/
def change (s : Tokens) (k : Nat) (f : Token → Token) : Tokens :=
  { made := s.made.modify k f }

/-- Sets one token and takes its children from it. -/
def raise (s : Tokens) (k : Nat) : Tokens := s.change k Token.raised

/-- Setting an open token leaves one open token less. -/
theorem openCount_raise_lt {s : Tokens} {k : Nat} (h : s.isOpen k = true) :
    (s.raise k).openCount < s.openCount := by
  obtain ⟨made⟩ := s
  simp only [openCount, raise, change, isOpen, get?] at h ⊢
  induction made generalizing k with
  | nil => simp at h
  | cons t rest ih =>
    cases k with
    | zero =>
      have ht : t.isOpen = true := by simpa using h
      simp [ht]
    | succ k =>
      have := ih (by simpa using h)
      simp only [List.modify_succ_cons, List.countP_cons]
      omega

/-- Sets the tokens on a list and all that hang from them, in order. A token that
nobody holds, or that is set already, is passed over. -/
def spread (work : List Nat) (s : Tokens) : Tokens :=
  match work with
  | [] => s
  | k :: rest =>
    if s.isOpen k then spread (s.children k ++ rest) (s.raise k) else spread rest s
termination_by (s.openCount, work.length)
decreasing_by
  · exact Prod.Lex.left _ _ (openCount_raise_lt (by assumption))
  · exact Prod.Lex.right _ (by simp)

/-- Sets a token and every linked descendant within reach. -/
def set (s : Tokens) (k : Nat) : Tokens := s.spread [k]

/-! ### Making and holding -/

/-- Makes a token that is not set, and says its number. -/
def create (s : Tokens) : Nat × Tokens :=
  (s.made.length, { made := s.made ++ [{}] })

/-- Makes a child. The parent forgets the children that nobody holds any more and
learns the new one; a linked child of a set token starts set. -/
def createChild (s : Tokens) (k : Nat) (mode : ChildMode) : Nat × Tokens :=
  let (child, s) := s.create
  match mode with
  | .independent => (child, s)
  | .linked =>
    let s := s.change k fun t => { t with children := t.children.filter s.isHeld ++ [child] }
    (child, if s.isSet k then s.set child else s)

/-- One holder more. -/
def hold (s : Tokens) (k : Nat) : Tokens :=
  s.change k fun t => { t with holders := t.holders + 1 }

/-- One holder less. -/
def release (s : Tokens) (k : Nat) : Tokens :=
  s.change k fun t => { t with holders := t.holders - 1 }

end Tokens
end PullStream

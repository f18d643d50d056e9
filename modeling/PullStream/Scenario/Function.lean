import PullStream.Element
import PullStream.Failure

/-!
Scripted functions and predicates on elements.

A function that does not apply to an element leaves it as it is; a predicate
that does not apply says no. Integers wrap at 64 bits.
-/

namespace PullStream.Scenario

open PullStream

/-- A function from an element and its index to an element. -/
inductive Function where
  | id
  | add (n : Int)
  | mul (n : Int)
  /-- The remainder that is not negative. -/
  | mod (n : Int)
  | neg
  /-- The length of a text in code points or of a list; zero for an integer. -/
  | len
  /-- The sum of the integers directly in a list. -/
  | sum
  | withIndex
  | text
  | const (value : Element)
  | append (suffix : String)
  | head
  | upTo
  | replicate
  | chars
  deriving Repr

/-- The integers directly in a list, added up. -/
def directSum (items : List Element) : Int64 :=
  items.foldl (fun total e => match e with | .int n => total + n | _ => total) 0

/-- Applies a function. -/
def Function.apply (f : Function) (e : Element) (index : Nat) : Element :=
  match f, e with
  | .id, e => e
  | .add n, .int a => .int (a + Int64.ofInt n)
  | .mul n, .int a => .int (a * Int64.ofInt n)
  | .mod n, .int a => .ofInt (a.toInt % n)
  | .neg, .int a => .int (-a)
  | .len, .int _ => .int 0
  | .len, .text s => .ofNat s.length
  | .len, .list items => .ofNat items.length
  | .sum, .list items => .int (directSum items)
  | .sum, .text _ => .int 0
  | .withIndex, e => .list [.ofNat index, e]
  | .text, e => .text e.render
  | .const v, _ => v
  | .append s, e => .text (e.render ++ s)
  | .head, .list (e :: _) => e
  | .upTo, .int n => .list (Element.upTo n)
  | .replicate, .int n => .list (List.replicate n.toInt.toNat (.int n))
  | .chars, .text s => .list (s.toList.map fun c => .text (String.singleton c))
  | _, e => e

/-- A predicate on an element and its index. -/
inductive Predicate where
  | always
  | never
  | lt (n : Int)
  | gt (n : Int)
  | eq (value : Element)
  | oneOf (values : List Element)
  | even
  | indexEq (n : Nat)
  | indexLt (n : Nat)
  | indexEven
  | not (p : Predicate)
  deriving Repr

/-- Whether a predicate holds. -/
def Predicate.holds (p : Predicate) (e : Element) (index : Nat) : Bool :=
  match p, e with
  | .always, _ => true
  | .never, _ => false
  | .lt n, .int a => decide (a.toInt < n)
  | .gt n, .int a => decide (n < a.toInt)
  | .lt _, _ | .gt _, _ => false
  | .eq v, e => decide (e = v)
  | .oneOf vs, e => decide (e ∈ vs)
  | .even, .int a => a.toInt % 2 == 0
  | .even, _ => false
  | .indexEq n, _ => index == n
  | .indexLt n, _ => decide (index < n)
  | .indexEven, _ => index % 2 == 0
  | .not p, e => !p.holds e index

/-- How a reduction takes an element into its accumulator. -/
inductive Accumulation where
  /-- Adds integers. -/
  | sum
  /-- Adds integers times their index. -/
  | weighted
  /-- Appends to a list. -/
  | push
  /-- Joins texts. -/
  | text
  deriving DecidableEq, Repr

/-- Takes an element into an accumulator. -/
def Accumulation.apply (how : Accumulation) (acc e : Element) (index : Nat) : Element :=
  match how, acc, e with
  | .sum, .int a, .int n => .int (a + n)
  | .weighted, .int a, .int n => .int (a + n * Int64.ofNat index)
  | .push, .list items, e => .list (items ++ [e])
  | .text, acc, e => .text (acc.render ++ e.render)
  | _, acc, _ => acc

end PullStream.Scenario

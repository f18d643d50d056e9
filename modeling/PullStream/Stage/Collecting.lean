import PullStream.Number.Powers
import PullStream.Transducer

/-!
Stages that hold elements back: sorting and batching.

Sorting sees the whole input before it hands out the first element, and is
stable. Batching hands a batch out as soon as its last element has come; what is
left at the end makes a shorter batch, what is left at a failure is lost.

A batch reserves room for all its elements beforehand. Room is limited: no
reservation may span more than the largest positive 64-bit offset in bytes, and
a stage that asks for more breaks down.
-/

namespace PullStream.Transducer

variable {ω α : Type}

/-- The memory of a sorting stage: what came so far, or what is left to hand
out. -/
inductive Sorting (α : Type) where
  | collecting (taken : List α)
  | handing (rest : List α)

/-- The elements in order, equal ones as they came. `notAfter a b` says that `a`
may stay before `b`. The input is dropped at its end. -/
def sort (notAfter : α → α → Bool) : Transducer ω α α where
  Memory := Sorting α
  start := .collecting []
  before m _ w :=
    match m with
    | .collecting _ => none
    | .handing [] => some (.done, m, w)
    | .handing (a :: rest) => some (.item a, .handing rest, w)
  item m a _ w :=
    match m with
    | .collecting taken => (.skip, .collecting (a :: taken), w)
    | .handing rest => (.skip, .handing rest, w)
  fail _ e _ w := (.fail e, .handing [], w)
  done m _ w :=
    match m with
    | .collecting taken => (.skip, .handing (taken.reverse.mergeSort notAfter), w)
    | .handing rest => (.skip, .handing rest, w)
  holds m := match m with | .collecting _ => true | .handing _ => false

/-- The most elements of `width` bytes that one reservation may ask for.
Elements without a size need no room. -/
def roomFor (width : Nat) : Nat :=
  if width = 0 then wordLimit - 1 else (twoTo 63 - 1) / width

/-- What a stage says that asks for more room than there is. -/
def noRoom : String := "capacity overflow"

/-- The memory of a batching stage: the batch in the making, newest element
first, and its length; whether room for it has been reserved; whether the input
has ended. -/
structure Batching (α : Type) where
  taken : List α := []
  count : Nat := 0
  reserved : Bool := false
  ended : Bool := false

/-- The elements in batches of `size`. Room for a batch is reserved when the
batch is asked for; `width` is the size of an element in bytes. -/
def batch (size width : Nat) : Transducer ω α (List α) where
  Memory := Batching α
  start := {}
  before m _ w :=
    if m.ended then some (.done, m, w)
    else if m.reserved then none
    else if size ≤ roomFor width then some (.skip, { m with reserved := true }, w)
    else some (.crash noRoom, m, w)
  item m a _ w :=
    if m.count + 1 < size then
      (.skip, { m with taken := a :: m.taken, count := m.count + 1 }, w)
    else (.item (a :: m.taken).reverse, {}, w)
  fail m e _ w := (.fail e, { m with taken := [], count := 0, ended := true }, w)
  done m _ w :=
    (if m.taken.isEmpty then .done else .item m.taken.reverse,
      { m with taken := [], count := 0, ended := true }, w)

end PullStream.Transducer

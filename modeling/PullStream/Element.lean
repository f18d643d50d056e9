/-!
Elements: the values that scripted sequences carry.

An element is a 64-bit integer whose arithmetic wraps, a text, or a list of
elements. Integers come before texts and texts before lists; texts compare by
code point, lists by their first difference, a shorter list before its
extensions.
-/

namespace PullStream

/-- An integer, a text or a list of elements. -/
inductive Element where
  | int (value : Int64)
  | text (value : String)
  | list (items : List Element)
  deriving Repr, Inhabited

namespace Element

/-! ### Order -/

mutual

/-- The order of elements. -/
def compare : Element → Element → Ordering
  | .int a, .int b => Ord.compare a.toInt b.toInt
  | .int _, _ => .lt
  | .text _, .int _ => .gt
  | .text a, .text b => Ord.compare a b
  | .text _, .list _ => .lt
  | .list as, .list bs => compareLists as bs
  | .list _, _ => .gt

/-- Lists compare by their first difference. -/
def compareLists : List Element → List Element → Ordering
  | [], [] => .eq
  | [], _ :: _ => .lt
  | _ :: _, [] => .gt
  | a :: as, b :: bs => (compare a b).then (compareLists as bs)

end

instance : Ord Element := ⟨compare⟩

/-- The first element does not come after the second. -/
def notAfter (a b : Element) : Bool :=
  a.compare b != .gt

/-! ### Equality -/

mutual

/-- Structural equality. -/
def same : Element → Element → Bool
  | .int a, .int b => a == b
  | .text a, .text b => a == b
  | .list as, .list bs => sameLists as bs
  | _, _ => false

/-- Structural equality of lists. -/
def sameLists : List Element → List Element → Bool
  | [], [] => true
  | a :: as, b :: bs => same a b && sameLists as bs
  | _, _ => false

end

mutual

theorem eq_of_same : ∀ {a b : Element}, a.same b = true → a = b
  | .int _, .int _, h => by simpa [same] using h
  | .text _, .text _, h => by simpa [same] using h
  | .list as, .list bs, h => by
    rw [same] at h
    rw [eq_of_sameLists h]
  | .int _, .text _, h | .int _, .list _, h | .text _, .int _, h
  | .text _, .list _, h | .list _, .int _, h | .list _, .text _, h => by
    simp [same] at h

theorem eq_of_sameLists : ∀ {as bs : List Element}, sameLists as bs = true → as = bs
  | [], [], _ => rfl
  | a :: as, b :: bs, h => by
    rw [sameLists, Bool.and_eq_true] at h
    rw [eq_of_same h.1, eq_of_sameLists h.2]
  | [], _ :: _, h | _ :: _, [], h => by simp [sameLists] at h

end

mutual

theorem same_refl : ∀ a : Element, a.same a = true
  | .int _ => by simp [same]
  | .text _ => by simp [same]
  | .list as => by rw [same]; exact sameLists_refl as

theorem sameLists_refl : ∀ as : List Element, sameLists as as = true
  | [] => rfl
  | a :: as => by rw [sameLists, same_refl a, sameLists_refl as]; rfl

end

instance : DecidableEq Element := fun a b =>
  if h : a.same b = true then isTrue (eq_of_same h)
  else isFalse fun e => h (e ▸ same_refl a)

/-! ### Text -/

mutual

/-- The text of an element: an integer in decimal, a text as it is, a list in
brackets with commas between the texts of its elements. -/
def render : Element → String
  | .int n => toString n.toInt
  | .text s => s
  | .list items => "[" ++ renderItems items ++ "]"

/-- The texts of several elements with commas between them. -/
def renderItems : List Element → String
  | [] => ""
  | [a] => render a
  | a :: b :: rest => render a ++ "," ++ renderItems (b :: rest)

end

/-! ### Integers -/

/-- The element of an integer; it wraps at 64 bits. -/
def ofInt (n : Int) : Element :=
  .int (Int64.ofInt n)

/-- The element of a count or an index. -/
def ofNat (n : Nat) : Element :=
  ofInt n

/-- The integers directly below `n`, from zero on; none if `n` is not positive. -/
def upTo (n : Int64) : List Element :=
  (List.range n.toInt.toNat).map ofNat

end Element
end PullStream

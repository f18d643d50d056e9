import PullStream.Configuration.Value
import PullStream.Number.Decimal
import PullStream.Text.Json

/-!
Scalars of YAML texts, and the gaps between them.

A cursor is what is left of a text and the column it stands at. A gap is white
space, comments and line breaks; a comment starts a line or follows a blank. A
plain scalar may go on in the next line, as may a quoted one: a single line break
is then a blank, and of several the first is dropped. What a plain scalar stands
for is told from its characters; a quoted one is a text.
-/

namespace PullStream.Configuration.Yaml

/-- A place in a text: what is left, and the column. -/
structure Cursor where
  rest : List Char
  column : Nat := 0

/-- The place so many characters further in the line. -/
def Cursor.advance (c : Cursor) (count : Nat) : Cursor :=
  { rest := c.rest.drop count, column := c.column + count }

/-- A blank within a line. -/
def isSpace (c : Char) : Bool := c == ' ' || c == '\t'

/-- Whether a blank, a line break or the end comes next. -/
def atBlank : List Char → Bool
  | [] => true
  | c :: _ => isSpace c || c == '\n'

/-- A character that has a meaning within brackets and braces. -/
def isFlowMark (c : Char) : Bool :=
  c == ',' || c == '[' || c == ']' || c == '{' || c == '}'

/-- Whether such a character comes next. -/
def atFlowMark : List Char → Bool
  | [] => false
  | c :: _ => isFlowMark c

/-- Whether a colon comes next that divides a name from its value. -/
def atColon (inFlow : Bool) : List Char → Bool
  | ':' :: cs => atBlank cs || (inFlow && atFlowMark cs)
  | _ => false

/-- Whether a dash comes next that starts an item. -/
def atDash : List Char → Bool
  | '-' :: cs => atBlank cs
  | _ => false

/-- Skips the blanks of the line. -/
def Cursor.skipSpaces (c : Cursor) : Cursor :=
  c.advance (c.rest.takeWhile isSpace).length

/-! ### Gaps -/

/-- A gap: the column behind it, its line breaks, whether it had a comment, and
whether a tab indents what follows. -/
structure Gap where
  column : Nat
  /-- Whether a comment may start here. -/
  spaced : Bool
  commenting : Bool := false
  breaks : Nat := 0
  commented : Bool := false
  tabbed : Bool := false

/-- Goes through a gap. -/
def Gap.skip (g : Gap) : List Char → Gap × List Char
  | [] => (g, [])
  | c :: cs =>
    if c = '\n' then
      Gap.skip { g with
        column := 0, spaced := true, commenting := false, breaks := g.breaks + 1
        tabbed := false } cs
    else
      let next := { g with column := g.column + 1 }
      if g.commenting then Gap.skip next cs
      else if c = ' ' then Gap.skip { next with spaced := true } cs
      else if c = '\t' then Gap.skip { next with spaced := true, tabbed := true } cs
      else if c = '#' ∧ g.spaced then
        Gap.skip { next with commenting := true, commented := true } cs
      else (g, c :: cs)

/-- The gap at a place, and the place behind it. -/
def Cursor.gap (c : Cursor) : Gap × Cursor :=
  let (g, rest) := Gap.skip { column := c.column, spaced := c.column == 0 } c.rest
  (g, { rest, column := g.column })

/-- Whether a line of three such characters comes next, which bounds a document. -/
def Cursor.atMark (c : Cursor) (mark : Char) : Bool :=
  c.column == 0 && c.rest.take 3 == [mark, mark, mark] && atBlank (c.rest.drop 3)

/-- Whether the document is over. -/
def Cursor.ended (c : Cursor) : Bool :=
  c.rest.isEmpty || c.atMark '-' || c.atMark '.'

/-- What so many line breaks within a scalar stand for. -/
def folded (breaks : Nat) : List Char :=
  if breaks = 1 then [' '] else List.replicate (breaks - 1) '\n'

/-! ### Quoted scalars -/

/-- The value of hexadecimal digits, so many. -/
def hexNumber (count : Nat) (cs : List Char) : Option (Nat × List Char) := do
  let ds ← (cs.take count).mapM Text.Json.hexDigit?
  if ds.length = count then
    some (ds.foldl (fun n d => 16 * n + d) 0, cs.drop count)
  else none

/-- The character of a code in hexadecimal digits. -/
def hexChar (count : Nat) (cs : List Char) : Option (Char × List Char) := do
  let (n, cs) ← hexNumber count cs
  if n.isValidChar then some (Char.ofNat n, cs) else none

/-- The characters that escapes of one letter stand for. -/
def escapes : List (Char × Char) :=
  [('0', Char.ofNat 0), ('a', '\x07'), ('b', '\x08'), ('t', '\t'), ('\t', '\t'), ('n', '\n'),
    ('v', '\x0b'), ('f', '\x0c'), ('r', '\r'), ('e', '\x1b'), (' ', ' '), ('"', '"'),
    ('/', '/'), ('\\', '\\'), ('N', Char.ofNat 0x85), ('_', Char.ofNat 0xa0),
    ('L', Char.ofNat 0x2028), ('P', Char.ofNat 0x2029)]

/-- The character of an escape, behind its backslash. -/
def escape : List Char → Option (Char × List Char)
  | 'x' :: cs => hexChar 2 cs
  | 'u' :: cs => hexChar 4 cs
  | 'U' :: cs => hexChar 8 cs
  | c :: cs => (escapes.lookup c).map (·, cs)
  | [] => none

/-- A quoted scalar in the reading: its characters so far and the blanks behind
them, both reversed, and whether it has gone on to another line. -/
structure Quoting where
  taken : List Char := []
  spaces : List Char := []
  crossed : Bool := false

/-- The reading with another character. -/
def Quoting.take (q : Quoting) (c : Char) : Quoting :=
  { q with taken := c :: (q.spaces ++ q.taken), spaces := [] }

/-- Skips the blanks and line breaks between two lines of a quoted scalar; counts
the line breaks. -/
def skipBreaks (column breaks : Nat) : List Char → Nat × Cursor
  | [] => (breaks, { rest := [], column })
  | c :: cs =>
    if c = '\n' then skipBreaks 0 (breaks + 1) cs
    else if isSpace c then skipBreaks (column + 1) breaks cs
    else (breaks, { rest := c :: cs, column })

/-- A quoted scalar behind its opening quote. The fuel is the length of the text. -/
def quotedFrom (double : Bool) (q : Quoting) : Nat → Cursor → Option (Quoting × Cursor)
  | 0, _ => none
  | fuel + 1, c =>
    match c.rest with
    | [] => none
    | '\n' :: _ =>
      let (breaks, c) := skipBreaks c.column 0 c.rest
      quotedFrom double
        { taken := (folded breaks).reverse ++ q.taken, spaces := [], crossed := true } fuel c
    | '\'' :: '\'' :: _ =>
      if double then quotedFrom double (q.take '\'') fuel (c.advance 1)
      else quotedFrom double (q.take '\'') fuel (c.advance 2)
    | '\'' :: _ =>
      if double then quotedFrom double (q.take '\'') fuel (c.advance 1)
      else some (q, c.advance 1)
    | '"' :: _ =>
      if double then some (q, c.advance 1)
      else quotedFrom double (q.take '"') fuel (c.advance 1)
    | '\\' :: '\n' :: cs =>
      if double then
        let (breaks, c) := skipBreaks 0 1 cs
        quotedFrom double
          { taken := List.replicate (breaks - 1) '\n' ++ q.spaces ++ q.taken, spaces := []
            crossed := true } fuel c
      else quotedFrom double (q.take '\\') fuel (c.advance 1)
    | '\\' :: cs =>
      if double then
        match escape cs with
        | some (e, rest) =>
          quotedFrom double (q.take e) fuel (c.advance (c.rest.length - rest.length))
        | none => none
      else quotedFrom double (q.take '\\') fuel (c.advance 1)
    | x :: _ =>
      quotedFrom double
        (if isSpace x then { q with spaces := x :: q.spaces } else q.take x) fuel (c.advance 1)

/-- A quoted scalar: its text, whether it takes several lines, and the rest. -/
def quoted (double : Bool) (c : Cursor) : Option (String × Bool × Cursor) :=
  (quotedFrom double {} (c.rest.length + 1) (c.advance 1)).map fun (q, c) =>
    (String.ofList (q.spaces ++ q.taken).reverse, q.crossed, c)

/-! ### Plain scalars -/

/-- The characters of a plain scalar in one line, reversed and without the blanks
at its end; `spaces` are the blanks since the last of them. -/
def plainLine (inFlow : Bool) (taken spaces : List Char) : List Char → List Char
  | [] => taken
  | c :: cs =>
    if c = '\n' then taken
    else if isSpace c then plainLine inFlow taken (c :: spaces) cs
    else if (c = '#' ∧ spaces ≠ []) ∨ atColon inFlow (c :: cs) ∨ (inFlow ∧ isFlowMark c) then
      taken
    else plainLine inFlow (c :: (spaces ++ taken)) [] cs

/-- The lines behind the first of a plain scalar; `taken` holds its characters so
far, reversed. Outside brackets a line must be indented by `least` at least. -/
def plainLines (inFlow : Bool) (least : Nat) (taken : List Char) :
    Nat → Cursor → List Char × Cursor
  | 0, c => (taken, c)
  | fuel + 1, c =>
    let (g, next) := c.gap
    let line := plainLine inFlow [] [] next.rest
    if g.breaks = 0 ∨ g.commented ∨ next.ended ∨ (¬inFlow ∧ next.column < least) ∨
        line.isEmpty then (taken, c)
    else
      plainLines inFlow least (line ++ ((folded g.breaks).reverse ++ taken)) fuel
        (next.advance line.length)

/-- Whether a plain scalar can start with what comes next. -/
def startsPlain (inFlow : Bool) : List Char → Bool
  | [] => false
  | c :: cs =>
    if c == '-' || c == '?' || c == ':' then !(atBlank cs || (inFlow && atFlowMark cs))
    else !(isFlowMark c || "#&*!|>'\"%@`".toList.contains c)

/-- A plain scalar and the rest. -/
def plain (inFlow : Bool) (least : Nat) (c : Cursor) : Option (String × Cursor) :=
  if startsPlain inFlow c.rest then
    let line := plainLine inFlow [] [] c.rest
    let (taken, c) := plainLines inFlow least line c.rest.length (c.advance line.length)
    some (String.ofList taken.reverse, c)
  else none

/-! ### What plain scalars stand for -/

/-- A digit of a base up to sixteen. -/
def digitOf? (base : Nat) (c : Char) : Option Nat :=
  (Text.Json.hexDigit? c).filter (· < base)

/-- An integer in a base, behind a sign or none, if it is in range. -/
def integerIn? (base : Nat) (cs : List Char) : Option Int := do
  let (negative, cs) := Text.sign cs
  let ds ← cs.mapM (digitOf? base)
  if ds.isEmpty then none
  let n := Binary64.signed negative (ds.foldl (fun n d => base * n + d) 0)
  if Value.isInteger n then some n else none

/-- An integer: in base sixteen or eight behind its mark, else in base ten, with a
further plus allowed. -/
def integer? (cs : List Char) : Option Int :=
  let based :=
    match cs with
    | '0' :: 'x' :: cs => integerIn? 16 cs
    | '0' :: 'o' :: cs => integerIn? 8 cs
    | '+' :: cs => integerIn? 10 cs
    | _ => none
  based <|> integerIn? 10 cs

/-- The words for numbers that are not finite, which no setting accepts. -/
def endlessWords : List String :=
  [".inf", ".Inf", ".INF", "+.inf", "+.Inf", "+.INF", "-.inf", "-.Inf", "-.INF",
    ".nan", ".NaN", ".NAN"]

/-- The value of a plain scalar. A number has a digit; a text that reads as a
number but has none stays a text. -/
def resolve (text : String) : Option Value :=
  if text = "" ∨ text = "~" ∨ text = "null" then some .null
  else if text = "true" then some (.bool true)
  else if text = "false" then some (.bool false)
  else if endlessWords.contains text then none
  else
    match integer? text.toList with
    | some n => some (.integer n)
    | none =>
      if text.toList.any fun c => (Text.digit? c).isSome then
        match Binary64.parse? text with
        | some x => some (.decimal x)
        | none => some (.text text)
      else some (.text text)

end PullStream.Configuration.Yaml

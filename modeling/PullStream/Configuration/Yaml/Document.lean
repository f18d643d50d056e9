import PullStream.Configuration.Yaml.Scalar

/-!
YAML documents that hold a table.

Tables and lists are written by indentation, one entry a line, or between braces
and brackets. The entries of a table start in one column, the column of its first;
what belongs to an entry is indented further, save that the dashes of a list may
stand in the column of the name they belong to. A name is a text or an integer,
stands in one line, and occurs once. Anchors, tags and block texts are not read.

Readers take fuel, at most one unit for each step of the nesting and each entry;
`parse?` gives them more than a text can use.
-/

namespace PullStream.Configuration.Yaml

/-- A name, and whether it was written as an integer. -/
structure Name where
  text : String
  isInteger : Bool := false
  deriving DecidableEq

/-- Entries in order. -/
abbrev Entries := List (Name × Value)

/-- Adds an entry in front, unless its name is there already. -/
def addEntry (name : Name) (v : Value) (rest : Entries) : Option Entries :=
  if rest.any (·.1 = name) then none else some ((name, v) :: rest)

/-- The table of entries. -/
def tableOf (entries : Entries) : Value :=
  .table (entries.foldl (fun (t : Table) e => t.put e.1.text e.2) [])

/-- The name that a value can be. -/
def nameOf? : Value → Option Name
  | .text s => some { text := s }
  | .integer n => some { text := toString n, isInteger := true }
  | _ => none

/-! ### Names -/

/-- A scalar in one line: its value and the rest. -/
def lineScalar (inFlow : Bool) (c : Cursor) : Option (Value × Cursor) :=
  let quotedLine (double : Bool) : Option (Value × Cursor) := do
    let (text, crossed, c) ← quoted double c
    if crossed then none else some (.text text, c)
  match c.rest with
  | '"' :: _ => quotedLine true
  | '\'' :: _ => quotedLine false
  | rest =>
    if startsPlain inFlow rest then
      let line := plainLine inFlow [] [] rest
      (resolve (String.ofList line.reverse)).map (·, c.advance line.length)
    else none

/-- A name with its colon, and the place behind it. -/
def name (c : Cursor) : Option (Name × Cursor) := do
  let (v, c) ← lineScalar false c
  let c := c.skipSpaces
  if atColon false c.rest then
    let name ← nameOf? v
    some (name, c.advance 1)
  else none

/-- Whether a name with its colon comes next. -/
def atName (c : Cursor) : Bool :=
  match lineScalar false c with
  | some (_, c) => atColon false c.skipSpaces.rest
  | none => false

/-- A scalar that may take several lines. -/
def scalar (inFlow : Bool) (least : Nat) (c : Cursor) : Option (Value × Cursor) :=
  let ofQuoted (r : String × Bool × Cursor) : Value × Cursor := (.text r.1, r.2.2)
  match c.rest with
  | '"' :: _ => (quoted true c).map ofQuoted
  | '\'' :: _ => (quoted false c).map ofQuoted
  | _ => do
    let (text, c) ← plain inFlow least c
    let v ← resolve text
    some (v, c)

/-! ### Between brackets and braces -/

/-- The next place between brackets; a further line must not be indented less
than what the brackets belong to. -/
def flowPlace (least : Nat) (c : Cursor) : Option Cursor :=
  let (g, c) := c.gap
  if c.ended ∨ (0 < g.breaks ∧ c.column + 1 < least) then none else some c

/-- Whether a value follows the name that has just been read: behind a colon, which
needs no blank behind a quote. -/
def flowColon (wasQuoted : Bool) (cs : List Char) : Bool :=
  atColon true cs || (wasQuoted && cs.head? == some ':')

/-- Whether a quote comes next. -/
def atQuote : List Char → Bool
  | '"' :: _ | '\'' :: _ => true
  | _ => false

mutual

/-- A value between brackets. -/
def flowNode (least : Nat) : Nat → Cursor → Option (Value × Cursor)
  | 0, _ => none
  | fuel + 1, c =>
    match c.rest with
    | '[' :: _ => do
      let (items, c) ← flowItems least fuel (c.advance 1)
      some (.list items, c)
    | '{' :: _ => do
      let (entries, c) ← flowEntries least fuel (c.advance 1)
      some (tableOf entries, c)
    | _ => scalar true least c

/-- The value behind a name and its colon, null if there is none. -/
def flowValue (least : Nat) : Nat → Cursor → Option (Value × Cursor)
  | 0, _ => none
  | fuel + 1, c => do
    let c ← flowPlace least c
    match c.rest with
    | ',' :: _ | ']' :: _ | '}' :: _ => some (.null, c)
    | _ => flowNode least fuel c

/-- The items of a list behind its bracket or a comma. An item may be a single
entry of a table. -/
def flowItems (least : Nat) : Nat → Cursor → Option (List Value × Cursor)
  | 0, _ => none
  | fuel + 1, c => do
    let c ← flowPlace least c
    match c.rest with
    | ']' :: _ => some ([], c.advance 1)
    | start =>
      let (v, c) ← flowNode least fuel c
      let c ← flowPlace least c
      let (v, c) ←
        if flowColon (atQuote start) c.rest then
          let name ← nameOf? v
          let (value, c) ← flowValue least fuel (c.advance 1)
          let c ← flowPlace least c
          pure (tableOf [(name, value)], c)
        else pure (v, c)
      match c.rest with
      | ',' :: _ =>
        let (items, c) ← flowItems least fuel (c.advance 1)
        some (v :: items, c)
      | ']' :: _ => some ([v], c.advance 1)
      | _ => none

/-- The entries of a table behind its brace or a comma. A name without a colon has
the value null. -/
def flowEntries (least : Nat) : Nat → Cursor → Option (Entries × Cursor)
  | 0, _ => none
  | fuel + 1, c => do
    let c ← flowPlace least c
    match c.rest with
    | '}' :: _ => some ([], c.advance 1)
    | start =>
      let (v, c) ← scalar true least c
      let name ← nameOf? v
      let c ← flowPlace least c
      let (value, c) ←
        if flowColon (atQuote start) c.rest then flowValue least fuel (c.advance 1)
        else pure (.null, c)
      let c ← flowPlace least c
      match c.rest with
      | ',' :: _ =>
        let (entries, c) ← flowEntries least fuel (c.advance 1)
        let entries ← addEntry name value entries
        some (entries, c)
      | '}' :: _ => some ([(name, value)], c.advance 1)
      | _ => none

end

/-! ### By indentation -/

/-- A place behind a gap: whether it is in a further line. -/
structure Place where
  cursor : Cursor
  crossed : Bool

/-- The next place outside brackets; `none` if a tab indents it. -/
def nextPlace (c : Cursor) : Option Place :=
  let (g, c) := c.gap
  if 0 < g.breaks ∧ g.tabbed ∧ ¬c.rest.isEmpty then none
  else some { cursor := c, crossed := 0 < g.breaks }

/-- What comes behind an entry or an item in a column. -/
inductive After where
  /-- A further one. -/
  | another (c : Cursor)
  /-- Something that belongs to others. -/
  | over

/-- Looks behind an entry or an item that starts in a column. More in its line, or
a line indented further, is an error. -/
def after (column : Nat) (c : Cursor) : Option After := do
  let p ← nextPlace c
  if p.cursor.ended then some .over
  else if ¬p.crossed ∨ column < p.cursor.column then none
  else if p.cursor.column = column then some (.another p.cursor)
  else some .over

mutual

/-- A value of its own: a list, a table or a scalar. Its further lines are
indented by `least` at least. -/
def node (least : Nat) : Nat → Cursor → Option (Value × Cursor)
  | 0, _ => none
  | fuel + 1, c =>
    if atDash c.rest then do
      let (items, c) ← items c.column fuel c
      some (.list items, c)
    else if atName c then do
      let (entries, c) ← entries c.column fuel c
      some (tableOf entries, c)
    else if c.rest.head? = some '[' ∨ c.rest.head? = some '{' then flowNode least fuel c
    else scalar false least c

/-- The value behind the colon of an entry in a column, null if there is none. -/
def entryValue (column : Nat) : Nat → Cursor → Option (Value × Cursor)
  | 0, _ => none
  | fuel + 1, c => do
    let p ← nextPlace c
    if p.cursor.ended then some (.null, c)
    else if p.crossed then
      if column < p.cursor.column then node (column + 1) fuel p.cursor
      else if p.cursor.column = column ∧ atDash p.cursor.rest then do
        let (items, c) ← items column fuel p.cursor
        some (.list items, c)
      else some (.null, c)
    else if p.cursor.rest.head? = some '[' ∨ p.cursor.rest.head? = some '{' then
      flowNode (column + 1) fuel p.cursor
    else scalar false (column + 1) p.cursor

/-- The entries of a table in a column. -/
def entries (column : Nat) : Nat → Cursor → Option (Entries × Cursor)
  | 0, _ => none
  | fuel + 1, c => do
    let (name, c) ← name c
    let (value, c) ← entryValue column fuel c
    match ← after column c with
    | .over => some ([(name, value)], c)
    | .another next =>
      let (rest, c) ← entries column fuel next
      let rest ← addEntry name value rest
      some (rest, c)

/-- The items of a list whose dashes stand in a column. -/
def items (column : Nat) : Nat → Cursor → Option (List Value × Cursor)
  | 0, _ => none
  | fuel + 1, c => do
    let dash := c.advance 1
    let p ← nextPlace dash
    let (v, c) ←
      if p.cursor.ended ∨ (p.crossed ∧ p.cursor.column ≤ column) then pure (.null, dash)
      else node (column + 1) fuel p.cursor
    match ← after column c with
    | .over => some ([v], c)
    | .another next =>
      if atDash next.rest then
        let (rest, c) ← items column fuel next
        some (v :: rest, c)
      else some ([v], c)

end

/-! ### Documents -/

/-- Line breaks of every kind as line feeds. -/
def lineFeeds : List Char → List Char
  | '\r' :: '\n' :: cs => '\n' :: lineFeeds cs
  | '\r' :: cs => '\n' :: lineFeeds cs
  | c :: cs => c :: lineFeeds cs
  | [] => []

/-- The table of a document, at its first place. On the line of the mark that
starts a document a table stands between braces. -/
def root (fuel : Nat) (c : Cursor) : Option (Value × Cursor) :=
  if c.atMark '-' then do
    let p ← nextPlace (c.advance 3)
    if p.cursor.ended then none
    else if p.crossed then node 0 fuel p.cursor
    else flowNode 0 fuel p.cursor
  else if c.ended then none
  else node 0 fuel c

/-- Whether nothing follows but marks for the end of the document. -/
def finished : Nat → Cursor → Bool
  | 0, _ => false
  | fuel + 1, c =>
    let (g, c) := c.gap
    c.rest.isEmpty || ((0 < g.breaks || c.column == 0) && c.atMark '.' &&
      finished fuel (c.advance 3))

/-- The table that a text writes. A text without a document writes the empty one. -/
def parse? (text : String) : Option Table := do
  let cs := lineFeeds text.toList
  let (_, c) := Cursor.gap { rest := cs }
  if c.rest.isEmpty then some []
  else
    match ← root (4 * cs.length + 8) c with
    | (.table t, c) => if finished (cs.length + 1) c then some t else none
    | _ => none

end PullStream.Configuration.Yaml

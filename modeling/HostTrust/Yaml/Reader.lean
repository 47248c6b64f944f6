/-
HostTrust.Yaml.Reader — the value that a YAML text writes.

A text holds at most one document. Collections are written in block style, by
indentation, or in flow style, by brackets. In block style a mapping begins at
its first key: a key stands on one line, and a colon follows it. A value may be
named by an anchor and be used again by an alias.

The functions pass on the place in the text and the named values. They recurse
on a bound of the number of steps, which is large enough for the whole text.
-/
import HostTrust.Yaml.Node
import HostTrust.Yaml.Scalar

namespace HostTrust.Yaml

/-- How far a text is read, and the values that have names. -/
structure Progress where
  place : Cursor
  anchors : List (String × Node)

/-- Reading part of a text. -/
abbrev Read := StateT Progress Option

namespace Read

def place : Read Cursor := do return (← get).place

def moveTo (c : Cursor) : Read Unit := modify fun s => { s with place := c }

def advance (n : Nat) : Read Unit := do moveTo ((← place).advance n)

/-- Goes to the next place that is not blank, and gives it. -/
def skip (flow tabs : Bool) : Read Cursor := do
  let c := (← place).skip flow tabs
  moveTo c
  return c

/-- What is known of a value in front of it: its name, and whether it has a tag. -/
structure Properties where
  anchor : Option String
  tagged : Bool

/-- Gives a value its name. -/
def label (p : Properties) (n : Node) : Read Node := do
  let n := match p.tagged, n with
    | true, .scalar .plain text => .scalar .tagged text
    | _, n => n
  match p.anchor with
  | some name => modify fun s => { s with anchors := (name, n) :: s.anchors }
  | none => pure ()
  return n

/-! ## Names -/

def isNameSign (c : Char) : Bool := c.isAlphanum || c == '_' || c == '-'

/-- The name of an anchor or an alias, after its sign. -/
def name : Read String := do
  advance 1
  let chars := (← place).chars
  let text := chars.takeWhile isNameSign
  advance text.length
  let rest := chars.drop text.length
  let ends := endsWord rest ||
    rest.head?.any fun c => ['?', ':', ',', ']', '\x7d', '%', '@', '\x60'].contains c
  if text.isEmpty || !ends then failure
  return String.ofList text

/-- The signs in a tag. -/
def isTagSign (c : Char) : Bool :=
  isNameSign c || [';', '/', '?', ':', '@', '&', '=', '+', '$', '.', '!', '~', '*', '\'', '(',
    ')', '%'].contains c

/-- Passes over a tag. Only tags with the two common handles are known. -/
def tag : Read Unit := do
  let chars := (← place).chars
  let size ← match chars with
    | '!' :: '<' :: rest =>
      match rest.dropWhile fun c => isTagSign c || [',', '[', ']'].contains c with
      | '>' :: after => pure (chars.length - after.length)
      | _ => failure
    | _ =>
      let text := chars.takeWhile isTagSign
      let marks := text.count '!'
      if marks > 2 ∨ (marks = 2 ∧ text.take 2 ≠ ['!', '!']) ∨ text = ['!', '!'] then
        failure
      pure text.length
  advance size
  if !endsWord (← place).chars && (← place).chars.head? != some ',' then failure

/-- Reads an anchor and a tag, in any order, each at most once. Blanks may follow them. -/
def properties (flow : Bool) : Nat → Properties → Read Properties
  | 0, p => return p
  | fuel + 1, p => do
    match (← place).chars.head?, p.anchor, p.tagged with
    | some '&', none, _ =>
      let text ← name
      let _ ← skip flow true
      properties flow fuel { p with anchor := some text }
    | some '!', _, false =>
      tag
      let _ ← skip flow true
      properties flow fuel { p with tagged := true }
    | _, _, _ => return p

/-- The value that an alias stands for. -/
def aliased : Read Node := do
  let text ← name
  match (← get).anchors.lookup text with
  | some n => return n
  | none => failure

/-- A quoted scalar. -/
def quotedScalar (quote : Char) : Read Node := do
  let c ← place
  let (text, rest) ← quoted quote (c.chars.length + 1) (c.chars.drop 1)
  moveTo (c.upTo rest)
  return .scalar .quoted (String.ofList text)

/-- A plain scalar. -/
def plainScalar (flow : Bool) (indent : Int) : Read Node := do
  let c ← place
  if !beginsPlain flow c.chars then failure
  let (text, last) ← plain flow indent (c.chars.length + 1) c
  moveTo last
  return .scalar .plain (String.ofList text)

/-! ## Flow style -/

mutual

/-- A value in flow style. -/
def flowNode (fuel : Nat) : Read Node :=
  match fuel with
  | 0 => failure
  | fuel + 1 => do
    let p ← properties true 2 ⟨none, false⟩
    match (← place).chars.head? with
    | some '[' => do advance 1; label p (.list (← flowItems fuel))
    | some '\x7b' => do advance 1; label p (.map (← flowEntries fuel))
    | some '\'' => do label p (← quotedScalar '\'')
    | some '"' => do label p (← quotedScalar '"')
    | some '*' => aliased
    | _ =>
      let c ← place
      if beginsPlain true c.chars then do label p (← plainScalar true (-1))
      else if p.anchor.isSome || p.tagged then label p .empty
      else failure

/-- The value after a key in flow style. It may be missing. -/
def flowValue (fuel : Nat) : Read Node :=
  match fuel with
  | 0 => failure
  | fuel + 1 => do
    advance 1
    let c ← skip true true
    if c.chars.head?.any fun d => [',', ']', '\x7d'].contains d then return .empty
    flowNode fuel

/-- The items up to the closing bracket. An item may be a single entry of a mapping. -/
def flowItems (fuel : Nat) : Read (List Node) :=
  match fuel with
  | 0 => failure
  | fuel + 1 => do
    let start ← skip true true
    if start.chars.head? = some ']' then do advance 1; return []
    let key ← if start.chars.head? = some ':' then pure .empty else flowNode fuel
    let c ← skip true true
    let item ← if c.chars.head? = some ':' then do
        if c.line ≠ start.line then failure
        let value ← flowValue fuel
        pure (.map [(key, value)])
      else pure key
    let c ← skip true true
    match c.chars.head? with
    | some ',' => do advance 1; return item :: (← flowItems fuel)
    | some ']' => do advance 1; return [item]
    | _ => failure

/-- The entries up to the closing brace. A value may be missing. -/
def flowEntries (fuel : Nat) : Read (List (Node × Node)) :=
  match fuel with
  | 0 => failure
  | fuel + 1 => do
    let start ← skip true true
    if start.chars.head? = some '\x7d' then do advance 1; return []
    let key ← if start.chars.head? = some ':' then pure .empty else flowNode fuel
    let c ← skip true true
    let value ← if c.chars.head? = some ':' then do
        if c.line ≠ start.line then failure
        flowValue fuel
      else pure .empty
    let c ← skip true true
    match c.chars.head? with
    | some ',' => do advance 1; return (key, value) :: (← flowEntries fuel)
    | some '\x7d' => do advance 1; return [(key, value)]
    | _ => failure

end

/-! ## Block style -/

/-- The most characters of a key. -/
def keyLimit : Nat := 1024

/-- Whether a colon after a key follows the place, on the line where the key began. -/
def isAfterKey (start here : Cursor) : Bool :=
  let after := here.skip false true
  after.isIndicator ':' && start.line == after.line &&
    start.chars.length ≤ here.chars.length + keyLimit

/-- A value that needs no indentation, inside of a block at column `indent`. -/
def inlineNode (indent : Int) : Read Node := do
  let c ← place
  match c.chars.head? with
  | some '[' | some '\x7b' => flowNode (2 * c.chars.length + 2)
  | some '\'' => quotedScalar '\''
  | some '"' => quotedScalar '"'
  | some '*' => aliased
  | _ => plainScalar false indent

/-- A key of a mapping, and the colon after it. -/
def key : Read Node := do
  let start ← place
  let p ← properties false 2 ⟨none, false⟩
  let n ← inlineNode start.column
  if !isAfterKey start (← place) then failure
  let _ ← skip false true
  advance 1
  label p n

/-- The next place after a complete value in a block, which must be on a line of its own. -/
def nextLine : Read Cursor := do
  let before ← place
  let after := before.skip false (before.column ≠ 0)
  if !after.chars.isEmpty && before.column ≠ 0 && before.line == after.line then failure
  return after

mutual

/-- A value that begins here, inside of a block at column `indent`. A collection in block
style may begin only if `fresh`: nothing but indicators of collections stands before it. -/
def blockNode (fuel : Nat) (indent : Int) (fresh : Bool) : Read Node :=
  match fuel with
  | 0 => failure
  | fuel + 1 => do
    let start ← place
    let p ← properties false 2 ⟨none, false⟩
    let c ← place
    if c.stops then label p .empty
    else if c.line ≠ start.line then
      if indent < c.column ∨ (indent = c.column ∧ c.isIndicator '-') then do
        label p (← blockNode fuel indent true)
      else label p .empty
    else if c.isIndicator '-' then do
      if !fresh then failure
      label p (.list (← blockItems fuel c.column (c.column = indent)))
    else if c.isIndicator '?' then do
      if !fresh then failure
      label p (.map (← blockEntries fuel c.column))
    else if c.chars.head? = some '|' ∨ c.chars.head? = some '>' then do
      let (text, last) ← blockScalar (c.chars.head? = some '|') indent (c.advance 1)
      moveTo last
      label p (.scalar .quoted (String.ofList text))
    else do
      let before ← get
      let n ← inlineNode indent
      if isAfterKey start (← place) then
        if !fresh then failure
        set { before with place := start }
        return .map (← blockEntries fuel start.column)
      else label p n

/-- The value after an indicator, inside of a block at column `indent`. A list in a mapping
may stand at the column of the mapping. -/
def blockValue (fuel : Nat) (indent : Nat) (fresh inMap : Bool) : Read Node :=
  match fuel with
  | 0 => failure
  | fuel + 1 => do
    let before ← place
    let c ← skip false (!fresh)
    if c.stops then do moveTo before; return .empty
    else if c.line = before.line then blockNode fuel indent fresh
    else if indent < c.column ∨ (inMap ∧ c.column = indent ∧ c.isIndicator '-') then
      blockNode fuel indent true
    else do moveTo before; return .empty

/-- The items of a list at a column. In a mapping at the same column the list ends where an
entry of the mapping begins. -/
def blockItems (fuel : Nat) (column : Nat) (inMap : Bool) : Read (List Node) :=
  match fuel with
  | 0 => failure
  | fuel + 1 => do
    advance 1
    let item ← blockValue fuel column true false
    let c ← nextLine
    if c.stops ∨ c.column < column then return [item]
    if column < c.column then failure
    if c.isIndicator '-' then do
      moveTo c
      return item :: (← blockItems fuel column inMap)
    if inMap then return [item] else failure

/-- The entries of a mapping at a column. -/
def blockEntries (fuel : Nat) (column : Nat) : Read (List (Node × Node)) :=
  match fuel with
  | 0 => failure
  | fuel + 1 => do
    let start ← place
    let entry ← if start.isIndicator '?' then do
        advance 1
        let k ← blockValue fuel column true true
        let c ← nextLine
        if !c.stops && c.column == column && c.isIndicator ':' then do
          moveTo (c.advance 1)
          pure (k, ← blockValue fuel column true true)
        else pure (k, .empty)
      else do
        let k ← key
        pure (k, ← blockValue fuel column false true)
    let c ← nextLine
    if c.stops ∨ c.column < column then return [entry]
    if column < c.column then failure
    moveTo c
    return entry :: (← blockEntries fuel column)

end

/-! ## Documents -/

/-- Reads directives. At most one says the version of the language, and it is 1.1 or 1.2. -/
def directives (seen : Bool) : Nat → Read Bool
  | 0 => failure
  | fuel + 1 => do
    let c ← skip false false
    if c.column ≠ 0 ∨ c.chars.head? ≠ some '%' then return seen
    let line := c.chars.takeWhile (· != '\n')
    let words := ((String.ofList (line.takeWhile (· != '#'))).splitOn " ").filter (· ≠ "")
    if words ≠ ["%YAML", "1.1"] ∧ words ≠ ["%YAML", "1.2"] then failure
    if seen then failure
    advance line.length
    directives true fuel

/-- Passes over marks of the end of a document. -/
def endMarks : Nat → Read Bool
  | 0 => return false
  | fuel + 1 => do
    let c ← skip false false
    if c.column = 0 ∧ c.chars.take 3 = ['.', '.', '.'] ∧ endsWord (c.chars.drop 3) then do
      advance 3
      let after ← nextLine
      if after.chars.isEmpty then return true
      endMarks fuel
    else return c.chars.isEmpty

/-- The only document of a text. -/
def document (size : Nat) : Read Node := do
  if ← endMarks size then return .empty
  let versioned ← directives false size
  let c ← place
  let root ← if c.column = 0 ∧ c.chars.take 3 = ['-', '-', '-'] ∧ endsWord (c.chars.drop 3) then do
      advance 3
      let after := (← place).skip false true
      moveTo after
      if after.stops then pure .empty else blockNode size (-1) (after.line ≠ c.line)
    else do
      if versioned then failure
      blockNode size (-1) true
  let after ← nextLine
  moveTo after
  if after.chars.isEmpty then return root
  if ← endMarks size then return root else failure

end Read

/-- Whether a character may stand in a document. -/
def isAllowed (c : Char) : Bool :=
  c == '\t' || c == '\n' || c == '\r' || (' ' ≤ c && c ≤ '~') || c.val == 0x85 ||
    (0xA0 ≤ c.val && c.val != 0xFFFE && c.val != 0xFFFF)

/-- Every way to end a line as one character. -/
def plainLineEnds : List Char → List Char
  | '\r' :: '\n' :: rest => '\n' :: plainLineEnds rest
  | c :: rest => (if c = '\r' ∨ c = '\u0085' then '\n' else c) :: plainLineEnds rest
  | [] => []

/-- The value that a text writes. -/
def read? (s : String) : Option Node :=
  let chars := s.toList
  if !chars.all isAllowed then none
  else
    let chars := plainLineEnds (if chars.head? = some '\ufeff' then chars.drop 1 else chars)
    let size := 4 * chars.length + 8
    ((Read.document size).run ⟨⟨chars, 0, 0⟩, []⟩).map Prod.fst

end HostTrust.Yaml

/-
HostTrust.Xml.Token — the tokens of an XML text.

A text is cut into tags, runs of character data and other markup. Character
data is given without the blanks around it, and not at all if there is nothing
else; its references are still in place. End tags must close the element that
was opened last. Elements that are still open at the end of the text are not a
fault of the tokens.

What is no XML is a token too, `broken`, and always the last one, so that a
consumer meets the faults of a document in order.
-/
import HostTrust.Text.Utf8

namespace HostTrust.Xml

/-- A start tag: the name of the element, and its attributes as they stand. -/
structure Tag where
  name : List Char
  attributes : List Char
  deriving DecidableEq, Repr

/-- A piece of an XML text. -/
inductive Token where
  /-- A start tag. -/
  | opening (tag : Tag)
  /-- The tag of an element without content. -/
  | lone (tag : Tag)
  /-- An end tag. -/
  | closing
  /-- Character data, with its references. -/
  | data (chars : List Char)
  /-- A comment, a section of raw data, an instruction or a document type. -/
  | aside
  /-- The place where the text stops being XML. -/
  | broken
  deriving DecidableEq, Repr

/-- The blanks of markup. -/
def isSpace (c : Char) : Bool := c == ' ' || c == '\r' || c == '\n' || c == '\t'

/-- A name without the namespace in front of it. -/
def localName (name : List Char) : List Char :=
  match name.dropWhile (· != ':') with
  | _ :: rest => rest
  | [] => name

/-! ## Markup, after its `<` -/

/-- Reads up to the first `>` before which `isDone` holds of what was read, which is
held latest first. -/
def upTo (isDone : List Char → Bool) (latest : List Char) :
    List Char → Option (List Char × List Char)
  | [] => none
  | c :: rest =>
    if c = '>' ∧ isDone latest then some (latest.reverse, rest)
    else upTo isDone (c :: latest) rest

/-- Reads a tag, in which `>` may stand between quotes. -/
def tagContent (quote : Option Char) (latest : List Char) :
    List Char → Option (List Char × List Char)
  | [] => none
  | c :: rest =>
    match quote with
    | some q => tagContent (if c = q then none else some q) (c :: latest) rest
    | none =>
      if c = '>' then some (latest.reverse, rest)
      else tagContent (if c = '"' ∨ c = '\'' then some c else none) (c :: latest) rest

/-- Reads a document type, in which brackets may be nested. -/
def nested (depth : Nat) (latest : List Char) : List Char → Option (List Char × List Char)
  | [] => none
  | c :: rest =>
    if c = '<' then nested (depth + 1) (c :: latest) rest
    else if c = '>' then
      match depth with
      | 0 => some (latest.reverse, rest)
      | depth + 1 => nested depth (c :: latest) rest
    else nested depth (c :: latest) rest

/-- Whether a comment can end here: `--` was read after the `!--` of its beginning. -/
def commentDone : List Char → Bool
  | '-' :: '-' :: _ :: _ :: _ :: _ => true
  | _ => false

/-- Whether a section of raw data can end here. -/
def rawDone : List Char → Bool
  | ']' :: ']' :: _ => true
  | _ => false

/-- Whether an instruction can end here. -/
def instructionDone : List Char → Bool
  | '?' :: _ => true
  | _ => false

/-- Markup that begins with `!`: the rest of the input, if it is well formed. -/
def bang (cs : List Char) : Option (List Char) :=
  match cs with
  | _ :: '[' :: _ => do
    let (content, rest) ← upTo rawDone [] cs
    if "![CDATA[".toList.isPrefixOf content then some rest else none
  | _ :: '-' :: _ => do
    let (content, rest) ← upTo commentDone [] cs
    if "!--".toList.isPrefixOf content then some rest else none
  | _ :: c :: _ => do
    if c ≠ 'D' ∧ c ≠ 'd' then none
    let (content, rest) ← nested 0 [] cs
    if (content.take 8).map Char.toUpper = "!DOCTYPE".toList ∧
        (content.drop 8).any (fun c => !isSpace c) then some rest
    else none
  | _ => none

/-- An instruction: the rest of the input, if it is well formed. -/
def instruction (cs : List Char) : Option (List Char) := do
  let (content, rest) ← upTo instructionDone [] cs
  if 1 < content.length then some rest else none

/-- The name in an end tag, without the blanks after it. -/
def closingName (content : List Char) : List Char :=
  let name := (content.reverse.dropWhile isSpace).reverse
  if name.isEmpty then content else name

/-- The start tag with a given content. -/
def tagOf (content : List Char) : Tag :=
  ⟨content.takeWhile (fun c => !isSpace c), content.dropWhile (fun c => !isSpace c)⟩

/-! ## The whole text -/

/-- Cuts a text into tokens; `unclosed` names the elements that are open, the latest first. -/
def tokensFrom : (steps : Nat) → (unclosed : List (List Char)) → List Char → List Token
  | 0, _, _ => [.broken]
  | steps + 1, unclosed, cs =>
    match cs.dropWhile isSpace with
    | [] => []
    | '<' :: '!' :: rest =>
      match bang ('!' :: rest) with
      | some rest => .aside :: tokensFrom steps unclosed rest
      | none => [.broken]
    | '<' :: '?' :: rest =>
      match instruction ('?' :: rest) with
      | some rest => .aside :: tokensFrom steps unclosed rest
      | none => [.broken]
    | '<' :: '/' :: rest =>
      match upTo (fun _ => true) [] rest, unclosed with
      | some (content, rest), name :: unclosed =>
        if closingName content = name then .closing :: tokensFrom steps unclosed rest
        else [.broken]
      | _, _ => [.broken]
    | '<' :: rest =>
      match tagContent none [] rest with
      | some (content, rest) =>
        if content.getLast? = some '/' then
          .lone (tagOf content.dropLast) :: tokensFrom steps unclosed rest
        else
          let tag := tagOf content
          .opening tag :: tokensFrom steps (tag.name :: unclosed) rest
      | none => [.broken]
    | cs =>
      let data := cs.takeWhile (· != '<')
      .data ((data.reverse.dropWhile isSpace).reverse) ::
        tokensFrom steps unclosed (cs.dropWhile (· != '<'))

/-- The tokens of a text, which may begin with a byte order mark. -/
def tokens (s : String) : List Token :=
  let cs := match s.toList with
    | '\ufeff' :: rest => rest
    | cs => cs
  tokensFrom (cs.length + 1) [] cs

end HostTrust.Xml

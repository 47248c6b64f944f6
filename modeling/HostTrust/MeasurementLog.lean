/-
HostTrust.MeasurementLog — software measurement documents.

A document has one element `Measurement` with the identifier of the flavor it
belongs to, and in it the measured directories, files and links, each with its
path and its digest as text, and the digest of them all:

  <Measurement Label="app" Uuid="…" DigestAlg="SHA384">
    <Dir Path="/opt/app" Include=".*" Exclude="">ab…</Dir>
    <File Path="/opt/app/bin">cd…</File>
    <Symlink Path="/opt/app/current">ef…</Symlink>
    <CumulativeHash>01…</CumulativeHash>
  </Measurement>

A document is read token by token. `Progress` holds the document so far and
the element whose text is being read; an entry is complete at the next end tag.
-/
import HostTrust.Pcr
import HostTrust.Uuid
import HostTrust.Xml.Attribute

namespace HostTrust

/-- What kind of thing was measured. -/
inductive MeasuredKind where
  | directory
  | file
  | symlink
  deriving DecidableEq, Repr

/-- One measured path. -/
structure Measurement where
  kind : MeasuredKind
  path : String
  value : String
  includes : Option String
  excludes : Option String
  deriving DecidableEq, Repr

/-- A measurement document. -/
structure MeasurementLog where
  label : String
  uuid : Uuid
  digestAlgorithm : Option String
  measurements : List Measurement
  cumulativeHash : Option String
  deriving DecidableEq, Repr

/-- Why a text is no measurement document. -/
inductive MeasurementLogError where
  /-- The text is no XML. -/
  | malformed
  | attribute (e : Xml.AttributeError)
  /-- A text has a reference that is none. -/
  | badText
  | badUuid (text : String)
  | missingUuid
  | missingPath
  | entryOutside
  | missingDocument
  deriving DecidableEq, Repr

def MeasurementLogError.description : MeasurementLogError → String
  | .malformed => "Error at position " ++ withheld
  | .attribute .malformed => "Malformed attribute: " ++ withheld
  | .attribute (.badValue name) => "Malformed attribute " ++ name ++ ": " ++ withheld
  | .badText => withheld
  | .badUuid text => "Invalid measurement Uuid '" ++ text ++ "': " ++ withheld
  | .missingUuid => "Measurement element has no Uuid"
  | .missingPath => "Measurement entry has no Path"
  | .entryOutside => "Measurement entry outside of a Measurement element"
  | .missingDocument => "Document has no Measurement element"

namespace MeasuredKind

/-- The kind that an element with this name describes. -/
def ofElement? (name : List Char) : Option MeasuredKind :=
  if name = "Dir".toList then some .directory
  else if name = "File".toList then some .file
  else if name = "Symlink".toList then some .symlink
  else none

end MeasuredKind

namespace MeasurementLog

/-! ## Reading -/

/-- The element whose text is being read. -/
inductive Pending where
  | entry (m : Measurement)
  | cumulativeHash
  deriving DecidableEq, Repr

/-- The document as far as it is read. -/
structure Progress where
  document : Option MeasurementLog
  pending : Option Pending
  deriving DecidableEq, Repr

def attribute? (tag : Xml.Tag) (name : String) :
    Except MeasurementLogError (Option String) :=
  (tag.attribute? name).mapError .attribute

/-- Adds an entry to the document, which must have begun. -/
def addEntry (document : Option MeasurementLog) (m : Measurement) :
    Except MeasurementLogError MeasurementLog :=
  match document with
  | some d => return { d with measurements := d.measurements ++ [m] }
  | none => throw .entryOutside

/-- The document that a `Measurement` tag begins. -/
def ofTag (tag : Xml.Tag) : Except MeasurementLogError MeasurementLog := do
  match ← attribute? tag "Uuid" with
  | none => throw .missingUuid
  | some text =>
    match Uuid.ofText? text with
    | none => throw (.badUuid text)
    | some uuid =>
      let label ← attribute? tag "Label"
      let algorithm ← attribute? tag "DigestAlg"
      return ⟨label.getD "", uuid, algorithm, [], none⟩

/-- The entry that a tag begins; its value is not known yet. -/
def entryOfTag (kind : MeasuredKind) (tag : Xml.Tag) :
    Except MeasurementLogError Measurement := do
  match ← attribute? tag "Path" with
  | none => throw .missingPath
  | some path =>
    let includes ← attribute? tag "Include"
    let excludes ← attribute? tag "Exclude"
    return ⟨kind, path, "", includes, excludes⟩

namespace Progress

def initial : Progress := ⟨none, none⟩

/-- What a tag begins: the document, an entry, the cumulative digest or nothing of interest. -/
def enter (p : Progress) (tag : Xml.Tag) : Except MeasurementLogError Progress := do
  let name := Xml.localName tag.name
  if name = "Measurement".toList then return ⟨some (← ofTag tag), none⟩
  else if name = "CumulativeHash".toList then return ⟨p.document, some .cumulativeHash⟩
  else
    match MeasuredKind.ofElement? name with
    | some kind => return ⟨p.document, some (.entry (← entryOfTag kind tag))⟩
    | none => return ⟨p.document, none⟩

/-- Takes one token. -/
def step (p : Progress) : Xml.Token → Except MeasurementLogError Progress
  | .opening tag => p.enter tag
  | .lone tag => do
    let q ← p.enter tag
    match q.pending with
    | some (.entry m) => return ⟨some (← addEntry q.document m), p.pending⟩
    | _ => return ⟨q.document, p.pending⟩
  | .closing =>
    match p.pending with
    | some (.entry m) => return ⟨some (← addEntry p.document m), none⟩
    | _ => return ⟨p.document, none⟩
  | .data raw =>
    match Xml.expand raw with
    | none => throw .badText
    | some chars =>
      let text := String.ofList (Text.trimChars chars)
      match p.pending with
      | some (.entry m) => return ⟨p.document, some (.entry { m with value := text })⟩
      | some .cumulativeHash =>
        match p.document with
        | some d => return ⟨some { d with cumulativeHash := some text }, p.pending⟩
        | none => throw .entryOutside
      | none => return p
  | .aside => return p
  | .broken => throw .malformed

end Progress

/-- The document that a text writes. -/
def parse (xml : String) : Except MeasurementLogError MeasurementLog := do
  let p ← (Xml.tokens xml).foldlM Progress.step .initial
  match p.document with
  | some d => return d
  | none => throw .missingDocument

/-! ## Meaning -/

/-- The algorithm a document uses when it names none. -/
def defaultAlgorithm : Bank := .sha384

/-- The digest algorithm of the document. -/
def algorithm (d : MeasurementLog) : Except MeasurementError Bank :=
  match d.digestAlgorithm with
  | some name => Bank.parse name
  | none => return defaultAlgorithm

/-- The value of a fresh register after all entries, in order. -/
def replay (d : MeasurementLog) : Except MeasurementError String := do
  let bank ← d.algorithm
  (bank.replay (d.measurements.map Measurement.value)).mapError .unreplayable

/-- The first document about a flavor. Every text must be a document. -/
def findFor (id : Uuid) (xmls : List String) :
    Except MeasurementLogError (Option MeasurementLog) := do
  let documents ← xmls.mapM parse
  return documents.find? (·.uuid == id)

end MeasurementLog

end HostTrust

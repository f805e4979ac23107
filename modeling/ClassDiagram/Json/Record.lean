import ClassDiagram.Json.Skip
/-!
# Reading typed values

Scanners for the values that a document type is made of: strings, truth values, lists and records.
A record may be written as an object, whose members come in any order and may include unknown ones,
or as a list of its fields in the order of their declaration. What is missing at the end takes its
default, if it has one.
-/

namespace ClassDiagram.Json

namespace Scan

/-- Stops because the value at the cursor has the wrong type; its scalar is scanned first, so a
fault inside it comes before. -/
def failType {α : Type} (expected : String) : Scan α := do
  match ← peek with
  | some 'n' => do skip; word ['u', 'l', 'l']; stop .null
  | some 't' => do skip; word ['r', 'u', 'e']; stop (.bool true)
  | some 'f' => do skip; word ['a', 'l', 's', 'e']; stop (.bool false)
  | some '-' => do skip; stop (← number true).found
  | some '\x22' => do skip; stop (.text (← text))
  | some '[' => stop .sequence
  | some '\x7b' => stop .map
  | some a => if a.isDigit then do stop (← number false).found else failNext .expectedValue
  | none => failNext .expectedValue
where
  /-- Stops at the cursor. -/
  stop (found : Found) : Scan α := failHere (.invalidType found expected)

/-- A string. -/
def string : Scan String := do
  match ← peekToken with
  | none => failNext .unfinishedValue
  | some '\x22' => do skip; text
  | some _ => failType "a string"

/-- A string or null. -/
def string? : Scan (Option String) := do
  match ← peekToken with
  | some 'n' => do skip; word ['u', 'l', 'l']; pure none
  | _ => do return some (← string)

/-- A truth value. -/
def bool : Scan Bool := do
  match ← peekToken with
  | none => failNext .unfinishedValue
  | some 't' => do skip; word ['r', 'u', 'e']; pure true
  | some 'f' => do skip; word ['a', 'l', 's', 'e']; pure false
  | some _ => failType "a boolean"

/-- The items of a list, after those `seen`, which are kept in reverse. Every turn passes over a
character; when the budget of the remaining characters is used up, the text is at its end. -/
def items {α : Type} (item : Scan α) : List Char → Turn → List α → Scan (List α)
  | [], _, _ => failNext .unfinishedList
  | _ :: budget, turn, seen => do
    if ← moreItems turn then do
      let a ← item
      items item budget .later (a :: seen)
    else pure seen.reverse

/-- A list. -/
def list {α : Type} (item : Scan α) : Scan (List α) := do
  match ← peekToken with
  | none => failNext .unfinishedValue
  | some '[' => do
    skip
    let all ← fun c => items item c.rest .first [] c
    closeList
    pure all
  | some _ => failType "a sequence"

end Scan

/-- A field of a record that is being read into drafts of type `δ`. -/
structure Field (δ : Type) where
  name : String
  /-- The draft already has the field. -/
  isSet : δ → Bool
  /-- Scans the value of the field into the draft. -/
  scan : δ → Scan δ
  /-- The field has a default. -/
  optional : Bool := true

/-- How a record of type `α` is read by way of drafts of type `δ`. -/
structure Record (δ α : Type) where
  /-- The name by which messages call the record. -/
  name : String
  /-- The fields, in the order of their declaration. -/
  fields : List (Field δ)
  /-- The draft in which nothing is set. -/
  blank : δ
  /-- The record of a draft, or the name of the first field without value and default. -/
  finish : δ → Except String α

namespace Record

variable {δ α : Type}

/-- Scans fields by position: `turn` tells whether one came before, `n` how many. -/
def positional (r : Record δ α) : List (Field δ) → Scan.Turn → Nat → δ → Scan δ
  | [], _, _, draft => pure draft
  | f :: fs, turn, n, draft => do
    if ← Scan.moreItems turn then do
      let draft ← f.scan draft
      r.positional fs .later (n + 1) draft
    else if f.optional then r.positional fs turn (n + 1) draft
    else fun c =>
      -- the message speaks of the place behind the bracket that ends the list
      .error ⟨.invalidLength n ("struct " ++ r.name ++ " with " ++ toString r.fields.length ++
        " elements"), c.index + 1⟩

/-- Stops because of a second member of one name. The place is behind the spaces that follow the
name, and behind a closing brace if one follows there. -/
def failDuplicate (name : String) : Scan δ := do
  match ← Scan.peekToken with
  | some '\x7d' => Scan.failNext (.duplicateField name)
  | _ => Scan.failHere (.duplicateField name)

/-- Scans one member whose name is `key`. -/
def member (r : Record δ α) (key : String) (draft : δ) : Scan δ :=
  match r.fields.find? fun f => f.name == key with
  | none => do
    Scan.colon
    Scan.skipValue
    pure draft
  | some f =>
    if f.isSet draft then failDuplicate key
    else do
      Scan.colon
      f.scan draft

/-- Scans members up to the closing brace, with the budget of the remaining characters. -/
def members (r : Record δ α) : List Char → Scan.Turn → δ → Scan δ
  | [], _, _ => Scan.failNext .unfinishedObject
  | _ :: budget, turn, draft => do
    if ← Scan.moreMembers turn then do
      Scan.skip
      let key ← Scan.text
      let draft ← r.member key draft
      r.members budget .later draft
    else pure draft

/-- The record of the draft at the closing brace or bracket; a fault lies behind that. -/
def complete (r : Record δ α) (draft : δ) : Scan α :=
  match r.finish draft with
  | .ok a => pure a
  | .error name => Scan.failNext (.missingField name)

/-- Scans a record. -/
def scan (r : Record δ α) : Scan α := do
  match ← Scan.peekToken with
  | none => Scan.failNext .unfinishedValue
  | some '[' => do
    Scan.skip
    let draft ← r.positional r.fields .first 0 r.blank
    let a ← r.complete draft
    Scan.closeList
    pure a
  | some '\x7b' => do
    Scan.skip
    let draft ← fun c => r.members c.rest .first r.blank c
    let a ← r.complete draft
    Scan.closeObject
    pure a
  | some _ => Scan.failType ("struct " ++ r.name)

/-- Reads a text that holds one record and nothing else. -/
def read (r : Record δ α) (text : String) : Except Refusal α :=
  match (do let a ← r.scan; Scan.endOfText; pure a).run (Cursor.ofText text) with
  | .ok (a, _) => .ok a
  | .error f => .error (f.refuse text)

end Record

end ClassDiagram.Json

import DidToken.Json.Parser
/-!
# Reading records

A record is read from an object whose members fill the fields by name, in any order, or from an array
of its fields in their order. A draft collects the fields that have come so far. A field must not
come twice; when the object or the array ends, the draft must make a record.

Members that are no fields go to `unknown`, which may keep them or pass over them.
-/

namespace DidToken.Json

/-- A field of a record that is drafted in a `δ`. -/
structure Field (δ : Type) where
  name : String
  isSet : δ → Bool
  /-- Reads the value of the field into the draft. -/
  read : δ → Reader δ
  /-- In an array, the field may be missing at the end. -/
  mayBeMissing : Bool

/-- The field that is kept in one place of the draft. -/
def Field.of {δ β : Type} (name : String) (reader : Reader β) (get : δ → Option β)
    (set : δ → β → δ) (mayBeMissing : Bool) : Field δ where
  name
  isSet draft := (get draft).isSome
  read draft := do
    let v ← reader
    return set draft v
  mayBeMissing

/-- How a record of type `α` is read by way of drafts of type `δ`. -/
structure Record (δ α : Type) where
  fields : List (Field δ)
  /-- Reads the value of a member that is no field. -/
  unknown : String → δ → Reader δ
  empty : δ
  /-- The record of a draft that has all it needs. -/
  finish : δ → Option α

/-- Passes over a member that is no field. -/
def ignore {δ : Type} (_name : String) (draft : δ) : Reader δ := do
  skip
  return draft

namespace Record

variable {δ α : Type}

def field? (r : Record δ α) (name : String) : Option (Field δ) :=
  r.fields.find? fun f => f.name = name

/-- A member of the object form, after the opening quote of its name. -/
def member (r : Record δ α) (draft : δ) : Reader δ := do
  let name ← text
  match r.field? name with
  | some f =>
    if f.isSet draft then throw .mismatch
    else
      colon
      f.read draft
  | none =>
    colon
    r.unknown name draft

def close (r : Record δ α) (draft : δ) : Reader α :=
  match r.finish draft with
  | some a => return a
  | none => throw .mismatch

/-- The object form, after the opening brace. -/
def ofMembers (r : Record δ α) : Reader α := do
  let draft ← members r.member r.empty
  r.close draft

/-- The fields of the array form that are still to come, up to the closing bracket. -/
def fieldsInOrder : List (Field δ) → (isFirst : Bool) → δ → Reader δ
  | [], _, draft => do
    let x ← mark
    if x = 0x5d then return draft else throw .malformed
  | f :: rest, isFirst, draft => do
    let x ← peekMark
    if x = 0x5d then
      if f.mayBeMissing then fieldsInOrder rest isFirst draft else throw .mismatch
    else if isFirst then
      let next ← f.read draft
      fieldsInOrder rest false next
    else if x = 0x2c then
      let _ ← byte
      let y ← peekMark
      if y = 0x5d then throw .malformed
      else
        let next ← f.read draft
        fieldsInOrder rest false next
    else throw .malformed

/-- The array form, after the opening bracket. -/
def ofItems (r : Record δ α) : Reader α := do
  let draft ← fieldsInOrder r.fields true r.empty
  r.close draft

def readObject (r : Record δ α) : Reader α := do
  let x ← peekMark
  if x = 0x7b then
    let _ ← byte
    r.ofMembers
  else unfit

def read (r : Record δ α) : Reader α := do
  let x ← peekMark
  if x = 0x5b then
    let _ ← byte
    r.ofItems
  else r.readObject

end Record

end DidToken.Json

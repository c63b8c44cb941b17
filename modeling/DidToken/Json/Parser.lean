import DidToken.Json.Number
/-!
# Reading values

One walk through a value serves two purposes: `value` builds the value, `skip` passes over it and
checks no more than the grammar. Values nest at most `maxDepth` deep; what is skipped may nest to any
depth.

A typed reader (`scalar`, `orNull`, `object`, `list`) is the value reader followed by a view of the
value, except that an array or an object in place of a scalar is refused at its first byte.
-/

namespace DidToken.Json

/-- How deep arrays and objects may stand one inside the other. -/
def maxDepth : Nat := 127

/-! ### The walk through a value -/

/-- What is made of each kind of value. Containers are given the reader for the values in them. -/
structure Shape (α : Type) where
  null : α
  bool : Bool → α
  number : Reader α
  /-- Reads a string after its opening quote. -/
  text : Reader α
  /-- Reads an array after its opening bracket. -/
  array : Reader α → Reader α
  /-- Reads an object after its opening brace. -/
  object : Reader α → Reader α

namespace Shape

variable {α : Type}

/-- A value that may hold what `inner` reads, or no containers at all. -/
def step (shape : Shape α) (inner : Option (Reader α)) : Reader α := do
  let x ← peekMark
  if x = 0x2d || Literal.isDigit x then shape.number
  else
    let _ ← byte
    if x = 0x6e then
      expectAll [0x75, 0x6c, 0x6c]
      return shape.null
    else if x = 0x74 then
      expectAll [0x72, 0x75, 0x65]
      return shape.bool true
    else if x = 0x66 then
      expectAll [0x61, 0x6c, 0x73, 0x65]
      return shape.bool false
    else if x = quoteByte then shape.text
    else match inner with
      | none => throw .malformed
      | some reader =>
        if x = 0x5b then shape.array reader
        else if x = 0x7b then shape.object reader
        else throw .malformed

/-- A value whose containers nest at most so deep. -/
def walk (shape : Shape α) : (depth : Nat) → Reader α
  | 0 => shape.step none
  | d + 1 => shape.step (some (walk shape d))

end Shape

/-! ### Building values -/

def number : Reader Value := do
  let l ← Literal.read .truncated
  match l.value? with
  | some v => return v
  | none => throw .malformed

/-- A member of an object, after the opening quote of its name. A name that comes again keeps its
place and takes the new value. -/
def member (reader : Reader Value) (o : Object) : Reader Object := do
  let name ← text
  colon
  let v ← reader
  return Assoc.insert o name v

/-- Values are kept. -/
def building : Shape Value where
  null := .null
  bool := .bool
  number := number
  text := .str <$> text
  array reader := .arr <$> items reader
  object reader := .obj <$> members (member reader) []

/-- A value whose containers nest at most so deep. -/
def value (depth : Nat) : Reader Value :=
  building.walk depth

/-! ### Passing over values -/

/-- A member of an object that is passed over. -/
def skipMember (reader : Reader Unit) : Unit → Reader Unit := fun _ => do
  skipText
  colon
  reader

/-- Values are dropped. A number that the text ends in is no number. -/
def skipping : Shape Unit where
  null := ()
  bool _ := ()
  number := do
    let _ ← Literal.read .malformed
    return ()
  text := skipText
  array reader := do
    let _ ← items reader
    return ()
  object reader := members (skipMember reader) ()

/-- Passes over a value. The rest of the text is at least as long as its containers are deep. -/
def skip : Reader Unit :=
  fun b => skipping.walk b.length b

/-! ### Typed readers -/

/-- A scalar of which `view` makes something. -/
def scalar {α : Type} (view : Value → Option α) : Reader α := do
  let x ← peekMark
  if x = 0x5b || x = 0x7b then throw .mismatch
  else
    let v ← value 0
    match view v with
    | some a => return a
    | none => throw .mismatch

/-- Nothing that is there has the right type. -/
def unfit {α : Type} : Reader α :=
  scalar fun _ => none

/-- The view in which `null` is absence. -/
def orNull {α : Type} (view : Value → Option α) (v : Value) : Option (Option α) :=
  if v.isNull then some none else (view v).map some

def string : Reader String :=
  scalar Value.str?

def stringOrNull : Reader (Option String) :=
  scalar (orNull Value.str?)

def int64OrNull : Reader (Option Int64) :=
  scalar (orNull Value.int64?)

/-- An object whose containers, itself included, nest at most so deep. -/
def object (depth : Nat) : Reader Object := do
  let x ← peekMark
  if x = 0x7b then
    let v ← value depth
    match v.obj? with
    | some o => return o
    | none => throw .mismatch
  else unfit

def objectOrNull (depth : Nat) : Reader (Option Object) := do
  let x ← peekMark
  if x = 0x7b then some <$> object depth
  else scalar (orNull fun _ => none)

def list {α : Type} (item : Reader α) : Reader (List α) := do
  let x ← peekMark
  if x = 0x5b then
    let _ ← byte
    items item
  else unfit

def Value.parse (b : Bytes) : Except Fault Value :=
  whole (value maxDepth) b

def Object.parse (b : Bytes) : Except Fault Object :=
  whole (object maxDepth) b

end DidToken.Json

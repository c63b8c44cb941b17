import DidToken.Json.Printer
import DidToken.Text.Quoted
/-!
# Describing values

A value is described by its kind and what it holds, so that for instance a number is told apart from
the text of its digits. Texts stand in quotes as in all descriptions (`Text.Quoted`), which is not how
they stand in JSON. Numbers are written as in JSON.
-/

namespace DidToken.Json

namespace Value

mutual

def describe : Value → String
  | .null => "Null"
  | .bool b => if b then "Bool(true)" else "Bool(false)"
  | .int n => "Number(" ++ toString n.val ++ ")"
  | .float x => "Number(" ++ floatText x ++ ")"
  | .str s => "String(" ++ Text.Quoted.text s ++ ")"
  | .arr items => "Array [" ++ String.intercalate ", " (describeItems items) ++ "]"
  | .obj members => "Object \x7b" ++ String.intercalate ", " (describeMembers members) ++ "\x7d"

def describeItems : List Value → List String
  | [] => []
  | v :: rest => describe v :: describeItems rest

def describeMembers : List (String × Value) → List String
  | [] => []
  | (name, v) :: rest => (Text.Quoted.text name ++ ": " ++ describe v) :: describeMembers rest

end

end Value

/-- The description of an object on its own, which does not name its kind. -/
def Object.describe (o : Object) : String :=
  "\x7b" ++ String.intercalate ", " (Value.describeMembers o) ++ "\x7d"

end DidToken.Json

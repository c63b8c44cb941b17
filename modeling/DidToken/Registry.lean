import DidToken.Assoc
import DidToken.Resolver
import DidToken.Text.Characters
import DidToken.Token.Error
/-!
# The registry of resolvers

A registry has at most one resolver for each method; the last one registered wins. A name is freed of
blanks at its ends before it is registered, and a blank name is ignored. Resolving a DID looks up the
resolver of its method and calls it; nothing else calls a resolver.

Every reading and every change of a registry is made under a lock, which is free again before a resolver
is called. It is assumed that no change breaks off under the lock, neither while a resolver that is
replaced or removed is disposed of nor while the change is logged. One that did would poison the lock for
good: from then on a name that is not blank could not be registered, `unregister`, `methods` and `resolve`
would fail, the last with the error for anything that no other error stands for, `canResolve` would answer
no, and `describe` would show no methods. All of this is left out.
-/

namespace DidToken

/-- Resolvers by method, in the order in which the methods were first registered. -/
abbrev Registry (m : Type → Type) := Assoc (Resolver m)

namespace Registry

variable {m : Type → Type}

def empty : Registry m := []

def register (registry : Registry m) (method : String) (resolver : Resolver m) : Registry m :=
  let name := Text.trim method
  if name = "" then registry else Assoc.insert registry name resolver

/-- The registry without a resolver for a method, which is given by its exact name. -/
def unregister (registry : Registry m) (method : String) : Registry m :=
  Assoc.erase registry method

def contains (registry : Registry m) (method : String) : Bool :=
  Assoc.contains registry method

def methods (registry : Registry m) : List String :=
  Assoc.keys registry

def find? (registry : Registry m) (method : String) : Option (Resolver m) :=
  Assoc.get? registry method

/-- Whether there is a resolver for the method of a DID. No text that is not a DID has one. -/
def canResolve (registry : Registry m) (text : String) : Bool :=
  match Did.parse text with
  | .ok did => registry.contains did.method
  | .error _ => false

def resolverOf (registry : Registry m) (text : String) : Except Token.Error (Resolver m) :=
  match Did.parse text with
  | .error _ => .error (.invalidIssuer text)
  | .ok did =>
    match registry.find? did.method with
    | some resolver => .ok resolver
    | none => .error (.unsupportedMethod did.method)

def resolve [Monad m] (registry : Registry m) (text : String) : m (Except Token.Error Document) := do
  match registry.resolverOf text with
  | .error e => return .error e
  | .ok resolver => return (← resolver.resolve text).mapError (.resolutionFailed text)

/-- What is shown of a registry: its methods. -/
def describe (registry : Registry m) : String :=
  "ResolverRegistry \x7b methods: ["
    ++ String.intercalate ", " (registry.methods.map Text.Quoted.text) ++ "] \x7d"

end Registry

end DidToken

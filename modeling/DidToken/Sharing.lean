import DidToken.Registry
/-!
# Shared registries

A program reaches a registry through handles. All clones of a handle reach the same registry, so what is
done through one of them is seen through the others. A resolution has two parts: the resolver is looked up
when it begins and answers when it finishes, and in between anything may be done with the registry.

The lock of a registry goes with it to all handles, and makes each operation on the registry a single
step. As for one registry alone, the lock is assumed not to be poisoned by a change that breaks off, so
that no operation fails because of another.
-/

namespace DidToken

variable {m : Type → Type}

/-! ### The two parts of a resolution -/

/-- A resolution that has begun. -/
structure Resolution (m : Type → Type) where
  text : String
  found : Except Token.Error (Resolver m)

def Registry.begin (registry : Registry m) (text : String) : Resolution m where
  text
  found := registry.resolverOf text

def Resolution.finish [Monad m] (resolution : Resolution m) : m (Except Token.Error Document) := do
  match resolution.found with
  | .error e => return .error e
  | .ok resolver =>
    return (← resolver.resolve resolution.text).mapError (.resolutionFailed resolution.text)

/-- The two parts together are a resolution. -/
theorem Registry.finish_begin [Monad m] (registry : Registry m) (text : String) :
    (registry.begin text).finish = registry.resolve text := rfl

/-! ### Handles -/

abbrev Handle := Nat

/-- The name of a resolution that is under way. -/
abbrev Task := Nat

/-- The registries of a program, by number, and what it has of them. -/
structure Store (m : Type → Type) where
  /-- The number of the registry that a handle reaches. -/
  target : Handle → Nat
  registry : Nat → Registry m
  resolution : Task → Option (Resolution m)

/-- What a program does with a registry. -/
inductive Op (m : Type → Type) where
  /-- Makes the second handle a clone of the first. -/
  | clone (handle other : Handle)
  | register (handle : Handle) (name : String) (resolver : Resolver m)
  /-- Registers and passes the registry on to another handle. -/
  | withResolver (handle : Handle) (name : String) (resolver : Resolver m) (other : Handle)
  | unregister (handle : Handle) (name : String)
  | methods (handle : Handle)
  | canResolve (handle : Handle) (text : String)
  | begin (handle : Handle) (text : String) (task : Task)
  | finish (task : Task)

/-- What comes back. -/
inductive Outcome where
  | done
  | removed (found : Bool)
  | methods (names : List String)
  | canResolve (answer : Bool)
  | resolved (answer : Except Token.Error Document)

namespace Store

/-- At first, every handle reaches an empty registry of its own. -/
def start : Store m where
  target := id
  registry _ := .empty
  resolution _ := none

def registryOf (s : Store m) (handle : Handle) : Registry m :=
  s.registry (s.target handle)

/-- The store in which the registry of a handle has changed. -/
def change (s : Store m) (handle : Handle) (f : Registry m → Registry m) : Store m :=
  { s with registry := fun n => if n = s.target handle then f (s.registryOf handle) else s.registry n }

/-- The store in which the second handle reaches what the first one does. -/
def share (s : Store m) (handle other : Handle) : Store m :=
  { s with target := fun h => if h = other then s.target handle else s.target h }

def setResolution (s : Store m) (task : Task) (resolution : Option (Resolution m)) : Store m :=
  { s with resolution := fun t => if t = task then resolution else s.resolution t }

def next (s : Store m) : Op m → Store m
  | .clone handle other => s.share handle other
  | .register handle name resolver => s.change handle (·.register name resolver)
  | .withResolver handle name resolver other =>
    (s.change handle (·.register name resolver)).share handle other
  | .unregister handle name => s.change handle (·.unregister name)
  | .methods _ => s
  | .canResolve _ _ => s
  | .begin handle text task => s.setResolution task (some ((s.registryOf handle).begin text))
  | .finish task => s.setResolution task none

/-- What an operation gives back. Only resolvers have effects. -/
def outcome [Monad m] (s : Store m) : Op m → m Outcome
  | .clone _ _ => return .done
  | .register _ _ _ => return .done
  | .withResolver _ _ _ _ => return .done
  | .unregister handle name => return .removed ((s.registryOf handle).contains name)
  | .methods handle => return .methods (s.registryOf handle).methods
  | .canResolve handle text => return .canResolve ((s.registryOf handle).canResolve text)
  | .begin _ _ _ => return .done
  | .finish task =>
    match s.resolution task with
    | some resolution => .resolved <$> resolution.finish
    | none => return .done

/-- The store after a sequence of operations. -/
def after (s : Store m) (ops : List (Op m)) : Store m :=
  ops.foldl next s

end Store

end DidToken

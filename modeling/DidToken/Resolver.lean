import DidToken.Clock
import DidToken.Document.Basic
/-!
# Resolvers

A resolver finds the current documents of the DIDs of a method. Looking up is an effect of the monad
`m`, and may fail for a reason given as text.
-/

namespace DidToken

/-- Something that resolves DIDs, given as text, to documents. -/
structure Resolver (m : Type → Type) where
  resolve : String → m (Except String Document)

namespace Resolver

variable {m : Type → Type} [Monad m]

def fixed (document : Document) : Resolver m where
  resolve _ := return .ok document

/-- Does something else before each resolution, such as counting it. -/
def observed (resolver : Resolver m) (observe : m Unit) : Resolver m where
  resolve did := do
    observe
    resolver.resolve did

def failing (reason : String) : Resolver m where
  resolve did := return .error ("Could not resolve " ++ did ++ ": " ++ reason)

/-- Takes some time to resolve a DID and gives up after some other time, both in milliseconds. -/
def slow (document : Document) (latency timeout : Nat) : Resolver m where
  resolve did :=
    if latency < timeout then return .ok document
    else
      return .error
        ("Timed out after " ++ Text.Duration.ofMilliseconds timeout ++ " resolving " ++ did)

end Resolver

end DidToken

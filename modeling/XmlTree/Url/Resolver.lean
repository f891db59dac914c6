import XmlTree.Url.Resolve

/-!
# Resolvers

What the base address of a node is depends on what counts as absolute and on how
references are resolved.  A `Resolver` supplies both.

`Resolver.web` follows the rules for URLs as far as `XmlTree.Url` has them.  Domains
are read in ASCII only: one with other characters would have to be converted to
ASCII first, and is refused instead.
-/

namespace XmlTree

/-- A way to tell absolute addresses from relative ones and to resolve the
latter. -/
structure Resolver where
  /-- Whether an address stands on its own. -/
  isAbsolute : String → Bool
  /-- The address that a reference means against a base, if it means one. -/
  absolutize : (reference base : String) → Option String

namespace Resolver

/-- Resolves references against a base, each against the result of the one
before. -/
def resolveAll (r : Resolver) (base : String) (references : List String) : Option String :=
  references.foldlM (fun base reference => r.absolutize reference base) base

/-- Resolution by the rules for URLs with domains in ASCII.  A base that is no such
URL resolves nothing. -/
def web : Resolver where
  isAbsolute := Url.isAbsolute
  absolutize reference base := do
    return String.ofList (← (← Url.parse? base).join? reference).render

end Resolver

end XmlTree

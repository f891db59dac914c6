import XmlTree.Text.Cut

/-!
# Qualified names

A qualified name is a local name with an optional prefix, written `prefix:local`.
Reading cuts the text at its first colon, so a local name may hold colons and a
prefix never does.  An empty prefix is a prefix: `:x` has one and `x` has none.
-/

namespace XmlTree

/-- A local name with an optional prefix. -/
structure QName where
  /-- The prefix, absent from an unprefixed name. -/
  nsPrefix : Option String
  /-- The local part. -/
  localName : String
deriving DecidableEq, Repr

namespace QName

/-- Reads a qualified name.  Everything before the first colon is the prefix. -/
def ofString (text : String) : QName :=
  match cutAt ':' text.toList with
  | some (before, after) => ⟨some (String.ofList before), String.ofList after⟩
  | none => ⟨none, text⟩

/-- Writes a qualified name. -/
def toString (name : QName) : String :=
  match name.nsPrefix with
  | some p => p ++ ":" ++ name.localName
  | none => name.localName

end QName

end XmlTree

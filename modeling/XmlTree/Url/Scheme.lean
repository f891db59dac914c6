import XmlTree.Text.Cut

/-!
# Schemes

A URI starts with a scheme when the text before its first colon is a letter
followed by letters, digits, `+`, `-` and `.`.  All of them are ASCII.  A URI with
a scheme is absolute.
-/

namespace XmlTree.Url

/-- Whether a character may stand in a scheme after the first place. -/
def isSchemeChar (c : Char) : Bool := c.isAlphanum || c == '+' || c == '-' || c == '.'

/-- Whether a text has the form of a scheme. -/
def isScheme : List Char → Bool
  | [] => false
  | c :: rest => c.isAlpha && rest.all isSchemeChar

/-- The scheme a URI starts with. -/
def scheme? (uri : String) : Option String :=
  match cutAt ':' uri.toList with
  | some (candidate, _) => if isScheme candidate then some (String.ofList candidate) else none
  | none => none

/-- Whether a URI has a scheme. -/
def isAbsolute (uri : String) : Bool := (scheme? uri).isSome

end XmlTree.Url

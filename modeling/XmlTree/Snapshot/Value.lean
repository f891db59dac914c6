/-!
# Data values

A snapshot is written as a data value: null, a truth value, a number, a text, an
array, or an object.  Whole numbers are kept exactly.  Of any other number only
the fact that it is one matters here, since no field has one.
-/

namespace XmlTree.Snapshot

/-- A value of a data format. -/
inductive Value where
  /-- The absent value. -/
  | null
  /-- A truth value. -/
  | bool (value : Bool)
  /-- A whole number. -/
  | int (value : Int)
  /-- A number that is not written as a whole one. -/
  | real
  /-- A text. -/
  | str (value : String)
  /-- An array. -/
  | arr (items : List Value)
  /-- An object, as its members. -/
  | obj (members : List (String × Value))
deriving Inhabited

end XmlTree.Snapshot

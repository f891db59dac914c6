/-!
# Percent encoding

A character that may not stand in a part of a URL is written as its UTF-8 bytes,
each as `%` and two upper-case hexadecimal digits.  Control characters and
characters outside ASCII are always written so.  Which other characters are
depends on the part, and each part has its set here.

A `%` is never encoded, so encoding twice is the same as encoding once.
-/

namespace XmlTree.Url

namespace Percent

/-! ## Sets -/

/-- Encoded in a fragment. -/
def fragmentSet : List Char := " \"<>\x60".toList

/-- Encoded in the query of a scheme without rules of its own. -/
def querySet : List Char := " \"#<>".toList

/-- Encoded in the query of a special scheme. -/
def specialQuerySet : List Char := " \"#<>'".toList

/-- Encoded in a path. -/
def pathSet : List Char := " \"<>\x60#?\x7b\x7d".toList

/-- Encoded in a user name and a password. -/
def userSet : List Char := " \"<>\x60#?\x7b\x7d/:;=@[\\]^|".toList

/-- Encoded in an opaque path and an opaque host: nothing but what always is. -/
def controlSet : List Char := []

/-! ## Encoding -/

/-- Control characters and the characters outside ASCII. -/
def isAlwaysEncoded (c : Char) : Bool := c.toNat < 0x20 || 0x7e < c.toNat

/-- The upper-case hexadecimal digit of a number below 16. -/
def hexDigit (n : Nat) : Char := (Nat.digitChar n).toUpper

/-- A byte as `%` and two digits. -/
def encodeByte (byte : UInt8) : List Char :=
  ['%', hexDigit (byte.toNat / 16), hexDigit (byte.toNat % 16)]

/-- A character, encoded if it has to be. -/
def encodeChar (set : List Char) (c : Char) : List Char :=
  if isAlwaysEncoded c || set.contains c then (String.utf8EncodeChar c).flatMap encodeByte
  else [c]

/-- A text with every character of the set encoded. -/
def encode (set text : List Char) : List Char := text.flatMap (encodeChar set)

/-! ## Decoding -/

/-- The value of a hexadecimal digit. -/
def hexValue? (c : Char) : Option Nat :=
  if c.isDigit then some (c.toNat - '0'.toNat)
  else if 'a' ≤ c ∧ c ≤ 'f' then some (c.toNat - 'a'.toNat + 10)
  else if 'A' ≤ c ∧ c ≤ 'F' then some (c.toNat - 'A'.toNat + 10)
  else none

/-- A text with each encoded byte replaced by the character of that number.  A
`%` that two digits do not follow stays. -/
def decode : List Char → List Char
  | [] => []
  | '%' :: high :: low :: rest =>
      match hexValue? high, hexValue? low with
      | some h, some l => Char.ofNat (16 * h + l) :: decode rest
      | _, _ => '%' :: decode (high :: low :: rest)
  | c :: rest => c :: decode rest

end Percent

end XmlTree.Url

import XmlTree.Url.Percent

/-!
# Hosts

A host is a name, an IPv4 address or an IPv6 address.

A name of a special scheme is read by decoding it, folding it to lower case and
refusing what no domain may hold.  If its last label is a number, the whole name
has to be an IPv4 address, in any of the forms that have one to four numbers in
base 8, 10 or 16.  A name of another scheme is kept as it is written.

An IPv6 address stands in brackets: eight groups of hexadecimal digits, of which
a run of zero groups may be left out as `::`, and the last two may be written as
an IPv4 address.  It is printed with its longest run of two or more zero groups
left out, the first one if there are several.

Only domains in ASCII are read.
-/

namespace XmlTree.Url

/-- Where an authority is. -/
inductive Host where
  /-- A name. -/
  | domain (name : List Char)
  /-- An IPv4 address as a number. -/
  | ipv4 (address : Nat)
  /-- An IPv6 address as its eight groups. -/
  | ipv6 (groups : List Nat)
deriving DecidableEq, Repr

/-- The parts of a text between the occurrences of separators. -/
def splitAll (isSeparator : Char → Bool) : List Char → List (List Char)
  | [] => [[]]
  | c :: rest =>
      if isSeparator c then [] :: splitAll isSeparator rest
      else
        match splitAll isSeparator rest with
        | part :: parts => (c :: part) :: parts
        | [] => [[c]]

/-- The number that digits write in a base. -/
def digitsValue? (base : Nat) (digits : List Char) : Option Nat :=
  digits.foldlM (fun value c =>
    (Percent.hexValue? c).bind fun digit =>
      if digit < base then some (base * value + digit) else none) 0

/-! ## IPv4 -/

namespace Ipv4

/-- A number of an address: after `0x` in base 16, after another `0` in base 8,
otherwise in base 10.  No digits at all after `0x` mean zero. -/
def number? : List Char → Option Nat
  | [] => none
  | ['0'] => some 0
  | '0' :: 'x' :: digits | '0' :: 'X' :: digits => digitsValue? 16 digits
  | '0' :: digits => digitsValue? 8 digits
  | digits => digitsValue? 10 digits

/-- The labels of a name, without an empty one at its end. -/
def labels (name : List Char) : List (List Char) :=
  let parts := splitAll (· == '.') name
  if parts.getLast? = some [] then parts.dropLast else parts

/-- Whether the last label of a name is a number, so that the name has to be an
address. -/
def endsInNumber (name : List Char) : Bool :=
  match (labels name).getLast? with
  | none => false
  | some last => (!last.isEmpty && last.all Char.isDigit) || (number? last).isSome

/-- The address of the numbers: each but the last fills one byte, and the last
fills all bytes that are left. -/
def ofNumbers? (numbers : List Nat) : Option Nat := do
  let last ← numbers.getLast?
  let leading := numbers.dropLast
  guard (numbers.length ≤ 4 && leading.all (· ≤ 255) && last < Nat.pow 256 (4 - leading.length))
  return leading.zipIdx.foldl (fun sum (byte, place) => sum + byte * Nat.pow 256 (3 - place)) last

/-- Reads an address. -/
def parse? (name : List Char) : Option Nat := do
  ofNumbers? (← (labels name).mapM number?)

/-- Writes an address as four bytes. -/
def render (address : Nat) : List Char :=
  ".".toList.intercalate
    ([address / Nat.pow 256 3, address / Nat.pow 256 2 % 256, address / 256 % 256,
      address % 256].map fun byte => Nat.toDigits 10 byte)

end Ipv4

/-! ## IPv6 -/

namespace Ipv6

/-- A group: one to four hexadecimal digits. -/
def group? (digits : List Char) : Option Nat :=
  if digits.isEmpty || 4 < digits.length then none else digitsValue? 16 digits

/-- A byte of an embedded IPv4 address: decimal digits without a leading zero. -/
def byte? (digits : List Char) : Option Nat := do
  guard (digits.head? != some '0' || digits.length == 1)
  guard (!digits.isEmpty && digits.all Char.isDigit)
  let value ← digitsValue? 10 digits
  guard (value ≤ 255)
  return value

/-- The two groups of an embedded IPv4 address. -/
def embedded? (text : List Char) : Option (List Nat) := do
  match ← (splitAll (· == '.') text).mapM byte? with
  | [a, b, c, d] => return [256 * a + b, 256 * c + d]
  | _ => none

/-- The groups of a part of an address.  The last one may be an embedded IPv4
address where `last` allows it. -/
def groups? (last : Bool) (text : List Char) : Option (List Nat) :=
  if text.isEmpty then some []
  else
    let parts := splitAll (· == ':') text
    match parts.getLast? with
    | some final =>
        if last && final.contains '.' then do
          return (← parts.dropLast.mapM group?) ++ (← embedded? final)
        else parts.mapM group?
    | none => none

/-- The text before the first `::` and the text after it. -/
def cutGap : List Char → Option (List Char × List Char)
  | ':' :: ':' :: rest => some ([], rest)
  | c :: rest => (cutGap rest).map fun cut => (c :: cut.1, cut.2)
  | [] => none

/-- Reads the text between the brackets. -/
def parse? (text : List Char) : Option (List Nat) := do
  match cutGap text with
  | some (before, after) =>
      let front ← groups? false before
      let back ← groups? true after
      guard (front.length + back.length ≤ 7)
      return front ++ List.replicate (8 - front.length - back.length) 0 ++ back
  | none =>
      let groups ← groups? true text
      guard (groups.length = 8)
      return groups

/-- The number of zeros that a list starts with. -/
def leadingZeros (groups : List Nat) : Nat := (groups.takeWhile (· == 0)).length

/-- The place and the length of the first longest run of zeros, if a run is
longer than `least`. -/
def longestGap (least place : Nat) : List Nat → Option (Nat × Nat)
  | [] => none
  | group :: rest =>
      let run := leadingZeros (group :: rest)
      if least < run then
        some ((longestGap run (place + 1) rest).getD (place, run))
      else longestGap least (place + 1) rest

/-- Groups with colons between them. -/
def renderGroups (groups : List Nat) : List Char :=
  ":".toList.intercalate (groups.map (Nat.toDigits 16))

/-- Writes an address, without the brackets. -/
def render (groups : List Nat) : List Char :=
  match longestGap 1 0 groups with
  | some (place, length) =>
      renderGroups (groups.take place) ++ "::".toList ++ renderGroups (groups.drop (place + length))
  | none => renderGroups groups

end Ipv6

/-! ## Hosts -/

namespace Host

/-- What no domain may hold: controls, blanks, characters outside ASCII and the
marks that structure a URL. -/
def isForbiddenInDomain (c : Char) : Bool :=
  c.toNat ≤ 0x20 || 0x7e < c.toNat || "%#/:<>?@[\\]^|".toList.contains c

/-- What no opaque host may hold. -/
def isForbiddenInOpaque (c : Char) : Bool := "\x00\t\n\r #/:<>?@[\\]^|".toList.contains c

/-- Reads a text in brackets as an IPv6 address. -/
def bracketed? (text : List Char) : Option Host := do
  guard (text.getLast? = some ']')
  return .ipv6 (← Ipv6.parse? text.dropLast)

/-- Reads the host of a special scheme. -/
def parse? : List Char → Option Host
  | '[' :: rest => bracketed? rest
  | text => do
      let name := (Percent.decode text).map Char.toLower
      guard (!name.isEmpty && !name.any isForbiddenInDomain)
      if Ipv4.endsInNumber name then return .ipv4 (← Ipv4.parse? name)
      else return .domain name

/-- Reads the host of any other scheme. -/
def parseOpaque? : List Char → Option Host
  | '[' :: rest => bracketed? rest
  | text =>
      if text.any isForbiddenInOpaque then none
      else some (.domain (Percent.encode Percent.controlSet text))

/-- Writes a host. -/
def render : Host → List Char
  | domain name => name
  | ipv4 address => Ipv4.render address
  | ipv6 groups => "[".toList ++ Ipv6.render groups ++ "]".toList

end Host

end XmlTree.Url

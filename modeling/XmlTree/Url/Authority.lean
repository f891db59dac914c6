import XmlTree.Url.Basic

/-!
# Reading authorities

After `//` come a user, a host and the number of a service, each with its own end.
The user ends at the last `@` of the authority, the host at the first colon
outside brackets, and the number at the path.

A web address needs a host.  Under other schemes the host may be empty, as long
as there is neither a user nor a number with it.  The scheme `file` has hosts
only, and its host `localhost` means none.
-/

namespace XmlTree.Url

/-- Whether a character ends an authority. -/
def endsAuthority (kind : SchemeKind) (c : Char) : Bool :=
  kind.isSlash c || c == '?' || c == '#'

/-! ## Users -/

/-- The user in front of a host: name, password, and the text that follows. -/
structure UserReading where
  /-- The name, encoded. -/
  username : List Char
  /-- The password, encoded. -/
  password : List Char
  /-- The text after the `@`. -/
  rest : List Char

/-- Reads the user of an authority.  A lone `@` with nothing before or behind it
is refused. -/
def readUser? (kind : SchemeKind) (text : List Char) : Option UserReading :=
  let inside := text.takeWhile (!endsAuthority kind ·)
  let rest := text.dropWhile (!endsAuthority kind ·)
  match cutAt '@' inside.reverse with
  | none => some ⟨[], [], text⟩
  | some (after, before) =>
      let user := before.reverse
      if before.isEmpty && after.isEmpty && !rest.isEmpty then none
      else
        let (name, password) := (cutAt ':' user).getD (user, [])
        some ⟨Percent.encode Percent.userSet name, Percent.encode Percent.userSet password,
          after.reverse ++ rest⟩

/-! ## Hosts -/

/-- The text of a host and the text that follows it.  Colons inside brackets
belong to the host. -/
def spanHost (kind : SchemeKind) : (bracketed : Bool) → List Char → List Char × List Char
  | _, [] => ([], [])
  | bracketed, c :: rest =>
      if (c == ':' && !bracketed) || endsAuthority kind c then ([], c :: rest)
      else
        let bracketed := c == '[' || (bracketed && c != ']')
        let (host, rest) := spanHost kind bracketed rest
        (c :: host, rest)

/-- Reads the text of a host.  An empty one is no host, and a web address must
have one. -/
def readHost? (kind : SchemeKind) (text : List Char) : Option (Option Host) :=
  match kind with
  | .other => if text.isEmpty then some none else (Host.parseOpaque? text).map some
  | _ => (Host.parse? text).map some

/-! ## Service numbers -/

/-- The service number that a scheme has when none is given. -/
def usualPortNumber? (scheme : List Char) : Option Nat :=
  if scheme = "http".toList ∨ scheme = "ws".toList then some 80
  else if scheme = "https".toList ∨ scheme = "wss".toList then some 443
  else if scheme = "ftp".toList then some 21
  else none

/-- Reads the service number in front of a path, if there is one.  No digits at
all and the usual number count as none. -/
def readPortNumber? (scheme : List Char) : List Char → Option (Option Nat × List Char)
  | ':' :: text => do
      let digits := text.takeWhile Char.isDigit
      let rest := text.dropWhile Char.isDigit
      guard (rest.head?.all fun c => c == '/' || c == '\\' || c == '?' || c == '#')
      let number ← digitsValue? 10 digits
      guard (number ≤ 65535)
      let implied := digits.isEmpty || usualPortNumber? scheme = some number
      return (if implied then none else some number, rest)
  | text => some (none, text)

/-! ## Authorities -/

/-- Reads an authority and gives the text that follows it. -/
def readAuthority? (scheme text : List Char) : Option (Authority × List Char) := do
  let kind := SchemeKind.ofScheme scheme
  let user ← readUser? kind text
  let (hostText, rest) := spanHost kind false user.rest
  let host ← readHost? kind hostText
  let named := !user.username.isEmpty || !user.password.isEmpty
  guard (host.isSome || (rest.head? != some ':' && !named))
  let (number, rest) ← readPortNumber? scheme rest
  return (⟨user.username, user.password, host, number⟩, rest)

/-- Reads the host of a file and gives the text that follows it.  A drive letter
is no host but the start of the path. -/
def readFileHost? (text : List Char) : Option (Option Host × List Char) := do
  let hostText := dropMarks (text.takeWhile (!endsAuthority .file ·))
  if isDriveLetter hostText then return (none, text)
  let rest := text.dropWhile (!endsAuthority .file ·)
  if hostText.isEmpty then return (none, rest)
  let host ← Host.parse? hostText
  return (if host = .domain "localhost".toList then none else some host, rest)

end XmlTree.Url

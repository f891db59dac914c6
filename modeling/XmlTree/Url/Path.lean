import XmlTree.Text.Cut
import XmlTree.Url.Host

/-!
# Paths

A path is read segment by segment onto a path that is already there.  A segment
`.` adds nothing and a segment `..` takes the last segment away, also when their
dots are percent-encoded.  Any other segment is encoded and appended.

Special schemes end a segment at a backslash as well as at a slash.

File paths know drive letters, a letter followed by `:` or `|`.  A drive letter
that stands first is written with `:` and replaces the host.  Under any scheme,
`..` leaves a segment that looks like a drive letter in place.  Finally, a file
path loses the empty segments at its start.

Tabs and line ends do not count.  They are passed over wherever they stand, but
one of them has an effect: behind a drive letter that stands first in a file path
it sets the letter off from the text after it, and a slash is written there.

The path read so far is kept with its last character first, since everything
happens at its end.
-/

namespace XmlTree.Url

/-- How the rules for schemes differ. -/
inductive SchemeKind where
  /-- The scheme `file`. -/
  | file
  /-- The other schemes that always have a host: those of the web and of FTP. -/
  | web
  /-- Any other scheme. -/
  | other
deriving DecidableEq, Repr

namespace SchemeKind

/-- The kind of a scheme in lower case. -/
def ofScheme (scheme : List Char) : SchemeKind :=
  if scheme = "file".toList then file
  else if ["http", "https", "ws", "wss", "ftp"].any (·.toList == scheme) then web
  else other

/-- Whether the scheme has rules of its own. -/
def isSpecial : SchemeKind → Bool
  | file | web => true
  | other => false

/-- Whether a character separates the segments of a path. -/
def isSlash (kind : SchemeKind) (c : Char) : Bool := c == '/' || (kind.isSpecial && c == '\\')

end SchemeKind

/-! ## Line marks -/

/-- Whether a character is a tab or ends a line.  Such a character does not count
in a URL. -/
def isLineMark (c : Char) : Bool := c == '\t' || c == '\n' || c == '\r'

/-- A text from its first character that counts. -/
def skipMarks (text : List Char) : List Char := text.dropWhile isLineMark

/-- The characters of a text that count. -/
def dropMarks (text : List Char) : List Char := text.filter (!isLineMark ·)

/-! ## Drive letters -/

/-- Whether a text is a letter followed by `:` or `|`. -/
def isDriveLetter : List Char → Bool
  | [letter, mark] => letter.isAlpha && (mark == ':' || mark == '|')
  | _ => false

/-- Whether a text is a letter followed by `:`. -/
def isNormalDriveLetter (text : List Char) : Bool :=
  isDriveLetter text && text.getLast? == some ':'

/-- Whether a drive letter stands at the start of a text, alone or before a
separator. -/
def startsWithDriveLetter : List Char → Bool
  | letter :: mark :: rest =>
      isDriveLetter [letter, mark] &&
        match rest with
        | [] => true
        | c :: _ => c == '/' || c == '\\' || c == '?' || c == '#'
  | _ => false

/-- The letter of a drive letter that line marks set off from the text after it,
and that text. -/
def setOffDrive? (text : List Char) : Option (Char × List Char) := do
  let (before, after) ← cutAt ':' text
  let [letter] := dropMarks before | none
  guard (letter.isAlpha ∧ after.head?.any isLineMark ∧ dropMarks after ≠ [])
  return (letter, dropMarks after)

namespace Path

/-! ## The end of a path -/

/-- The last segment of a path, which is given backwards. -/
def lastSegment (path : List Char) : List Char := (path.takeWhile (· != '/')).reverse

/-- A path without its last segment.  A file keeps a drive letter. -/
def pop (kind : SchemeKind) (path : List Char) : List Char :=
  if kind = .file ∧ isNormalDriveLetter (lastSegment path) then path
  else path.dropWhile (· != '/')

/-- A path that ends in a slash. -/
def closed : List Char → List Char
  | '/' :: path => '/' :: path
  | path => '/' :: path

/-- What `..` makes of a path.  A segment that looks like a drive letter stays,
and so does the slash that a path starts with. -/
def parent (kind : SchemeKind) : List Char → List Char
  | '/' :: path =>
      if path.isEmpty || startsWithDriveLetter (lastSegment path ++ ['/']) then '/' :: path
      else pop kind path
  | path => pop kind path

/-- Whether a path, which is given backwards, is a drive letter and no more. -/
def isLoneDrive : List Char → Bool
  | [':', letter, '/'] => letter.isAlpha
  | _ => false

/-! ## Segments -/

/-- A text with encoded dots decoded, in order to tell dot segments. -/
def plainDots : List Char → List Char
  | '%' :: '2' :: 'e' :: rest | '%' :: '2' :: 'E' :: rest => '.' :: plainDots rest
  | c :: rest => c :: plainDots rest
  | [] => []

/-- A path that is being read. -/
structure Progress where
  /-- The path so far, backwards. -/
  path : List Char
  /-- Whether a drive letter stood first, which leaves no room for a host. -/
  drive : Bool := false

/-- Reads one segment onto a path, as a name or as a step.  `more` says that a
slash follows it. -/
def addPlainSegment (kind : SchemeKind) (sofar : Progress) (segment : List Char) (more : Bool) :
    Progress :=
  let written := Percent.encode Percent.pathSet segment
  match plainDots written with
  | ['.', '.'] =>
      let path := parent kind sofar.path
      { sofar with path := if more then closed path else path }
  | ['.'] => { sofar with path := closed sofar.path }
  | _ =>
      let drive := kind = .file ∧ sofar.path = ['/'] ∧ isDriveLetter written
      let written := if drive then written.take 1 ++ [':'] else written
      let path := written.reverse ++ sofar.path
      ⟨if more then '/' :: path else path, sofar.drive || drive⟩

/-- Reads one segment of a file path onto a path.  A drive letter that is all of
the path ends before further text.  A drive letter that line marks set off is
written as a segment, and the text after it as it stands, be it dots or not. -/
def addFileSegment (sofar : Progress) (segment : List Char) (more : Bool) : Progress :=
  let text := dropMarks segment
  let alone := isLoneDrive sofar.path ∧ text ≠ []
  match if sofar.path = ['/'] then setOffDrive? segment else none with
  | some (letter, rest) =>
      let path := (Percent.encode Percent.pathSet rest).reverse ++ ['/', ':', letter, '/']
      { sofar with path := if more then '/' :: path else path }
  | none =>
      addPlainSegment .file { sofar with path := if alone then '/' :: sofar.path else sofar.path }
        text more

/-- Reads one segment onto a path.  `more` says that a slash follows it. -/
def addSegment (kind : SchemeKind) (sofar : Progress) (segment : List Char) (more : Bool) :
    Progress :=
  match kind with
  | .file => addFileSegment sofar segment more
  | .web | .other => addPlainSegment kind sofar (dropMarks segment) more

/-- Reads the segments of a text onto a path. -/
def addSegments (kind : SchemeKind) (sofar : Progress) : List (List Char) → Progress
  | [] => sofar
  | [segment] => addSegment kind sofar segment false
  | segment :: rest => addSegments kind (addSegment kind sofar segment true) rest

/-- A path without the empty segments at its start. -/
def trimSlashes (path : List Char) : List Char := '/' :: path.dropWhile (· == '/')

/-- A path that has been read. -/
structure Reading where
  /-- The path. -/
  path : List Char
  /-- Whether a drive letter stood first, which leaves no room for a host. -/
  drive : Bool := false

/-- Reads a text onto a path. -/
def extend (kind : SchemeKind) (path text : List Char) : Reading :=
  let done := addSegments kind ⟨path.reverse, false⟩ (splitAll kind.isSlash text)
  let path := done.path.reverse
  ⟨if kind = .file then trimSlashes path else path, done.drive⟩

/-- Reads the path after an authority.  Under a special scheme it is never
empty. -/
def afterAuthority (kind : SchemeKind) (text : List Char) : Reading :=
  match skipMarks text with
  | [] => if kind.isSpecial then extend kind ['/'] [] else ⟨[], false⟩
  | c :: rest => if kind.isSlash c then extend kind ['/'] rest else extend kind ['/'] (c :: rest)

end Path

end XmlTree.Url

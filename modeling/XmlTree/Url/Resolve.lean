import XmlTree.Url.Authority

/-!
# Resolution

`resolve? base text` reads a URL reference.  A reference with a scheme of its own
mostly stands alone.  Any other takes what it lacks from the base: first the
scheme, then the authority, then the directory of the path, then the query.  The
fragment is never taken over.

Blanks and control characters around a reference are dropped.  Tabs and line ends
inside it do not count.  They are left in the text of a file for as long as its
path is not read, and dropped from everything else.
-/

namespace XmlTree

namespace Url

/-! ## The parts of a reference -/

/-- Whether a character is dropped at the ends of a reference. -/
def isBlank (c : Char) : Bool := c.toNat ≤ 0x20

/-- A reference without the blanks at its ends. -/
def trim (text : List Char) : List Char :=
  ((text.dropWhile isBlank).reverse.dropWhile isBlank).reverse

/-- The scheme of a reference, in lower case, and the text after its colon. -/
def splitScheme? (text : List Char) : Option (List Char × List Char) := do
  let (candidate, rest) ← cutAt ':' text
  let candidate := dropMarks candidate
  guard (isScheme candidate)
  return (candidate.map Char.toLower, rest)

/-- Whether a character ends the path. -/
def endsPath (c : Char) : Bool := c == '?' || c == '#'

/-- The text up to the query or the fragment. -/
def pathText (text : List Char) : List Char := text.takeWhile (!endsPath ·)

/-- Reads the fragment of a text that starts with one. -/
def readFragment : List Char → Option (List Char)
  | '#' :: text => some (Percent.encode Percent.fragmentSet (dropMarks text))
  | _ => none

/-- The URL with the query and the fragment that stand in a text after the path.
A query that is not there is removed. -/
def withSuffix (url : Url) (text : List Char) : Url :=
  match text.dropWhile (!endsPath ·) with
  | '?' :: rest =>
      let set := if url.kind.isSpecial then Percent.specialQuerySet else Percent.querySet
      { url with
        query := some (Percent.encode set (dropMarks (rest.takeWhile (· != '#'))))
        fragment := readFragment (rest.dropWhile (· != '#')) }
  | rest => { url with query := none, fragment := readFragment rest }

/-- The URL without its fragment. -/
def withoutFragment (url : Url) : Url := { url with fragment := none }

/-- The URL with the path that a text leads to from `start`. -/
def withPath (url : Url) (start text : List Char) : Url :=
  { url with path := (Path.extend url.kind start (pathText text)).path }.withSuffix text

/-- The path of the directory that a URL is in.  A path that would be empty
becomes a slash. -/
def directory (url : Url) : List Char :=
  (Path.pop url.kind url.path.reverse).reverse

/-! ## Schemes with an authority -/

/-- Reads what follows `//`. -/
def readHierarchy? (scheme text : List Char) : Option Url := do
  let (authority, rest) ← readAuthority? scheme text
  let path := (Path.afterAuthority (.ofScheme scheme) (pathText rest)).path
  return { scheme, authority := some authority, path : Url }.withSuffix rest

/-- Resolves a reference without a scheme against a URL that is not a file. -/
def resolveRelative? (base : Url) (text : List Char) : Option Url :=
  match text with
  | [] => some base.withoutFragment
  | '?' :: _ => some (base.withSuffix text)
  | '#' :: _ => some { base with fragment := readFragment text }
  | c :: rest =>
      if c = '/' ∨ c = '\\' then
        let isSlash c := c == '/' || c == '\\'
        if (text.takeWhile isSlash).length < 2 then some (base.withPath ['/'] rest)
        else if "//".toList.isPrefixOf text then readHierarchy? base.scheme (text.drop 2)
        else readHierarchy? base.scheme (text.dropWhile isSlash)
      else
        let start := base.directory
        some (base.withPath (if start.isEmpty then ['/'] else start) text)

/-! ## Files -/

/-- A file without host. -/
def emptyFile : Url := { scheme := "file".toList, authority := some {}, path := [] }

/-- Reads what follows `//` in a file.  A drive letter at the start of the path
removes the host. -/
def readFileHierarchy? (text : List Char) : Option Url := do
  let (host, rest) ← readFileHost? text
  match host with
  | none => return emptyFile.withPath ['/'] rest
  | some host =>
      let reading := Path.afterAuthority .file (pathText rest)
      let authority : Authority := if reading.drive then {} else { host := some host }
      return { emptyFile with authority := some authority, path := reading.path }.withSuffix rest

/-- Resolves a path that starts with a slash, at the root of a file system.  It
stays on the drive of the base, or on its host. -/
def resolveFileRoot (base? : Option Url) (text : List Char) : Url :=
  match base? with
  | none => emptyFile.withPath [] text
  | some base =>
      let drive := (base.path.drop 1).takeWhile (· != '/')
      if startsWithDriveLetter (dropMarks (text.drop 1)) then emptyFile.withPath [] text
      else if isNormalDriveLetter drive then emptyFile.withPath ('/' :: drive) text
      else
        let host := base.authority.bind Authority.host
        { emptyFile with authority := some { host } }.withPath [] text

/-- Resolves a reference to a file that does not start with a slash. -/
def resolveFileRelative (base? : Option Url) (text : List Char) : Url :=
  match base?, text with
  | none, _ => emptyFile.withPath ['/'] text
  | some base, [] => base.withoutFragment
  | some base, '?' :: _ => base.withSuffix text
  | some base, '#' :: _ => { base with fragment := readFragment text }
  | some base, _ =>
      if startsWithDriveLetter (dropMarks text) then emptyFile.withPath ['/'] text
      else base.withPath base.directory text

/-- Resolves a reference to a file, its scheme left out. -/
def resolveFile? (base? : Option Url) (text : List Char) : Option Url :=
  let isSlash := SchemeKind.file.isSlash
  match skipMarks text with
  | [] => some (resolveFileRelative base? [])
  | c :: rest =>
      if isSlash c then
        if (skipMarks rest).head?.any isSlash then readFileHierarchy? ((skipMarks rest).drop 1)
        else some (resolveFileRoot base? (c :: rest))
      else some (resolveFileRelative base? (c :: rest))

/-! ## Any scheme -/

/-- Reads what follows a scheme that is not special. -/
def readOther? (scheme text : List Char) : Option Url :=
  let url : Url := { scheme, authority := none, path := [] }
  match text with
  | '/' :: '/' :: rest => readHierarchy? scheme rest
  | '/' :: rest => some (url.withPath ['/'] rest)
  | _ =>
      let path := Percent.encode Percent.controlSet (pathText text)
      some ({ url with path }.withSuffix text)

/-- Resolves the text after a scheme that is one of the web.  A base with the same
scheme counts unless `//` follows. -/
def resolveWeb? (base? : Option Url) (scheme text : List Char) : Option Url :=
  let isSlash c := c == '/' || c == '\\'
  match base? with
  | some base =>
      if (text.takeWhile isSlash).length < 2 then resolveRelative? base text
      else readHierarchy? scheme (text.dropWhile isSlash)
  | none => readHierarchy? scheme (text.dropWhile isSlash)

/-- Resolves the text after a scheme. -/
def resolveScheme? (base? : Option Url) (scheme text : List Char) : Option Url :=
  let base? := base?.filter (·.scheme = scheme)
  match SchemeKind.ofScheme scheme with
  | .file => resolveFile? base? text
  | .web => resolveWeb? base? scheme (dropMarks text)
  | .other => readOther? scheme (dropMarks text)

/-- Resolves a reference against a base, if there is one. -/
def resolve? (base? : Option Url) (text : List Char) : Option Url :=
  let text := skipMarks (trim text)
  match splitScheme? text, base? with
  | some (scheme, rest), _ => resolveScheme? base? scheme rest
  | none, none => none
  | none, some base =>
      if text.head? = some '#' then some { base with fragment := readFragment text }
      else if base.isOpaque then none
      else if base.kind = .file then resolveFile? base text
      else resolveRelative? base (dropMarks text)

/-- Reads a URL that stands alone. -/
def parse? (text : String) : Option Url := resolve? none text.toList

/-- Resolves a reference against a URL. -/
def join? (base : Url) (reference : String) : Option Url := resolve? base reference.toList

end Url

end XmlTree

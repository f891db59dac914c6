import XmlTree.Url.Path
import XmlTree.Url.Scheme

/-!
# URLs

A URL has a scheme and a path and may have an authority, a query and a fragment.
The authority is the host with a user in front of it and the number of a network
service behind it.  All parts are kept in the encoded form in which they are
written.

A URL with neither an authority nor a slash at the start of its path is opaque:
only a fragment can be resolved against it.
-/

namespace XmlTree

namespace Url

/-- The part of a URL between `//` and the path. -/
structure Authority where
  /-- The user, before the first colon. -/
  username : List Char := []
  /-- The password, after it. -/
  password : List Char := []
  /-- The host.  Schemes that are not special may have none. -/
  host : Option Host := none
  /-- The number of the service, if it is not the usual one. -/
  portNumber : Option Nat := none
deriving DecidableEq, Repr

/-- Writes an authority. -/
def Authority.render (authority : Authority) : List Char :=
  let user :=
    if authority.username.isEmpty && authority.password.isEmpty then []
    else if authority.password.isEmpty then authority.username ++ ['@']
    else authority.username ++ ':' :: authority.password ++ ['@']
  let number :=
    match authority.portNumber with
    | some n => ':' :: Nat.toDigits 10 n
    | none => []
  user ++ (authority.host.map Host.render).getD [] ++ number

end Url

/-- A URL by its parts. -/
structure Url where
  /-- The scheme, in lower case. -/
  scheme : List Char
  /-- The authority. -/
  authority : Option Url.Authority
  /-- The path. -/
  path : List Char
  /-- The text after `?`. -/
  query : Option (List Char) := none
  /-- The text after `#`. -/
  fragment : Option (List Char) := none
deriving DecidableEq, Repr

namespace Url

/-- The rules that the scheme brings. -/
def kind (url : Url) : SchemeKind := .ofScheme url.scheme

/-- Whether the path is opaque. -/
def isOpaque (url : Url) : Bool := url.authority.isNone && url.path.head? != some '/'

/-- What stands between the scheme and the path.  A path that starts with two
slashes must not be taken for an authority, so `/.` comes before it. -/
def beforePath (url : Url) : List Char :=
  match url.authority with
  | some authority => "//".toList ++ authority.render
  | none => if "//".toList.isPrefixOf url.path then "/.".toList else []

/-- A mark and a part, if the part is there. -/
def renderPart (mark : Char) : Option (List Char) → List Char
  | some text => mark :: text
  | none => []

/-- Writes a URL. -/
def render (url : Url) : List Char :=
  url.scheme ++ ':' :: url.beforePath ++ url.path ++ renderPart '?' url.query
    ++ renderPart '#' url.fragment

end Url

end XmlTree

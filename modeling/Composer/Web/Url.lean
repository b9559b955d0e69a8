import Composer.Text.Blank
import Composer.Web.Escape
import Composer.Web.Host
/-!
# Composer.Web.Url

**Addresses of services.** A base address is taken apart into scheme, host, path and query.
`Url.join` puts segments at the end of its path and `Url.withFields` puts fields at the end of its
query. Both escape whatever would be read as more than one segment or field.
-/

namespace Composer.Web

/-- An address. -/
structure Url where
  /-- The scheme in lower case. -/
  scheme : List Char
  /-- The name of a user and a password, with the at sign behind them; empty if there is none. -/
  user : List Char
  /-- Host and port, if they can stand in the address; empty where there is no host. -/
  authority : Option (List Char)
  /-- The segments of the path, or `none` for an address whose path is no list of segments. -/
  path : Option (List (List Char))
  /-- The query. -/
  query : Option (List Char)
  /-- The fragment. -/
  fragment : Option (List Char)
deriving DecidableEq, Repr

/-! ### Schemes -/

/-- The scheme before the first colon, in lower case, and what follows the colon. -/
def takeScheme (s : List Char) : Option (List Char × List Char) :=
  let inScheme (c : Char) : Bool := c.isAlphanum || c = '+' || c = '-' || c = '.'
  match s.takeWhile inScheme, s.dropWhile inScheme with
  | c :: scheme, ':' :: rest =>
    if c.isAlpha then some ((c :: scheme).map Char.toLower, rest) else none
  | _, _ => none

/-- The port that a scheme of the web has when none is written. -/
def defaultPort? (scheme : List Char) : Option Nat :=
  match String.ofList scheme with
  | "http" => some 80
  | "ws" => some 80
  | "https" => some 443
  | "wss" => some 443
  | "ftp" => some 21
  | _ => none

/-- The scheme of files, which need no host. -/
def fileScheme : List Char :=
  "file".toList

/-- True of a scheme of the web. Its addresses always have a host, those of files apart. -/
def isSpecial (scheme : List Char) : Bool :=
  (defaultPort? scheme).isSome || scheme = fileScheme

/-! ### Hosts -/

/-- A slash, or what stands for one in the special schemes. -/
def isSlash (special : Bool) (c : Char) : Bool :=
  c = '/' || (special && c = '\\')

/-- The name of a user and a password before a host. -/
def writeUser (s : List Char) : List Char :=
  let name := escape inUser (s.takeWhile (· ≠ ':'))
  match s.dropWhile (· ≠ ':') with
  | _ :: (c :: password) => name ++ ':' :: escape inUser (c :: password) ++ ['@']
  | _ => if name.isEmpty then [] else name ++ ['@']

/-- Splits a text after the last at sign. -/
def splitUser (s : List Char) : Option (List Char) × List Char :=
  let host := (s.reverse.takeWhile (· ≠ '@')).reverse
  if host.length = s.length then (none, s)
  else (some (s.take (s.length - host.length - 1)), host)

/-- Splits a text at the first colon that stands outside brackets. -/
def splitPort (inBrackets : Bool) : List Char → List Char × Option (List Char)
  | [] => ([], none)
  | c :: s =>
    if c = ':' ∧ !inBrackets then ([], some s)
    else
      let (name, port) := splitPort (c = '[' || (inBrackets && c ≠ ']')) s
      (c :: name, port)

/-- The port that digits write, as it is shown: not at all when it is the usual one. -/
def writePort (scheme ds : List Char) : Except UrlError (List Char) :=
  if ds.isEmpty then .ok []
  else match digitsIn 10 ds with
    | some n =>
      if 65535 < n then .error .badPort
      else .ok (if defaultPort? scheme = some n then [] else ':' :: Nat.toDigits 10 n)
    | none => .error .badPort

/-- The user of an address, and its host with the port. Only outside the web the host may be
empty. -/
def authority? (scheme s : List Char) : Except UrlError (List Char × List Char) := do
  let (user, rest) := splitUser s
  let user := (user.map writeUser).getD []
  let (name, port) := splitPort false rest
  if name.isEmpty && (isSpecial scheme || !user.isEmpty || port.isSome) then throw .emptyHost
  let host ← if isSpecial scheme then webHost? name else otherHost? name
  return (user, host ++ (← writePort scheme (port.getD [])))

/-- The host of a file, without a user. The machine itself has no name. -/
def fileHost? (name : List Char) : Except UrlError (List Char × List Char) := do
  if name.isEmpty then return ([], [])
  let host ← webHost? name
  return ([], if host = "localhost".toList then [] else host)

/-! ### Paths -/

/-- True of a segment that stands for the path itself. -/
def isDot (s : List Char) : Bool :=
  [".", "%2e"].contains (String.ofList (s.map Char.toLower))

/-- True of a segment that stands for the path above. -/
def isDoubleDot (s : List Char) : Bool :=
  ["..", ".%2e", "%2e.", "%2e%2e"].contains (String.ofList (s.map Char.toLower))

/-- The segments of a path after those in `done`, dots carried out. -/
def segmentsAfter (done : List (List Char)) : List (List Char) → List (List Char)
  | [] => done
  | s :: rest =>
    let done :=
      if isDoubleDot s then done.dropLast ++ if rest.isEmpty then [[]] else []
      else if isDot s then done ++ if rest.isEmpty then [[]] else []
      else done ++ [escape inPath s]
    segmentsAfter done rest

/-- The segments of a path; the text starts with the first slash or is empty. -/
def segmentsOf (special : Bool) (s : List Char) : List (List Char) :=
  let s := if special then s.map fun c => if c = '\\' then '/' else c else s
  match s with
  | [] => if special then [[]] else []
  | _ :: s => segmentsAfter [] (pieces '/' s)

/-- True of the tabs and line ends, which no address keeps. -/
def isLeftOut (c : Char) : Bool :=
  c = '\t' || c = '\n' || c = '\r'

/-- A path with one more segment, which takes the place of an empty only one. Dots name no segment.
Dots from which something is left out are carried out all the same. -/
def pushSegment (path : List (List Char)) (s : List Char) : List (List Char) :=
  if s = ['.'] ∨ s = ['.', '.'] then path
  else
    let path := if path = [[]] then [] else path
    let s := s.filter (!isLeftOut ·)
    if s = ['.', '.'] then path.dropLast ++ [[]]
    else if s = ['.'] then path ++ [[]]
    else path ++ [escape inSegment s]

/-! ### Addresses -/

namespace Url

/-- The path, query and fragment at the end of an address. -/
def tail (special : Bool) (s : List Char) : List Char × Option (List Char) × Option (List Char) :=
  let (front, fragment) := match s.dropWhile (· ≠ '#') with
    | _ :: f => (s.takeWhile (· ≠ '#'), some (escape inFragment f))
    | [] => (s, none)
  let inQuery (c : Char) : Bool := inQuery c || (!special && c = '\'')
  match front.dropWhile (· ≠ '?') with
  | _ :: q => (front.takeWhile (· ≠ '?'), some (escape inQuery q), fragment)
  | [] => (front, none, fragment)

/-- The address of a scheme; the text starts with the authority, which `readAuthority` reads. -/
def withAuthority (scheme : List Char)
    (readAuthority : List Char → Except UrlError (List Char × List Char)) (s : List Char) :
    Except UrlError Url := do
  let special := isSpecial scheme
  let inAuthority (c : Char) : Bool := !isSlash special c && c ≠ '?' && c ≠ '#'
  let (user, authority) ← readAuthority (s.takeWhile inAuthority)
  let (path, query, fragment) := tail special (s.dropWhile inAuthority)
  return ⟨scheme, user, some authority, some (segmentsOf special path), query, fragment⟩

/-- The address of a file; the text stands after the colon of the scheme. -/
def ofFile (s : List Char) : Except UrlError Url :=
  match s.takeWhile (isSlash true) with
  | _ :: _ :: _ => withAuthority fileScheme fileHost? (s.drop 2)
  | [_] => withAuthority fileScheme fileHost? s
  | [] => withAuthority fileScheme fileHost? ('/' :: s)

/-- Takes an address apart. Blanks and controls around it do not count, nor does what is left out
within it. -/
def parse (text : List Char) : Except UrlError Url :=
  let isEdge (c : Char) : Bool := c.toNat ≤ 0x20
  let s := (Text.dropEndWhile isEdge (text.dropWhile isEdge)).filter (!isLeftOut ·)
  match takeScheme s with
  | none => .error .relativeWithoutBase
  | some (scheme, rest) =>
    if scheme = fileScheme then ofFile rest
    else if isSpecial scheme then
      withAuthority scheme (authority? scheme) (rest.dropWhile (isSlash true))
    else match rest with
      | '/' :: '/' :: r => withAuthority scheme (authority? scheme) r
      | '/' :: _ =>
        let (path, query, fragment) := tail false rest
        .ok ⟨scheme, [], none, some (segmentsOf false path), query, fragment⟩
      | _ =>
        let (_, query, fragment) := tail false rest
        .ok ⟨scheme, [], none, none, query, fragment⟩

/-- True of an address with a host. -/
def hasHost (u : Url) : Bool :=
  u.authority.any (!·.isEmpty)

/-- The segments of the path without an empty last one. A path of one empty segment has none. -/
def basePath (u : Url) : List (List Char) :=
  let old := u.path.getD []
  let old := if old.getLast? = some [] then old.dropLast else old
  if old = [[]] then [] else old

/-- The address with segments at the end of its path, in place of an empty last one. -/
def join (u : Url) (segments : List String) : Url :=
  { u with path := some (segments.foldl (fun path s => pushSegment path s.toList) u.basePath) }

/-- The address with fields at the end of its query. -/
def withFields (u : Url) (fields : List (String × String)) : Url :=
  if fields.isEmpty then u
  else match u.query with
    | none | some [] => { u with query := some (writeFields fields) }
    | some q => { u with query := some (q ++ '&' :: writeFields fields) }

/-- The address without its user, who is named elsewhere in a request. -/
def withoutUser (u : Url) : Url :=
  { u with user := [] }

/-- The path and the query of an address. -/
def target (u : Url) : List Char :=
  ((u.path.getD []).flatMap fun s => '/' :: s) ++
    match u.query with
    | some q => '?' :: q
    | none => []

/-- The address as text. -/
def write (u : Url) : List Char :=
  u.scheme ++ ':' :: (match u.authority with
    | some a => '/' :: '/' :: (u.user ++ a)
    | none => []) ++ u.target ++
    match u.fragment with
    | some f => '#' :: f
    | none => []

end Url

end Composer.Web

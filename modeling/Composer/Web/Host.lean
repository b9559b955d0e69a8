import Composer.Color.Swatch
import Composer.Text.Phrase
import Composer.Web.Domain
import Composer.Web.Escape
/-!
# Composer.Web.Host

**Names of hosts.** A host is a domain, an address of four numbers or an address of eight groups in
brackets. Domains are written in lower case and in ASCII; a domain that ends in a number has to be
an address, and addresses are written in their usual form. Outside the web a host may be any name.
-/

namespace Composer.Web

/-- Why a text is no address. -/
inductive UrlError where
  | relativeWithoutBase
  | emptyHost
  | badPort
  | badNumbers
  | badGroups
  | badDomain
  | badCharacter
deriving DecidableEq, Repr

/-- The text of an error. -/
def UrlError.message : UrlError → String
  | relativeWithoutBase => "relative URL without a base"
  | emptyHost => "empty host"
  | badPort => "invalid port number"
  | badNumbers => "invalid IPv4 address"
  | badGroups => "invalid IPv6 address"
  | badDomain => "invalid international domain name"
  | badCharacter => "invalid domain character"

/-! ### Four numbers -/

/-- The number that digits of a base write. -/
def digitsIn (base : Nat) (s : List Char) : Option Nat :=
  s.foldlM (fun n c => do
    let d ← Color.hexDigit? c
    if d < base then some (n * base + d) else none) 0

/-- One number of an address: decimal, octal after a nought, hexadecimal after a nought and an
*x*. -/
def addressNumber? : List Char → Option Nat
  | [] => none
  | '0' :: 'x' :: s => digitsIn 16 s
  | '0' :: 'X' :: s => digitsIn 16 s
  | '0' :: s => digitsIn 8 s
  | s => digitsIn 10 s

/-- The parts of a domain, without an empty last one. -/
def domainParts (domain : List Char) : List (List Char) :=
  let parts := pieces '.' domain
  if 1 < parts.length ∧ parts.getLast? = some [] then parts.dropLast else parts

/-- True of a domain that has to be an address because its last part is a number. -/
def endsInNumber (domain : List Char) : Bool :=
  match (domainParts domain).getLast? with
  | some part => !part.isEmpty && (part.all Char.isDigit || (addressNumber? part).isSome)
  | none => false

/-- The value of the parts of an address; the last part fills the places that are left. -/
def addressValue? (numbers : List Nat) : Option Nat :=
  match numbers.reverse with
  | [] => none
  | last :: others =>
    if 4 < numbers.length ∨ others.any (255 < ·) ∨ Nat.pow 256 (5 - numbers.length) ≤ last then none
    else
      let high := others.reverse.foldl (fun n d => n * 256 + d) 0
      some (high * Nat.pow 256 (5 - numbers.length) + last)

/-- An address of four numbers in its usual form. -/
def address? (domain : List Char) : Option (List Char) := do
  let n ← addressValue? (← (domainParts domain).mapM addressNumber?)
  let byte (k : Nat) : List Char := Nat.toDigits 10 (n / Nat.pow 256 k % 256)
  some (['.'].intercalate [byte 3, byte 2, byte 1, byte 0])

/-! ### Eight groups -/

/-- A number of an address within brackets, in decimal digits without a nought in front. -/
def groupNumber? (s : List Char) : Option Nat :=
  match s with
  | '0' :: _ :: _ => none
  | _ => if s.isEmpty || 3 < s.length then none else (digitsIn 10 s).filter (· < 256)

/-- The two groups that an address of four numbers fills. -/
def embedded? (s : List Char) : Option (List Nat) := do
  match ← (pieces '.' s).mapM groupNumber? with
  | [a, b, c, d] => some [a * 256 + b, c * 256 + d]
  | _ => none

/-- The groups of a part of an address in brackets. Where `last`, the last piece may be an address
of four numbers. -/
def groupsOf? (last : Bool) : List (List Char) → Option (List Nat)
  | [] => some []
  | p :: ps =>
    if last && ps.isEmpty && p.contains '.' then embedded? p
    else if p.isEmpty || 4 < p.length then none
    else do some ((← digitsIn 16 p) :: (← groupsOf? last ps))

/-- The groups of a part of an address in brackets; an empty part has none. -/
def groups? (last : Bool) (s : List Char) : Option (List Nat) :=
  if s.isEmpty then some [] else groupsOf? last (pieces ':' s)

/-- Splits a text at the first two colons side by side. -/
def splitAtGap : List Char → Option (List Char × List Char)
  | ':' :: ':' :: s => some ([], s)
  | c :: s => (splitAtGap s).map fun (before, after) => (c :: before, after)
  | [] => none

/-- The eight groups of an address in brackets. -/
def eightGroups? (s : List Char) : Option (List Nat) :=
  match splitAtGap s with
  | none => (groups? true s).filter (·.length = 8)
  | some (before, after) => do
    let before ← groups? false before
    let after ← groups? true after
    if 7 < before.length + after.length then none
    else some (before ++ List.replicate (8 - before.length - after.length) 0 ++ after)

/-- The length of the run of noughts at the front. -/
def zeroRun (gs : List Nat) : Nat :=
  (gs.takeWhile (· = 0)).length

/-- The start and the length of the first longest run of noughts. -/
def longestRun (gs : List Nat) : Nat × Nat :=
  (List.range gs.length).foldl (fun best i =>
    if best.2 < zeroRun (gs.drop i) then (i, zeroRun (gs.drop i)) else best) (0, 0)

/-- Groups with colons between them. -/
def writeGroups (gs : List Nat) : List Char :=
  [':'].intercalate (gs.map (Nat.toDigits 16))

/-- An address in brackets in its usual form, where the longest run of two noughts or more is left
out. -/
def bracketed (gs : List Nat) : List Char :=
  let (start, length) := longestRun gs
  if length < 2 then '[' :: writeGroups gs ++ [']']
  else
    '[' :: writeGroups (gs.take start) ++ ':' :: ':' :: writeGroups (gs.drop (start + length)) ++
      [']']

/-- The address that brackets hold, in its usual form. -/
def bracketed? (s : List Char) : Except UrlError (List Char) :=
  match s.getLast?, eightGroups? s.dropLast with
  | some ']', some gs => .ok (bracketed gs)
  | _, _ => .error .badGroups

/-! ### Hosts -/

/-- A character that no name of a host has. -/
def isForbidden (c : Char) : Bool :=
  [' ', '\x00', '\t', '\n', '\r', '#', '/', ':', '<', '>', '?', '@', '[', '\\', ']', '^',
    '|'].contains c

/-- A character that no domain has. -/
def isForbiddenInDomain (c : Char) : Bool :=
  isForbidden c || c = '%' || c.toNat < 0x20 || c.toNat = 0x7F

/-- The bytes of a text in which escapes stand for the bytes they write. -/
def unescape : List Char → List UInt8
  | '%' :: a :: b :: s =>
    match Color.hexDigit? a, Color.hexDigit? b with
    | some x, some y => (16 * x + y).toUInt8 :: unescape s
    | _, _ => 0x25 :: unescape (a :: b :: s)
  | c :: s => String.utf8EncodeChar c ++ unescape s
  | [] => []

/-- The text without its escapes, if what is left is text. -/
def unescaped? (s : List Char) : Option (List Char) :=
  (String.fromUTF8? ⟨(unescape s).toArray⟩).map (·.toList)

/-- The host on the web that a text names, in its usual form. -/
def webHost? (s : List Char) : Except UrlError (List Char) :=
  match s with
  | '[' :: r => bracketed? r
  | _ =>
    match (unescaped? s).bind asciiDomain? with
    | none => .error .badDomain
    | some domain =>
      if domain.any isForbiddenInDomain then .error .badDomain
      else if domain.isEmpty then .error .emptyHost
      else if endsInNumber domain then
        match address? domain with
        | some a => .ok a
        | none => .error .badNumbers
      else .ok domain

/-- The host that a text names outside the web. -/
def otherHost? (s : List Char) : Except UrlError (List Char) :=
  match s with
  | '[' :: r => bracketed? r
  | _ =>
    if s.any isForbidden then .error .badCharacter
    else .ok (escape (fun c => 0x1F < c.toNat && c.toNat < 0x7F) s)

end Composer.Web

import Composer.Text.Lowercase
import Composer.Text.Blank
import Composer.Web.Label
/-!
# Composer.Web.Domain

**Domains in ASCII.** A domain is a list of labels between dots. Letters are taken in lower case,
characters of full width as those of ASCII and the full stops of ideographic scripts as dots; no
other characters are held to be the same. A label that is marked as written in ASCII has to be one
that `asciiLabel` writes.
-/

namespace Composer.Web

/-! ### Pieces -/

/-- The pieces between the characters `c`. -/
def pieces (c : Char) : List Char → List (List Char)
  | [] => [[]]
  | d :: s =>
    if d = c then [] :: pieces c s
    else match pieces c s with
      | [] => [[d]]
      | p :: ps => (d :: p) :: ps

/-! ### Domains -/

/-- The character that a character of full width or an ideographic full stop stands for. -/
def ofFullWidth (c : Char) : Char :=
  if 0xFF01 ≤ c.toNat ∧ c.toNat ≤ 0xFF5E then Char.ofNat (c.toNat - 0xFEE0)
  else if c.toNat = 0x3002 ∨ c.toNat = 0xFF61 then '.'
  else c

/-- A character as it stands in a domain. -/
def domainChar (c : Char) : List Char :=
  Text.lower [ofFullWidth c]

/-- A character that no domain has: a blank or a control beyond ASCII. -/
def isNoDomainChar (c : Char) : Bool :=
  0x7F < c.toNat && (c.toNat < 0xA0 || Text.isBlank c)

/-- True of a label that is not marked, or that is marked and writes one whose characters stand in a
domain as they are. -/
def isSoundLabel : List Char → Bool
  | 'x' :: 'n' :: '-' :: '-' :: s =>
    match decodeLabel? s with
    | some label => !label.any isNoDomainChar && label.flatMap domainChar = label
    | none => false
  | _ => true

/-- A domain in lower case and in ASCII, if all its characters can stand in one. -/
def asciiDomain? (domain : List Char) : Option (List Char) :=
  let labels := pieces '.' (domain.flatMap domainChar)
  if labels.all fun label => !label.any isNoDomainChar && isSoundLabel label then
    some (['.'].intercalate (labels.map asciiLabel))
  else none

end Composer.Web

import Composer.Palette.Command
import Composer.Text.Lowercase
/-!
# Composer.Palette.Search

**Searching the palette.** A query finds the commands whose name, description or heading contains
it, whatever the case of its letters and the blanks around it. The commands that are found are
grouped by heading; groups and commands keep the order of the palette.
-/

namespace Composer

namespace Command

/-- The texts in which a query is looked for. -/
def searchTexts (c : Command) : List String :=
  [c.name, c.description, c.category.label]

/-- True when one of the texts contains `needle`, which is in lower case. -/
def contains (needle : List Char) (c : Command) : Bool :=
  c.searchTexts.any fun text => Text.contains needle (Text.lower text.toList)

end Command

/-- The commands of one category that were found. -/
structure Group where
  /-- The category. -/
  category : Category
  /-- Its commands. -/
  commands : List Command
deriving DecidableEq, Repr

namespace Group

/-- The record of a group. -/
def encode (g : Group) : Json :=
  .object [
    ("category", .string g.category.name),
    ("commands", .array (g.commands.map Command.encode))]

/-- Puts a command at the end of the group of its category, which is made if there is none. -/
def insert (c : Command) : List Group → List Group
  | [] => [⟨c.category, [c]⟩]
  | g :: gs =>
    if g.category = c.category then { g with commands := g.commands ++ [c] } :: gs
    else g :: insert c gs

/-- The groups of a list of commands. -/
def ofCommands (cs : List Command) : List Group :=
  cs.foldl (fun gs c => insert c gs) []

/-- The commands of all groups, one group after the other. -/
def flatten (gs : List Group) : List Command :=
  gs.flatMap (·.commands)

@[simp] theorem flatten_nil : flatten [] = [] := rfl

@[simp] theorem flatten_cons (g : Group) (gs : List Group) :
    flatten (g :: gs) = g.commands ++ flatten gs := rfl

end Group

/-- What is looked for: the query without the blanks around it, in lower case. -/
def needleOf (query : List Char) : List Char :=
  Text.lower (Text.trim query)

/-- The commands that a query finds, in groups. -/
def searchCommands (query : List Char) : List Group :=
  Group.ofCommands (commands.filter (Command.contains (needleOf query)))

/-- The commands that a query finds, in the order in which they are listed. -/
def foundCommands (query : List Char) : List Command :=
  Group.flatten (searchCommands query)

end Composer

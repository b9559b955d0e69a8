import Composer.Answer.Record
import Composer.Detection
import Composer.Palette.Search
/-!
# Composer.Session.View

**What a host shows.** A view is hidden, lists commands, or shows a tool. A tool is *focused* when
it was opened on purpose; then it may wait for a first answer. An answer that was found in the text
shows its tool unfocused.
-/

namespace Composer

/-- What kind of thing is shown. -/
inductive Mode where
  | hidden
  | commands
  | tool
deriving DecidableEq, Repr

/-- The name that records carry. -/
def Mode.name : Mode → String
  | hidden => "hidden"
  | commands => "commands"
  | tool => "module"

/-- A tool that is shown. -/
structure Active where
  /-- The tool. -/
  tool : Tool
  /-- Whether it was opened on purpose. -/
  focused : Bool
  /-- Its answer, if it has one. -/
  answer : Option Answer
deriving DecidableEq

namespace Active

/-- The tool of an answer that was found in the text. -/
def ofAnswer (a : Answer) : Active :=
  ⟨a.tool, false, some a⟩

/-- The countdown of the timer. -/
def countdown? (m : Active) : Option Countdown :=
  m.answer.bind Answer.countdown?

/-- The record of a tool that is shown. -/
def encode (m : Active) : Json :=
  .object [
    ("id", .string m.tool.name),
    ("focused", .bool m.focused),
    ("result", (m.answer.map Answer.encode).getD .null)]

end Active

/-- What a host shows. The tool counts in the mode for tools; commands, query and selection count
in the mode for commands. -/
structure View where
  /-- What kind of thing is shown. -/
  mode : Mode
  /-- The tool. -/
  active : Option Active
  /-- The commands in the order in which they are listed. -/
  commands : List Command
  /-- What the commands were searched for. -/
  query : String
  /-- The position of the selected command. -/
  selected : Nat
deriving DecidableEq

namespace View

/-- Nothing is shown. -/
def hidden : View :=
  ⟨.hidden, none, [], "", 0⟩

/-- A tool is shown. -/
def ofActive (m : Active) : View :=
  ⟨.tool, some m, [], "", 0⟩

/-- The commands that a query finds are shown. -/
def ofQuery (query : List Char) : View :=
  ⟨.commands, none, foundCommands query, String.ofList query, 0⟩

/-- Whether anything is shown. -/
def isVisible (v : View) : Bool :=
  v.mode ≠ .hidden

/-- Whether a tool is shown that was opened on purpose. -/
def isFocused (v : View) : Bool :=
  v.mode = .tool && v.active.any (·.focused)

/-- The command that is selected. -/
def selectedCommand? (v : View) : Option Command :=
  if v.mode = .commands then v.commands[v.selected]? else none

/-- The answer that is shown. -/
def answer? (v : View) : Option Answer :=
  v.active.bind (·.answer)

/-- The countdown that is shown. -/
def countdown? (v : View) : Option Countdown :=
  v.active.bind (·.countdown?)

/-- Whether a focused countdown is running. -/
def isCounting (v : View) : Bool :=
  v.isFocused && v.countdown?.any (·.isRunning)

/-- The view with another answer of the tool that is shown. -/
def withAnswer (a : Answer) (v : View) : View :=
  { v with active := v.active.map fun m => { m with answer := some a } }

/-- The view with another countdown, if it shows one. -/
def withCountdown (c : Countdown) (v : View) : View :=
  if v.countdown?.isSome then v.withAnswer (.timer c) else v

/-- The view whose selection has moved, from the last command on to the first one and back. -/
def moveSelection (v : View) (distance : Int) : View :=
  let n := v.commands.length
  if n = 0 then v
  else { v with selected := (((min v.selected (n - 1) : Nat) + distance) % (n : Int)).toNat }

/-- The record of a view. -/
def encode (v : View) : Json :=
  .object [
    ("mode", .string v.mode.name),
    ("module", (v.active.map Active.encode).getD .null),
    ("commands", .array (v.commands.map Command.encode)),
    ("command_query", .string v.query),
    ("selected_index", .ofNat v.selected)]

/-- What is shown for a text that replaces the one before. A focused tool stays and answers alone;
otherwise the trigger opens the palette, and any other text shows the tool that answers it. -/
def ofText (current : View) (text : List Char) (trigger : Char) (ctx : Context) : View :=
  match current.active.filter (·.focused) with
  | some m => ofActive ⟨m.tool, true, Detection.focused m.tool text ctx⟩
  | none =>
    match text with
    | [] => hidden
    | c :: rest =>
      if c = trigger then ofQuery (Text.trim rest)
      else match Detection.auto text ctx with
        | some a => ofActive (.ofAnswer a)
        | none => hidden

end View

end Composer

import Composer.Json.Value
import Composer.Tool
/-!
# Composer.Palette.Command

**The commands of the palette.** A command opens a tool or asks the host for an action. Its id is
the name of the tool or of the action.
-/

namespace Composer

/-- The heading under which a command is listed. -/
inductive Category where
  | math
  | time
  | text
  | tools
  | chat
  | app
deriving DecidableEq, Repr

namespace Category

/-- Every category, in the order of the palette. -/
def all : List Category :=
  [math, time, text, tools, chat, app]

/-- The name that records carry. -/
def name : Category → String
  | math => "math"
  | time => "time"
  | text => "text"
  | tools => "tools"
  | chat => "chat"
  | app => "app"

/-- The heading that a host shows. -/
def label : Category → String
  | math => "Math"
  | time => "Time"
  | text => "Text"
  | tools => "Tools"
  | chat => "Chat"
  | app => "App"

end Category

/-- What only the host can do. -/
inductive HostAction where
  | newChat
  | chatHistory
  | settings
  | groupSettings
  | help
deriving DecidableEq, Repr

/-- The name of an action. -/
def HostAction.name : HostAction → String
  | newChat => "new-chat"
  | chatHistory => "chat-history"
  | settings => "settings"
  | groupSettings => "group-settings"
  | help => "help"

/-- What a command does. -/
inductive Handler where
  /-- Opens a tool. -/
  | tool (t : Tool)
  /-- Asks the host for an action. -/
  | host (a : HostAction)
deriving DecidableEq, Repr

/-- A command of the palette. -/
structure Command where
  /-- The name that a host shows. -/
  name : String
  /-- What it does, in a few words. -/
  description : String
  /-- The heading under which it is listed. -/
  category : Category
  /-- The name of its picture. -/
  icon : String
  /-- What it does. -/
  handler : Handler
deriving DecidableEq, Repr

namespace Command

/-- The stable name of a command. -/
def id (c : Command) : String :=
  match c.handler with
  | .tool t => t.name
  | .host a => a.name

/-- The record of a command. -/
def encode (c : Command) : Json :=
  .object [
    ("id", .string c.id),
    ("name", .string c.name),
    ("description", .string c.description),
    ("category", .string c.category.name),
    ("icon", .string c.icon),
    ("handler", match c.handler with
      | .tool t => .object [("kind", .string "module"), ("target", .string t.name)]
      | .host a => .object [("kind", .string "action"), ("target", .string a.name)])]

end Command

/-- All commands, those of one category side by side. -/
def commands : List Command := [
  ⟨"Calculator", "Evaluate math expressions", .math, "calculator", .tool .calculator⟩,
  ⟨"Unit Converter", "Convert length, weight, temperature and more", .math, "ruler", .tool .units⟩,
  ⟨"Currency Converter", "Convert between currencies at live rates", .math, "coins",
    .tool .currency⟩,
  ⟨"Time Zones", "Convert a clock reading between zones", .time, "globe", .tool .timezone⟩,
  ⟨"Date Calculator", "Days until, days since, dates from now", .time, "calendar", .tool .date⟩,
  ⟨"Timer", "Countdown with pause and reset", .time, "hourglass", .tool .timer⟩,
  ⟨"Word Count", "Count words, characters and sentences", .text, "text", .tool .wordCount⟩,
  ⟨"Translate", "Translate text to another language", .text, "languages", .tool .translator⟩,
  ⟨"Dictionary", "Look up the definition of a word", .text, "book", .tool .dictionary⟩,
  ⟨"Color", "Parse hex, rgb, hsl or named colors", .tools, "palette", .tool .color⟩,
  ⟨"Random", "Roll dice, flip a coin or pick a number", .tools, "dice", .tool .random⟩,
  ⟨"New Chat", "Start a new conversation", .chat, "plus", .host .newChat⟩,
  ⟨"Chat History", "Browse previous conversations", .chat, "history", .host .chatHistory⟩,
  ⟨"Group Settings", "Manage members of this group", .chat, "users", .host .groupSettings⟩,
  ⟨"Settings", "Account and app preferences", .app, "settings", .host .settings⟩,
  ⟨"Help", "Show what the composer understands", .app, "help-circle", .host .help⟩]

/-- The command with an id. -/
def findCommand (id : String) : Option Command :=
  commands.find? (·.id == id)

end Composer

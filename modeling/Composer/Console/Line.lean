import Composer.Session.Operation
import Composer.Text.Phrase
/-!
# Composer.Console.Line

**Lines that are typed into the console.** A line is the new text of the composer, or a command
after a colon. Two colons stand for a text that begins with one. A command without the argument it
needs, and an unknown one, asks for help; an argument that is no number is complained about.
-/

namespace Composer.Console

/-- What a line asks for. -/
inductive Line where
  /-- An operation of the session. -/
  | operation (op : Operation)
  /-- The record of the view. -/
  | state
  /-- The list of commands. -/
  | help
  /-- Nothing, because an argument is wrong. -/
  | complaint (text : String)
  /-- The end. -/
  | quit
deriving DecidableEq, Repr

/-- The list of commands. -/
def helpLines : List String := [
  ":up / :down        move the palette selection",
  ":select <n>        select palette entry n",
  ":enter             run the selected command",
  ":focus <module>    open a module in focused mode",
  ":start :toggle     start, pause or resume the timer",
  ":reset             reset the timer",
  ":duration <secs>   set the timer duration",
  ":copy              copy the current value",
  ":dismiss           hide the overlay",
  ":state             print the raw state as JSON",
  ":quit              exit"]

/-- A whole number of 64 bits, which may have a plus sign. -/
def number? (s : List Char) : Option Nat :=
  let ds := match s with
    | '+' :: r => r
    | r => r
  (Text.natural? ds).filter (· < Nat.pow 2 64)

/-- What a command with its first argument asks for. -/
def ofCommand (name : String) (argument : Option (List Char)) : Line :=
  match name, argument with
  | "quit", _ => .quit
  | "q", _ => .quit
  | "up", _ => .operation .selectUp
  | "down", _ => .operation .selectDown
  | "select", some n =>
    match number? n with
    | some position => .operation (.select position)
    | none => .complaint ("not an index: " ++ String.ofList n)
  | "enter", _ => .operation .execute
  | "focus", some tool => .operation (.focus (String.ofList tool))
  | "start", _ => .operation .startTimer
  | "toggle", _ => .operation .toggleTimer
  | "reset", _ => .operation .resetTimer
  | "duration", some n =>
    match number? n with
    | some seconds => .operation (.setDuration seconds)
    | none => .complaint ("not a number of seconds: " ++ String.ofList n)
  | "copy", _ => .operation .copyCurrent
  | "dismiss", _ => .operation .dismiss
  | "state", _ => .state
  | _, _ => .help

/-- What a line asks for. -/
def Line.read (line : List Char) : Line :=
  match line with
  | ':' :: ':' :: text => .operation (.analyze (String.ofList (':' :: text)))
  | ':' :: command =>
    match Text.words command with
    | [] => ofCommand "" none
    | name :: arguments => ofCommand (String.ofList name) arguments.head?
  | text => .operation (.analyze (String.ofList text))

end Composer.Console

import Composer.Session.View
/-!
# Composer.Console.Overlay

**A view as lines of text.** The palette has a line for each command and a heading before the first
command of each category; the selected command is marked. A tool has a heading and what it answers,
or a hint as long as there is no answer.
-/

namespace Composer.Console

/-- How long the bar of a countdown is. -/
def barWidth : Nat := 24

/-! ### The palette -/

/-- A text with spaces after it up to a width. -/
def padEnd (width : Nat) (s : String) : String :=
  s ++ String.ofList (List.replicate (width - s.length) ' ')

/-- The line of a command. -/
def commandLine (marked : Bool) (c : Command) : String :=
  " " ++ (if marked then ">" else " ") ++ " " ++ padEnd 20 c.name ++ " " ++ c.description

/-- The lines of commands, the first one at a position of the palette and after a command of the
category `last`. -/
def commandLines (selected position : Nat) (last : Option Category) : List Command → List String
  | [] => []
  | c :: cs =>
    let heading := if last = some c.category then [] else [c.category.label]
    heading ++ commandLine (position = selected) c ::
      commandLines selected (position + 1) (some c.category) cs

/-- The lines of the palette. -/
def paletteLines (v : View) : List String :=
  if v.commands.isEmpty then ["No commands match \"" ++ v.query ++ "\""]
  else commandLines v.selected 0 none v.commands

/-! ### Tools -/

/-- What a phase asks for or says. -/
def phaseText : Countdown.Phase → String
  | .idle => "ready, :start to begin"
  | .running => "running"
  | .paused => "paused"
  | .complete => "done"

/-- How much of the bar is filled. -/
def filled (progress : Float) : Nat :=
  min barWidth (((1 - progress) * barWidth.toFloat).round.toUInt64.toNat)

/-- The bar of a countdown. -/
def bar (progress : Float) : String :=
  String.ofList (List.replicate (filled progress) '#' ++
    List.replicate (barWidth - filled progress) '-')

/-- The line of a countdown. -/
def countdownLine (c : Countdown) : String :=
  let label := match c.label with
    | some l => " " ++ l
    | none => ""
  "  " ++ c.display ++ label ++ "  [" ++ bar c.progress ++ "]  " ++ phaseText c.phase

/-- The lines of one meaning of a word. -/
def meaningLines (m : Lexicon.Meaning) : List String :=
  ("  " ++ m.partOfSpeech) ::
    m.definitions.mapIdx fun i d => "    " ++ toString (i + 1) ++ ". " ++ d

/-- The lines that only some tools have. -/
def detailLines : Answer → List String
  | .units r =>
    if r.suggestions.isEmpty then [] else ["  to: " ++ String.intercalate ", " r.suggestions]
  | .dictionary r =>
    if r.meanings.isEmpty then []
    else (r.phonetic.map ("  " ++ ·)).toList ++ r.meanings.flatMap meaningLines
  | .random r =>
    if 1 < r.values.length then ["  rolls: " ++ String.intercalate " " (r.values.map toString)]
    else []
  | _ => []

/-- The lines of an answer. -/
def answerLines : Answer → List String
  | .timer c => [countdownLine c]
  | a =>
    ((if a.isPartial then "  … " else "  = ") ++ a.display ++
        if a.isLoading then "  (loading)" else "") ::
      ((a.error.map ("  ! " ++ ·)).toList ++ detailLines a)

/-- The lines of a tool. -/
def toolLines (m : Active) : List String :=
  ("[" ++ m.tool.label ++ "]" ++ if m.focused then " (focused)" else "") ::
    match m.answer with
    | none => ["  " ++ m.tool.hint]
    | some a => answerLines a

/-! ### Any view -/

/-- The lines of a view. -/
def viewLines (v : View) : List String :=
  match v.mode with
  | .hidden => []
  | .commands => paletteLines v
  | .tool => (v.active.map toolLines).getD []

/-- A view as text. -/
def render (v : View) : String :=
  String.join ((viewLines v).map (· ++ "\n"))

end Composer.Console

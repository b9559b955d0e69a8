import Composer.Session.Basic
/-!
# Composer.Session.Operation

**What a host can do.** Every operation is a function of the session and its surroundings. An
operation that is not possible leaves everything as it is and announces nothing.
-/

namespace Composer

/-- An operation of the host. -/
inductive Operation where
  /-- The text of the composer is another one now. -/
  | analyze (text : String)
  /-- Selects the command above. -/
  | selectUp
  /-- Selects the command below. -/
  | selectDown
  /-- Selects a command by its position. -/
  | select (position : Nat)
  /-- Runs the selected command. -/
  | execute
  /-- Opens the tool with a name. -/
  | focus (name : String)
  /-- Shows nothing any more. -/
  | dismiss
  /-- Starts the countdown. -/
  | startTimer
  /-- Pauses the countdown or resumes it. -/
  | toggleTimer
  /-- Puts the countdown back to its beginning. -/
  | resetTimer
  /-- Sets the duration of the countdown. -/
  | setDuration (seconds : Nat)
  /-- Copies a text. -/
  | copy (text : String)
  /-- Copies the value of the answer that is shown. -/
  | copyCurrent
deriving DecidableEq, Repr

/-- What an operation answers. -/
inductive Reply where
  /-- The view right after the operation. -/
  | view (v : View)
  /-- The command that was run, if one was selected. -/
  | command (c : Option Command)
  /-- Whether the text was copied. -/
  | copied (done : Bool)
  /-- The text that was copied. -/
  | text (value : Option String)
deriving DecidableEq

namespace Session

/-! ### Texts -/

/-- Starts the lookup that the new view needs. Where lookups cannot be started it fails at once. -/
def announceLookup (s : Session) (e : Surroundings) : Effect :=
  let (s, lookup) := s.beginLookup
  match lookup with
  | none => s.changed
  | some l =>
    if e.canWait then { s.changed with lookup := some l }
    else
      let failed := s.settle l.ticket (l.answer.withError "Lookup unavailable")
      { failed with events := s.changed.events ++ failed.events }

/-- The text of the composer is another one now. While a focused countdown runs, texts do not
count. -/
def analyze (s : Session) (e : Surroundings) (text : String) : Effect :=
  if s.view.isCounting then s.unchanged
  else
    let s := stopInterval { s with tickets := s.tickets.invalidateAll }
    let text := Text.trim text.toList
    announceLookup { s with view := s.view.ofText text e.settings.trigger e.context } e

/-- What `analyze` answers: the view before a lookup can have settled. -/
def analyzedView (s : Session) (e : Surroundings) (text : String) : View :=
  (s.analyze { e with canWait := true } text).session.view

/-! ### The palette -/

/-- Moves the selection. -/
def moveSelection (s : Session) (distance : Int) : Effect :=
  if s.view.mode = .commands ∧ s.view.commands ≠ [] then
    changed { s with view := s.view.moveSelection distance }
  else s.unchanged

/-- Selects a command by its position. -/
def select (s : Session) (position : Nat) : Effect :=
  if s.view.mode = .commands ∧ position < s.view.commands.length then
    changed { s with view := { s.view with selected := position } }
  else s.unchanged

/-! ### Opening and closing -/

/-- Shows another view and makes all intervals and lookups stale. -/
def replaceView (s : Session) (v : View) : Session :=
  { s.stopInterval with tickets := s.tickets.invalidateAll, view := v }

/-- Opens a tool. -/
def focusTool (s : Session) (t : Tool) : Effect :=
  (s.replaceView (.ofActive ⟨t, true, none⟩)).changed

/-- Opens the tool with a name. -/
def focus (s : Session) (name : String) : Effect :=
  match Tool.typed? name with
  | some t => s.focusTool t
  | none => s.unchanged

/-- Shows nothing any more. -/
def dismiss (s : Session) : Effect :=
  (s.replaceView .hidden).changed

/-- Runs the selected command. An action of the host is announced after the palette has gone. -/
def execute (s : Session) : Effect :=
  match s.view.selectedCommand? with
  | none => s.unchanged
  | some c =>
    match c.handler with
    | .tool t => s.focusTool t
    | .host a =>
      let gone := s.dismiss
      { gone with events := gone.events ++ [.hostAction c.id a.name] }

/-! ### The countdown -/

/-- Starts the countdown. -/
def startTimer (s : Session) (e : Surroundings) : Effect :=
  match s.view.countdown?.bind Countdown.start? with
  | none => s.unchanged
  | some c =>
    changed (startInterval { s with view := s.view.withCountdown c } e.canWait c.reset)

/-- Pauses the countdown or resumes it. -/
def toggleTimer (s : Session) (e : Surroundings) : Effect :=
  match s.view.countdown? with
  | none => s.unchanged
  | some c =>
    match c.toggle? with
    | none => s.unchanged
    | some toggled =>
      let s' := { s with view := s.view.withCountdown toggled }
      if c.phase = .running then s'.stopInterval.changed
      else (s'.startInterval e.canWait (toggled.toggle?.getD toggled)).changed

/-- Puts the countdown back to its beginning. The interval stops even where there is no
countdown. -/
def resetTimer (s : Session) : Effect :=
  match s.view.countdown? with
  | none => s.stopInterval.unchanged
  | some c =>
    changed { s.stopInterval with view := s.view.withCountdown c.reset }

/-- Sets the duration of an idle countdown; a timer without a countdown gets one. -/
def setDuration (s : Session) (seconds : Nat) : Effect :=
  match s.view.active with
  | none => s.unchanged
  | some m =>
    if m.tool ≠ .timer ∨ seconds = 0 then s.unchanged
    else match m.countdown? with
      | none =>
        changed { s with view := s.view.withAnswer (.timer (.ofSeconds seconds none)) }
      | some c =>
        match c.setDuration? seconds with
        | some c => changed { s with view := s.view.withCountdown c }
        | none => s.unchanged

/-! ### The clipboard -/

/-- Copies a text. It is announced once the clipboard has taken it. -/
def copy (s : Session) (e : Surroundings) (text : String) : Effect :=
  if e.canCopy then { session := s, events := [.copied text], copied := some text }
  else s.unchanged

/-- What the answer that is shown has to copy. -/
def copyText? (s : Session) : Option String :=
  s.view.answer?.bind Answer.copyText?

/-! ### Any operation -/

/-- What an operation leads to. -/
def perform (s : Session) (e : Surroundings) : Operation → Effect
  | .analyze text => s.analyze e text
  | .selectUp => s.moveSelection (-1)
  | .selectDown => s.moveSelection 1
  | .select position => s.select position
  | .execute => s.execute
  | .focus name => s.focus name
  | .dismiss => s.dismiss
  | .startTimer => s.startTimer e
  | .toggleTimer => s.toggleTimer e
  | .resetTimer => s.resetTimer
  | .setDuration seconds => s.setDuration seconds
  | .copy text => s.copy e text
  | .copyCurrent =>
    match s.copyText? with
    | some text => s.copy e text
    | none => s.unchanged

/-- What an operation answers. -/
def reply (s : Session) (e : Surroundings) : Operation → Reply
  | .analyze text => .view (s.analyzedView e text)
  | .execute => .command s.view.selectedCommand?
  | .copy _ => .copied e.canCopy
  | .copyCurrent => .text (if e.canCopy then s.copyText? else none)
  | op => .view (s.perform e op).session.view

end Session

end Composer

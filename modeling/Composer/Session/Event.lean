import Composer.Session.View
/-!
# Composer.Session.Event

**Events.** A session tells its host what happened. Every event has a topic and a payload in JSON;
a host that keeps the last payload of a changed view always shows what the session holds.
-/

namespace Composer

/-- Something that happened in a session. -/
inductive Event where
  /-- The view is another one now. -/
  | viewChanged (v : View)
  /-- A second of a countdown has passed. -/
  | ticked (c : Countdown)
  /-- A countdown has come to its end. -/
  | completed (label : Option String) (total : Nat)
  /-- A text was copied. -/
  | copied (text : String)
  /-- The host is asked for an action. -/
  | hostAction (command : String) (action : String)
deriving DecidableEq

namespace Event

/-- The topic of an event. -/
def topic : Event → String
  | viewChanged _ => "contour:state_changed"
  | ticked _ => "contour:timer_tick"
  | completed _ _ => "contour:timer_completed"
  | copied _ => "contour:copied"
  | hostAction _ _ => "contour:command_action"

/-- The payload of an event. -/
def payload : Event → Json
  | viewChanged v => v.encode
  | ticked c => c.encode
  | completed label total =>
    .object [("label", .ofStringOption label), ("total_seconds", .ofNat total)]
  | copied text => .object [("text", .string text)]
  | hostAction command action =>
    .object [("command_id", .string command), ("action", .string action)]

/-- Reads the payload of a countdown that has come to its end. -/
def completed? (j : Json) : Option Event := do
  match ← Json.columns? ["label", "total_seconds"] j with
  | [label, total] =>
    some (completed (← Json.orNone Json.asString? label) (← Json.required Json.asNat64? total))
  | _ => none

/-- Reads the payload of a copied text. -/
def copied? (j : Json) : Option Event := do
  match ← Json.columns? ["text"] j with
  | [text] => some (copied (← Json.required Json.asString? text))
  | _ => none

/-- Reads the payload of an action of the host. -/
def hostAction? (j : Json) : Option Event := do
  match ← Json.columns? ["command_id", "action"] j with
  | [command, action] =>
    some (hostAction (← Json.required Json.asString? command)
      (← Json.required Json.asString? action))
  | _ => none

end Event

end Composer

import Composer.Console.Line
import Composer.Console.Overlay
import Composer.Json.Printer
import Composer.Session.World
/-!
# Composer.Console.Loop

**The loop of the console.** It waits for a line or for an event of the session, whichever comes
first, and shows the view after each of them. Events wait in a queue. A turn takes all of them at
once: a turn for a line takes them without looking, because the view that it shows is up to date,
and a turn for events says when a countdown was completed.
-/

namespace Composer.Console

/-- The loop between two turns. -/
structure Loop where
  /-- The session and what runs beside it. -/
  world : World
  /-- The surroundings of operations. -/
  surroundings : Surroundings
  /-- Whether views are shown as records. -/
  records : Bool
  /-- The events that were not taken yet, the earliest one first. -/
  queue : List Event

/-- What one turn leads to. -/
structure Turn where
  /-- The loop after the turn, or `none` when it has ended. -/
  loop : Option Loop
  /-- What was shown, piece by piece. -/
  output : List String
  /-- What was complained about. -/
  complaints : List String := []

/-- What is shown of a view. -/
def showView (records : Bool) (v : View) : String :=
  if records then v.encode.compact ++ "\n"
  else
    let text := render v
    if text = "" then "(hidden)\n" else text

/-- What is said when a countdown was completed. -/
def completionNotice : String := "\x07Timer done.\n"

/-- True of the event of a completed countdown. -/
def isCompletion : Event → Bool
  | .completed _ _ => true
  | _ => false

/-- What is said about the answer of an operation, and what is complained about. -/
def replyText : Reply → List String × List String
  | .command none => ([], ["nothing selected\n"])
  | .command (some c) =>
    match c.handler with
    | .host a => (["(host action: " ++ a.name ++ ")\n"], [])
    | .tool _ => ([], [])
  | .text none => ([], ["nothing to copy\n"])
  | .text (some value) => (["(copied " ++ value ++ ")\n"], [])
  | _ => ([], [])

namespace Loop

/-- A loop at its start. -/
def start (e : Surroundings) (records : Bool) : Loop :=
  ⟨.initial, e, records, []⟩

/-- The loop after a move of the world. The events of the move wait in the queue. -/
def advance (l : Loop) (m : Move) : Loop :=
  let world := l.world.step m
  { l with world := world, queue := l.queue ++ world.log.drop l.world.log.length }

/-- The loop after all events were taken. -/
def drain (l : Loop) : Loop :=
  { l with queue := [] }

@[simp] theorem queue_drain (l : Loop) : l.drain.queue = [] := rfl

@[simp] theorem world_drain (l : Loop) : l.drain.world = l.world := rfl

/-- The view that is shown after a turn. -/
def shown (l : Loop) : String :=
  showView l.records l.world.session.view

/-- The view after an operation, as the operation answers it. -/
def shownReply (l : Loop) : Reply → String
  | .view v => showView l.records v
  | _ => l.shown

/-- The turn that an operation takes. -/
def operate (l : Loop) (op : Operation) : Turn :=
  let reply := l.world.session.reply l.surroundings op
  let l := l.advance (.perform l.surroundings op)
  let (said, complaints) := replyText reply
  ⟨some l.drain, said ++ [l.shownReply reply], complaints⟩

/-- The turn that a line takes. -/
def takeLine (l : Loop) (line : List Char) : Turn :=
  match Line.read line with
  | .quit => ⟨none, [], []⟩
  | .operation op => l.operate op
  | .state =>
    ⟨some l.drain, [l.world.session.view.encode.pretty ++ "\n", l.shown], []⟩
  | .help => ⟨some l.drain, helpLines.map (· ++ "\n") ++ [l.shown], []⟩
  | .complaint text => ⟨some l.drain, [l.shown], [text ++ "\n"]⟩

/-- The turn that waiting events take. -/
def takeEvents (l : Loop) : Turn :=
  if l.queue.isEmpty then ⟨some l, [], []⟩
  else
    let notice := if l.queue.any isCompletion then [completionNotice] else []
    ⟨some l.drain, notice ++ [l.shown], []⟩

/-- The loop after every lookup that is on its way has settled. -/
def settleAll (l : Loop) (services : Services) : Loop :=
  (l.world.lookups.map (·.ticket)).foldl (fun l k => l.advance (.settle k services)) l

/-- The turns for a line and for the events that follow from it without another line. -/
def takeLineAndEvents (l : Loop) (services : Services) (line : List Char) : Turn :=
  let turn := l.takeLine line
  match turn.loop with
  | none => turn
  | some l =>
    let next := (l.settleAll services).takeEvents
    ⟨next.loop, turn.output ++ next.output, turn.complaints ++ next.complaints⟩

/-- What is shown for lines that come one after the other. -/
def takeLines (l : Loop) (services : Services) : List (List Char) → List String
  | [] => []
  | line :: lines =>
    let turn := l.takeLineAndEvents services line
    turn.output ++ match turn.loop with
      | some l => l.takeLines services lines
      | none => []

/-- What is shown for one text, after the lookup that it starts has settled. -/
def once (l : Loop) (services : Services) (text : String) : String :=
  ((l.advance (.perform l.surroundings (.analyze text))).settleAll services).shown

end Loop

end Composer.Console

import Composer.Console.Arguments
import Composer.Console.Loop
import Composer.Web.Service
import Std.Time.DateTime.Timestamp
/-!
# Composer.Main

**The program.** It reads the settings, and then answers one text or talks over the console. All
decisions are made by `Console.Loop`; what is here reads lines and the clock, and prints. The
program opens no connections, so every lookup ends with the error for an unreachable service.
-/

namespace Composer.Console

/-- The file of the settings when none is named, if the user has a directory for it. -/
def defaultPath? : IO (Option String) := do
  let directory? ← match ← IO.getEnv "XDG_CONFIG_HOME" with
    | some directory =>
      if directory.startsWith "/" then pure (some directory) else fromHome
    | none => fromHome
  return directory?.map (· ++ "/contour/config.json")
where
  /-- The directory below the home of the user. -/
  fromHome : IO (Option String) := do
    return (← IO.getEnv "HOME").map (· ++ "/.config")

/-- The settings of a file. -/
def settingsOfFile (path : String) : IO (Except SettingsError Settings) := do
  match ← (IO.FS.readFile path).toBaseIO with
  | .ok text => return Settings.ofText text
  | .error e => return .error (.unreadable path (toString e))

/-- The settings of the file that was named, or of the usual one if it exists. -/
def settingsFor (path? : Option String) : IO (Except SettingsError Settings) := do
  match path? with
  | some path => settingsOfFile path
  | none =>
    match ← defaultPath? with
    | none => return .ok .default
    | some path =>
      match ← settingsOfFile path with
      | .error (.unreadable _ _) => return .ok .default
      | outcome => return outcome

/-- The surroundings of the present. The console has no clipboard. -/
def surroundingsNow (settings : Settings) : IO Surroundings := do
  let now ← Std.Time.Timestamp.now
  let bytes ← IO.getRandomBytes 8
  return {
    settings := settings
    now := now.toSecondsSinceUnixEpoch.val
    seed := bytes.foldl (fun seed byte => seed * 256 + byte.toUInt64) 0
    canWait := true
    canCopy := false }

/-- Prints what a turn has shown. -/
def Turn.print (turn : Turn) : IO Unit := do
  for text in turn.complaints do
    IO.eprint text
  for text in turn.output do
    IO.print text
  (← IO.getStdout).flush

/-- The next line without its end, or `none` where there is no more. -/
def nextLine (input : IO.FS.Stream) : IO (Option String) := do
  let line ← input.getLine
  if line.isEmpty then return none
  let line := (line.dropSuffix "\n").toString
  return some (line.dropSuffix "\r").toString

/-- Takes lines as they are typed, and ticks of the interval as they are due. `due` is the time in
milliseconds at which the interval ticks next. -/
partial def converse (l : Loop) (due : Nat) (input : IO.FS.Stream)
    (line? : Task (Except IO.Error (Option String))) : IO Unit := do
  let settings := l.surroundings.settings
  let now ← IO.monoMsNow
  if ← IO.hasFinished line? then
    match ← IO.ofExcept line?.get with
    | none => return
    | some line =>
      let l := { l with surroundings := ← surroundingsNow settings }
      let turn := l.takeLineAndEvents (Web.services settings Web.unreachable) line.toList
      turn.print
      match turn.loop with
      | none => return
      | some next =>
        let isSame := next.world.session.interval = l.world.session.interval
        converse next (if isSame then due else now + settings.tickMilliseconds) input
          (← IO.asTask (nextLine input))
  else
    match l.world.session.interval.filter fun _ => due ≤ now with
    | some epoch =>
      let turn := (l.advance (.tick epoch)).takeEvents
      turn.print
      converse (turn.loop.getD l) (due + settings.tickMilliseconds) input line?
    | none =>
      IO.sleep 5
      converse l due input line?

/-- Runs the program with its settings. -/
def run (a : Arguments) (settings : Settings) : IO UInt32 := do
  let start := Loop.start (← surroundingsNow settings) a.records
  match a.once with
  | some text => IO.print (start.once (Web.services settings Web.unreachable) text)
  | none =>
    IO.eprintln "Type to analyze, :help for commands."
    let input ← IO.getStdin
    converse start 0 input (← IO.asTask (nextLine input))
  return 0

/-- Says why the program cannot run. -/
def fail (message : String) (code : UInt32) : IO UInt32 := do
  IO.eprintln message
  return code

end Composer.Console

open Composer Console in
/-- The program. -/
def main (arguments : List String) : IO UInt32 := do
  match Arguments.read arguments with
  | .error e => fail ("error: " ++ e.message) 2
  | .ok a =>
    match ← settingsFor a.settings with
    | .error e => fail ("Error: " ++ e.message) 1
    | .ok settings =>
      match Web.agentError? settings.userAgent with
      | some e => fail ("Error: failed to build lookup clients: " ++ e.message) 1
      | none => run a settings

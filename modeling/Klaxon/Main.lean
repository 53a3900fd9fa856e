import Klaxon.Server.Session
import Std.Time.DateTime.Timestamp

/-!
# The program

The command line on top of `Session`: it reads files, the clock and standard input, and writes what
the session gives. No relay and no endpoint is reached from here, so that messages to them fail and
are tried again; in-app messages arrive.
-/

namespace Klaxon.Program

/-- The time of the clock. -/
def currentTime : IO Instant := do
  let t ← Std.Time.Timestamp.now
  return ⟨t.toNanosecondsSinceUnixEpoch.val, false⟩

/-- What a file holds, if it can be read. -/
def contentOf (path : String) : IO (Option String) := do
  try
    let content ← IO.FS.readFile path
    return some content
  catch _ => return none

/-- Writes lines to the error output. -/
def complain (lines : List String) : IO Unit := do
  for line in lines do
    IO.eprintln line

/-- The next line of the input, or nothing where the input cannot be read. -/
def readLine (input : IO.FS.Stream) : IO (Option String) := do
  try
    let line ← input.getLine
    return some line
  catch _ => return none

/-- Serves lines until the input ends; tells whether it ended without an error. -/
partial def serveLines (input : IO.FS.Stream) (count : Nat) (s : Server) : IO (Server × Bool) := do
  match ← readLine input with
  | none => return (s, false)
  | some line =>
    let now ← currentTime
    let s := s.await (.time now)
    if line.isEmpty then return (s, true)
    let (s, alerts) := Session.handleLine s ("e" ++ toString count) now line
    for alert in alerts do
      IO.println (Session.lineOfAlert alert)
    (← IO.getStdout).flush
    serveLines input (count + 1) s

/-- Serves the lines of standard input. -/
def serve (config : ServerConfig) : IO Unit := do
  let now ← currentTime
  let (s, ended) ← serveLines (← IO.getStdin) 1 (Session.openServer config .silent now)
  let last := if ended then Session.close s else s.stop
  complain [toString last.engine.lanes.total ++ " message(s) left in the lanes"]

/-- Writes why a session ends without success; gives the exit code. -/
def fail (e : SessionError) : IO UInt32 := do
  complain ("Error:" :: e.lines)
  return 1

/-- Does what is asked for at the command line; gives the exit code. -/
def run (command : Command) : IO UInt32 := do
  if command.showsUsage then complain Command.usage
  match command with
  | .help => return 0
  | .checkNothing => fail .noPath
  | .checkConfig path =>
    match Session.checkConfig path (← contentOf path) with
    | .error e => fail e
    | .ok () => return 0
  | .serve path =>
    match Session.loadConfig path (← contentOf path) with
    | .error e => fail e
    | .ok config =>
      serve config
      return 0

end Klaxon.Program

/-- Runs the program with its arguments. -/
def main (args : List String) : IO UInt32 := Klaxon.Program.run (Klaxon.Command.ofArguments args)

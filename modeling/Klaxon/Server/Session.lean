import Klaxon.Json.Printer
import Klaxon.Json.Reader
import Klaxon.Server.Pipeline

/-!
# Sessions at the command line

A session checks a configuration, or serves events: it reads one event from each line and writes the
alerts that it raises, a line for each. Lines that hold no event are passed over. When the lines
end, the server stops and takes one more batch from each lane.
-/

namespace Klaxon

/-- What is asked for at the command line. -/
inductive Command where
  | help
  | checkConfig (path : String)
  /-- A check without the path of a configuration. -/
  | checkNothing
  | serve (path : String)
  deriving DecidableEq

namespace Command

/-- The path of the configuration where none is given. -/
def standardPath : String := "config/vigil.toml"

/-- What the arguments ask for. -/
def ofArguments : List String → Command
  | [] => .serve standardPath
  | word :: rest =>
    if word = "check-config" then
      match rest with
      | path :: _ => .checkConfig path
      | [] => .checkNothing
    else if word = "--help" ∨ word = "-h" then .help
    -- Every other word is the path of a configuration.
    else .serve word

/-- How the command line is used. -/
def usage : List String :=
  ["Usage:",
    "  vigil-server [config.toml]                 " ++
      "Read NDJSON events from stdin and dispatch alerts",
    "  vigil-server check-config <config.toml>    " ++
      "Validate channels, templates, recipients and rules"]

/-- Whether the usage is shown. -/
def showsUsage : Command → Bool
  | .help | .checkNothing => true
  | _ => false

end Command

/-- Why a session ends without success. -/
inductive SessionError where
  | noPath
  | config (path : String) (error : ConfigError)
  | problems (path : String) (found : List String)

/-- The lines that say why a session ends without success. -/
def SessionError.lines : SessionError → List String
  | .noPath => ["check-config requires a <config.toml> argument"]
  | .config _ (.unreadable path) => [(ConfigError.unreadable path).message]
  | .config path error => ["Failed to parse config file '" ++ path ++ "'", error.message]
  | .problems path found =>
    found ++ [toString found.length ++ " configuration problem(s) in '" ++ path ++ "'"]

namespace Session

/-- The configuration in a file, given what the file holds. -/
def loadConfig (path : String) (content : Option String) : Except SessionError ServerConfig :=
  match ServerConfig.ofFile path content with
  | .ok c => .ok c
  | .error e => .error (.config path e)

/-- Checks a configuration and all definitions in it. -/
def checkConfig (path : String) (content : Option String) : Except SessionError Unit := do
  let config ← loadConfig path content
  let report := (assemble Carrier.plugins config).report
  if report.isClean then .ok () else .error (.problems path report.problems)

/-- A server for a configuration that is running. -/
def openServer (config : ServerConfig) (outside : Outside) (now : Instant)
    (idSupply : IdSupply := .numbered) : Server :=
  ((Server.create (assemble Carrier.plugins config idSupply) config.inboxCapacity.toNat outside
    now).start).maintain config.retentionSecs config.statsSecs

/-- The event on a line. One without an id or a time gets the given ones. -/
def eventOfLine? (id : String) (now : Instant) (line : String) : Option Event :=
  let line := Text.trim line
  if line.isEmpty then none else (Json.recordOfText? line).bind (Event.decode? id now)

/-- Handles a line; gives the alerts that it raises. -/
def handleLine (s : Server) (id : String) (time : Instant) (line : String) : Server × List Alert :=
  match eventOfLine? id time line with
  | none => (s, [])
  | some event =>
    let (s, outcome) := s.handleEvent event
    (s, outcome.alerts)

/-- An alert as it is written. -/
def lineOfAlert (alert : Alert) : String := (toJson alert).render

/-- Ends a session whose lines have ended. -/
def close (s : Server) : Server := s.stop.tick.1

/-- Serves the lines of a text at one instant; gives the alerts and the server at the end. -/
def serve (s : Server) (id : String) (time : Instant) (lines : List String) :
    Server × List Alert :=
  let handle (acc : Server × List Alert) (line : String) : Server × List Alert :=
    let (s, alerts) := handleLine acc.1 id time line
    (s, acc.2 ++ alerts)
  let (s, alerts) := lines.foldl handle (s, [])
  (close s, alerts)

end Session

end Klaxon

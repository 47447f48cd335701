import Rendezvous.CommandLine.Message
import Rendezvous.Log.Filter

/-! # Running the program

`run` says how a run with given arguments goes, and `Outcome.exit` what it writes
and which status it ends with.  A run that gets as far as listening first warns
about what it ignores of the log level, and logs that it starts.
-/

namespace Rendezvous.CommandLine

namespace Settings

def address (settings : Settings) : String := s!"{settings.host}:{settings.port}"

def filter (settings : Settings) : Log.Filter := .parse settings.logLevel

def startRecord : Log.Record :=
  { level := .info, target := "roomrelay", fields := ["message", "bind"] }

/-- The log of the start, without its time. -/
def startLog (settings : Settings) : String :=
  if settings.filter.logs startRecord then
    s!"INFO roomrelay: roomrelay starting bind={settings.address}\n"
  else ""

def warnings (settings : Settings) : String :=
  String.join (settings.filter.ignored.map fun piece =>
    s!"ignoring `{piece}`: invalid filter directive\n")

end Settings

/-- What a run of the program writes, and the status that it ends with. -/
structure Exit where
  status : Nat
  stdout : String := ""
  stderr : String := ""
  deriving DecidableEq, Repr

inductive Outcome where
  | exits (how : Exit)
  | fails (settings : Settings) (cause : TransportError)
  | listens (settings : Settings) (address : SocketAddress)
  deriving DecidableEq, Repr

/-- Runs the program with these arguments on a machine with this network. -/
def run (network : Network) (arguments : List String) : Outcome :=
  match parse arguments with
  | .error .help => .exits { status := 0, stdout := help }
  | .error .version => .exits { status := 0, stdout := s!"roomrelay {version}\n" }
  | .error (.fault fault) => .exits { status := 2, stderr := fault.report }
  | .ok settings =>
    match SocketAddress.bind network settings.address with
    | .error cause => .fails settings cause
    | .ok address => .listens settings address

/-- How the program ends.  Sockets are not part of this library, so a run that
    would listen says where and ends. -/
def Outcome.exit : Outcome → Exit
  | .exits how => how
  | .fails settings cause =>
    { status := 1, stdout := settings.startLog,
      stderr := settings.warnings ++ s!"Error: {cause.message}\n" }
  | .listens settings address =>
    { status := 1, stdout := settings.startLog,
      stderr := settings.warnings ++
        s!"no network to listen on at {address.ip.render} port {address.port}\n" }

end Rendezvous.CommandLine

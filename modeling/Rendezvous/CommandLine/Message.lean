import Rendezvous.CommandLine.Arguments
import Rendezvous.Terminal

/-! # What the command line answers

The usage, the version and the help, and what is written about a fault in the
arguments.
-/

namespace Rendezvous.CommandLine

def usage : String := "Usage: roomrelay [OPTIONS] <PORT> <CONNECTION_KEY>"

def version : String := "0.1.0"

def help : String :=
  "Relays packets between a room's host and its guests\n\n" ++ usage ++ "\n\n" ++
  "Arguments:\n" ++
  "  <PORT>            Port to listen on\n" ++
  "  <CONNECTION_KEY>  Key clients must present to be admitted\n\n" ++
  "Options:\n" ++
  "      --host <HOST>            Address to bind to [default: 0.0.0.0]\n" ++
  "      --log-level <LOG_LEVEL>  Log level (trace, debug, info, warn, error) [default: info]\n" ++
  "  -h, --help                   Print help\n" ++
  "  -V, --version                Print version\n"

namespace Fault

/-- What was typed, between quotes and without control sequences. -/
def quote (text : String) : String := s!"'{Terminal.plain text}'"

def message : Fault → String
  | .unexpected argument => s!"unexpected argument {quote argument} found"
  | .missing slots =>
    "the following required arguments were not provided:" ++
      String.join (slots.map fun slot => "\n  " ++ slot.label)
  | .repeated slot => s!"the argument '{slot.label}' cannot be used multiple times"
  | .surplusValue flag value =>
    s!"unexpected value {quote value} for '{flag}' found; no more were expected"
  | .noValue slot => s!"a value is required for '{slot.label}' but none was supplied"
  | .badPort text => s!"invalid value {quote text} for '<PORT>'"

/-- Whether the usage is shown with the fault: it is where the fault lies in
    which arguments are given, and not in a value. -/
def showsUsage : Fault → Bool
  | .unexpected _ | .missing _ | .repeated _ | .surplusValue _ _ => true
  | .noValue _ | .badPort _ => false

def report (fault : Fault) : String :=
  s!"error: {fault.message}\n\n" ++
  (if fault.showsUsage then usage ++ "\n\n" else "") ++
  "For more information, try '--help'.\n"

end Fault

end Rendezvous.CommandLine

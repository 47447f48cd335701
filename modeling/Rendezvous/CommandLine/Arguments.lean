import Rendezvous.Address.Socket

/-! # The command line

Two values are given in order: the port to listen on and the key that clients
present.  Two options take a value each, the address to listen at and the level
of the log; two flags ask for help and for the version.

Arguments are read from left to right.  A value is only stored when the argument
after it is known, or at the end, and is checked then; this decides which of two
faults is reported.  `parse` says what the arguments ask for.
-/

namespace Rendezvous.CommandLine

inductive Slot where
  | port
  | key
  | host
  | logLevel
  deriving DecidableEq, Repr

def Slot.label : Slot → String
  | .port => "<PORT>"
  | .key => "<CONNECTION_KEY>"
  | .host => "--host <HOST>"
  | .logLevel => "--log-level <LOG_LEVEL>"

structure Settings where
  port : UInt16
  key : String
  host : String := "0.0.0.0"
  logLevel : String := "info"
  deriving DecidableEq, Repr

inductive Fault where
  /-- No argument of this name is known, or there is one value too many. -/
  | unexpected (argument : String)
  | missing (slots : List Slot)
  | repeated (slot : Slot)
  | surplusValue (flag value : String)
  | noValue (slot : Slot)
  | badPort (text : String)
  deriving DecidableEq, Repr

/-- Why reading stops before the arguments end. -/
inductive Stop where
  | fault (fault : Fault)
  | help
  | version
  deriving DecidableEq, Repr

/-! ## Reading the arguments -/

/-- A value that is not stored yet; an option waits for its value. -/
structure Pending where
  slot : Slot
  value : Option String
  deriving DecidableEq, Repr

structure Progress where
  port : Option UInt16 := none
  key : Option String := none
  host : Option String := none
  logLevel : Option String := none
  pending : Option Pending := none
  /-- The slots that values without a name go to. -/
  positions : List Slot := [.port, .key]
  deriving DecidableEq, Repr

/-- A port: a decimal number from 0 to 65535, with a sign or without. -/
def port? (text : String) : Option UInt16 := do
  let n ← Numeral.signed? text.toList
  if 0 ≤ n then SocketAddress.portOfNat? n.toNat else none

namespace Progress

def store (progress : Progress) (slot : Slot) (value : String) : Except Stop Progress :=
  match slot with
  | .port =>
    match port? value with
    | some port => .ok { progress with port }
    | none => .error (.fault (.badPort value))
  | .key => .ok { progress with key := value }
  | .host =>
    if progress.host.isSome then .error (.fault (.repeated slot))
    else .ok { progress with host := value }
  | .logLevel =>
    if progress.logLevel.isSome then .error (.fault (.repeated slot))
    else .ok { progress with logLevel := value }

def settle (progress : Progress) : Except Stop Progress :=
  let settled := { progress with pending := none }
  match progress.pending with
  | none => .ok settled
  | some ⟨slot, none⟩ => .error (.fault (.noValue slot))
  | some ⟨slot, some value⟩ => settled.store slot value

def position (progress : Progress) (argument : String) : Except Stop Progress :=
  match progress.positions with
  | [] => .error (.fault (.unexpected argument))
  | slot :: positions => do
    let settled ← progress.settle
    pure { settled with positions, pending := some ⟨slot, argument⟩ }

/-- Takes an option, with the value that is attached to it. -/
def option (progress : Progress) (slot : Slot) (attached : Option String) :
    Except Stop Progress := do
  let settled ← progress.settle
  match attached with
  | some value => settled.store slot value
  | none => pure { settled with pending := some ⟨slot, none⟩ }

/-- Takes a flag that stops the reading. -/
def flag (progress : Progress) (name : String) (attached : Option String) (stop : Stop) :
    Except Stop Progress :=
  match attached with
  | some value => .error (.fault (.surplusValue name value))
  | none => do
    let _ ← progress.settle
    .error stop

/-- Takes an argument that begins with two hyphens; `body` is what follows them. -/
def long (progress : Progress) (body : List Char) : Except Stop Progress :=
  let name := String.ofList (body.takeWhile (· ≠ '='))
  let attached :=
    match body.dropWhile (· ≠ '=') with
    | [] => none
    | _ :: value => some (String.ofList value)
  if name = "host" then progress.option .host attached
  else if name = "log-level" then progress.option .logLevel attached
  else if name = "help" then progress.flag "--help" attached .help
  else if name = "version" then progress.flag "--version" attached .version
  else .error (.fault (.unexpected s!"--{name}"))

def short (progress : Progress) (letter : Char) : Except Stop Progress :=
  if letter = 'h' then progress.flag "-h" none .help
  else if letter = 'V' then progress.flag "-V" none .version
  else .error (.fault (.unexpected s!"-{letter}"))

/-- Takes an argument that begins with no hyphen: the value that an option waits
    for, or else a value without a name. -/
def plain (progress : Progress) (argument : String) : Except Stop Progress :=
  match progress.pending with
  | some ⟨slot, none⟩ => .ok { progress with pending := some ⟨slot, argument⟩ }
  | _ => progress.position argument

/-- Takes the arguments one by one.  After two hyphens alone, all are values
    without a name. -/
def readAll : Bool → Progress → List String → Except Stop Progress
  | _, progress, [] => progress.settle
  | true, progress, argument :: arguments => do
    (← progress.position argument).readAll true arguments
  | false, progress, argument :: arguments =>
    match argument.toList with
    | ['-', '-'] => progress.readAll true arguments
    | '-' :: '-' :: body => do (← progress.long body).readAll false arguments
    | '-' :: letter :: _ => do (← progress.short letter).readAll false arguments
    | _ => do (← progress.plain argument).readAll false arguments
termination_by structural _ _ arguments => arguments

def settings (progress : Progress) : Except Stop Settings :=
  match progress.port, progress.key with
  | some port, some key =>
    .ok { port, key, host := progress.host.getD "0.0.0.0",
          logLevel := progress.logLevel.getD "info" }
  | none, none => .error (.fault (.missing [.port, .key]))
  | none, some _ => .error (.fault (.missing [.port]))
  | some _, none => .error (.fault (.missing [.key]))

end Progress

def parse (arguments : List String) : Except Stop Settings := do
  (← Progress.readAll false {} arguments).settings

end Rendezvous.CommandLine

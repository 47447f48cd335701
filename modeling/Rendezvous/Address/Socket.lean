import Rendezvous.Address.Network
import Rendezvous.Server.Event

/-! # Where the server listens

An address and a port, written with a colon between them.  A literal is read as
it stands: octets and digits, or groups in brackets and digits.  Otherwise the
text after the last colon must be a port, and the text before it names a host;
here only hosts named by an address are known, octets loosely or groups.

After an address of groups, a percent sign and the number of an interface say on
which link it is meant.  That matters for addresses that mean something on one
link only; without brackets these may name the interface instead.
-/

namespace Rendezvous

structure SocketAddress where
  ip : IpAddress
  port : UInt16
  /-- The number of the interface that the address is meant on; zero for none. -/
  scope : UInt32 := 0
  deriving DecidableEq, Repr

/-- Why the server cannot listen. -/
inductive AddressError where
  | noColon
  | badPort
  | strayNul
  | unknownHost
  | notAvailable
  | notPermitted
  /-- Nobody can listen at an address of this kind, or not without an interface. -/
  | unsuitable
  | noInterface
  deriving DecidableEq, Repr

def AddressError.message : AddressError → String
  | .noColon => "invalid socket address"
  | .badPort => "invalid port value"
  | .strayNul => "file name contained an unexpected NUL byte"
  | .unknownHost => "failed to lookup address information: Name or service not known"
  | .notAvailable => "Cannot assign requested address (os error 99)"
  | .notPermitted => "Permission denied (os error 13)"
  | .unsuitable => "Invalid argument (os error 22)"
  | .noInterface => "No such device (os error 19)"

namespace SocketAddress

/-! ## Reading -/

def portOfNat? (n : Nat) : Option UInt16 :=
  if n < 65536 then some (UInt16.ofNat n) else none

def splitAtLastColon? : List Char → Option (List Char × List Char)
  | [] => none
  | c :: rest =>
    match splitAtLastColon? rest with
    | some (front, back) => some (c :: front, back)
    | none => if c = ':' then some ([], rest) else none

def scope? (text : List Char) : Option UInt32 := do
  let n ← Numeral.natural? text
  if n < UInt32.size then some (UInt32.ofNat n) else none

/-- Reads an address of groups and what `scope` makes of the text after a percent
    sign, if there is one. -/
def scoped? (scope : IpAddress → List Char → Option UInt32) (text : List Char) :
    Option (IpAddress × UInt32) := do
  let ip ← IpAddress.v6? (text.takeWhile (· ≠ '%'))
  match text.dropWhile (· ≠ '%') with
  | [] => some (ip, 0)
  | _ :: rest => some (ip, ← scope ip rest)

/-- Reads a literal: octets, or groups in brackets, then a colon and digits. -/
def literal? (text : List Char) : Option SocketAddress := do
  let (host, port) ← splitAtLastColon? text
  let port ← (Numeral.natural? port).bind portOfNat?
  match host with
  | '[' :: rest =>
    if rest.getLast? = some ']' then
      let (ip, scope) ← scoped? (fun _ => scope?) rest.dropLast
      some { ip, port, scope }
    else none
  | _ =>
    let (a, b, c, d) ← IpAddress.octets? host
    some { ip := .v4 a b c d, port }

/-- The address of a host that is named by one, and the interface for it. -/
def host? (network : Network) (text : List Char) : Option (IpAddress × UInt32) :=
  match IpAddress.loose? text with
  | some ip => some (ip, 0)
  | none =>
    scoped?
      (fun ip scope =>
        let named := if ip.isLinkLocal then network.interface? (String.ofList scope) else none
        named.or (scope? scope))
      text

def resolve (network : Network) (text : String) : Except AddressError SocketAddress :=
  match literal? text.toList with
  | some address => .ok address
  | none =>
    match splitAtLastColon? text.toList with
    | none => .error .noColon
    | some (host, port) =>
      match (Numeral.unsigned? port).bind portOfNat? with
      | none => .error .badPort
      | some port =>
        if host.contains '\x00' then .error .strayNul
        else
          match host? network host with
          | none => .error .unknownHost
          | some (ip, scope) => .ok { ip, port, scope }

/-! ## Listening -/

/-- Why a program may not listen at an address, if it may not. -/
def obstacle? (address : SocketAddress) (network : Network) : Option AddressError :=
  match address.ip with
  | .v4 .. =>
    if ¬network.takes address.ip then some .notAvailable
    else if ¬network.opens address.port then some .notPermitted
    else none
  | .v6 _ =>
    if address.ip.isGroupMulticast then some .unsuitable
    else if ¬network.opens address.port then some .notPermitted
    else if address.ip.isLinkLocal ∧ address.scope = 0 then some .unsuitable
    else if address.ip.isLinkLocal ∧ ¬network.hasInterface address.scope then some .noInterface
    else if ¬network.takes address.ip then some .notAvailable
    else none

def bind (network : Network) (text : String) : Except TransportError SocketAddress :=
  match resolve network text with
  | .error error => .error (.bindFailed error.message)
  | .ok address =>
    match address.obstacle? network with
    | some error => .error (.bindFailed error.message)
    | none => .ok address

end SocketAddress

end Rendezvous

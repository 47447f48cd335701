import Rendezvous.Identity
import Rendezvous.Wire.Field
import Rendezvous.Wire.Packet

/-! # Commands

What a client can ask of the server.  `Command.encode` writes the whole control
packet and `Command.ofFields` reads the fields that go with a code; bytes after
the last field are ignored.
-/

namespace Rendezvous.Wire

inductive CommandCode where
  | createRoom
  | joinRoom
  | leaveRoom
  | startRoom
  | closeRoom
  | setName
  deriving DecidableEq, Repr

namespace CommandCode

def toByte : CommandCode → UInt8
  | .createRoom => 0
  | .joinRoom => 1
  | .leaveRoom => 2
  | .startRoom => 3
  | .closeRoom => 4
  | .setName => 5

def ofByte (code : UInt8) : Except WireError CommandCode :=
  match code with
  | 0 => .ok .createRoom
  | 1 => .ok .joinRoom
  | 2 => .ok .leaveRoom
  | 3 => .ok .startRoom
  | 4 => .ok .closeRoom
  | 5 => .ok .setName
  | _ => .error (.unknownCommand code)

end CommandCode

/-- What a client asks of the server. -/
inductive Command where
  | createRoom
  | joinRoom (code : RoomCode)
  | leaveRoom
  | startRoom
  | closeRoom
  | setName (name : String)
  deriving DecidableEq, Repr

namespace Command

def code : Command → CommandCode
  | .createRoom => .createRoom
  | .joinRoom _ => .joinRoom
  | .leaveRoom => .leaveRoom
  | .startRoom => .startRoom
  | .closeRoom => .closeRoom
  | .setName _ => .setName

def fields : Command → List Field
  | .joinRoom code => [.word32 code.val]
  | .setName name => [.text name]
  | .createRoom | .leaveRoom | .startRoom | .closeRoom => []

def encode (command : Command) : Bytes :=
  Packet.encode (.control command.code.toByte (command.fields.flatMap Field.encode))

end Command

def CommandCode.command : CommandCode → Reader Command
  | .createRoom => pure .createRoom
  | .joinRoom => (fun code => Command.joinRoom ⟨code⟩) <$> Reader.word32
  | .leaveRoom => pure .leaveRoom
  | .startRoom => pure .startRoom
  | .closeRoom => pure .closeRoom
  | .setName => Command.setName <$> Reader.text

/-- The command that a control packet with this code and these field bytes carries. -/
def Command.ofFields (code : UInt8) (fields : Bytes) : Except WireError Command := do
  let kind ← CommandCode.ofByte code
  (kind.command.read fields).1

end Rendezvous.Wire

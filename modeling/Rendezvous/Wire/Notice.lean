import Rendezvous.Identity
import Rendezvous.Wire.Field
import Rendezvous.Wire.Packet

/-! # Notices

What the server tells a client.  `Notice.encode` writes the whole control packet
and `Notice.decode` reads one, ignoring bytes after the last field.

A list of members is written with its length in front.  Reading trusts that
length only as far as the bytes go: each member takes at least ten, so a length
that the bytes cannot hold runs into their end.
-/

namespace Rendezvous.Wire

/-- A member of a room as its other members see it. -/
structure Member where
  id : ClientId
  name : String
  deriving DecidableEq, Repr

inductive NoticeCode where
  | clientId
  | roomCode
  | roomMembers
  | memberJoined
  | memberLeft
  | roomStart
  | roomClosed
  | invalid
  deriving DecidableEq, Repr

namespace NoticeCode

def toByte : NoticeCode → UInt8
  | .clientId => 0
  | .roomCode => 1
  | .roomMembers => 2
  | .memberJoined => 3
  | .memberLeft => 4
  | .roomStart => 5
  | .roomClosed => 6
  | .invalid => 7

def ofByte (code : UInt8) : Except WireError NoticeCode :=
  match code with
  | 0 => .ok .clientId
  | 1 => .ok .roomCode
  | 2 => .ok .roomMembers
  | 3 => .ok .memberJoined
  | 4 => .ok .memberLeft
  | 5 => .ok .roomStart
  | 6 => .ok .roomClosed
  | 7 => .ok .invalid
  | _ => .error (.unknownNotice code)

end NoticeCode

/-- What the server tells a client. -/
inductive Notice where
  | clientId (id : ClientId)
  | roomCode (code : RoomCode)
  /-- The members of the room that the client has joined, without itself. -/
  | roomMembers (members : List Member)
  | memberJoined (member : Member)
  | memberLeft (id : ClientId)
  | roomStart
  | roomClosed
  | invalid (reason : String)
  deriving DecidableEq, Repr

def Member.fields (member : Member) : List Field :=
  [.word64 member.id.val, .text member.name]

namespace Notice

def code : Notice → NoticeCode
  | .clientId _ => .clientId
  | .roomCode _ => .roomCode
  | .roomMembers _ => .roomMembers
  | .memberJoined _ => .memberJoined
  | .memberLeft _ => .memberLeft
  | .roomStart => .roomStart
  | .roomClosed => .roomClosed
  | .invalid _ => .invalid

def fields : Notice → List Field
  | .clientId id | .memberLeft id => [.word64 id.val]
  | .roomCode code => [.word32 code.val]
  | .roomMembers members =>
    .word32 (UInt32.ofNat members.length) :: members.flatMap Member.fields
  | .memberJoined member => member.fields
  | .invalid reason => [.text reason]
  | .roomStart | .roomClosed => []

def encode (notice : Notice) : Bytes :=
  Packet.encode (.control notice.code.toByte (notice.fields.flatMap Field.encode))

end Notice

namespace Reader

def clientId : Reader ClientId := ClientId.mk <$> word64

def member : Reader Member := do
  let id ← clientId
  let name ← text
  pure ⟨id, name⟩

def members : Nat → Reader (List Member)
  | 0 => pure []
  | count + 1 => do
    let first ← member
    let others ← members count
    pure (first :: others)

end Reader

def NoticeCode.notice : NoticeCode → Reader Notice
  | .clientId => Notice.clientId <$> Reader.clientId
  | .roomCode => (fun code => Notice.roomCode ⟨code⟩) <$> Reader.word32
  | .roomMembers => do
    let count ← Reader.word32
    Notice.roomMembers <$> Reader.members count.toNat
  | .memberJoined => Notice.memberJoined <$> Reader.member
  | .memberLeft => Notice.memberLeft <$> Reader.clientId
  | .roomStart => pure .roomStart
  | .roomClosed => pure .roomClosed
  | .invalid => Notice.invalid <$> Reader.text

/-- The notice that a packet carries. -/
def Notice.decode (packet : Bytes) : Except WireError Notice := do
  match ← Packet.split packet with
  | .relayed _ => throw .notControl
  | .control code fields =>
    let kind ← NoticeCode.ofByte code
    (kind.notice.read fields).1

end Rendezvous.Wire

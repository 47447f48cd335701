import Rendezvous.Lobby.Directory
import Rendezvous.Lobby.Message
import Rendezvous.Lobby.RoomTable

/-! # The lobby

The lobby knows which clients are connected and which rooms are open, and keeps
the two in step: a client's record names a room exactly when the client is its
host or one of its guests.

Each operation answers at once with an `Outcome`: its value, the lobby that it
leaves and the messages that it causes, in order.  An operation that can be
declined checks everything first, and when it is declined it leaves the lobby as
it was and causes no message.
-/

namespace Rendezvous

open Rendezvous.Wire (Bytes Member)

/-- Who is connected and which rooms are open. -/
structure Lobby where
  limits : Limits
  directory : Directory := {}
  rooms : RoomTable := ∅
  draws : Draws

/-- What an operation answers, the lobby that it leaves, and what it has to tell. -/
structure Outcome (α : Type) where
  value : α
  lobby : Lobby
  messages : List Message

abbrev Answer (α : Type) := Except Refusal α

namespace Lobby

def empty (limits : Limits) (draws : Draws) : Lobby := { limits, draws }

def refuse {α : Type} (lobby : Lobby) (refusal : Refusal) : Outcome (Answer α) :=
  ⟨.error refusal, lobby, []⟩

/-! ## Roles -/

def roomOf (lobby : Lobby) (client : Client) : Option Room :=
  client.room.bind fun code => lobby.rooms[code]?

/-- Where a client stands, by its record. -/
def roleOf (lobby : Lobby) (c : ConnectionId) (client : Client) : Role :=
  match lobby.roomOf client with
  | some room => room.roleOf c
  | none => .outside

def role? (lobby : Lobby) (c : ConnectionId) : Option Role :=
  (lobby.directory.get? c).map (lobby.roleOf c)

/-- Runs an operation on the client under a connection, and declines it if there
    is none. -/
def withClient {α : Type} (lobby : Lobby) (c : ConnectionId)
    (operation : Client → Outcome (Answer α)) : Outcome (Answer α) :=
  match lobby.directory.get? c with
  | some client => operation client
  | none => lobby.refuse (.unknownConnection c)

/-! ## Leaving and closing -/

/-- Takes a guest out of a room and tells the members that remain. -/
def withdraw (lobby : Lobby) (c : ConnectionId) (id : ClientId) (code : RoomCode) :
    Lobby × List Message :=
  let directory := lobby.directory.place c none
  match lobby.rooms[code]? with
  | none => ({ lobby with directory }, [])
  | some room =>
    let room := room.removeGuest c
    ({ lobby with directory, rooms := lobby.rooms.insert code room },
      Message.broadcast room.members (.memberLeft id))

/-- Closes a room: every member is in no room afterwards, and all are told but
    the one who has gone. -/
def disband (lobby : Lobby) (code : RoomCode) (gone : Option ConnectionId) :
    Lobby × List Message :=
  match lobby.rooms[code]? with
  | none => (lobby, [])
  | some room =>
    let directory := room.members.foldl (fun directory c => directory.place c none) lobby.directory
    ({ lobby with directory, rooms := lobby.rooms.erase code },
      Message.broadcast (room.members.filter fun c => some c ≠ gone) .roomClosed)

/-! ## Coming and going -/

/-- Registers a connection and tells it its id.  A connection that is registered
    already keeps its record and is told nothing. -/
def connect (lobby : Lobby) (c : ConnectionId) : Outcome ClientId :=
  match lobby.directory.get? c with
  | some client => ⟨client.id, lobby, []⟩
  | none =>
    let (client, directory) := lobby.directory.register c
    ⟨client.id, { lobby with directory }, [Message.notify c (.clientId client.id)]⟩

/-- Removes the client under a connection: a host's room is closed and a guest
    leaves its room before the record goes.  Nothing is said to the connection
    itself.  Answers the record as it was removed. -/
def disconnect (lobby : Lobby) (c : ConnectionId) : Outcome (Option Client) :=
  match lobby.directory.get? c with
  | none => ⟨none, lobby, []⟩
  | some client =>
    let (released, messages) :=
      match lobby.roleOf c client with
      | .host code => lobby.disband code (some c)
      | .guest code => lobby.withdraw c client.id code
      | .outside => (lobby, [])
    ⟨released.directory.get? c,
      { released with directory := released.directory.erase c }, messages⟩

def setName (lobby : Lobby) (c : ConnectionId) (name : String) : Outcome (Answer Unit) :=
  lobby.withClient c fun _ =>
    let limit := lobby.limits.maxNameLength
    if limit < name.utf8ByteSize then lobby.refuse (.nameTooLong name.utf8ByteSize limit)
    else ⟨.ok (), { lobby with directory := lobby.directory.rename c name }, []⟩

/-! ## Rooms -/

/-- Opens a room with the client as its host and tells it the code. -/
def create (lobby : Lobby) (c : ConnectionId) : Outcome (Answer RoomCode) :=
  lobby.withClient c fun client =>
    match lobby.roleOf c client with
    | .guest _ | .host _ => lobby.refuse .alreadyInRoom
    | .outside =>
      match lobby.rooms.allocate lobby.limits lobby.draws with
      | (.error refusal, draws) => { lobby with draws }.refuse refusal
      | (.ok code, draws) =>
        let rooms := (lobby.rooms.add { code, host := c }).2
        let directory := lobby.directory.place c (some code)
        ⟨.ok code, { lobby with rooms, directory, draws }, [Message.notify c (.roomCode code)]⟩

def roster (lobby : Lobby) (room : Room) : List Member :=
  room.members.filterMap fun c => (lobby.directory.get? c).map Client.member

/-- Makes the client a guest of a room.  The members are told who joins, the
    joiner is told who was there, and then it is one of them. -/
def join (lobby : Lobby) (c : ConnectionId) (code : RoomCode) : Outcome (Answer Unit) :=
  lobby.withClient c fun client =>
    match lobby.roleOf c client with
    | .guest _ | .host _ => lobby.refuse .alreadyInRoom
    | .outside =>
      match lobby.rooms[code]? with
      | none => lobby.refuse (.invalidRoomCode code)
      | some room =>
        ⟨.ok (),
          { lobby with
            rooms := lobby.rooms.insert code (room.addGuest c)
            directory := lobby.directory.place c (some code) },
          Message.broadcast room.members (.memberJoined client.member) ++
            [Message.notify c (.roomMembers (lobby.roster room))]⟩

def leave (lobby : Lobby) (c : ConnectionId) : Outcome (Answer Unit) :=
  lobby.withClient c fun client =>
    match lobby.roleOf c client with
    | .outside => lobby.refuse .notInRoom
    | .host _ => lobby.refuse .hostCannotLeave
    | .guest code =>
      let (left, messages) := lobby.withdraw c client.id code
      ⟨.ok (), left, messages⟩

/-- Tells every member of the client's room that it starts.  The room stays open. -/
def start (lobby : Lobby) (c : ConnectionId) : Outcome (Answer Unit) :=
  lobby.withClient c fun client =>
    match lobby.roleOf c client with
    | .outside => lobby.refuse .notInRoom
    | .guest _ => lobby.refuse .guestCannotStart
    | .host code =>
      match lobby.rooms[code]? with
      | none => ⟨.ok (), lobby, []⟩
      | some room => ⟨.ok (), lobby, Message.broadcast room.members .roomStart⟩

def close (lobby : Lobby) (c : ConnectionId) : Outcome (Answer Unit) :=
  lobby.withClient c fun client =>
    match lobby.roleOf c client with
    | .outside => lobby.refuse .notInRoom
    | .guest _ => lobby.refuse .guestCannotClose
    | .host code =>
      let (closed, messages) := lobby.disband code none
      ⟨.ok (), closed, messages⟩

/-- Passes a packet to the other side of the client's room: from the host to each
    guest, from a guest to the host.  Answers how many connections get it. -/
def relay (lobby : Lobby) (c : ConnectionId) (data : Bytes) (mode : DeliveryMode) :
    Outcome (Answer Nat) :=
  lobby.withClient c fun client =>
    match lobby.roleOf c client with
    | .outside => lobby.refuse .notInRoom
    | .host code =>
      match lobby.rooms[code]? with
      | none => lobby.refuse .notInRoom
      | some room =>
        ⟨.ok room.guests.length, lobby, room.guests.map (Message.forward · data mode)⟩
    | .guest code =>
      match lobby.rooms[code]? with
      | none => lobby.refuse .notInRoom
      | some room => ⟨.ok 1, lobby, [Message.forward room.host data mode]⟩

end Lobby

end Rendezvous

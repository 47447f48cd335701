import Rendezvous.Proofs.Lobby.Lookup

/-! # Elementary changes

Five changes make up everything that operations do to a lobby:

* `enroll` gives a connection a record, `forget` removes one;
* `rename` changes a name;
* `seat` replaces the room under one code and places one client;
* `release` closes a room and places all its members outside.

Each comes with its lookups.  `withdraw` and `disband` are a `seat` and a
`release`.
-/

namespace Rendezvous.Lobby

variable (lobby : Lobby) (c d : ConnectionId) (code other : RoomCode) (room : Room)

def enroll : Lobby := { lobby with directory := (lobby.directory.register c).2 }

def forget : Lobby := { lobby with directory := lobby.directory.erase c }

def rename (name : String) : Lobby :=
  { lobby with directory := lobby.directory.rename c name }

/-- Puts a room under a code and places the client under a connection. -/
def seat (place : Option RoomCode) : Lobby :=
  { lobby with
    rooms := lobby.rooms.insert code room
    directory := lobby.directory.place c place }

/-- Takes the room under a code away and places its members outside. -/
def release : Lobby :=
  { lobby with
    rooms := lobby.rooms.erase code
    directory :=
      room.members.foldl (fun directory c => directory.place c none) lobby.directory }

/-! ## What the model's own helpers do -/

theorem withdraw_eq {lobby : Lobby} {code : RoomCode} {room : Room}
    (stored : lobby.rooms[code]? = some room) (id : ClientId) :
    lobby.withdraw c id code =
      (lobby.seat c code (room.removeGuest c) none,
        Message.broadcast (room.removeGuest c).members (.memberLeft id)) := by
  simp only [withdraw, stored]
  rfl

theorem disband_eq {lobby : Lobby} {code : RoomCode} {room : Room}
    (stored : lobby.rooms[code]? = some room) (gone : Option ConnectionId) :
    lobby.disband code gone =
      (lobby.release code room,
        Message.broadcast (room.members.filter fun c => some c ≠ gone) .roomClosed) := by
  simp only [disband, stored]
  rfl

/-! ## Records afterwards -/

@[simp] theorem get?_empty (limits : Limits) (draws : Draws) (c : ConnectionId) :
    (Lobby.empty limits draws).directory.get? c = none :=
  Directory.get?_empty c

theorem get?_enroll (fresh : lobby.directory.get? c = none) :
    (lobby.enroll c).directory.get? d =
      if d = c then some { id := ⟨lobby.directory.nextId⟩, connection := c }
      else lobby.directory.get? d :=
  lobby.directory.get?_register c d fresh

theorem get?_forget :
    (lobby.forget c).directory.get? d = if d = c then none else lobby.directory.get? d :=
  lobby.directory.get?_erase c d

theorem get?_rename (name : String) :
    (lobby.rename c name).directory.get? d =
      if d = c then (lobby.directory.get? d).map fun client => { client with name }
      else lobby.directory.get? d :=
  lobby.directory.get?_rename c d name

theorem get?_seat (place : Option RoomCode) :
    (lobby.seat c code room place).directory.get? d =
      if d = c then (lobby.directory.get? d).map fun client => { client with room := place }
      else lobby.directory.get? d :=
  lobby.directory.get?_place c d place

theorem get?_release :
    (lobby.release code room).directory.get? d =
      if d ∈ room.members then
        (lobby.directory.get? d).map fun client => { client with room := none }
      else lobby.directory.get? d :=
  lobby.directory.get?_foldl_place d room.members none

/-! Seen from afterwards: a record differs from the one before in one field only. -/

section Before

variable {lobby c d code room} {client : Client}

theorem before_forget (record : (lobby.forget c).directory.get? d = some client) :
    lobby.directory.get? d = some client := by
  rw [get?_forget] at record
  split at record
  next => cases record
  next => exact record

theorem before_rename {name : String}
    (record : (lobby.rename c name).directory.get? d = some client) :
    ∃ before, lobby.directory.get? d = some before ∧
      client = { before with name := client.name } := by
  rw [get?_rename] at record
  split at record
  next =>
    obtain ⟨before, recordBefore, rfl⟩ := Option.map_eq_some_iff.mp record
    exact ⟨before, recordBefore, rfl⟩
  next => exact ⟨client, record, rfl⟩

theorem before_seat {place : Option RoomCode}
    (record : (lobby.seat c code room place).directory.get? d = some client) :
    ∃ before, lobby.directory.get? d = some before ∧
      client = { before with room := client.room } := by
  rw [get?_seat] at record
  split at record
  next =>
    obtain ⟨before, recordBefore, rfl⟩ := Option.map_eq_some_iff.mp record
    exact ⟨before, recordBefore, rfl⟩
  next => exact ⟨client, record, rfl⟩

theorem before_release (record : (lobby.release code room).directory.get? d = some client) :
    ∃ before, lobby.directory.get? d = some before ∧
      client = { before with room := client.room } := by
  rw [get?_release] at record
  split at record
  next =>
    obtain ⟨before, recordBefore, rfl⟩ := Option.map_eq_some_iff.mp record
    exact ⟨before, recordBefore, rfl⟩
  next => exact ⟨client, record, rfl⟩

end Before

/-! ## Rooms afterwards -/

@[simp] theorem rooms_enroll : (lobby.enroll c).rooms = lobby.rooms := rfl

@[simp] theorem rooms_forget : (lobby.forget c).rooms = lobby.rooms := rfl

@[simp] theorem rooms_rename (name : String) : (lobby.rename c name).rooms = lobby.rooms := rfl

theorem room_seat (place : Option RoomCode) :
    (lobby.seat c code room place).rooms[other]? =
      if other = code then some room else lobby.rooms[other]? :=
  RoomTable.getElem?_insert lobby.rooms code other room

theorem room_release :
    (lobby.release code room).rooms[other]? =
      if other = code then none else lobby.rooms[other]? :=
  RoomTable.getElem?_erase lobby.rooms code other

end Rendezvous.Lobby

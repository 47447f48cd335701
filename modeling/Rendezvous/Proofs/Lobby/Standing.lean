import Rendezvous.Proofs.Lobby.Consistent

/-! # Where a client stands

In a consistent lobby a client is outside, hosts the one room that it is in, or
visits it as a guest (`Consistent.standing`).  The model reads a role off the
record and the room that it names; `role?_eq_host_iff` and its companions say
what each role means for the table of rooms.
-/

namespace Rendezvous.Lobby

structure Outside (lobby : Lobby) (c : ConnectionId) (client : Client) : Prop where
  record : lobby.directory.get? c = some client
  room_eq : client.room = none

structure Hosts (lobby : Lobby) (c : ConnectionId) (client : Client) (code : RoomCode)
    (room : Room) : Prop where
  record : lobby.directory.get? c = some client
  stored : lobby.rooms[code]? = some room
  host_eq : room.host = c

structure Visits (lobby : Lobby) (c : ConnectionId) (client : Client) (code : RoomCode)
    (room : Room) : Prop where
  record : lobby.directory.get? c = some client
  stored : lobby.rooms[code]? = some room
  guest : c ∈ room.guests

variable {lobby : Lobby} {c : ConnectionId} {client : Client} {code : RoomCode} {room : Room}

theorem Outside.nowhere (outside : lobby.Outside c client) {client' : Client}
    (record : lobby.directory.get? c = some client') : client'.room = none := by
  rw [outside.record] at record
  cases record
  exact outside.room_eq

theorem Hosts.member (hosts : lobby.Hosts c client code room) : c ∈ room.members := by
  simp [Room.members, hosts.host_eq]

theorem Visits.member (visits : lobby.Visits c client code room) : c ∈ room.members := by
  simp [Room.members, visits.guest]

theorem Visits.host_ne (visits : lobby.Visits c client code room) (consistent : lobby.Consistent) :
    room.host ≠ c := by
  intro same
  exact consistent.host_not_guest visits.stored (same ▸ visits.guest)

/-- Every client is outside, a host or a guest. -/
theorem Consistent.standing (consistent : lobby.Consistent)
    (record : lobby.directory.get? c = some client) :
    lobby.Outside c client ∨ (∃ code room, lobby.Hosts c client code room) ∨
      ∃ code room, lobby.Visits c client code room := by
  cases named : client.room with
  | none => exact .inl ⟨record, named⟩
  | some code =>
    -- the record names an open room that lists the client: as host or behind the host
    obtain ⟨room, stored, member⟩ := consistent.room_of_record record named
    rcases List.mem_cons.mp member with isHost | guest
    · exact .inr (.inl ⟨code, room, record, stored, isHost.symm⟩)
    · exact .inr (.inr ⟨code, room, record, stored, guest⟩)

/-! ## Roles -/

theorem Outside.roleOf_eq (outside : lobby.Outside c client) :
    lobby.roleOf c client = .outside := by
  simp [roleOf, roomOf, outside.room_eq]

theorem Hosts.roleOf_eq (hosts : lobby.Hosts c client code room) (consistent : lobby.Consistent) :
    lobby.roleOf c client = .host code := by
  have named := consistent.room_eq_of_member hosts.record hosts.stored hosts.member
  simp [roleOf, roomOf, named, hosts.stored, Room.roleOf, hosts.host_eq,
    consistent.code_eq hosts.stored]

theorem Visits.roleOf_eq (visits : lobby.Visits c client code room)
    (consistent : lobby.Consistent) : lobby.roleOf c client = .guest code := by
  have named := consistent.room_eq_of_member visits.record visits.stored visits.member
  simp [roleOf, roomOf, named, visits.stored, Room.roleOf, visits.host_ne consistent,
    consistent.code_eq visits.stored]

theorem role?_eq_none_iff : lobby.role? c = none ↔ lobby.directory.get? c = none :=
  Option.map_eq_none_iff

theorem role?_of_record (record : lobby.directory.get? c = some client) :
    lobby.role? c = some (lobby.roleOf c client) := by
  rw [role?, record, Option.map_some]

theorem role?_eq_outside_iff (consistent : lobby.Consistent) :
    lobby.role? c = some .outside ↔ ∃ client, lobby.Outside c client := by
  constructor
  · intro role
    obtain ⟨client, record, same⟩ := Option.map_eq_some_iff.mp role
    rcases consistent.standing record with outside | ⟨code, room, hosts⟩ | ⟨code, room, visits⟩
    · exact ⟨client, outside⟩
    · rw [hosts.roleOf_eq consistent] at same; cases same
    · rw [visits.roleOf_eq consistent] at same; cases same
  · rintro ⟨client, outside⟩
    rw [role?_of_record outside.record, outside.roleOf_eq]

theorem role?_eq_host_iff (consistent : lobby.Consistent) :
    lobby.role? c = some (.host code) ↔
      ∃ room, lobby.rooms[code]? = some room ∧ room.host = c := by
  constructor
  · intro role
    obtain ⟨client, record, same⟩ := Option.map_eq_some_iff.mp role
    rcases consistent.standing record with outside | ⟨code', room, hosts⟩ | ⟨code', room, visits⟩
    · rw [outside.roleOf_eq] at same; cases same
    · rw [hosts.roleOf_eq consistent] at same
      cases same
      exact ⟨room, hosts.stored, hosts.host_eq⟩
    · rw [visits.roleOf_eq consistent] at same; cases same
  · rintro ⟨room, stored, isHost⟩
    obtain ⟨client, record, -⟩ := consistent.record_of_member stored
      (by simp [Room.members, isHost] : c ∈ room.members)
    have hosts : lobby.Hosts c client code room := ⟨record, stored, isHost⟩
    rw [role?_of_record record, hosts.roleOf_eq consistent]

theorem role?_eq_guest_iff (consistent : lobby.Consistent) :
    lobby.role? c = some (.guest code) ↔
      ∃ room, lobby.rooms[code]? = some room ∧ c ∈ room.guests := by
  constructor
  · intro role
    obtain ⟨client, record, same⟩ := Option.map_eq_some_iff.mp role
    rcases consistent.standing record with outside | ⟨code', room, hosts⟩ | ⟨code', room, visits⟩
    · rw [outside.roleOf_eq] at same; cases same
    · rw [hosts.roleOf_eq consistent] at same; cases same
    · rw [visits.roleOf_eq consistent] at same
      cases same
      exact ⟨room, visits.stored, visits.guest⟩
  · rintro ⟨room, stored, guest⟩
    obtain ⟨client, record, -⟩ := consistent.record_of_member stored
      (List.mem_cons_of_mem _ guest : c ∈ room.members)
    have visits : lobby.Visits c client code room := ⟨record, stored, guest⟩
    rw [role?_of_record record, visits.roleOf_eq consistent]

end Rendezvous.Lobby

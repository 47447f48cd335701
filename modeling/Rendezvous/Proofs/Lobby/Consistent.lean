import Rendezvous.Proofs.Lobby.Change

/-! # Consistent lobbies

A client's record points at a room, and a room lists its members.  `Consistent`
says that the two agree everywhere, together with what makes that inductive: no
member is listed twice, and records and rooms are stored under their own keys.

Each elementary change keeps a lobby consistent (`Consistent.enroll`,
`Consistent.forget`, `Consistent.rename`, `Consistent.seat`,
`Consistent.release`).  `seat` has the one delicate condition: the client must
not be in any other room, since otherwise that room would still list it.
-/

namespace Rendezvous.Lobby

/-- The directory and the table of rooms agree. -/
structure Consistent (lobby : Lobby) : Prop where
  connection_eq : ∀ {c : ConnectionId} {client : Client},
    lobby.directory.get? c = some client → client.connection = c
  code_eq : ∀ {code : RoomCode} {room : Room},
    lobby.rooms[code]? = some room → room.code = code
  /-- A record names a room exactly when that room is open and lists the client. -/
  member_iff : ∀ (c : ConnectionId) (code : RoomCode),
    (∃ client, lobby.directory.get? c = some client ∧ client.room = some code) ↔
      ∃ room, lobby.rooms[code]? = some room ∧ c ∈ room.members
  members_nodup : ∀ {code : RoomCode} {room : Room},
    lobby.rooms[code]? = some room → room.members.Nodup
  code_lt : ∀ {code : RoomCode} {room : Room},
    lobby.rooms[code]? = some room → code.val < lobby.limits.codeSpace
  name_le : ∀ {c : ConnectionId} {client : Client},
    lobby.directory.get? c = some client →
      client.name.utf8ByteSize ≤ lobby.limits.maxNameLength

theorem Consistent.empty (limits : Limits) (draws : Draws) :
    (Lobby.empty limits draws).Consistent := by
  have noRoom : ∀ code, (Lobby.empty limits draws).rooms[code]? = none := fun _ =>
    Std.ExtTreeMap.getElem?_empty
  constructor <;> simp [noRoom]

namespace Consistent

variable {lobby : Lobby} {c : ConnectionId} {client : Client} {code code' : RoomCode}
  {room room' : Room}

/-! ## What consistency gives -/

theorem record_of_member (consistent : lobby.Consistent)
    (stored : lobby.rooms[code]? = some room) (member : c ∈ room.members) :
    ∃ client, lobby.directory.get? c = some client ∧ client.room = some code :=
  (consistent.member_iff c code).mpr ⟨room, stored, member⟩

theorem members_known (consistent : lobby.Consistent) (stored : lobby.rooms[code]? = some room) :
    ∀ c ∈ room.members, ∃ client, lobby.directory.get? c = some client := by
  intro c member
  obtain ⟨client, record, -⟩ := consistent.record_of_member stored member
  exact ⟨client, record⟩

theorem room_of_record (consistent : lobby.Consistent)
    (record : lobby.directory.get? c = some client) (named : client.room = some code) :
    ∃ room, lobby.rooms[code]? = some room ∧ c ∈ room.members :=
  (consistent.member_iff c code).mp ⟨client, record, named⟩

theorem room_eq_of_member (consistent : lobby.Consistent)
    (record : lobby.directory.get? c = some client)
    (stored : lobby.rooms[code]? = some room) (member : c ∈ room.members) :
    client.room = some code := by
  obtain ⟨client', record', named⟩ := consistent.record_of_member stored member
  rw [record] at record'
  cases record'
  exact named

theorem one_room (consistent : lobby.Consistent)
    (stored : lobby.rooms[code]? = some room) (member : c ∈ room.members)
    (stored' : lobby.rooms[code']? = some room') (member' : c ∈ room'.members) :
    code = code' := by
  obtain ⟨client, record, named⟩ := consistent.record_of_member stored member
  have named' := consistent.room_eq_of_member record stored' member'
  rw [named] at named'
  exact Option.some.inj named'

theorem not_member (consistent : lobby.Consistent)
    (outside : ∀ client, lobby.directory.get? c = some client → client.room = none)
    (stored : lobby.rooms[code]? = some room) : c ∉ room.members := by
  intro member
  obtain ⟨client, record, named⟩ := consistent.record_of_member stored member
  rw [outside client record] at named
  cases named

theorem host_not_guest (consistent : lobby.Consistent)
    (stored : lobby.rooms[code]? = some room) : room.host ∉ room.guests :=
  (List.nodup_cons.mp (consistent.members_nodup stored)).1

theorem guests_nodup (consistent : lobby.Consistent)
    (stored : lobby.rooms[code]? = some room) : room.guests.Nodup :=
  (List.nodup_cons.mp (consistent.members_nodup stored)).2

/-! ## What keeps it -/

theorem withDraws (consistent : lobby.Consistent) (draws : Draws) :
    ({ lobby with draws } : Lobby).Consistent :=
  { consistent with }

theorem enroll (consistent : lobby.Consistent) (fresh : lobby.directory.get? c = none) :
    (lobby.enroll c).Consistent where
  connection_eq := by
    intro d client record
    rw [get?_enroll _ _ _ fresh] at record
    split at record
    next same => cases record; exact same.symm
    next => exact consistent.connection_eq record
  code_eq := consistent.code_eq
  member_iff := by
    intro d code
    rw [get?_enroll _ _ _ fresh, rooms_enroll, ← consistent.member_iff]
    by_cases same : d = c
    · subst same
      simp [fresh]
    · simp [same]
  members_nodup := consistent.members_nodup
  code_lt := consistent.code_lt
  name_le := by
    intro d client record
    rw [get?_enroll _ _ _ fresh] at record
    split at record
    next => cases record; exact Nat.zero_le _
    next => exact consistent.name_le record

theorem forget (consistent : lobby.Consistent)
    (outside : ∀ client, lobby.directory.get? c = some client → client.room = none) :
    (lobby.forget c).Consistent where
  connection_eq := by
    intro d client record
    rw [get?_forget] at record
    split at record
    next => cases record
    next => exact consistent.connection_eq record
  code_eq := consistent.code_eq
  member_iff := by
    intro d code
    rw [get?_forget, rooms_forget, ← consistent.member_iff]
    by_cases same : d = c
    · subst same
      simp only [if_true]
      constructor
      · rintro ⟨client, record, -⟩; cases record
      · rintro ⟨client, record, named⟩; rw [outside client record] at named; cases named
    · simp [same]
  members_nodup := consistent.members_nodup
  code_lt := consistent.code_lt
  name_le := by
    intro d client record
    rw [get?_forget] at record
    split at record
    next => cases record
    next => exact consistent.name_le record

theorem rename (consistent : lobby.Consistent) {name : String}
    (short : name.utf8ByteSize ≤ lobby.limits.maxNameLength) :
    (lobby.rename c name).Consistent where
  connection_eq := by
    intro d client record
    obtain ⟨before, recordBefore, same⟩ := before_rename record
    have kept := consistent.connection_eq recordBefore
    rwa [same]
  code_eq := consistent.code_eq
  member_iff := by
    intro d code
    rw [get?_rename, rooms_rename, ← consistent.member_iff]
    by_cases same : d = c
    · subst same
      cases lobby.directory.get? d <;> simp
    · simp [same]
  members_nodup := consistent.members_nodup
  code_lt := consistent.code_lt
  name_le := by
    intro d client record
    rw [get?_rename] at record
    split at record
    next =>
      obtain ⟨before, -, rfl⟩ := Option.map_eq_some_iff.mp record
      exact short
    next => exact consistent.name_le record

/-- A room may be put under a code for a client that is in no other room, if it
    lists nobody else than the room that was there and lists the client exactly
    when the client is placed there. -/
theorem seat (consistent : lobby.Consistent) {place : Option RoomCode}
    (elsewhere : ∀ client, lobby.directory.get? c = some client →
      client.room = none ∨ client.room = some code)
    (codeEq : room.code = code) (inSpace : code.val < lobby.limits.codeSpace)
    (nodup : room.members.Nodup)
    (others : ∀ d ≠ c, d ∈ room.members ↔
      ∃ room, lobby.rooms[code]? = some room ∧ d ∈ room.members)
    (known : ∃ client, lobby.directory.get? c = some client)
    (placed : place = none ∧ c ∉ room.members ∨ place = some code ∧ c ∈ room.members) :
    (lobby.seat c code room place).Consistent where
  connection_eq := by
    intro d client record
    obtain ⟨before, recordBefore, same⟩ := before_seat record
    have kept := consistent.connection_eq recordBefore
    rwa [same]
  code_eq := by
    intro other found stored
    rw [room_seat] at stored
    split at stored
    next same => cases stored; rw [codeEq, same]
    next => exact consistent.code_eq stored
  member_iff := by
    intro d other
    rw [get?_seat, room_seat]
    obtain ⟨client, record⟩ := known
    by_cases actor : d = c
    · -- the client itself: its record says where it is placed
      subst actor
      simp only [if_true, record, Option.map_some, Option.some.injEq, exists_eq_left']
      by_cases same : other = code
      · subst same
        rcases placed with ⟨rfl, absent⟩ | ⟨rfl, present⟩
        · simp [absent]
        · simp [present]
      · have nowhere : ¬∃ room, lobby.rooms[other]? = some room ∧ d ∈ room.members := by
          rintro ⟨room, stored, member⟩
          have named := consistent.room_eq_of_member record stored member
          rcases elsewhere client record with outside | here
          · rw [named] at outside; cases outside
          · rw [named] at here; exact same (Option.some.inj here)
        rw [if_neg same]
        refine iff_of_false ?_ nowhere
        rcases placed with ⟨rfl, -⟩ | ⟨rfl, -⟩
        · simp
        · simpa using Ne.symm same
    · -- anybody else: neither the record nor the membership has changed
      rw [if_neg actor, consistent.member_iff]
      by_cases same : other = code
      · subst same
        simp [others d actor]
      · simp [same]
  members_nodup := by
    intro other found stored
    rw [room_seat] at stored
    split at stored
    next => cases stored; exact nodup
    next => exact consistent.members_nodup stored
  code_lt := by
    intro other found stored
    rw [room_seat] at stored
    split at stored
    next same => rw [same]; exact inSpace
    next => exact consistent.code_lt stored
  name_le := by
    intro d client record
    obtain ⟨before, recordBefore, same⟩ := before_seat record
    have kept := consistent.name_le recordBefore
    rwa [same]

theorem release (consistent : lobby.Consistent) (stored : lobby.rooms[code]? = some room) :
    (lobby.release code room).Consistent where
  connection_eq := by
    intro d client record
    obtain ⟨before, recordBefore, same⟩ := before_release record
    have kept := consistent.connection_eq recordBefore
    rwa [same]
  code_eq := by
    intro other found storedAfter
    rw [room_release] at storedAfter
    split at storedAfter
    next => cases storedAfter
    next => exact consistent.code_eq storedAfter
  member_iff := by
    intro d other
    rw [get?_release, room_release]
    by_cases member : d ∈ room.members
    · -- a member is outside now, and it was in no other room
      refine iff_of_false ?_ ?_
      · rintro ⟨client, record, named⟩
        rw [if_pos member] at record
        obtain ⟨before, -, rfl⟩ := Option.map_eq_some_iff.mp record
        cases named
      · rintro ⟨room', storedAfter, member'⟩
        split at storedAfter
        next => cases storedAfter
        next different =>
          exact different (consistent.one_room storedAfter member' stored member)
    · rw [if_neg member, consistent.member_iff]
      by_cases same : other = code
      · subst same
        simp [stored, member]
      · simp [same]
  members_nodup := by
    intro other found storedAfter
    rw [room_release] at storedAfter
    split at storedAfter
    next => cases storedAfter
    next => exact consistent.members_nodup storedAfter
  code_lt := by
    intro other found storedAfter
    rw [room_release] at storedAfter
    split at storedAfter
    next => cases storedAfter
    next => exact consistent.code_lt storedAfter
  name_le := by
    intro d client record
    obtain ⟨before, recordBefore, same⟩ := before_release record
    have kept := consistent.name_le recordBefore
    rwa [same]

end Consistent

end Rendezvous.Lobby

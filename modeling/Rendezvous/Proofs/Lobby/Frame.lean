import Rendezvous.Proofs.Lobby.Roles

/-! # What a step leaves alone

A step of a connection stays in the room that the connection is in before and in
the one that it is in afterwards.  It tells only the connection itself and the
members of these rooms, each once, and all of them have a record (`Step.recipient`,
`Step.recipients_nodup`).  It changes no other room (`Step.room_kept`), and no
record but that of its connection (`Step.record_kept`).

The one exception is a host that closes its room or goes away: the room is closed
(`Step.closed_iff`) and its members are released from it (`Step.released`).

Consistency is needed throughout, since messages go to the members that a room
lists, and it is their records that say where they are.
-/

namespace Rendezvous

def Operation.closesRoom : Operation → Bool
  | .close | .disconnect => true
  | _ => false

namespace Lobby

def place? (lobby : Lobby) (c : ConnectionId) : Option RoomCode :=
  (lobby.directory.get? c).bind Client.room

/-- Whether a connection is a member of the room that the client under another is in. -/
def Shares (lobby : Lobby) (c d : ConnectionId) : Prop :=
  ∃ (code : RoomCode) (room : Room),
    lobby.place? c = some code ∧ lobby.rooms[code]? = some room ∧ d ∈ room.members

def Knows (lobby : Lobby) (c : ConnectionId) : Prop :=
  ∃ client, lobby.directory.get? c = some client

section Changes

variable {lobby : Lobby} {c d : ConnectionId} {client : Client} {code : RoomCode} {room : Room}

/-! ## Records -/

theorem knows_seat {place : Option RoomCode} :
    (lobby.seat c code room place).Knows d ↔ lobby.Knows d := by
  rw [Knows, Knows, get?_seat]
  split <;> simp

theorem knows_release : (lobby.release code room).Knows d ↔ lobby.Knows d := by
  rw [Knows, Knows, get?_release]
  split <;> simp

theorem knows_forget (other : d ≠ c) : (lobby.forget c).Knows d ↔ lobby.Knows d := by
  rw [Knows, Knows, get?_forget, if_neg other]

theorem Consistent.knows_member (consistent : lobby.Consistent)
    (stored : lobby.rooms[code]? = some room) (member : d ∈ room.members) : lobby.Knows d := by
  obtain ⟨client, record, -⟩ := consistent.record_of_member stored member
  exact ⟨client, record⟩

/-! ## Places -/

theorem Consistent.place?_of_member (consistent : lobby.Consistent)
    (stored : lobby.rooms[code]? = some room) (member : c ∈ room.members) :
    lobby.place? c = some code := by
  obtain ⟨client, record, named⟩ := consistent.record_of_member stored member
  rw [place?, record, Option.bind_some, named]

theorem place?_seat (known : lobby.Knows c) (place : Option RoomCode) :
    (lobby.seat c code room place).place? c = place := by
  obtain ⟨client, record⟩ := known
  rw [place?, get?_seat, if_pos rfl, record]
  rfl

theorem Consistent.shares (consistent : lobby.Consistent)
    (stored : lobby.rooms[code]? = some room) (member : c ∈ room.members)
    (listed : d ∈ room.members) : lobby.Shares c d :=
  ⟨code, room, consistent.place?_of_member stored member, stored, listed⟩

theorem Visits.of_remains (visits : lobby.Visits c client code room)
    (consistent : lobby.Consistent) (remains : d ∈ (room.removeGuest c).members) :
    d ∈ room.members ∧ d ≠ c := by
  rw [room.members_removeGuest c (visits.host_ne consistent)] at remains
  have nodup := consistent.members_nodup visits.stored
  exact ⟨List.mem_of_mem_erase remains, fun same => nodup.not_mem_erase (same ▸ remains)⟩

end Changes

/-! ## Messages -/

section Steps

variable {lobby : Lobby} {c d : ConnectionId} {code : RoomCode} {room : Room}
  {operation : Operation} {refusal : Refusal} {outcome : Outcome (Answer Reply)}
  {message : Message}

theorem recipients_broadcast (recipients : List ConnectionId) (notice : Wire.Notice) :
    (Message.broadcast recipients notice).map Message.recipient = recipients := by
  rw [Message.broadcast, List.map_map]
  exact List.map_id recipients

/-- A step tells its connection and the members of the room that it is in before or
    afterwards, and nobody without a record. -/
theorem Step.recipient (step : Step lobby c operation outcome) (consistent : lobby.Consistent)
    (told : message ∈ outcome.messages) :
    (message.recipient = c ∨ lobby.Shares c message.recipient ∨
        outcome.lobby.Shares c message.recipient) ∧
      outcome.lobby.Knows message.recipient := by
  cases step with
  | declined | reconnect | absent | depart | rename => cases told
  | enroll fresh =>
    rw [List.mem_singleton.mp told]
    exact ⟨.inl rfl, _, by rw [get?_enroll _ _ _ fresh]; exact if_pos rfl⟩
  | @departHost client code room hosts =>
    obtain ⟨guest, listed, rfl⟩ := List.mem_map.mp told
    have member : guest ∈ room.members := List.mem_cons_of_mem _ listed
    have other : guest ≠ c := by
      rintro rfl
      exact consistent.host_not_guest hosts.stored (hosts.host_eq ▸ listed)
    exact ⟨.inr (.inl (consistent.shares hosts.stored hosts.member member)),
      (knows_forget other).mpr (knows_release.mpr (consistent.knows_member hosts.stored member))⟩
  | departGuest visits =>
    obtain ⟨remaining, listed, rfl⟩ := List.mem_map.mp told
    obtain ⟨member, other⟩ := visits.of_remains consistent listed
    exact ⟨.inr (.inl (consistent.shares visits.stored visits.member member)),
      (knows_forget other).mpr (knows_seat.mpr (consistent.knows_member visits.stored member))⟩
  | @create client code after outside =>
    have known : (lobby.seat c code { code, host := c } (some code)).Knows c :=
      knows_seat.mpr ⟨client, outside.record⟩
    rw [List.mem_singleton.mp told]
    exact ⟨.inl rfl, known⟩
  | @join client code room outside stored =>
    rcases List.mem_append.mp told with toMember | toJoiner
    · obtain ⟨member, listed, rfl⟩ := List.mem_map.mp toMember
      have joined : (lobby.seat c code (room.addGuest c) (some code)).Shares c member :=
        ⟨code, room.addGuest c, place?_seat ⟨client, outside.record⟩ _, by rw [room_seat, if_pos rfl],
          by rw [room.members_addGuest]; exact List.mem_append_left _ listed⟩
      exact ⟨.inr (.inr joined), knows_seat.mpr (consistent.knows_member stored listed)⟩
    · rw [List.mem_singleton.mp toJoiner]
      exact ⟨.inl rfl, knows_seat.mpr ⟨_, outside.record⟩⟩
  | leave visits =>
    obtain ⟨remaining, listed, rfl⟩ := List.mem_map.mp told
    obtain ⟨member, -⟩ := visits.of_remains consistent listed
    exact ⟨.inr (.inl (consistent.shares visits.stored visits.member member)),
      knows_seat.mpr (consistent.knows_member visits.stored member)⟩
  | start hosts =>
    obtain ⟨member, listed, rfl⟩ := List.mem_map.mp told
    exact ⟨.inr (.inl (consistent.shares hosts.stored hosts.member listed)),
      consistent.knows_member hosts.stored listed⟩
  | close hosts =>
    obtain ⟨member, listed, rfl⟩ := List.mem_map.mp told
    exact ⟨.inr (.inl (consistent.shares hosts.stored hosts.member listed)),
      knows_release.mpr (consistent.knows_member hosts.stored listed)⟩
  | @relayToGuests client code room data mode hosts =>
    obtain ⟨guest, listed, rfl⟩ := List.mem_map.mp told
    have member : guest ∈ room.members := List.mem_cons_of_mem _ listed
    exact ⟨.inr (.inl (consistent.shares hosts.stored hosts.member member)),
      consistent.knows_member hosts.stored member⟩
  | @relayToHost client code room data mode visits =>
    rw [List.mem_singleton.mp told]
    have member : room.host ∈ room.members := List.mem_cons_self
    exact ⟨.inr (.inl (consistent.shares visits.stored visits.member member)),
      consistent.knows_member visits.stored member⟩

theorem Step.recipients_nodup (step : Step lobby c operation outcome)
    (consistent : lobby.Consistent) : (outcome.messages.map Message.recipient).Nodup := by
  cases step with
  | declined | reconnect | absent | depart | rename => exact List.nodup_nil
  | enroll | create | relayToHost => exact List.nodup_singleton _
  | departHost hosts =>
    rw [recipients_broadcast]
    exact consistent.guests_nodup hosts.stored
  | departGuest visits | leave visits =>
    rw [recipients_broadcast, Room.members_removeGuest _ _ (visits.host_ne consistent)]
    exact (consistent.members_nodup visits.stored).erase c
  | @join client code room outside stored =>
    -- the joiner is told last, and it was no member before
    have stranger := consistent.not_member (fun _ => outside.nowhere) stored
    rw [List.map_append, recipients_broadcast]
    refine List.nodup_append.mpr ⟨consistent.members_nodup stored, List.nodup_singleton c, ?_⟩
    intro member listed joiner single
    rw [List.mem_singleton.mp single]
    exact fun same : member = c => stranger (same ▸ listed)
  | start hosts | close hosts =>
    rw [recipients_broadcast]
    exact consistent.members_nodup hosts.stored
  | relayToGuests hosts =>
    rw [List.map_map]
    exact (List.map_id _).symm ▸ consistent.guests_nodup hosts.stored

/-! ## Rooms -/

/-- A step changes no room but those that its connection is in before or afterwards. -/
theorem Step.room_kept (step : Step lobby c operation outcome) (consistent : lobby.Consistent)
    {other : RoomCode} (notBefore : lobby.place? c ≠ some other)
    (notAfter : outcome.lobby.place? c ≠ some other) :
    outcome.lobby.rooms[other]? = lobby.rooms[other]? := by
  have elsewhere : ∀ {code : RoomCode} {room : Room}, lobby.rooms[code]? = some room →
      c ∈ room.members → other ≠ code := by
    rintro code room stored member rfl
    exact notBefore (consistent.place?_of_member stored member)
  cases step with
  | @departHost client code room hosts | @close client code room hosts =>
    exact (room_release lobby code other room).trans
      (if_neg (elsewhere hosts.stored hosts.member))
  | @departGuest client code room visits | @leave client code room visits =>
    exact (room_seat lobby c code other (room.removeGuest c) none).trans
      (if_neg (elsewhere visits.stored visits.member))
  | @create client code after outside =>
    have place : (lobby.seat c code { code, host := c } (some code)).place? c = some code :=
      place?_seat ⟨client, outside.record⟩ _
    exact (room_seat lobby c code other { code, host := c } (some code)).trans
      (if_neg fun same : other = code => notAfter (same ▸ place))
  | @join client code room outside stored =>
    have place : (lobby.seat c code (room.addGuest c) (some code)).place? c = some code :=
      place?_seat ⟨client, outside.record⟩ _
    exact (room_seat lobby c code other (room.addGuest c) (some code)).trans
      (if_neg fun same : other = code => notAfter (same ▸ place))
  | _ => rfl

/-! ## Rooms that close -/

theorem Declines.not_host (declines : lobby.Declines c operation refusal)
    (consistent : lobby.Consistent) (closes : operation.closesRoom = true) :
    lobby.role? c ≠ some (.host code) := by
  cases declines with
  | unknown needs absent => simp [role?_eq_none_iff.mpr absent]
  | hostInside enters | guestInside enters => cases operation <;> cases enters <;> cases closes
  | notInside needs outside => simp [outside.role?]
  | guestCloses visits => simp [visits.role? consistent]
  | _ => cases closes

/-- A host that closes its room or goes away closes the room, and is forgotten in the
    latter case. -/
theorem Step.of_closes (step : Step lobby c operation outcome) (consistent : lobby.Consistent)
    (stored : lobby.rooms[code]? = some room) (host : room.host = c)
    (closes : operation.closesRoom = true) :
    outcome.lobby = lobby.release code room ∨
      outcome.lobby = (lobby.release code room).forget c := by
  have role : lobby.role? c = some (.host code) :=
    (role?_eq_host_iff consistent).mpr ⟨room, stored, host⟩
  -- the room that the step finds is the one at hand
  have same : ∀ {client : Client} {code' : RoomCode} {room' : Room},
      lobby.Hosts c client code' room' → code' = code ∧ room' = room := by
    intro client code' room' hosts
    have codes : code' = code := consistent.one_room hosts.stored hosts.member stored
      (by simp [Room.members, host])
    subst codes
    exact ⟨rfl, Option.some.inj (hosts.stored.symm.trans stored)⟩
  cases step with
  | declined declines => exact absurd role (declines.not_host consistent closes)
  | absent absent => rw [role?_eq_none_iff.mpr absent] at role; cases role
  | depart outside => rw [outside.role?] at role; cases role
  | departGuest visits => rw [visits.role? consistent] at role; cases role
  | departHost hosts =>
    obtain ⟨rfl, rfl⟩ := same hosts
    exact .inr rfl
  | close hosts =>
    obtain ⟨rfl, rfl⟩ := same hosts
    exact .inl rfl
  | _ => cases closes

theorem Step.host_of_closed (step : Step lobby c operation outcome)
    (stored : lobby.rooms[code]? = some room) (gone : outcome.lobby.rooms[code]? = none) :
    room.host = c ∧ operation.closesRoom = true := by
  have seated : ∀ (code' : RoomCode) (room' : Room) (place : Option RoomCode),
      (lobby.seat c code' room' place).rooms[code]? ≠ none := by
    intro code' room' place
    rw [room_seat]
    split
    · exact Option.some_ne_none room'
    · rw [stored]
      exact Option.some_ne_none room
  have released : ∀ {client : Client} {code' : RoomCode} {room' : Room},
      lobby.Hosts c client code' room' → (lobby.release code' room').rooms[code]? = none →
        room.host = c := by
    intro client code' room' hosts gone
    rw [room_release] at gone
    split at gone
    next same =>
      subst same
      exact Option.some.inj (stored.symm.trans hosts.stored) ▸ hosts.host_eq
    next => rw [stored] at gone; cases gone
  cases step with
  | departHost hosts | close hosts => exact ⟨released hosts gone, rfl⟩
  | @departGuest client code' room' | @leave client code' room' =>
    exact absurd gone (seated code' (room'.removeGuest c) none)
  | @create client code' =>
    exact absurd gone (seated code' { code := code', host := c } (some code'))
  | @join client code' room' =>
    exact absurd gone (seated code' (room'.addGuest c) (some code'))
  | _ => exact absurd (stored.symm.trans gone) (Option.some_ne_none room)

/-- An open room is closed by its host alone, which closes it or goes away. -/
theorem Step.closed_iff (step : Step lobby c operation outcome) (consistent : lobby.Consistent)
    (stored : lobby.rooms[code]? = some room) :
    outcome.lobby.rooms[code]? = none ↔ room.host = c ∧ operation.closesRoom = true := by
  refine ⟨step.host_of_closed stored, ?_⟩
  rintro ⟨host, closes⟩
  have closed : (lobby.release code room).rooms[code]? = none := by
    rw [room_release, if_pos rfl]
  rcases step.of_closes consistent stored host closes with after | after
  · rw [after]
    exact closed
  · rw [after]
    exact closed

/-- When a room is closed, its members are in no room, and nothing else about those
    that stay changes. -/
theorem Step.released (step : Step lobby c operation outcome) (consistent : lobby.Consistent)
    (stored : lobby.rooms[code]? = some room) (host : room.host = c)
    (closes : operation.closesRoom = true) (member : d ∈ room.members) :
    outcome.lobby.place? d = none ∧
      (d ≠ c → outcome.lobby.directory.get? d =
        (lobby.directory.get? d).map fun client => { client with room := none }) := by
  have record : (lobby.release code room).directory.get? d =
      (lobby.directory.get? d).map fun client => { client with room := none } := by
    rw [get?_release, if_pos member]
  rcases step.of_closes consistent stored host closes with after | after
  · rw [after, place?, record]
    refine ⟨?_, fun _ => rfl⟩
    cases lobby.directory.get? d <;> rfl
  · rw [after, place?, get?_forget]
    split
    next same => exact ⟨rfl, fun other => absurd same other⟩
    next other =>
      rw [record]
      refine ⟨?_, fun _ => rfl⟩
      cases lobby.directory.get? d <;> rfl

/-! ## Records -/

/-- A step changes no record but that of its connection, unless it closes a room:
    then it leaves those alone that are not in the room. -/
theorem Step.record_kept (step : Step lobby c operation outcome) (other : d ≠ c)
    (stays : ∀ (code : RoomCode) (room : Room), lobby.rooms[code]? = some room →
      room.host = c → operation.closesRoom = true → d ∉ room.members) :
    outcome.lobby.directory.get? d = lobby.directory.get? d := by
  have seated : ∀ (code : RoomCode) (room : Room) (place : Option RoomCode),
      (lobby.seat c code room place).directory.get? d = lobby.directory.get? d := by
    intro code room place
    rw [get?_seat, if_neg other]
  cases step with
  | declined | reconnect | absent | start | relayToGuests | relayToHost => rfl
  | enroll fresh => rw [get?_enroll _ _ _ fresh, if_neg other]
  | depart => rw [get?_forget, if_neg other]
  | departHost hosts =>
    rw [get?_forget, if_neg other, get?_release,
      if_neg (stays _ _ hosts.stored hosts.host_eq rfl)]
  | close hosts => rw [get?_release, if_neg (stays _ _ hosts.stored hosts.host_eq rfl)]
  | departGuest => rw [get?_forget, if_neg other, seated]
  | rename => rw [get?_rename, if_neg other]
  | @create client code => exact seated code { code, host := c } (some code)
  | join | leave => exact seated _ _ _

theorem Step.forgotten (step : Step lobby c .disconnect outcome) :
    outcome.lobby.directory.get? c = none := by
  cases step with
  | declined declines =>
    cases declines with
    | unknown needs => cases needs
    | hostInside enters | guestInside enters => cases enters
    | notInside needs => cases needs
  | absent absent => exact absent
  | depart | departHost | departGuest => rw [get?_forget, if_pos rfl]

/-! ## Refusals -/

theorem Step.of_error (step : Step lobby c operation outcome)
    (declined : outcome.value = .error refusal) :
    lobby.Declines c operation refusal ∧ outcome.lobby = lobby ∧ outcome.messages = [] := by
  cases step with
  | declined declines =>
    cases declined
    exact ⟨declines, rfl, rfl⟩
  | _ => cases declined

theorem Declines.known (declines : lobby.Declines c operation refusal)
    (reportable : refusal.isReportable = true) : lobby.Knows c := by
  cases declines with
  | unknown => cases reportable
  | nameTooLong record => exact ⟨_, record⟩
  | hostInside _ hosts | hostStays hosts => exact ⟨_, hosts.record⟩
  | guestInside _ visits | guestStarts visits | guestCloses visits => exact ⟨_, visits.record⟩
  | exhausted outside | noSuchRoom outside | notInside _ outside => exact ⟨_, outside.record⟩

end Steps

end Lobby

end Rendezvous

import Mathlib.Data.Set.Card
import Rendezvous.Proofs.Lobby.History

/-! # The machine of roles

Seen from outside, a lobby is a map from connections to roles, and each operation
moves it as a small machine does that knows nothing of records, rooms or member
lists.  `Move` is that machine.  `perform_moves` says that every operation in
every lobby that a history leads to is one of its moves, for all connections at
once: the actor, the members of its room and bystanders.

What the machine counts, the lobby looks up: the hosts are as many as the rooms
(`hostCount_role?`), and the guests under a code as many as the room lists
(`guestCount_role?`).
-/

namespace Rendezvous

/-- Where every connection stands; nowhere without a record. -/
abbrev Roles := ConnectionId → Option Role

namespace Roles

def set (roles : Roles) (c : ConnectionId) (role : Option Role) : Roles :=
  fun d => if d = c then role else roles d

/-- Whoever was in the room with this code is outside. -/
def vacate (roles : Roles) (code : RoomCode) : Roles := fun d =>
  if roles d = some (.host code) ∨ roles d = some (.guest code) then some .outside else roles d

noncomputable def hostCount (roles : Roles) : Nat :=
  {c : ConnectionId | ∃ code, roles c = some (.host code)}.ncard

noncomputable def guestCount (roles : Roles) (code : RoomCode) : Nat :=
  {c : ConnectionId | roles c = some (.guest code)}.ncard

end Roles

/-- What an operation of a connection answers, and where everybody stands
    afterwards. -/
inductive Move (limits : Limits) (roles : Roles) (c : ConnectionId) :
    Operation → Answer Reply → Roles → Prop
  | absent {operation : Operation} (absent : roles c = none)
      (needs : operation.needsClient = true) :
      Move limits roles c operation (.error (.unknownConnection c)) roles
  | connect {id : ClientId} (absent : roles c = none) :
      Move limits roles c .connect (.ok (.connected id)) (roles.set c (some .outside))
  | reconnect {id : ClientId} {role : Role} (present : roles c = some role) :
      Move limits roles c .connect (.ok (.connected id)) roles
  | disconnectAbsent (absent : roles c = none) :
      Move limits roles c .disconnect (.ok (.removed none)) roles
  | disconnect {client : Client} {role : Role} (present : roles c = some role)
      (notHost : ∀ code, role ≠ .host code) :
      Move limits roles c .disconnect (.ok (.removed (some client))) (roles.set c none)
  | disconnectHost {client : Client} {code : RoomCode} (host : roles c = some (.host code)) :
      Move limits roles c .disconnect (.ok (.removed (some client)))
        ((roles.vacate code).set c none)
  | nameTooLong {name : String} {role : Role} (present : roles c = some role)
      (long : limits.maxNameLength < name.utf8ByteSize) :
      Move limits roles c (.setName name)
        (.error (.nameTooLong name.utf8ByteSize limits.maxNameLength)) roles
  | setName {name : String} {role : Role} (present : roles c = some role)
      (short : name.utf8ByteSize ≤ limits.maxNameLength) :
      Move limits roles c (.setName name) (.ok .done) roles
  | inside {operation : Operation} {role : Role} (enters : operation.entersRoom = true)
      (present : roles c = some role) (inside : role ≠ .outside) :
      Move limits roles c operation (.error .alreadyInRoom) roles
  | createFull (outside : roles c = some .outside)
      (full : limits.codeSpace.toNat ≤ roles.hostCount) :
      Move limits roles c .create (.error .codesExhausted) roles
  | create {code : RoomCode} (outside : roles c = some .outside)
      (spare : roles.hostCount < limits.codeSpace.toNat) (inSpace : code.val < limits.codeSpace)
      (free : ∀ d, roles d ≠ some (.host code)) :
      Move limits roles c .create (.ok (.opened code)) (roles.set c (some (.host code)))
  | joinNowhere {code : RoomCode} (outside : roles c = some .outside)
      (closed : ∀ d, roles d ≠ some (.host code)) :
      Move limits roles c (.join code) (.error (.invalidRoomCode code)) roles
  | join {code : RoomCode} {host : ConnectionId} (outside : roles c = some .outside)
      (opened : roles host = some (.host code)) :
      Move limits roles c (.join code) (.ok .done) (roles.set c (some (.guest code)))
  | notInside {operation : Operation} (needs : operation.needsRoom = true)
      (outside : roles c = some .outside) :
      Move limits roles c operation (.error .notInRoom) roles
  | leaveHost {code : RoomCode} (host : roles c = some (.host code)) :
      Move limits roles c .leave (.error .hostCannotLeave) roles
  | leave {code : RoomCode} (guest : roles c = some (.guest code)) :
      Move limits roles c .leave (.ok .done) (roles.set c (some .outside))
  | startGuest {code : RoomCode} (guest : roles c = some (.guest code)) :
      Move limits roles c .start (.error .guestCannotStart) roles
  | start {code : RoomCode} (host : roles c = some (.host code)) :
      Move limits roles c .start (.ok .done) roles
  | closeGuest {code : RoomCode} (guest : roles c = some (.guest code)) :
      Move limits roles c .close (.error .guestCannotClose) roles
  | close {code : RoomCode} (host : roles c = some (.host code)) :
      Move limits roles c .close (.ok .done) (roles.vacate code)
  | relayHost {code : RoomCode} {data : Wire.Bytes} {mode : DeliveryMode}
      (host : roles c = some (.host code)) :
      Move limits roles c (.relay data mode) (.ok (.passedOn (roles.guestCount code))) roles
  | relayGuest {code : RoomCode} {data : Wire.Bytes} {mode : DeliveryMode}
      (guest : roles c = some (.guest code)) :
      Move limits roles c (.relay data mode) (.ok (.passedOn 1)) roles

namespace Lobby

variable {lobby lobby' : Lobby} {c d : ConnectionId} {client : Client} {code : RoomCode}
  {room : Room}

/-! ## Roles after a change -/

/-- A connection keeps its role if it keeps its record, the rooms that it hosts
    and those that list it as a guest. -/
theorem role?_eq_of_same (before : lobby.Consistent) (after : lobby'.Consistent)
    (records : lobby'.directory.get? d = none ↔ lobby.directory.get? d = none)
    (hosts : ∀ code : RoomCode, (∃ room, lobby'.rooms[code]? = some room ∧ room.host = d) ↔
      ∃ room, lobby.rooms[code]? = some room ∧ room.host = d)
    (guests : ∀ code : RoomCode, (∃ room, lobby'.rooms[code]? = some room ∧ d ∈ room.guests) ↔
      ∃ room, lobby.rooms[code]? = some room ∧ d ∈ room.guests) :
    lobby'.role? d = lobby.role? d := by
  have none_iff : lobby'.role? d = none ↔ lobby.role? d = none := by
    rw [role?_eq_none_iff, role?_eq_none_iff, records]
  have host_iff : ∀ code, lobby'.role? d = some (.host code) ↔
      lobby.role? d = some (.host code) := fun code => by
    rw [role?_eq_host_iff after, role?_eq_host_iff before, hosts]
  have guest_iff : ∀ code, lobby'.role? d = some (.guest code) ↔
      lobby.role? d = some (.guest code) := fun code => by
    rw [role?_eq_guest_iff after, role?_eq_guest_iff before, guests]
  -- three of the four roles are carried over; outside is what is left
  match found : lobby.role? d with
  | none => exact none_iff.mpr found
  | some (.host code) => exact (host_iff code).mpr found
  | some (.guest code) => exact (guest_iff code).mpr found
  | some .outside =>
    match foundAfter : lobby'.role? d with
    | none => rw [none_iff.mp foundAfter] at found; cases found
    | some (.host code) => rw [(host_iff code).mp foundAfter] at found; cases found
    | some (.guest code) => rw [(guest_iff code).mp foundAfter] at found; cases found
    | some .outside => rfl

theorem role?_enroll (consistent : lobby.Consistent) (fresh : lobby.directory.get? c = none) :
    (lobby.enroll c).role? = Roles.set lobby.role? c (some .outside) := by
  funext d
  rw [Roles.set]
  split
  next same =>
    subst same
    apply (role?_eq_outside_iff (consistent.enroll fresh)).mpr
    exact ⟨_, by rw [get?_enroll _ _ _ fresh, if_pos rfl], rfl⟩
  next different =>
    apply role?_eq_of_same consistent (consistent.enroll fresh)
    · rw [get?_enroll _ _ _ fresh, if_neg different]
    · exact fun _ => Iff.rfl
    · exact fun _ => Iff.rfl

theorem role?_rename (consistent : lobby.Consistent) {name : String}
    (short : name.utf8ByteSize ≤ lobby.limits.maxNameLength) :
    (lobby.rename c name).role? = lobby.role? := by
  funext d
  apply role?_eq_of_same consistent (consistent.rename short)
  · rw [get?_rename]
    split <;> simp
  · exact fun _ => Iff.rfl
  · exact fun _ => Iff.rfl

theorem role?_forget (consistent : lobby.Consistent)
    (outside : ∀ client, lobby.directory.get? c = some client → client.room = none) :
    (lobby.forget c).role? = Roles.set lobby.role? c none := by
  funext d
  rw [Roles.set]
  split
  next same =>
    apply role?_eq_none_iff.mpr
    rw [get?_forget, if_pos same]
  next different =>
    apply role?_eq_of_same consistent (consistent.forget outside)
    · rw [get?_forget, if_neg different]
    · exact fun _ => Iff.rfl
    · exact fun _ => Iff.rfl

/-- Whatever room is put under a code, a bystander keeps its role if the room
    keeps it as host or as guest. -/
theorem role?_seat_other {place : Option RoomCode} (before : lobby.Consistent)
    (after : (lobby.seat c code room place).Consistent) (different : d ≠ c)
    (host : room.host = d ↔ ∃ room, lobby.rooms[code]? = some room ∧ room.host = d)
    (guest : d ∈ room.guests ↔ ∃ room, lobby.rooms[code]? = some room ∧ d ∈ room.guests) :
    (lobby.seat c code room place).role? d = lobby.role? d := by
  apply role?_eq_of_same before after
  · rw [get?_seat, if_neg different]
  · intro other
    rw [room_seat]
    by_cases same : other = code
    · subst same
      simpa using host
    · simp [same]
  · intro other
    rw [room_seat]
    by_cases same : other = code
    · subst same
      simpa using guest
    · simp [same]

theorem role?_opened (consistent : lobby.Consistent) (outside : lobby.Outside c client)
    (inSpace : code.val < lobby.limits.codeSpace) (free : lobby.rooms[code]? = none) :
    (lobby.seat c code { code, host := c } (some code)).role? =
      Roles.set lobby.role? c (some (.host code)) := by
  have after := consistent.opened outside inSpace free
  funext d
  rw [Roles.set]
  split
  next same =>
    apply (role?_eq_host_iff after).mpr
    exact ⟨_, by rw [room_seat, if_pos rfl], same.symm⟩
  next different =>
    apply role?_seat_other consistent after different
    · simpa [free] using Ne.symm different
    · simp [free]

theorem role?_joined (consistent : lobby.Consistent) (outside : lobby.Outside c client)
    (stored : lobby.rooms[code]? = some room) :
    (lobby.seat c code (room.addGuest c) (some code)).role? =
      Roles.set lobby.role? c (some (.guest code)) := by
  have after := consistent.joined outside stored
  funext d
  rw [Roles.set]
  split
  next same =>
    apply (role?_eq_guest_iff after).mpr
    exact ⟨_, by rw [room_seat, if_pos rfl], by simp [Room.addGuest, same]⟩
  next different =>
    apply role?_seat_other consistent after different
    · simp [Room.addGuest, stored]
    · simp [Room.addGuest, stored, different]

theorem role?_left (consistent : lobby.Consistent) (visits : lobby.Visits c client code room) :
    (lobby.seat c code (room.removeGuest c) none).role? =
      Roles.set lobby.role? c (some .outside) := by
  have after := consistent.left visits
  funext d
  rw [Roles.set]
  split
  next same =>
    subst same
    apply (role?_eq_outside_iff after).mpr
    exact ⟨{ client with room := none }, by rw [get?_seat, if_pos rfl, visits.record]; rfl, rfl⟩
  next different =>
    apply role?_seat_other consistent after different
    · simp [Room.removeGuest, visits.stored]
    · simp [Room.removeGuest, visits.stored, List.mem_erase_of_ne different]

theorem role?_released (consistent : lobby.Consistent)
    (stored : lobby.rooms[code]? = some room) :
    (lobby.release code room).role? = Roles.vacate lobby.role? code := by
  have after := consistent.release stored
  funext d
  have member_iff : d ∈ room.members ↔
      lobby.role? d = some (.host code) ∨ lobby.role? d = some (.guest code) := by
    rw [role?_eq_host_iff consistent, role?_eq_guest_iff consistent]
    simp [Room.members, stored, eq_comm]
  rw [Roles.vacate]
  split
  next inside =>
    -- whoever was in the room still has a record, which names no room now
    have member := member_iff.mpr inside
    obtain ⟨client, record, -⟩ := consistent.record_of_member stored member
    apply (role?_eq_outside_iff after).mpr
    exact ⟨{ client with room := none }, by rw [get?_release, if_pos member, record]; rfl, rfl⟩
  next bystander =>
    have stranger : d ∉ room.members := fun member => bystander (member_iff.mp member)
    simp only [Room.members, List.mem_cons, not_or] at stranger
    apply role?_eq_of_same consistent after
    · rw [get?_release, if_neg (by simpa [Room.members] using stranger)]
    · intro other
      rw [room_release]
      by_cases same : other = code
      · subst same
        simpa [stored] using Ne.symm stranger.1
      · simp [same]
    · intro other
      rw [room_release]
      by_cases same : other = code
      · subst same
        simpa [stored] using stranger.2
      · simp [same]

/-! ## Counting -/

/-- The rooms are as many as their hosts: each has one, and nobody hosts two. -/
theorem hostCount_role? (consistent : lobby.Consistent) :
    Roles.hostCount lobby.role? = lobby.rooms.size := by
  have codes : {code : RoomCode | code ∈ lobby.rooms.keys}.ncard = lobby.rooms.size := by
    rw [← List.coe_toFinset, Set.ncard_coe_finset,
      List.toFinset_card_of_nodup Std.ExtTreeMap.nodup_keys, Std.ExtTreeMap.length_keys]
  have stored : ∀ code ∈ lobby.rooms.keys, ∃ room, lobby.rooms[code]? = some room :=
    fun code => RoomTable.mem_keys_iff.mp
  -- each open code goes to the host of its room; both ways round this is one to one
  rw [← codes, Roles.hostCount]
  symm
  refine Set.ncard_congr (fun code member => (stored code member).choose.host) ?_ ?_ ?_
  · intro code member
    exact ⟨code, (role?_eq_host_iff consistent).mpr ⟨_, (stored code member).choose_spec, rfl⟩⟩
  · intro code code' member member' same
    refine consistent.one_room (stored code member).choose_spec List.mem_cons_self
      (stored code' member').choose_spec ?_
    rw [same]
    exact List.mem_cons_self
  · rintro host ⟨code, role⟩
    obtain ⟨room, isStored, isHost⟩ := (role?_eq_host_iff consistent).mp role
    have member : code ∈ lobby.rooms.keys := RoomTable.mem_keys_iff.mpr ⟨room, isStored⟩
    refine ⟨code, member, ?_⟩
    have chosen : room = (stored code member).choose :=
      Option.some.inj (isStored.symm.trans (stored code member).choose_spec)
    exact (congrArg Room.host chosen.symm).trans isHost

/-- The guests with a role in a room are the ones that it lists. -/
theorem guestCount_role? (consistent : lobby.Consistent)
    (stored : lobby.rooms[code]? = some room) :
    Roles.guestCount lobby.role? code = room.guests.length := by
  have guests : {c : ConnectionId | lobby.role? c = some (.guest code)} =
      (room.guests.toFinset : Set ConnectionId) := by
    ext c
    simp [role?_eq_guest_iff consistent, stored]
  rw [Roles.guestCount, guests, Set.ncard_coe_finset,
    List.toFinset_card_of_nodup (consistent.guests_nodup stored)]

/-! ## Every operation is a move -/

theorem not_host_of_free (consistent : lobby.Consistent) (free : lobby.rooms[code]? = none)
    (d : ConnectionId) : lobby.role? d ≠ some (.host code) := by
  intro host
  obtain ⟨room, stored, -⟩ := (role?_eq_host_iff consistent).mp host
  rw [free] at stored
  cases stored

theorem Outside.role? (outside : lobby.Outside c client) : lobby.role? c = some .outside := by
  rw [role?_of_record outside.record, outside.roleOf_eq]

theorem Hosts.role? (hosts : lobby.Hosts c client code room) (consistent : lobby.Consistent) :
    lobby.role? c = some (.host code) := by
  rw [role?_of_record hosts.record, hosts.roleOf_eq consistent]

theorem Visits.role? (visits : lobby.Visits c client code room) (consistent : lobby.Consistent) :
    lobby.role? c = some (.guest code) := by
  rw [role?_of_record visits.record, visits.roleOf_eq consistent]

/-- What is declined is declined by the machine of roles, with the same reason. -/
theorem Declines.move {operation : Operation} {refusal : Refusal}
    (declines : lobby.Declines c operation refusal) (consistent : lobby.Consistent) :
    Move lobby.limits lobby.role? c operation (.error refusal) lobby.role? := by
  cases declines with
  | unknown needs absent => exact .absent (role?_eq_none_iff.mpr absent) needs
  | nameTooLong record long => exact .nameTooLong (role?_of_record record) long
  | hostInside enters hosts => exact .inside enters (hosts.role? consistent) (by simp)
  | guestInside enters visits => exact .inside enters (visits.role? consistent) (by simp)
  | exhausted outside full =>
    exact .createFull outside.role? (by rwa [hostCount_role? consistent])
  | noSuchRoom outside closed =>
    exact .joinNowhere outside.role? (not_host_of_free consistent closed)
  | notInside needs outside => exact .notInside needs outside.role?
  | hostStays hosts => exact .leaveHost (hosts.role? consistent)
  | guestStarts visits => exact .startGuest (visits.role? consistent)
  | guestCloses visits => exact .closeGuest (visits.role? consistent)

/-- Every step is a move of the machine of roles. -/
theorem Step.move {operation : Operation} {outcome : Outcome (Answer Reply)}
    (step : Step lobby c operation outcome) (consistent : lobby.Consistent) :
    Move lobby.limits lobby.role? c operation outcome.value outcome.lobby.role? := by
  cases step with
  | declined declines => exact declines.move consistent
  | reconnect record => exact .reconnect (role?_of_record record)
  | enroll fresh =>
    simp only [role?_enroll consistent fresh]
    exact .connect (role?_eq_none_iff.mpr fresh)
  | absent absent => exact .disconnectAbsent (role?_eq_none_iff.mpr absent)
  | depart outside =>
    rw [role?_forget consistent fun _ => outside.nowhere]
    exact .disconnect outside.role? (by simp)
  | departHost hosts =>
    rw [role?_forget (consistent.release hosts.stored) fun client record =>
      outside_after_release hosts.member record, role?_released consistent hosts.stored]
    exact .disconnectHost (hosts.role? consistent)
  | departGuest visits =>
    have same : ∀ roles : Roles, (roles.set c (some .outside)).set c none = roles.set c none := by
      intro roles
      funext d
      by_cases actor : d = c <;> simp [Roles.set, actor]
    -- leaving first and being forgotten then is the same as being forgotten
    rw [role?_forget (consistent.left visits) fun client record => outside_after_seat record,
      role?_left consistent visits, same]
    exact .disconnect (visits.role? consistent) (by simp)
  | rename record short =>
    rw [role?_rename consistent short]
    exact .setName (role?_of_record record) short
  | create outside spare inSpace free =>
    have roles := role?_opened consistent outside inSpace free
    refine roles ▸ Move.create outside.role? ?_ inSpace (not_host_of_free consistent free)
    rwa [hostCount_role? consistent]
  | join outside stored =>
    rw [role?_joined consistent outside stored]
    exact .join outside.role? ((role?_eq_host_iff consistent).mpr ⟨_, stored, rfl⟩)
  | leave visits =>
    rw [role?_left consistent visits]
    exact .leave (visits.role? consistent)
  | start hosts => exact .start (hosts.role? consistent)
  | close hosts =>
    rw [role?_released consistent hosts.stored]
    exact .close (hosts.role? consistent)
  | relayToGuests hosts =>
    rw [← guestCount_role? consistent hosts.stored]
    exact .relayHost (hosts.role? consistent)
  | relayToHost visits => exact .relayGuest (visits.role? consistent)

/-- In every lobby that a history leads to, every operation of every connection
    answers as the machine of roles does and moves everybody as it does. -/
theorem perform_moves (limits : Limits) (draws : Draws)
    (history : List (ConnectionId × Operation)) (c : ConnectionId) (operation : Operation) :
    let lobby := (Lobby.empty limits draws).after history
    Move limits lobby.role? c operation (lobby.perform c operation).value
      (lobby.perform c operation).lobby.role? := by
  intro lobby
  have consistent : lobby.Consistent := consistent_after limits draws history
  have limitsEq : lobby.limits = limits :=
    (Consistent.empty limits draws).limits_after history
  rw [← limitsEq]
  exact (perform_step consistent c operation).move consistent

end Lobby

end Rendezvous

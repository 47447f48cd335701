import Rendezvous.Proofs.Lobby.Roster

/-! # Look-ups that cannot fail

Operations look records and rooms up that ought to be there, and go on without them if they
are not: a client that names no open room counts as outside, a record that is missing is not
changed, a member without a record is left out of a roster, nothing is removed from a room
that does not list it, and a room under a code that is taken is dropped.  Nobody would be
told.

`Strict.perform` does what an operation does, but gives up with a `Lapse` at the first of
these.  Wherever it does not give up it has done the same (`perform_of_strict`, of any lobby
at all), and in a lobby that a history leads to it never gives up
(`Lobby.nothing_missing`).  Between operations this is consistency; the delicate part is
within them, where a room that closes puts its members outside one after another, and each
of them must still have its record when its turn comes (`exists_foldlM_place`).
-/

namespace Rendezvous

/-- Something that an operation would silently go on without. -/
inductive Lapse where
  | noRecord (c : ConnectionId)
  | noRoom (code : RoomCode)
  | noGuest (c : ConnectionId) (code : RoomCode)
  | codeTaken (code : RoomCode)
  deriving DecidableEq, Repr

namespace Strict

/-! ## Operations that give up

The first five are the look-ups and updates that operations are made of, and what follows
them are the parts of an operation, in the order in which it has them.  What needs no look-up
beyond the record of the client is left to the operation itself. -/

def record (directory : Directory) (c : ConnectionId) : Except Lapse Client :=
  match directory.get? c with
  | some client => .ok client
  | none => .error (.noRecord c)

def room (rooms : RoomTable) (code : RoomCode) : Except Lapse Room :=
  match rooms[code]? with
  | some room => .ok room
  | none => .error (.noRoom code)

def add (rooms : RoomTable) (room : Room) : Except Lapse RoomTable :=
  match rooms.add room with
  | (true, rooms) => .ok rooms
  | (false, _) => .error (.codeTaken room.code)

def place (directory : Directory) (c : ConnectionId) (code : Option RoomCode) :
    Except Lapse Directory := do
  let _ ← record directory c
  return directory.place c code

def removeGuest (room : Room) (c : ConnectionId) : Except Lapse Room :=
  if c ∈ room.guests then .ok (room.removeGuest c) else .error (.noGuest c room.code)

/-- Where a client stands, if the room that it names is open. -/
def roleOf (lobby : Lobby) (c : ConnectionId) (client : Client) : Except Lapse Role :=
  match client.room with
  | none => .ok .outside
  | some code => do
    let room ← room lobby.rooms code
    return room.roleOf c

def role? (lobby : Lobby) (c : ConnectionId) : Except Lapse (Option Role) :=
  match lobby.directory.get? c with
  | none => .ok none
  | some client => some <$> roleOf lobby c client

def withdraw (lobby : Lobby) (c : ConnectionId) (code : RoomCode) :
    Except Lapse (Lobby × List Message) := do
  let client ← record lobby.directory c
  let room ← room lobby.rooms code
  let left ← removeGuest room c
  let directory ← place lobby.directory c none
  return ({ lobby with directory, rooms := lobby.rooms.insert code left },
    Message.broadcast left.members (.memberLeft client.id))

def disband (lobby : Lobby) (code : RoomCode) (gone : Option ConnectionId) :
    Except Lapse (Lobby × List Message) := do
  let room ← room lobby.rooms code
  -- each member is looked up in the directory that the one before it has left
  let directory ← room.members.foldlM (fun directory c => place directory c none) lobby.directory
  return ({ lobby with directory, rooms := lobby.rooms.erase code },
    Message.broadcast (room.members.filter fun c => some c ≠ gone) .roomClosed)

def forget (c : ConnectionId) (released : Lobby × List Message) :
    Except Lapse (Outcome (Answer Reply)) := do
  let client ← record released.1.directory c
  return ⟨.ok (.removed (some client)), released.1.forget c, released.2⟩

def outside (lobby : Lobby) (c : ConnectionId) (client : Client) :
    Operation → Except Lapse (Outcome (Answer Reply))
  | .create =>
    match lobby.rooms.allocate lobby.limits lobby.draws with
    | (.error _, _) => return lobby.perform c .create
    | (.ok code, draws) => do
      let rooms ← add lobby.rooms { code, host := c }
      let directory ← place lobby.directory c (some code)
      return ⟨.ok (.opened code), { lobby with rooms, directory, draws },
        [.notify c (.roomCode code)]⟩
  | .join code =>
    match lobby.rooms[code]? with
    | none => return lobby.perform c (.join code)
    | some found => do
      let others ← found.members.mapM (record lobby.directory)
      -- the room is looked up once more to add the guest
      let joined ← room lobby.rooms code
      let directory ← place lobby.directory c (some code)
      return ⟨.ok .done,
        { lobby with rooms := lobby.rooms.insert code (joined.addGuest c), directory },
        Message.broadcast found.members (.memberJoined client.member) ++
          [.notify c (.roomMembers (others.map Client.member))]⟩
  | operation => return lobby.perform c operation

def guest (lobby : Lobby) (c : ConnectionId) (code : RoomCode) :
    Operation → Except Lapse (Outcome (Answer Reply))
  | .disconnect => withdraw lobby c code >>= forget c
  | .leave => do
    let (left, messages) ← withdraw lobby c code
    return ⟨.ok .done, left, messages⟩
  | .relay data mode => do
    let visited ← room lobby.rooms code
    return ⟨.ok (.passedOn 1), lobby, [.forward visited.host data mode]⟩
  | operation => return lobby.perform c operation

def host (lobby : Lobby) (c : ConnectionId) (code : RoomCode) :
    Operation → Except Lapse (Outcome (Answer Reply))
  | .disconnect => disband lobby code (some c) >>= forget c
  | .start => do
    let started ← room lobby.rooms code
    return ⟨.ok .done, lobby, Message.broadcast started.members .roomStart⟩
  | .close => do
    let (closed, messages) ← disband lobby code none
    return ⟨.ok .done, closed, messages⟩
  | .relay data mode => do
    let hosted ← room lobby.rooms code
    return ⟨.ok (.passedOn hosted.guests.length), lobby, hosted.guests.map (.forward · data mode)⟩
  | operation => return lobby.perform c operation

def perform (lobby : Lobby) (c : ConnectionId) (operation : Operation) :
    Except Lapse (Outcome (Answer Reply)) :=
  match lobby.directory.get? c with
  | none => return lobby.perform c operation
  | some client => do
    match ← roleOf lobby c client with
    | .outside => outside lobby c client operation
    | .guest code => guest lobby c code operation
    | .host code => host lobby c code operation

/-- A client that names a room that is not open is found out. -/
example :
    let stray : Client := { id := ⟨1⟩, connection := ⟨1⟩, room := some ⟨7⟩ }
    let lobby : Lobby :=
      { limits := {}, draws := Draws.ofList [], directory := ⟨{(⟨1⟩, stray)}, 2⟩ }
    lobby.role? ⟨1⟩ = some .outside ∧ role? lobby ⟨1⟩ = .error (.noRoom ⟨7⟩) := by
  decide +kernel

/-! ## Wherever they do not give up

Each part does what the operation's own part does, so an operation that does not give up has
the same outcome.  The lobby may be any: nothing is said about when this is so. -/

section Agreement

variable {lobby : Lobby} {c : ConnectionId} {client : Client} {code : RoomCode}
  {directory after : Directory} {rooms : RoomTable}

theorem of_bind_ok {α β : Type} {first : Except Lapse α} {rest : α → Except Lapse β} {b : β}
    (done : first >>= rest = .ok b) : ∃ a, first = .ok a ∧ rest a = .ok b := by
  cases first with
  | error lapse => cases done
  | ok a => exact ⟨a, rfl, done⟩

theorem of_record (done : record directory c = .ok client) : directory.get? c = some client := by
  rw [record] at done
  split at done
  next known => cases done; exact known
  next => cases done

theorem of_room {found : Room} (done : room rooms code = .ok found) :
    rooms[code]? = some found := by
  rw [room] at done
  split at done
  next stored => cases done; exact stored
  next => cases done

theorem of_add {opened : Room} {after : RoomTable} (done : add rooms opened = .ok after) :
    after = (rooms.add opened).2 := by
  rw [add] at done
  split at done
  next added => cases done; rw [added]
  next => cases done

theorem of_place {destination : Option RoomCode}
    (done : place directory c destination = .ok after) :
    after = directory.place c destination := by
  obtain ⟨client, -, last⟩ := of_bind_ok done
  cases last
  rfl

theorem of_foldlM_place {members : List ConnectionId}
    (done : members.foldlM (fun directory c => place directory c none) directory = .ok after) :
    after = members.foldl (fun directory c => directory.place c none) directory := by
  induction members generalizing directory with
  | nil => cases done; rfl
  | cons member members inductionHypothesis =>
    obtain ⟨next, placed, onward⟩ := of_bind_ok done
    rw [inductionHypothesis onward, of_place placed, List.foldl_cons]

theorem of_removeGuest {found left : Room} (done : removeGuest found c = .ok left) :
    left = found.removeGuest c := by
  rw [removeGuest] at done
  split at done
  next => cases done; rfl
  next => cases done

theorem of_roleOf {role : Role} (done : roleOf lobby c client = .ok role) :
    role = lobby.roleOf c client := by
  rw [roleOf] at done
  split at done
  next unnamed =>
    cases done
    rw [Lobby.roleOf, Lobby.roomOf, unnamed]
    rfl
  next code named =>
    obtain ⟨found, looked, last⟩ := of_bind_ok done
    cases last
    rw [Lobby.roleOf, Lobby.roomOf, named, Option.bind_some, of_room looked]

theorem of_mapM_record {members : List ConnectionId} {others : List Client}
    (done : members.mapM (record directory) = .ok others) :
    members.filterMap (fun c => (directory.get? c).map Client.member) =
      others.map Client.member := by
  induction members generalizing others with
  | nil => cases done; rfl
  | cons member members inductionHypothesis =>
    rw [List.mapM_cons] at done
    obtain ⟨first, looked, onward⟩ := of_bind_ok done
    obtain ⟨rest, lookedRest, last⟩ := of_bind_ok onward
    cases last
    rw [List.map_cons, ← inductionHypothesis lookedRest]
    exact List.filterMap_cons_some (by rw [of_record looked, Option.map_some])

theorem of_withdraw {result : Lobby × List Message}
    (known : lobby.directory.get? c = some client) (done : withdraw lobby c code = .ok result) :
    result = lobby.withdraw c client.id code := by
  obtain ⟨client', looked, onward⟩ := of_bind_ok done
  obtain ⟨found, lookedRoom, onward⟩ := of_bind_ok onward
  obtain ⟨left, removed, onward⟩ := of_bind_ok onward
  obtain ⟨after, placed, last⟩ := of_bind_ok onward
  cases last
  obtain rfl : client = client' := Option.some.inj (known.symm.trans (of_record looked))
  simp only [Lobby.withdraw, of_room lookedRoom, of_removeGuest removed, of_place placed]

theorem of_disband {gone : Option ConnectionId} {result : Lobby × List Message}
    (done : disband lobby code gone = .ok result) : result = lobby.disband code gone := by
  obtain ⟨found, looked, onward⟩ := of_bind_ok done
  obtain ⟨after, placed, last⟩ := of_bind_ok onward
  cases last
  simp only [Lobby.disband, of_room looked, of_foldlM_place placed]

theorem of_forget {released : Lobby × List Message} {outcome : Outcome (Answer Reply)}
    (done : forget c released = .ok outcome) :
    outcome = ⟨.ok (.removed (released.1.directory.get? c)), released.1.forget c, released.2⟩ := by
  obtain ⟨removed, looked, last⟩ := of_bind_ok done
  cases last
  rw [of_record looked]

section Standing

variable {operation : Operation} {outcome : Outcome (Answer Reply)}
  (known : lobby.directory.get? c = some client)

include known

theorem of_outside (role : lobby.roleOf c client = .outside)
    (done : outside lobby c client operation = .ok outcome) :
    lobby.perform c operation = outcome := by
  cases operation with
  | create =>
    cases picked : lobby.rooms.allocate lobby.limits lobby.draws with
    | mk result draws =>
      simp only [outside, picked] at done
      cases result with
      | error => cases done; rfl
      | ok code =>
        obtain ⟨rooms, added, onward⟩ := of_bind_ok done
        obtain ⟨directory, placed, last⟩ := of_bind_ok onward
        cases last
        rw [of_add added, of_place placed]
        simp only [Lobby.perform, Lobby.create, Lobby.withClient_record known, role, picked]
        rfl
  | join code =>
    cases stored : lobby.rooms[code]? with
    | none => simp only [outside, stored] at done; cases done; rfl
    | some found =>
      simp only [outside, stored] at done
      obtain ⟨others, looked, onward⟩ := of_bind_ok done
      obtain ⟨joined, lookedAgain, onward⟩ := of_bind_ok onward
      obtain ⟨directory, placed, last⟩ := of_bind_ok onward
      cases last
      -- nothing has changed since the room was first looked up
      obtain rfl : found = joined := Option.some.inj (stored.symm.trans (of_room lookedAgain))
      rw [of_place placed, ← of_mapM_record looked]
      simp only [Lobby.perform, Lobby.join, Lobby.withClient_record known, role, stored]
      rfl
  | connect | disconnect | setName | leave | start | close | relay => cases done; rfl

theorem of_guest (role : lobby.roleOf c client = .guest code)
    (done : guest lobby c code operation = .ok outcome) :
    lobby.perform c operation = outcome := by
  cases operation with
  | disconnect =>
    obtain ⟨released, withdrawn, onward⟩ := of_bind_ok done
    rw [of_forget onward, of_withdraw known withdrawn]
    simp only [Lobby.perform, Lobby.disconnect, known, role]
    rfl
  | leave =>
    obtain ⟨left, withdrawn, last⟩ := of_bind_ok done
    cases last
    rw [of_withdraw known withdrawn]
    simp only [Lobby.perform, Lobby.leave, Lobby.withClient_record known, role]
    rfl
  | relay data mode =>
    obtain ⟨visited, looked, last⟩ := of_bind_ok done
    cases last
    simp only [Lobby.perform, Lobby.relay, Lobby.withClient_record known, role, of_room looked]
    rfl
  | connect | setName | create | join | start | close => cases done; rfl

theorem of_host (role : lobby.roleOf c client = .host code)
    (done : host lobby c code operation = .ok outcome) :
    lobby.perform c operation = outcome := by
  cases operation with
  | disconnect =>
    obtain ⟨released, disbanded, onward⟩ := of_bind_ok done
    rw [of_forget onward, of_disband disbanded]
    simp only [Lobby.perform, Lobby.disconnect, known, role]
    rfl
  | start =>
    obtain ⟨started, looked, last⟩ := of_bind_ok done
    cases last
    simp only [Lobby.perform, Lobby.start, Lobby.withClient_record known, role, of_room looked]
    rfl
  | close =>
    obtain ⟨closed, disbanded, last⟩ := of_bind_ok done
    cases last
    rw [of_disband disbanded]
    simp only [Lobby.perform, Lobby.close, Lobby.withClient_record known, role]
    rfl
  | relay data mode =>
    obtain ⟨hosted, looked, last⟩ := of_bind_ok done
    cases last
    simp only [Lobby.perform, Lobby.relay, Lobby.withClient_record known, role, of_room looked]
    rfl
  | connect | setName | create | join | leave => cases done; rfl

end Standing

theorem perform_of_strict {operation : Operation} {outcome : Outcome (Answer Reply)}
    (done : perform lobby c operation = .ok outcome) :
    lobby.perform c operation = outcome := by
  cases known : lobby.directory.get? c with
  | none =>
    simp only [perform, known] at done
    cases done
    rfl
  | some client =>
    simp only [perform, known] at done
    obtain ⟨role, stands, onward⟩ := of_bind_ok done
    have role_eq := of_roleOf stands
    cases role with
    | outside => exact of_outside known role_eq.symm onward
    | guest code => exact of_guest known role_eq.symm onward
    | host code => exact of_host known role_eq.symm onward

theorem role?_of_strict {role : Option Role} (done : role? lobby c = .ok role) :
    lobby.role? c = role := by
  cases known : lobby.directory.get? c with
  | none =>
    simp only [role?, known] at done
    cases done
    exact Lobby.role?_eq_none_iff.mpr known
  | some client =>
    simp only [role?, known, map_eq_pure_bind] at done
    obtain ⟨role, stands, last⟩ := of_bind_ok done
    cases last
    rw [Lobby.role?_of_record known, of_roleOf stands]

end Agreement

/-! ## Where they do not give up

In a consistent lobby every look-up finds what it looks for. -/

section Progress

variable {lobby : Lobby} {c : ConnectionId} {client : Client} {code : RoomCode} {found : Room}
  {directory : Directory} {rooms : RoomTable}

theorem exists_bind {α β : Type} {first : Except Lapse α} {rest : α → Except Lapse β} {a : α}
    (done : first = .ok a) (onward : ∃ b, rest a = .ok b) : ∃ b, first >>= rest = .ok b := by
  subst done
  exact onward

theorem record_eq (known : directory.get? c = some client) : record directory c = .ok client := by
  rw [record, known]

theorem room_eq (stored : rooms[code]? = some found) : room rooms code = .ok found := by
  rw [room, stored]

theorem add_eq (free : rooms[found.code]? = none) :
    add rooms found = .ok (rooms.insert found.code found) := by
  rw [add, RoomTable.add_free rooms found free]

theorem place_eq (known : directory.get? c = some client) (destination : Option RoomCode) :
    place directory c destination = .ok (directory.place c destination) := by
  rw [place, record_eq known]
  rfl

theorem exists_mapM_record {members : List ConnectionId}
    (known : ∀ c ∈ members, ∃ client, directory.get? c = some client) :
    ∃ others, members.mapM (record directory) = .ok others := by
  induction members with
  | nil => exact ⟨[], rfl⟩
  | cons member members inductionHypothesis =>
    obtain ⟨⟨client, first⟩, others⟩ := List.forall_mem_cons.mp known
    obtain ⟨rest, looked⟩ := inductionHypothesis others
    rw [List.mapM_cons]
    exact exists_bind (record_eq first) (exists_bind looked ⟨_, rfl⟩)

theorem exists_foldlM_place {members : List ConnectionId}
    (known : ∀ c ∈ members, ∃ client, directory.get? c = some client) :
    ∃ after,
      members.foldlM (fun directory c => place directory c none) directory = .ok after := by
  induction members generalizing directory with
  | nil => exact ⟨directory, rfl⟩
  | cons member members inductionHypothesis =>
    obtain ⟨⟨client, first⟩, others⟩ := List.forall_mem_cons.mp known
    refine exists_bind (place_eq first none) (inductionHypothesis fun c listed => ?_)
    -- placing a client changes its record and takes none away, so whoever is still to be
    -- placed has one
    obtain ⟨client, registered⟩ := others c listed
    rw [Directory.get?_place, registered]
    split <;> exact ⟨_, rfl⟩

theorem exists_withdraw (visits : lobby.Visits c client code found) :
    ∃ result, withdraw lobby c code = .ok result := by
  refine exists_bind (record_eq visits.record) ?_
  refine exists_bind (room_eq visits.stored) ?_
  refine exists_bind (if_pos visits.guest) ?_
  exact exists_bind (place_eq visits.record none) ⟨_, rfl⟩

theorem exists_disband (consistent : lobby.Consistent)
    (stored : lobby.rooms[code]? = some found) (gone : Option ConnectionId) :
    ∃ result, disband lobby code gone = .ok result := by
  obtain ⟨after, placed⟩ := exists_foldlM_place (consistent.members_known stored)
  exact exists_bind (room_eq stored) (exists_bind placed ⟨_, rfl⟩)

theorem exists_outside (outsider : lobby.Outside c client) (consistent : lobby.Consistent)
    (operation : Operation) : ∃ outcome, outside lobby c client operation = .ok outcome := by
  cases operation with
  | create =>
    obtain ⟨-, declined⟩ | ⟨-, code, draws, picked, -, free⟩ :=
      RoomTable.allocate_cases lobby.rooms lobby.limits lobby.draws
    · simp only [outside, declined]
      exact ⟨_, rfl⟩
    · simp only [outside, picked]
      refine exists_bind (add_eq free) ?_
      exact exists_bind (place_eq outsider.record (some code)) ⟨_, rfl⟩
  | join code =>
    cases stored : lobby.rooms[code]? with
    | none =>
      simp only [outside, stored]
      exact ⟨_, rfl⟩
    | some found =>
      simp only [outside, stored]
      obtain ⟨others, looked⟩ := exists_mapM_record (consistent.members_known stored)
      refine exists_bind looked ?_
      refine exists_bind (room_eq stored) ?_
      exact exists_bind (place_eq outsider.record (some code)) ⟨_, rfl⟩
  | connect | disconnect | setName | leave | start | close | relay => exact ⟨_, rfl⟩

theorem exists_guest (visits : lobby.Visits c client code found) (operation : Operation) :
    ∃ outcome, guest lobby c code operation = .ok outcome := by
  obtain ⟨left, withdrawn⟩ := exists_withdraw visits
  cases operation with
  | disconnect =>
    have seated := of_withdraw visits.record withdrawn
    rw [Lobby.withdraw_eq c visits.stored] at seated
    have remains : left.1.directory.get? c = some { client with room := none } := by
      rw [seated, Lobby.get?_seat, if_pos rfl, visits.record, Option.map_some]
    exact exists_bind withdrawn (exists_bind (record_eq remains) ⟨_, rfl⟩)
  | leave => exact exists_bind withdrawn ⟨_, rfl⟩
  | relay => exact exists_bind (room_eq visits.stored) ⟨_, rfl⟩
  | connect | setName | create | join | start | close => exact ⟨_, rfl⟩

theorem exists_host (hosts : lobby.Hosts c client code found) (consistent : lobby.Consistent)
    (operation : Operation) : ∃ outcome, host lobby c code operation = .ok outcome := by
  cases operation with
  | disconnect =>
    obtain ⟨released, disbanded⟩ := exists_disband consistent hosts.stored (some c)
    have released_eq := of_disband disbanded
    rw [Lobby.disband_eq hosts.stored] at released_eq
    -- the host is placed outside with the others, and its record is still there
    have remains : released.1.directory.get? c = some { client with room := none } := by
      rw [released_eq, Lobby.get?_release, if_pos hosts.member, hosts.record, Option.map_some]
    exact exists_bind disbanded (exists_bind (record_eq remains) ⟨_, rfl⟩)
  | close =>
    obtain ⟨closed, disbanded⟩ := exists_disband consistent hosts.stored none
    exact exists_bind disbanded ⟨_, rfl⟩
  | start | relay => exact exists_bind (room_eq hosts.stored) ⟨_, rfl⟩
  | connect | setName | create | join | leave => exact ⟨_, rfl⟩

theorem exists_roleOf (consistent : lobby.Consistent)
    (known : lobby.directory.get? c = some client) :
    ∃ role, roleOf lobby c client = .ok role := by
  rw [roleOf]
  cases named : client.room with
  | none => exact ⟨_, rfl⟩
  | some code =>
    -- a record names no room that is not open
    obtain ⟨found, stored, -⟩ := consistent.room_of_record known named
    exact exists_bind (room_eq stored) ⟨_, rfl⟩

theorem role?_eq (consistent : lobby.Consistent) (c : ConnectionId) :
    role? lobby c = .ok (lobby.role? c) := by
  have answered : ∃ role, role? lobby c = .ok role := by
    rw [role?]
    cases known : lobby.directory.get? c with
    | none => exact ⟨_, rfl⟩
    | some client =>
      obtain ⟨role, stands⟩ := exists_roleOf consistent known
      refine ⟨some role, ?_⟩
      change some <$> roleOf lobby c client = .ok (some role)
      rw [stands]
      rfl
  obtain ⟨role, done⟩ := answered
  rw [role?_of_strict done, done]

theorem perform_eq (consistent : lobby.Consistent) (c : ConnectionId) (operation : Operation) :
    perform lobby c operation = .ok (lobby.perform c operation) := by
  have answered : ∃ outcome, perform lobby c operation = .ok outcome := by
    rw [perform]
    cases known : lobby.directory.get? c with
    | none => exact ⟨_, rfl⟩
    | some client =>
      obtain ⟨role, stands⟩ := exists_roleOf consistent known
      refine exists_bind stands ?_
      rw [of_roleOf stands]
      obtain outsider | ⟨code, found, hosts⟩ | ⟨code, found, visits⟩ := consistent.standing known
      · rw [outsider.roleOf_eq]
        exact exists_outside outsider consistent operation
      · rw [hosts.roleOf_eq consistent]
        exact exists_host hosts consistent operation
      · rw [visits.roleOf_eq consistent]
        exact exists_guest visits operation
  obtain ⟨outcome, done⟩ := answered
  rw [perform_of_strict done, done]

end Progress

end Strict

/-- In every lobby that a history leads to, whatever a connection does finds all that it looks
    up.  A record that names a room names an open one, so nobody counts as outside by mistake.
    A new room is added under its code.  Every member of a room that is joined is on the
    roster, and the room is there when the guest is added.  A guest that leaves is found in
    its room and removed.  Every member of a room that closes, one after another, has the
    record that is changed.  And the room of a host that starts it, or of anybody who sends
    something, is there. -/
theorem Lobby.nothing_missing (limits : Limits) (draws : Draws)
    (history : List (ConnectionId × Operation)) (c : ConnectionId) (operation : Operation) :
    let lobby := (Lobby.empty limits draws).after history
    Strict.role? lobby c = .ok (lobby.role? c) ∧
      Strict.perform lobby c operation = .ok (lobby.perform c operation) := by
  intro lobby
  have consistent : lobby.Consistent := consistent_after limits draws history
  exact ⟨Strict.role?_eq consistent c, Strict.perform_eq consistent c operation⟩

end Rendezvous

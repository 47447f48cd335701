import Rendezvous.Lobby.Operation
import Rendezvous.Proofs.Lobby.Allocation
import Rendezvous.Proofs.Lobby.Standing

/-! # What an operation does

`Step` lists everything that an operation can do to a consistent lobby, one case
for each way that it can turn out: its answer, the lobby after it and its
messages.  `Declines` lists the reasons to decline.

`perform_step` says that `perform` is one of these steps, and `Step.perform_eq` that
it is whichever is possible.  Whatever holds of every step is proved by cases on
`Step`, and no later proof opens an operation.
-/

namespace Rendezvous

/-! ## Kinds of operation -/

namespace Operation

/-- Whether an operation is declined when the connection has no record. -/
def needsClient : Operation → Bool
  | .connect | .disconnect => false
  | _ => true

def entersRoom : Operation → Bool
  | .create | .join _ => true
  | _ => false

/-- Whether an operation is declined to a client in no room. -/
def needsRoom : Operation → Bool
  | .leave | .start | .close | .relay .. => true
  | _ => false

end Operation

/-- Picking messages of a notice to many by their recipients is picking the recipients. -/
theorem Message.filter_broadcast (recipients : List ConnectionId) (notice : Wire.Notice)
    (picked : ConnectionId → Bool) :
    (broadcast recipients notice).filter (fun message => picked message.recipient) =
      broadcast (recipients.filter picked) notice :=
  List.filter_map

namespace Lobby

open Rendezvous.Wire (Bytes)

/-- Why an operation of a connection is declined. -/
inductive Declines (lobby : Lobby) (c : ConnectionId) : Operation → Refusal → Prop
  | unknown {operation : Operation} (needs : operation.needsClient = true)
      (absent : lobby.directory.get? c = none) :
      Declines lobby c operation (.unknownConnection c)
  | nameTooLong {client : Client} {name : String}
      (record : lobby.directory.get? c = some client)
      (long : lobby.limits.maxNameLength < name.utf8ByteSize) :
      Declines lobby c (.setName name)
        (.nameTooLong name.utf8ByteSize lobby.limits.maxNameLength)
  | hostInside {operation : Operation} {client : Client} {code : RoomCode} {room : Room}
      (enters : operation.entersRoom = true) (hosts : lobby.Hosts c client code room) :
      Declines lobby c operation .alreadyInRoom
  | guestInside {operation : Operation} {client : Client} {code : RoomCode} {room : Room}
      (enters : operation.entersRoom = true) (visits : lobby.Visits c client code room) :
      Declines lobby c operation .alreadyInRoom
  | exhausted {client : Client} (outside : lobby.Outside c client)
      (full : lobby.limits.codeSpace.toNat ≤ lobby.rooms.size) :
      Declines lobby c .create .codesExhausted
  | noSuchRoom {client : Client} {code : RoomCode} (outside : lobby.Outside c client)
      (closed : lobby.rooms[code]? = none) :
      Declines lobby c (.join code) (.invalidRoomCode code)
  | notInside {operation : Operation} {client : Client} (needs : operation.needsRoom = true)
      (outside : lobby.Outside c client) :
      Declines lobby c operation .notInRoom
  | hostStays {client : Client} {code : RoomCode} {room : Room}
      (hosts : lobby.Hosts c client code room) :
      Declines lobby c .leave .hostCannotLeave
  | guestStarts {client : Client} {code : RoomCode} {room : Room}
      (visits : lobby.Visits c client code room) :
      Declines lobby c .start .guestCannotStart
  | guestCloses {client : Client} {code : RoomCode} {room : Room}
      (visits : lobby.Visits c client code room) :
      Declines lobby c .close .guestCannotClose

/-- What an operation of a connection does. -/
inductive Step (lobby : Lobby) (c : ConnectionId) : Operation → Outcome (Answer Reply) → Prop
  | declined {operation : Operation} {refusal : Refusal}
      (declines : lobby.Declines c operation refusal) :
      Step lobby c operation ⟨.error refusal, lobby, []⟩
  | reconnect {client : Client} (record : lobby.directory.get? c = some client) :
      Step lobby c .connect ⟨.ok (.connected client.id), lobby, []⟩
  | enroll (fresh : lobby.directory.get? c = none) :
      Step lobby c .connect
        ⟨.ok (.connected ⟨lobby.directory.nextId⟩), lobby.enroll c,
          [.notify c (.clientId ⟨lobby.directory.nextId⟩)]⟩
  | absent (absent : lobby.directory.get? c = none) :
      Step lobby c .disconnect ⟨.ok (.removed none), lobby, []⟩
  | depart {client : Client} (outside : lobby.Outside c client) :
      Step lobby c .disconnect ⟨.ok (.removed (some client)), lobby.forget c, []⟩
  | departHost {client : Client} {code : RoomCode} {room : Room}
      (hosts : lobby.Hosts c client code room) :
      Step lobby c .disconnect
        ⟨.ok (.removed (some { client with room := none })), (lobby.release code room).forget c,
          Message.broadcast room.guests .roomClosed⟩
  | departGuest {client : Client} {code : RoomCode} {room : Room}
      (visits : lobby.Visits c client code room) :
      Step lobby c .disconnect
        ⟨.ok (.removed (some { client with room := none })),
          (lobby.seat c code (room.removeGuest c) none).forget c,
          Message.broadcast (room.removeGuest c).members (.memberLeft client.id)⟩
  | rename {client : Client} {name : String}
      (record : lobby.directory.get? c = some client)
      (short : name.utf8ByteSize ≤ lobby.limits.maxNameLength) :
      Step lobby c (.setName name) ⟨.ok .done, lobby.rename c name, []⟩
  | create {client : Client} {code : RoomCode} {after : Draws}
      (outside : lobby.Outside c client)
      (spare : lobby.rooms.size < lobby.limits.codeSpace.toNat)
      (inSpace : code.val < lobby.limits.codeSpace) (free : lobby.rooms[code]? = none) :
      Step lobby c .create
        ⟨.ok (.opened code),
          { lobby.seat c code { code, host := c } (some code) with draws := after },
          [.notify c (.roomCode code)]⟩
  | join {client : Client} {code : RoomCode} {room : Room} (outside : lobby.Outside c client)
      (stored : lobby.rooms[code]? = some room) :
      Step lobby c (.join code)
        ⟨.ok .done, lobby.seat c code (room.addGuest c) (some code),
          Message.broadcast room.members (.memberJoined client.member) ++
            [.notify c (.roomMembers (lobby.roster room))]⟩
  | leave {client : Client} {code : RoomCode} {room : Room}
      (visits : lobby.Visits c client code room) :
      Step lobby c .leave
        ⟨.ok .done, lobby.seat c code (room.removeGuest c) none,
          Message.broadcast (room.removeGuest c).members (.memberLeft client.id)⟩
  | start {client : Client} {code : RoomCode} {room : Room}
      (hosts : lobby.Hosts c client code room) :
      Step lobby c .start ⟨.ok .done, lobby, Message.broadcast room.members .roomStart⟩
  | close {client : Client} {code : RoomCode} {room : Room}
      (hosts : lobby.Hosts c client code room) :
      Step lobby c .close
        ⟨.ok .done, lobby.release code room, Message.broadcast room.members .roomClosed⟩
  | relayToGuests {client : Client} {code : RoomCode} {room : Room} {data : Bytes}
      {mode : DeliveryMode} (hosts : lobby.Hosts c client code room) :
      Step lobby c (.relay data mode)
        ⟨.ok (.passedOn room.guests.length), lobby, room.guests.map (.forward · data mode)⟩
  | relayToHost {client : Client} {code : RoomCode} {room : Room} {data : Bytes}
      {mode : DeliveryMode} (visits : lobby.Visits c client code room) :
      Step lobby c (.relay data mode)
        ⟨.ok (.passedOn 1), lobby, [.forward room.host data mode]⟩

variable {lobby : Lobby} {c : ConnectionId}

/-- An operation is declined for the same reason in another lobby, if the connection
    stands there as it does here. -/
theorem Declines.transfer {lobby' : Lobby} {operation : Operation} {refusal : Refusal}
    (declines : lobby.Declines c operation refusal) (limits : lobby'.limits = lobby.limits)
    (record : lobby'.directory.get? c = lobby.directory.get? c)
    (hosting : ∀ {client : Client} {code : RoomCode} {room : Room},
      lobby.Hosts c client code room → ∃ room', lobby'.Hosts c client code room')
    (visiting : ∀ {client : Client} {code : RoomCode} {room : Room},
      lobby.Visits c client code room → ∃ room', lobby'.Visits c client code room')
    (shut : ∀ code, operation = .join code →
      lobby.rooms[code]? = none → lobby'.rooms[code]? = none)
    (size : operation = .create → lobby'.rooms.size = lobby.rooms.size) :
    lobby'.Declines c operation refusal := by
  have stays : ∀ {client : Client}, lobby.Outside c client → lobby'.Outside c client :=
    fun outside => ⟨record.trans outside.record, outside.room_eq⟩
  cases declines with
  | unknown needs absent => exact .unknown needs (record.trans absent)
  | nameTooLong known long =>
    rw [← limits] at long ⊢
    exact .nameTooLong (record.trans known) long
  | hostInside enters hosts =>
    obtain ⟨room', hosts'⟩ := hosting hosts
    exact .hostInside enters hosts'
  | guestInside enters visits =>
    obtain ⟨room', visits'⟩ := visiting visits
    exact .guestInside enters visits'
  | exhausted outside full =>
    rw [← limits, ← size rfl] at full
    exact .exhausted (stays outside) full
  | noSuchRoom outside closed => exact .noSuchRoom (stays outside) (shut _ rfl closed)
  | notInside needs outside => exact .notInside needs (stays outside)
  | hostStays hosts =>
    obtain ⟨room', hosts'⟩ := hosting hosts
    exact .hostStays hosts'
  | guestStarts visits =>
    obtain ⟨room', visits'⟩ := visiting visits
    exact .guestStarts visits'
  | guestCloses visits =>
    obtain ⟨room', visits'⟩ := visiting visits
    exact .guestCloses visits'

/-! ## Every step is performed

A step says what the operation answers and does: where it is possible, it is what is
performed.  Only the code of a new room is not settled by the step, since it is drawn.
-/

theorem withClient_absent {α : Type} {operation : Client → Outcome (Answer α)}
    (absent : lobby.directory.get? c = none) :
    lobby.withClient c operation = lobby.refuse (.unknownConnection c) := by
  rw [withClient, absent]

theorem withClient_record {α : Type} {operation : Client → Outcome (Answer α)} {client : Client}
    (record : lobby.directory.get? c = some client) :
    lobby.withClient c operation = operation client := by
  rw [withClient, record]

/-- A host that goes away is told nothing, and it is no guest: the guests are told. -/
theorem Hosts.told_eq {client : Client} {code : RoomCode} {room : Room}
    (hosts : lobby.Hosts c client code room) (consistent : lobby.Consistent) :
    (room.members.filter fun d => some d ≠ some c) = room.guests := by
  have hostNotGuest := consistent.host_not_guest hosts.stored
  rw [Room.members, hosts.host_eq, List.filter_cons_of_neg (by simp)]
  rw [hosts.host_eq] at hostNotGuest
  refine List.filter_eq_self.mpr fun d guest => ?_
  simpa using fun same : d = c => hostNotGuest (same ▸ guest)

theorem Declines.perform_eq {operation : Operation} {refusal : Refusal}
    (declines : lobby.Declines c operation refusal) (consistent : lobby.Consistent) :
    lobby.perform c operation = ⟨.error refusal, lobby, []⟩ := by
  cases declines with
  | unknown needs absent =>
    cases operation <;> cases needs <;>
      simp [perform, setName, create, join, leave, start, close, relay, withClient_absent absent,
        refuse, Outcome.map, Except.map]
  | nameTooLong record long =>
    simp [perform, setName, withClient_record record, long, refuse, Outcome.map, Except.map]
  | hostInside enters hosts =>
    cases operation <;> cases enters <;>
      simp [perform, create, join, withClient_record hosts.record, hosts.roleOf_eq consistent,
        refuse, Outcome.map, Except.map]
  | guestInside enters visits =>
    cases operation <;> cases enters <;>
      simp [perform, create, join, withClient_record visits.record, visits.roleOf_eq consistent,
        refuse, Outcome.map, Except.map]
  | exhausted outside full =>
    simp [perform, create, withClient_record outside.record, outside.roleOf_eq,
      RoomTable.allocate, full, refuse, Outcome.map, Except.map]
  | noSuchRoom outside closed =>
    simp [perform, join, withClient_record outside.record, outside.roleOf_eq, closed, refuse,
      Outcome.map, Except.map]
  | notInside needs outside =>
    cases operation <;> cases needs <;>
      simp [perform, leave, start, close, relay, withClient_record outside.record,
        outside.roleOf_eq, refuse, Outcome.map, Except.map]
  | hostStays hosts =>
    simp [perform, leave, withClient_record hosts.record, hosts.roleOf_eq consistent, refuse,
      Outcome.map, Except.map]
  | guestStarts visits =>
    simp [perform, start, withClient_record visits.record, visits.roleOf_eq consistent, refuse,
      Outcome.map, Except.map]
  | guestCloses visits =>
    simp [perform, close, withClient_record visits.record, visits.roleOf_eq consistent, refuse,
      Outcome.map, Except.map]

/-- Every step but the opening of a room is the one that is performed. -/
theorem Step.perform_eq {operation : Operation} {outcome : Outcome (Answer Reply)}
    (step : Step lobby c operation outcome) (consistent : lobby.Consistent)
    (settled : operation ≠ .create) : lobby.perform c operation = outcome := by
  cases step with
  | declined declines => exact declines.perform_eq consistent
  | reconnect record => simp [perform, Lobby.connect, record, Outcome.map]
  | enroll fresh =>
    simp only [perform, Lobby.connect, fresh]
    rw [Directory.register_fresh _ _ fresh]
    rfl
  | absent absent => simp [perform, Lobby.disconnect, absent, Outcome.map]
  | depart outside =>
    simp [perform, Lobby.disconnect, outside.record, outside.roleOf_eq, Outcome.map, forget]
  | departHost hosts =>
    simp only [perform, Lobby.disconnect, hosts.record, hosts.roleOf_eq consistent,
      disband_eq hosts.stored, get?_release, hosts.member, if_true, Option.map_some,
      hosts.told_eq consistent]
    rfl
  | departGuest visits =>
    simp [perform, Lobby.disconnect, visits.record, visits.roleOf_eq consistent,
      withdraw_eq c visits.stored, get?_seat, Outcome.map, forget]
  | rename record short =>
    simp [perform, Lobby.setName, withClient_record record, Nat.not_lt.mpr short, Outcome.map,
      Except.map, Lobby.rename]
  | create => exact absurd rfl settled
  | join outside stored =>
    simp [perform, Lobby.join, withClient_record outside.record, outside.roleOf_eq, stored,
      Outcome.map, Except.map, seat]
  | leave visits =>
    simp [perform, Lobby.leave, withClient_record visits.record, visits.roleOf_eq consistent,
      withdraw_eq c visits.stored, Outcome.map, Except.map]
  | start hosts =>
    simp [perform, Lobby.start, withClient_record hosts.record, hosts.roleOf_eq consistent,
      hosts.stored, Outcome.map, Except.map]
  | close hosts =>
    simp [perform, Lobby.close, withClient_record hosts.record, hosts.roleOf_eq consistent,
      disband_eq hosts.stored, Outcome.map, Except.map]
  | relayToGuests hosts =>
    simp [perform, Lobby.relay, withClient_record hosts.record, hosts.roleOf_eq consistent,
      hosts.stored, Outcome.map, Except.map]
  | relayToHost visits =>
    simp [perform, Lobby.relay, withClient_record visits.record, visits.roleOf_eq consistent,
      visits.stored, Outcome.map, Except.map]

/-! An operation is what is performed, but for the form of its answer. -/

theorem of_performed_done {outcome : Outcome (Answer Unit)} {after : Lobby}
    {messages : List Message}
    (performed : (outcome.map fun answer => answer.map fun _ => Reply.done) =
      ⟨.ok .done, after, messages⟩) : outcome = ⟨.ok (), after, messages⟩ := by
  obtain ⟨answer, left, told⟩ := outcome
  cases answer with
  | error refusal => simp [Outcome.map, Except.map] at performed
  | ok => simpa [Outcome.map, Except.map] using performed

theorem of_performed_removed {outcome : Outcome (Option Client)} {removed : Option Client}
    {after : Lobby} {messages : List Message}
    (performed : (outcome.map fun client => (.ok (.removed client) : Answer Reply)) =
      ⟨.ok (.removed removed), after, messages⟩) : outcome = ⟨removed, after, messages⟩ := by
  obtain ⟨client, left, told⟩ := outcome
  simpa [Outcome.map] using performed

/-- A client that is in no room opens one under the code that is picked. -/
theorem Outside.perform_create {client : Client} {code : RoomCode} {after : Draws}
    (outside : lobby.Outside c client)
    (picked : lobby.rooms.allocate lobby.limits lobby.draws = (.ok code, after))
    (free : lobby.rooms[code]? = none) :
    lobby.perform c .create =
      ⟨.ok (.opened code),
        { lobby.seat c code { code, host := c } (some code) with draws := after },
        [.notify c (.roomCode code)]⟩ := by
  simp [perform, create, withClient_record outside.record, outside.roleOf_eq, picked,
    RoomTable.add_free lobby.rooms { code, host := c } free, Outcome.map, Except.map, seat]

/-! ## Every operation is a step -/

theorem Declines.performed {operation : Operation} {refusal : Refusal}
    (declines : lobby.Declines c operation refusal) (consistent : lobby.Consistent) :
    Step lobby c operation (lobby.perform c operation) := by
  rw [declines.perform_eq consistent]
  exact .declined declines

theorem Step.performed {operation : Operation} {outcome : Outcome (Answer Reply)}
    (step : Step lobby c operation outcome) (consistent : lobby.Consistent)
    (settled : operation ≠ .create) : Step lobby c operation (lobby.perform c operation) := by
  rw [step.perform_eq consistent settled]
  exact step

theorem setName_step (consistent : lobby.Consistent) {client : Client}
    (record : lobby.directory.get? c = some client) (name : String) :
    Step lobby c (.setName name) (lobby.perform c (.setName name)) := by
  by_cases short : name.utf8ByteSize ≤ lobby.limits.maxNameLength
  · exact (Step.rename record short).performed consistent nofun
  · exact (Declines.nameTooLong record (Nat.not_le.mp short)).performed consistent

theorem Outside.create_step {client : Client} (outside : lobby.Outside c client)
    (consistent : lobby.Consistent) : Step lobby c .create (lobby.perform c .create) := by
  obtain ⟨full, -⟩ | ⟨spare, code, after, picked, inSpace, free⟩ :=
    RoomTable.allocate_cases lobby.rooms lobby.limits lobby.draws
  · exact (Declines.exhausted outside full).performed consistent
  · rw [outside.perform_create picked free]
    exact .create outside spare inSpace free

theorem Outside.join_step {client : Client} (outside : lobby.Outside c client)
    (consistent : lobby.Consistent) (code : RoomCode) :
    Step lobby c (.join code) (lobby.perform c (.join code)) := by
  cases stored : lobby.rooms[code]? with
  | none => exact (Declines.noSuchRoom outside stored).performed consistent
  | some room => exact (Step.join outside stored).performed consistent nofun

theorem Outside.perform_step {client : Client} (outside : lobby.Outside c client)
    (consistent : lobby.Consistent) (operation : Operation) :
    Step lobby c operation (lobby.perform c operation) := by
  cases operation with
  | connect => exact (Step.reconnect outside.record).performed consistent nofun
  | disconnect => exact (Step.depart outside).performed consistent nofun
  | setName name => exact setName_step consistent outside.record name
  | create => exact outside.create_step consistent
  | join code => exact outside.join_step consistent code
  | leave | start | close | relay => exact (Declines.notInside rfl outside).performed consistent

theorem Hosts.perform_step {client : Client} {code : RoomCode} {room : Room}
    (hosts : lobby.Hosts c client code room) (consistent : lobby.Consistent)
    (operation : Operation) : Step lobby c operation (lobby.perform c operation) := by
  cases operation with
  | connect => exact (Step.reconnect hosts.record).performed consistent nofun
  | disconnect => exact (Step.departHost hosts).performed consistent nofun
  | setName name => exact setName_step consistent hosts.record name
  | create | join => exact (Declines.hostInside rfl hosts).performed consistent
  | leave => exact (Declines.hostStays hosts).performed consistent
  | start => exact (Step.start hosts).performed consistent nofun
  | close => exact (Step.close hosts).performed consistent nofun
  | relay => exact (Step.relayToGuests hosts).performed consistent nofun

theorem Visits.perform_step {client : Client} {code : RoomCode} {room : Room}
    (visits : lobby.Visits c client code room) (consistent : lobby.Consistent)
    (operation : Operation) : Step lobby c operation (lobby.perform c operation) := by
  cases operation with
  | connect => exact (Step.reconnect visits.record).performed consistent nofun
  | disconnect => exact (Step.departGuest visits).performed consistent nofun
  | setName name => exact setName_step consistent visits.record name
  | create | join => exact (Declines.guestInside rfl visits).performed consistent
  | leave => exact (Step.leave visits).performed consistent nofun
  | start => exact (Declines.guestStarts visits).performed consistent
  | close => exact (Declines.guestCloses visits).performed consistent
  | relay => exact (Step.relayToHost visits).performed consistent nofun

/-- In a consistent lobby every operation is one of the steps. -/
theorem perform_step (consistent : lobby.Consistent) (c : ConnectionId) (operation : Operation) :
    Step lobby c operation (lobby.perform c operation) := by
  cases record : lobby.directory.get? c with
  | none =>
    cases operation with
    | connect => exact (Step.enroll record).performed consistent nofun
    | disconnect => exact (Step.absent record).performed consistent nofun
    | setName | create | join | leave | start | close | relay =>
      exact (Declines.unknown rfl record).performed consistent
  | some client =>
    obtain outside | ⟨code, room, hosts⟩ | ⟨code, room, visits⟩ := consistent.standing record
    · exact outside.perform_step consistent operation
    · exact hosts.perform_step consistent operation
    · exact visits.perform_step consistent operation

end Lobby

end Rendezvous

import Rendezvous.Proofs.Server.Trace

/-! # Relaying

Over a whole run, what is passed on to a connection is what was sent by whoever
faced it in its room at that moment: in order, once each, and untouched
(`relayed_exactly_once`).

One event is enough: the packets of a trace are those of its events one after
another, and every event meets a consistent lobby.  What is not obvious for one
event is that a guest is not listed twice and that the host is not among its
guests; both are part of consistency.
-/

namespace Rendezvous

open Rendezvous.Wire (Bytes Packet)

/-! ## The two sides of a room -/

/-- Whether one of two connections hosts the room and the other is its guest. -/
def Room.faces (room : Room) (c d : ConnectionId) : Bool :=
  decide (room.host = c ∧ d ∈ room.guests ∨ c ∈ room.guests ∧ room.host = d)

namespace Room

variable {room : Room} {c d : ConnectionId}

theorem faces_iff :
    room.faces c d = true ↔ room.host = c ∧ d ∈ room.guests ∨ c ∈ room.guests ∧ room.host = d :=
  decide_eq_true_iff

theorem faces_symm (facing : room.faces c d = true) : room.faces d c = true := by
  rw [faces_iff] at facing ⊢
  tauto

theorem member_of_faces (facing : room.faces c d = true) : c ∈ room.members := by
  rcases faces_iff.mp facing with ⟨isHost, -⟩ | ⟨guest, -⟩
  · simp [members, isHost]
  · simp [members, guest]

end Room

def Lobby.faces (lobby : Lobby) (c d : ConnectionId) : Bool :=
  lobby.rooms.toList.any fun entry => entry.2.faces c d

namespace Lobby

variable {lobby : Lobby} {c d : ConnectionId} {client : Client} {code : RoomCode} {room : Room}

theorem faces_iff : lobby.faces c d = true ↔
    ∃ (code : RoomCode) (room : Room), lobby.rooms[code]? = some room ∧ room.faces c d = true := by
  rw [faces, List.any_eq_true]
  constructor
  · rintro ⟨⟨code, room⟩, listed, facing⟩
    exact ⟨code, room, Std.ExtTreeMap.mem_toList_iff_getElem?_eq_some.mp listed, facing⟩
  · rintro ⟨code, room, stored, facing⟩
    exact ⟨(code, room), Std.ExtTreeMap.mem_toList_iff_getElem?_eq_some.mpr stored, facing⟩

theorem faces_of_member (consistent : lobby.Consistent)
    (stored : lobby.rooms[code]? = some room) (member : c ∈ room.members) :
    lobby.faces c d = room.faces c d := by
  rw [Bool.eq_iff_iff, faces_iff]
  constructor
  · rintro ⟨other, otherRoom, otherStored, facing⟩
    -- whichever room they face each other in, it is this one
    have same := consistent.one_room otherStored (Room.member_of_faces facing) stored member
    rw [same, stored] at otherStored
    cases otherStored
    exact facing
  · intro facing
    exact ⟨code, room, stored, facing⟩

theorem Hosts.faces_iff (hosts : lobby.Hosts c client code room) (consistent : lobby.Consistent) :
    lobby.faces c d = true ↔ d ∈ room.guests := by
  rw [faces_of_member consistent hosts.stored hosts.member, Room.faces_iff]
  have hostNotGuest := consistent.host_not_guest hosts.stored
  rw [hosts.host_eq] at hostNotGuest ⊢
  simp [hostNotGuest]

theorem Visits.faces_iff (visits : lobby.Visits c client code room)
    (consistent : lobby.Consistent) : lobby.faces c d = true ↔ room.host = d := by
  rw [faces_of_member consistent visits.stored visits.member, Room.faces_iff]
  simp [visits.host_ne consistent, visits.guest]

theorem not_faces (consistent : lobby.Consistent)
    (outside : ∀ client, lobby.directory.get? c = some client → client.room = none) :
    lobby.faces c d = false := by
  rw [Bool.eq_false_iff]
  intro facing
  obtain ⟨code, room, stored, facing⟩ := Lobby.faces_iff.mp facing
  exact consistent.not_member outside stored (Room.member_of_faces facing)

/-- Where a packet may go: not back, not to another room, not between guests. -/
structure Routed (lobby : Lobby) (c d : ConnectionId) : Prop where
  not_back : d ≠ c
  same_room : ∀ (code : RoomCode) (room : Room), lobby.rooms[code]? = some room →
    (c ∈ room.members ↔ d ∈ room.members)
  not_between_guests : ∀ (code : RoomCode) (room : Room), lobby.rooms[code]? = some room →
    ¬(c ∈ room.guests ∧ d ∈ room.guests)

/-- Connections that face each other have one room between them. -/
theorem routed_of_faces (consistent : lobby.Consistent) (facing : lobby.faces c d = true) :
    lobby.Routed c d := by
  obtain ⟨code, room, stored, inRoom⟩ := Lobby.faces_iff.mp facing
  have hostNotGuest := consistent.host_not_guest stored
  have member := Room.member_of_faces inRoom
  have member' := Room.member_of_faces (Room.faces_symm inRoom)
  -- any room that lists one of the two is this one
  have only : ∀ (code' : RoomCode) (room' : Room), lobby.rooms[code']? = some room' →
      c ∈ room'.members ∨ d ∈ room'.members → room' = room := by
    intro code' room' stored' listed
    have same : code' = code := by
      rcases listed with listed | listed
      · exact consistent.one_room stored' listed stored member
      · exact consistent.one_room stored' listed stored member'
    rw [same, stored] at stored'
    exact (Option.some.inj stored').symm
  refine ⟨?_, ?_, ?_⟩
  · rintro rfl
    rcases Room.faces_iff.mp inRoom with ⟨isHost, guest⟩ | ⟨guest, isHost⟩
    · exact hostNotGuest (isHost ▸ guest)
    · exact hostNotGuest (isHost ▸ guest)
  · intro code' room' stored'
    constructor
    · intro listed; rw [only code' room' stored' (.inl listed)]; exact member'
    · intro listed; rw [only code' room' stored' (.inr listed)]; exact member
  · rintro code' room' stored' ⟨guest, guest'⟩
    have same := only code' room' stored' (.inl (List.mem_cons_of_mem _ guest))
    rw [same] at guest guest'
    rcases Room.faces_iff.mp inRoom with ⟨isHost, -⟩ | ⟨-, isHost⟩
    · exact hostNotGuest (isHost ▸ guest)
    · exact hostNotGuest (isHost ▸ guest')

end Lobby

/-! ## Notices and packets passed on -/

def Delivery.relayedTo (d : ConnectionId) (delivery : Delivery) : Bool :=
  decide (delivery.recipient = d) && Packet.isRelayed delivery.data

theorem Message.delivery_notify (r : ConnectionId) (notice : Wire.Notice) :
    (Message.notify r notice).delivery = ⟨r, notice.encode, .reliableOrdered⟩ := rfl

theorem Message.delivery_forward (r : ConnectionId) (data : Bytes) (mode : DeliveryMode) :
    (Message.forward r data mode).delivery = ⟨r, data, mode⟩ := rfl

@[simp] theorem Wire.Notice.isRelayed_encode (notice : Wire.Notice) :
    Packet.isRelayed notice.encode = false := by
  simp [Wire.Notice.encode, Packet.encode, Packet.isRelayed]

/-- Every operation but a relay has only notices to tell. -/
theorem Lobby.Step.notices {lobby : Lobby} {c : ConnectionId} {operation : Operation}
    {outcome : Outcome (Answer Reply)} (step : lobby.Step c operation outcome)
    (other : ∀ data mode, operation ≠ .relay data mode) :
    ∀ message ∈ outcome.messages, ∃ r notice, message = .notify r notice := by
  cases step with
  | relayToGuests => exact absurd rfl (other _ _)
  | relayToHost => exact absurd rfl (other _ _)
  | _ => simp [Message.broadcast, or_imp, forall_and]

theorem Message.filter_relayedTo_of_notices {messages : List Message}
    (notices : ∀ message ∈ messages, ∃ r notice, message = .notify r notice) (d : ConnectionId) :
    (messages.map Message.delivery).filter (Delivery.relayedTo d) = [] := by
  rw [List.filter_eq_nil_iff]
  intro delivery listed
  obtain ⟨message, member, rfl⟩ := List.mem_map.mp listed
  obtain ⟨r, notice, rfl⟩ := notices message member
  simp [Message.delivery_notify, Delivery.relayedTo]

/-! ## One event -/

namespace Handled

/-- The delivery that an event owes a connection: the packet itself, if it is to be
    passed on and its sender faces the connection. -/
def due? (d : ConnectionId) (step : Handled) : Option Delivery :=
  match step.event with
  | .received c data mode =>
    if Packet.isRelayed data && step.before.faces c d then some ⟨d, data, mode⟩ else none
  | _ => none

theorem due?_relay {step : Handled} {c : ConnectionId} {data : Bytes} {mode : DeliveryMode}
    (asks : step.event.operation? = some (c, .relay data mode)) (d : ConnectionId) :
    step.due? d = if step.before.faces c d then some ⟨d, data, mode⟩ else none := by
  obtain ⟨received, relayed⟩ := Event.operation?_eq_relay_iff.mp asks
  simp [due?, received, relayed]

theorem due?_other {step : Handled}
    (other : ∀ c data mode, step.event.operation? ≠ some (c, .relay data mode))
    (d : ConnectionId) : step.due? d = none := by
  cases happened : step.event with
  | received c data mode =>
    have notRelayed : Packet.isRelayed data = false := by
      rw [Bool.eq_false_iff]
      intro relayed
      exact other c data mode (Event.operation?_eq_relay_iff.mpr ⟨happened, relayed⟩)
    simp [due?, happened, notRelayed]
  | _ => simp [due?, happened]

/-- What a relay tells: the packet, to everybody that its sender faces. -/
theorem filter_relay {lobby : Lobby} (consistent : lobby.Consistent) {c : ConnectionId}
    {data : Bytes} {mode : DeliveryMode} {outcome : Outcome (Answer Reply)}
    (done : lobby.Step c (.relay data mode) outcome) (relayed : Packet.isRelayed data = true)
    (d : ConnectionId) :
    (outcome.messages.map Message.delivery).filter (Delivery.relayedTo d) =
      (if lobby.faces c d then some (⟨d, data, mode⟩ : Delivery) else none).toList := by
  cases done with
  | declined declines =>
    -- only a connection in no room is declined, and it faces nobody
    have outside : ∀ client, lobby.directory.get? c = some client → client.room = none := by
      intro client record
      cases declines with
      | unknown needs absent => rw [absent] at record; cases record
      | hostInside enters => cases enters
      | guestInside enters => cases enters
      | notInside needs outside => exact outside.nowhere record
    simp [Lobby.not_faces consistent outside]
  | @relayToGuests client code room _ _ hosts =>
    -- the guests are told one by one, and each is listed once
    have toGuests : ((room.guests.map (Message.forward · data mode)).map Message.delivery).filter
        (Delivery.relayedTo d) =
        (room.guests.filter (· = d)).map fun d => (⟨d, data, mode⟩ : Delivery) := by
      rw [List.map_map, List.filter_map]
      congr 1
      refine List.filter_congr fun guest _ => ?_
      show (decide (guest = d) && Packet.isRelayed data) = decide (guest = d)
      rw [relayed, Bool.and_true]
    rw [toGuests, List.filter_eq, (consistent.guests_nodup hosts.stored).count]
    by_cases guest : d ∈ room.guests
    · simp [guest, (hosts.faces_iff consistent).mpr guest]
    · simp [guest, mt (hosts.faces_iff consistent).mp guest]
  | @relayToHost client code room _ _ visits =>
    simp only [List.map_cons, List.map_nil, Message.delivery_forward]
    by_cases isHost : room.host = d
    · simp [Delivery.relayedTo, isHost, relayed, (visits.faces_iff consistent).mpr isHost]
    · simp [Delivery.relayedTo, isHost, mt (visits.faces_iff consistent).mp isHost]

/-- An event passes on to a connection what it owes it, and nothing else. -/
theorem filter_relayedTo (step : Handled) (consistent : step.before.Consistent)
    (d : ConnectionId) :
    step.deliveries.filter (Delivery.relayedTo d) = (step.due? d).toList := by
  rcases step.cases consistent with ⟨asks, -, silent⟩ | ⟨c, operation, outcome, asks, done, -, told⟩
  · have other : ∀ c data mode, step.event.operation? ≠ some (c, .relay data mode) := by
      simp [asks]
    rw [deliveries, silent, due?_other other]
    rfl
  · have reportNotices : ∀ message ∈ operation.report c outcome.value,
        ∃ r notice, message = .notify r notice := by
      intro message listed
      obtain ⟨reason, rfl⟩ := operation.report_invalid c outcome.value message listed
      exact ⟨c, .invalid reason, rfl⟩
    rw [deliveries, told, List.map_append, List.filter_append,
      Message.filter_relayedTo_of_notices reportNotices, List.append_nil]
    by_cases isRelay : ∃ data mode, operation = .relay data mode
    · obtain ⟨data, mode, rfl⟩ := isRelay
      obtain ⟨-, relayed⟩ := Event.operation?_eq_relay_iff.mp asks
      rw [due?_relay asks, filter_relay consistent done relayed]
    · have other : ∀ data mode, operation ≠ .relay data mode := fun data mode same =>
        isRelay ⟨data, mode, same⟩
      rw [Message.filter_relayedTo_of_notices (done.notices other), due?_other]
      · rfl
      · intro c' data mode same
        rw [asks] at same
        cases same
        exact other data mode rfl

theorem after_relay (step : Handled) (consistent : step.before.Consistent) {c : ConnectionId}
    {data : Bytes} {mode : DeliveryMode}
    (asks : step.event.operation? = some (c, .relay data mode)) : step.after = step.before := by
  rcases step.cases consistent with ⟨-, same, -⟩ | ⟨c', operation, outcome, asks', done, same, -⟩
  · exact same
  · rw [asks] at asks'
    cases asks'
    cases done <;> exact same

/-- Everything that is queued for a packet that is passed on goes to somebody whom
    its sender faces. -/
theorem faces_of_relay (step : Handled) (consistent : step.before.Consistent) {c : ConnectionId}
    {data : Bytes} {mode : DeliveryMode}
    (asks : step.event.operation? = some (c, .relay data mode)) :
    ∀ delivery ∈ step.deliveries, step.before.faces c delivery.recipient = true := by
  obtain ⟨-, relayed⟩ := Event.operation?_eq_relay_iff.mp asks
  rcases step.cases consistent with ⟨silent, -⟩ | ⟨c', operation, outcome, asks', done, -, told⟩
  · rw [asks] at silent
    cases silent
  · rw [asks] at asks'
    cases asks'
    intro delivery queued
    rw [deliveries, told] at queued
    cases done with
    | declined => simp [Operation.report] at queued
    | relayToGuests hosts =>
      obtain ⟨message, listed, rfl⟩ := List.mem_map.mp queued
      simp only [Operation.report, List.append_nil, List.mem_map] at listed
      obtain ⟨guest, member, rfl⟩ := listed
      exact (hosts.faces_iff consistent).mpr member
    | relayToHost visits =>
      simp only [Operation.report, List.append_nil, List.map_cons, List.map_nil,
        List.mem_singleton] at queued
      rw [queued]
      exact (visits.faces_iff consistent).mpr rfl

end Handled

/-! ## Whole runs -/

/-- Over a whole run, what is passed on to a connection is what the run owes it: in
    order, once each, with bytes and guarantee as they came.  Passing a packet on
    leaves the lobby as it was, and takes it to the other side of its sender's room
    only. -/
theorem relayed_exactly_once (limits : Limits) (draws : Draws) (events : List Event) :
    (∀ d : ConnectionId,
      (((Lobby.empty limits draws).trace events).flatMap Handled.deliveries).filter
          (Delivery.relayedTo d) =
        ((Lobby.empty limits draws).trace events).filterMap (Handled.due? d)) ∧
    ∀ step ∈ (Lobby.empty limits draws).trace events, ∀ c data mode,
      step.event = .received c data mode → Packet.isRelayed data = true →
        step.after = step.before ∧
        ∀ delivery ∈ step.deliveries,
          step.before.faces c delivery.recipient = true ∧
          step.before.Routed c delivery.recipient := by
  have consistent := (Lobby.Consistent.empty limits draws).trace events
  refine ⟨fun d => ?_, ?_⟩
  · -- both histories are put together event by event
    rw [List.filter_flatMap, List.filterMap_eq_flatMap_toList]
    exact List.flatMap_congr fun step listed => step.filter_relayedTo (consistent step listed) d
  · intro step listed c data mode happened relayed
    have asks := Event.operation?_eq_relay_iff.mpr ⟨happened, relayed⟩
    refine ⟨step.after_relay (consistent step listed) asks, fun delivery queued => ?_⟩
    have facing := step.faces_of_relay (consistent step listed) asks delivery queued
    exact ⟨facing, Lobby.routed_of_faces (consistent step listed) facing⟩

/-- In a gathering the host's packet reaches the second guest as it was sent, and
    what takes it to the first guest stays in the room. -/
theorem relayed_to_guests :
    let run := (Lobby.empty {} (Draws.ofList [7])).trace gathering
    (run.flatMap Handled.deliveries).filter (Delivery.relayedTo ⟨3⟩) =
        [⟨⟨3⟩, [1, 2, 3], .unreliable⟩] ∧
      ∃ step ∈ run, step.event = .received ⟨1⟩ [1, 2, 3] .unreliable ∧
        step.before.Routed ⟨1⟩ ⟨2⟩ := by
  intro run
  obtain ⟨histories, routed⟩ := relayed_exactly_once {} (Draws.ofList [7]) gathering
  refine ⟨?_, run[6], List.getElem_mem _, rfl, ?_⟩
  · rw [histories]
    decide +kernel
  · have queued : (⟨⟨2⟩, [1, 2, 3], .unreliable⟩ : Delivery) ∈ run[6].deliveries := by
      decide +kernel
    exact ((routed run[6] (List.getElem_mem _) ⟨1⟩ [1, 2, 3] .unreliable rfl rfl).2 _ queued).2

end Rendezvous

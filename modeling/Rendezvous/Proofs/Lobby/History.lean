import Rendezvous.Proofs.Lobby.Step

/-! # Histories

A history is a list of connections and operations; `after` is the lobby that it
leads to, and its `chronicle` adds what was answered.  Every step keeps a lobby
consistent (`Step.consistent`), so every history from a lobby with nobody in it does
(`consistent_after`), whoever does what in it and however it turns out.

`Sound` is what a reader of the state relies on: consistency, and what follows
from it for the whole of the two maps.
-/

namespace Rendezvous.Lobby

def after (lobby : Lobby) (history : List (ConnectionId × Operation)) : Lobby :=
  history.foldl (fun lobby entry => (lobby.perform entry.1 entry.2).lobby) lobby

structure Entry where
  connection : ConnectionId
  operation : Operation
  answer : Answer Reply

def chronicle (lobby : Lobby) : List (ConnectionId × Operation) → List Entry
  | [] => []
  | (c, operation) :: history =>
    let outcome := lobby.perform c operation
    ⟨c, operation, outcome.value⟩ :: outcome.lobby.chronicle history

theorem after_append (lobby : Lobby) (early late : List (ConnectionId × Operation)) :
    lobby.after (early ++ late) = (lobby.after early).after late :=
  List.foldl_append

theorem chronicle_append (lobby : Lobby) (early late : List (ConnectionId × Operation)) :
    lobby.chronicle (early ++ late) =
      lobby.chronicle early ++ (lobby.after early).chronicle late := by
  induction early generalizing lobby with
  | nil => rfl
  | cons entry early inductionHypothesis =>
    simp [chronicle, inductionHypothesis, after]

/-! ## One step -/

section Moves

variable {lobby : Lobby} {c : ConnectionId} {client : Client} {code : RoomCode} {room : Room}

theorem Consistent.opened (consistent : lobby.Consistent) (outside : lobby.Outside c client)
    (inSpace : code.val < lobby.limits.codeSpace) (free : lobby.rooms[code]? = none) :
    (lobby.seat c code { code, host := c } (some code)).Consistent := by
  apply consistent.seat
  · exact fun _ record => .inl (outside.nowhere record)
  · rfl
  · exact inSpace
  · exact List.nodup_singleton c
  · intro d different
    simp [Room.members, different, free]
  · exact ⟨client, outside.record⟩
  · exact .inr ⟨rfl, List.mem_singleton_self c⟩

theorem Consistent.joined (consistent : lobby.Consistent) (outside : lobby.Outside c client)
    (stored : lobby.rooms[code]? = some room) :
    (lobby.seat c code (room.addGuest c) (some code)).Consistent := by
  have stranger := consistent.not_member (fun _ => outside.nowhere) stored
  apply consistent.seat
  · exact fun _ record => .inl (outside.nowhere record)
  · exact (room.code_addGuest c).trans (consistent.code_eq stored)
  · exact consistent.code_lt stored
  · rw [room.members_addGuest]
    -- the newcomer was in no room, so it does not repeat a member
    exact List.nodup_append.mpr ⟨consistent.members_nodup stored, List.nodup_singleton c,
      fun d member e single => by
        rw [List.mem_singleton.mp single]
        exact fun same => stranger (same ▸ member)⟩
  · intro d different
    simp [room.members_addGuest, different, stored]
  · exact ⟨client, outside.record⟩
  · exact .inr ⟨rfl, by simp [room.members_addGuest]⟩

theorem Consistent.left (consistent : lobby.Consistent)
    (visits : lobby.Visits c client code room) :
    (lobby.seat c code (room.removeGuest c) none).Consistent := by
  have nodup := consistent.members_nodup visits.stored
  have members := room.members_removeGuest c (visits.host_ne consistent)
  apply consistent.seat
  · intro client' record
    exact .inr (consistent.room_eq_of_member record visits.stored visits.member)
  · exact (room.code_removeGuest c).trans (consistent.code_eq visits.stored)
  · exact consistent.code_lt visits.stored
  · rw [members]
    exact nodup.erase c
  · intro d different
    rw [members]
    simp [List.mem_erase_of_ne different, visits.stored]
  · exact ⟨client, visits.record⟩
  · exact .inl ⟨rfl, by rw [members]; exact nodup.not_mem_erase⟩

theorem outside_after_seat {client' : Client} (record :
    (lobby.seat c code room none).directory.get? c = some client') : client'.room = none := by
  rw [get?_seat, if_pos rfl] at record
  obtain ⟨before, -, rfl⟩ := Option.map_eq_some_iff.mp record
  rfl

theorem outside_after_release {client' : Client} (member : c ∈ room.members)
    (record : (lobby.release code room).directory.get? c = some client') :
    client'.room = none := by
  rw [get?_release, if_pos member] at record
  obtain ⟨before, -, rfl⟩ := Option.map_eq_some_iff.mp record
  rfl

theorem Step.consistent {operation : Operation} {outcome : Outcome (Answer Reply)}
    (step : Step lobby c operation outcome) (consistent : lobby.Consistent) :
    outcome.lobby.Consistent := by
  cases step with
  | declined => exact consistent
  | reconnect => exact consistent
  | enroll fresh => exact consistent.enroll fresh
  | absent => exact consistent
  | depart outside => exact consistent.forget fun _ => outside.nowhere
  | departHost hosts =>
    exact (consistent.release hosts.stored).forget fun _ record =>
      outside_after_release hosts.member record
  | departGuest visits =>
    exact (consistent.left visits).forget fun _ record => outside_after_seat record
  | rename record short => exact consistent.rename short
  | create outside spare inSpace free =>
    exact (consistent.opened outside inSpace free).withDraws _
  | join outside stored => exact consistent.joined outside stored
  | leave visits => exact consistent.left visits
  | start => exact consistent
  | close hosts => exact consistent.release hosts.stored
  | relayToGuests => exact consistent
  | relayToHost => exact consistent

theorem Step.limits_eq {operation : Operation} {outcome : Outcome (Answer Reply)}
    (step : Step lobby c operation outcome) : outcome.lobby.limits = lobby.limits := by
  cases step <;> rfl

end Moves

theorem Consistent.perform {lobby : Lobby} (consistent : lobby.Consistent) (c : ConnectionId)
    (operation : Operation) : (lobby.perform c operation).lobby.Consistent :=
  (perform_step consistent c operation).consistent consistent

/-! ## Whole histories -/

theorem Consistent.after {lobby : Lobby} (consistent : lobby.Consistent)
    (history : List (ConnectionId × Operation)) : (lobby.after history).Consistent := by
  induction history generalizing lobby with
  | nil => exact consistent
  | cons entry history inductionHypothesis =>
    exact inductionHypothesis (consistent.perform entry.1 entry.2)

theorem Consistent.limits_after {lobby : Lobby} (consistent : lobby.Consistent)
    (history : List (ConnectionId × Operation)) : (lobby.after history).limits = lobby.limits := by
  induction history generalizing lobby with
  | nil => rfl
  | cons entry history inductionHypothesis =>
    exact (inductionHypothesis (consistent.perform entry.1 entry.2)).trans
      (perform_step consistent entry.1 entry.2).limits_eq

theorem consistent_after (limits : Limits) (draws : Draws)
    (history : List (ConnectionId × Operation)) :
    ((Lobby.empty limits draws).after history).Consistent :=
  (Consistent.empty limits draws).after history

/-- What can be relied on in a lobby with these limits. -/
structure Sound (limits : Limits) (lobby : Lobby) : Prop where
  connection_eq : ∀ (c : ConnectionId) (client : Client),
    lobby.directory.get? c = some client → client.connection = c
  code_eq : ∀ (code : RoomCode) (room : Room),
    lobby.rooms[code]? = some room → room.code = code
  /-- A record names a room exactly when that room is open and the client is its
      host or one of its guests. -/
  room_iff : ∀ (c : ConnectionId) (code : RoomCode),
    (∃ client, lobby.directory.get? c = some client ∧ client.room = some code) ↔
      ∃ room, lobby.rooms[code]? = some room ∧ (c = room.host ∨ c ∈ room.guests)
  members_nodup : ∀ (code : RoomCode) (room : Room),
    lobby.rooms[code]? = some room → (room.host :: room.guests).Nodup
  /-- No connection is a member of two rooms. -/
  one_room : ∀ (c : ConnectionId) (code code' : RoomCode) (room room' : Room),
    lobby.rooms[code]? = some room → lobby.rooms[code']? = some room' →
      c ∈ room.members → c ∈ room'.members → code = code'
  member_known : ∀ (code : RoomCode) (room : Room), lobby.rooms[code]? = some room →
    ∀ c ∈ room.members, ∃ client, lobby.directory.get? c = some client
  code_lt : ∀ (code : RoomCode) (room : Room),
    lobby.rooms[code]? = some room → code.val < limits.codeSpace
  size_le : lobby.rooms.size ≤ limits.codeSpace.toNat
  name_le : ∀ (c : ConnectionId) (client : Client),
    lobby.directory.get? c = some client → client.name.utf8ByteSize ≤ limits.maxNameLength

/-- Every history from a lobby with nobody in it leads to a sound lobby: whichever
    connections do whatever in whichever order, and whatever is drawn. -/
theorem sound_after (limits : Limits) (draws : Draws)
    (history : List (ConnectionId × Operation)) :
    ((Lobby.empty limits draws).after history).Sound limits := by
  have consistent := consistent_after limits draws history
  have limitsEq : ((Lobby.empty limits draws).after history).limits = limits :=
    (Consistent.empty limits draws).limits_after history
  have inSpace : ∀ (code : RoomCode) (room : Room),
      ((Lobby.empty limits draws).after history).rooms[code]? = some room →
        code.val < limits.codeSpace := by
    intro code room stored
    have bound := consistent.code_lt stored
    rwa [limitsEq] at bound
  -- the limits never change, so bounds on the final lobby are bounds by `limits`
  refine
    { connection_eq := fun c client => consistent.connection_eq
      code_eq := fun code room => consistent.code_eq
      room_iff := ?_
      members_nodup := fun code room => consistent.members_nodup
      one_room := fun c code code' room room' stored stored' member member' =>
        consistent.one_room stored member stored' member'
      member_known := ?_
      code_lt := inSpace
      size_le := RoomTable.size_le_space inSpace
      name_le := ?_ }
  · intro c code
    rw [consistent.member_iff]
    simp [Room.members]
  · intro code room stored c member
    obtain ⟨client, record, -⟩ := consistent.record_of_member stored member
    exact ⟨client, record⟩
  · intro c client record
    have bound := consistent.name_le record
    rwa [limitsEq] at bound

end Rendezvous.Lobby

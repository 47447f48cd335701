import Rendezvous.Proofs.Lobby.Roster
import Rendezvous.Proofs.Server.Trace
import Rendezvous.Proofs.Wire.Notice

/-! # What a client can tell from its packets

A client that reads every packet it has been sent since its record was made, and
keeps a roster on the way, ends up with the others in its room
(`roster_of_inbox`).

`Step.tracks` says so for messages.  What is added here is the way through the
bytes (every notice is read back with the same ids, and a packet that is passed
on is never taken for a notice) and the induction over a run: ids stay distinct
as long as fewer connections are registered than there are ids.
-/

namespace Rendezvous

open Rendezvous.Wire (Bytes Member Notice Packet WireError)

/-! ## Reading -/

namespace Roster

/-- What a packet changes about the roster of the client that reads it.  A packet
    passed on from the room changes nothing; any other must carry a notice. -/
def read (roster : Roster) (packet : Bytes) : Except WireError Roster :=
  match Notice.decode packet with
  | .ok notice => .ok (roster.update notice)
  | .error .notControl => .ok roster
  | .error error => .error error

def readAll (packets : List Bytes) : Except WireError Roster :=
  packets.foldlM read []

theorem update_cut (roster : Roster) (notice : Notice) :
    roster.update notice.cut = roster.update notice := by
  cases notice with
  | roomMembers members => simp [Notice.cut, update, Member.cut]
  | _ => rfl

end Roster

namespace Message

/-- Whether a client can make out what it is sent. -/
def Readable (message : Message) : Prop :=
  match message.content with
  | .notice notice => notice.Fits
  | .relayed data _ => Packet.isRelayed data = true

variable {message : Message}

theorem read_delivery (readable : message.Readable) (roster : Roster) :
    roster.read message.delivery.data = .ok (roster.note message) := by
  rcases message with ⟨recipient, notice | ⟨data, mode⟩⟩
  · have decoded := Notice.decode_encode notice readable []
    rw [List.append_nil] at decoded
    show roster.read notice.encode = .ok (roster.update notice)
    rw [Roster.read, decoded, ← roster.update_cut notice]
  · have decoded : Notice.decode data = .error .notControl := by
      rw [Notice.decode, Packet.split_of_isRelayed readable]
      rfl
    show roster.read data = .ok roster
    rw [Roster.read, decoded]

theorem read_deliveries {messages : List Message}
    (readable : ∀ message ∈ messages, message.Readable) (roster : Roster) :
    (messages.map fun message => message.delivery.data).foldlM Roster.read roster =
      .ok (messages.foldl Roster.note roster) := by
  induction messages generalizing roster with
  | nil => rfl
  | cons message messages inductionHypothesis =>
    rw [List.map_cons, List.foldlM_cons, read_delivery (readable message List.mem_cons_self),
      List.foldl_cons]
    exact inductionHypothesis (fun other listed => readable other (List.mem_cons_of_mem _ listed)) _

end Message

/-- No room has more members than the length of a list of members can say. -/
def Lobby.RoomsFit (lobby : Lobby) : Prop :=
  ∀ (code : RoomCode) (room : Room), lobby.rooms[code]? = some room → room.members.length < 2 ^ 32

theorem Lobby.roomsFit_of_toList {lobby : Lobby}
    (small : ∀ entry ∈ lobby.rooms.toList, entry.2.members.length < 2 ^ 32) : lobby.RoomsFit :=
  fun code room stored =>
    small (code, room) (Std.ExtTreeMap.mem_toList_iff_getElem?_eq_some.mpr stored)

/-- What a step has to tell can be made out, if no room is too large for its list. -/
theorem Lobby.Step.readable {lobby : Lobby} {a : ConnectionId} {operation : Operation}
    {outcome : Outcome (Answer Reply)} (step : lobby.Step a operation outcome)
    (small : lobby.RoomsFit)
    (relayed : ∀ data mode, operation = .relay data mode → Packet.isRelayed data = true) :
    ∀ message ∈ outcome.messages, message.Readable := by
  intro message told
  cases step with
  | @join client code room outside stored =>
    rcases List.mem_append.mp told with toMember | toJoiner
    · obtain ⟨r, -, rfl⟩ := List.mem_map.mp toMember
      trivial
    · rw [List.mem_singleton.mp toJoiner]
      exact Nat.lt_of_le_of_lt (List.length_filterMap_le _ _) (small code room stored)
  | enroll | create =>
    rw [List.mem_singleton.mp told]
    trivial
  | departHost | departGuest | leave | start | close =>
    obtain ⟨r, -, rfl⟩ := List.mem_map.mp told
    trivial
  | relayToGuests =>
    obtain ⟨r, -, rfl⟩ := List.mem_map.mp told
    exact relayed _ _ rfl
  | relayToHost =>
    rw [List.mem_singleton.mp told]
    exact relayed _ _ rfl
  | declined | reconnect | absent | depart | rename => cases told

/-! ## One event -/

namespace Handled

def inbox (c : ConnectionId) (step : Handled) : List Bytes :=
  (step.deliveries.filter fun delivery => delivery.recipient = c).map Delivery.data

theorem inbox_eq (c : ConnectionId) (step : Handled) :
    step.inbox c =
      (step.messages.filter fun message => message.recipient = c).map
        fun message => message.delivery.data := by
  rw [inbox, deliveries, List.filter_map, List.map_map]
  congr 1
  refine List.filter_congr fun message _ => ?_
  show decide (message.delivery.recipient = c) = decide (message.recipient = c)
  rw [message.recipient_delivery]

/-- Whatever the event is, a client that reads what it is sent keeps its roster right. -/
theorem tracks (step : Handled) (consistent : step.before.Consistent)
    (numbered : step.before.Numbered) (small : step.before.RoomsFit)
    {c : ConnectionId} {roster : Roster} (right : step.before.Tracks c roster) :
    ∃ roster', (step.inbox c).foldlM Roster.read roster = .ok roster' ∧
      step.after.Tracks c roster' := by
  rcases step.cases consistent with
    ⟨-, same, silent⟩ | ⟨a, operation, outcome, asks, done, same, told⟩
  · refine ⟨roster, ?_, ?_⟩
    · rw [inbox_eq, silent]
      rfl
    · rw [same]
      exact right
  · -- a report adds notices of no consequence to what the step tells
    have reported := operation.report_invalid a outcome.value
    have readable : ∀ message ∈ step.messages, message.Readable := by
      intro message listed
      rw [told] at listed
      rcases List.mem_append.mp listed with byStep | inReport
      · refine done.readable small ?_ message byStep
        rintro data mode rfl
        exact (Event.operation?_eq_relay_iff.mp asks).2
      · obtain ⟨reason, rfl⟩ := reported message inReport
        trivial
    have heard : roster.hear c step.messages = roster.hear c outcome.messages := by
      rw [told, Roster.hear_append, Roster.hear_silent]
      intro message inReport roster
      obtain ⟨reason, rfl⟩ := reported message inReport
      rfl
    refine ⟨roster.hear c step.messages, ?_, ?_⟩
    · rw [inbox_eq]
      exact Message.read_deliveries
        (fun message own => readable message (List.mem_of_mem_filter own)) roster
    · rw [heard, same]
      exact done.tracks consistent numbered right

theorem numbered_after (step : Handled) (consistent : step.before.Consistent)
    (numbered : step.before.Numbered)
    (spare : step.before.directory.nextId.toNat + step.registers.toNat < UInt64.size) :
    step.after.Numbered ∧
      step.after.directory.nextId.toNat ≤
        step.before.directory.nextId.toNat + step.registers.toNat := by
  rcases step.cases consistent with ⟨-, same, -⟩ | ⟨a, operation, outcome, asks, done, same, -⟩
  · rw [same]
    exact ⟨numbered, Nat.le_add_right _ _⟩
  · rw [same]
    -- only an admission takes an id, and it is counted as a registration
    have counted : (step.before.enrolls a operation).toNat ≤ step.registers.toNat := by
      cases enrolls : step.before.enrolls a operation with
      | false => exact Nat.zero_le _
      | true =>
        obtain ⟨rfl, fresh⟩ := Lobby.connects_of_enrolls enrolls
        obtain ⟨peer, happened⟩ := Event.of_operation?_connect asks
        simp [registers, happened, fresh]
    obtain ⟨numberedNow, next⟩ := done.numbered numbered (by omega)
    exact ⟨numberedNow, by omega⟩

end Handled

/-! ## Whole runs -/

/-- Takes the next event into account: an event that meets no record of the
    connection makes all before it a thing of the past. -/
def Handled.recent (c : ConnectionId) (recent : List Handled) (step : Handled) : List Handled :=
  if (step.before.directory.get? c).isSome then recent ++ [step] else [step]

/-- The events of a run since the current record of a connection was made, the one
    that made it included. -/
def sinceRecord (c : ConnectionId) (run : List Handled) : List Handled :=
  run.foldl (Handled.recent c) []

def inboxSinceRecord (c : ConnectionId) (run : List Handled) : List Bytes :=
  (sinceRecord c run).flatMap (Handled.inbox c)

theorem Lobby.afterAll_cons (lobby : Lobby) (event : Event) (events : List Event) :
    lobby.afterAll (event :: events) = (Handled.after ⟨lobby, event⟩).afterAll events := rfl

/-- A roster that is right after the recent events is right after a whole run more. -/
theorem Lobby.tracks_afterAll {lobby : Lobby} {events : List Event} {c : ConnectionId}
    {recent : List Handled} {roster : Roster} (consistent : lobby.Consistent)
    (numbered : lobby.Numbered)
    (few : lobby.directory.nextId.toNat + (lobby.trace events).countP Handled.registers <
      UInt64.size)
    (small : ∀ step ∈ lobby.trace events, step.before.RoomsFit)
    (read : Roster.readAll (recent.flatMap (Handled.inbox c)) = .ok roster)
    (right : lobby.Tracks c roster) :
    ∃ roster',
      Roster.readAll
          (((lobby.trace events).foldl (Handled.recent c) recent).flatMap (Handled.inbox c)) =
        .ok roster' ∧
      (lobby.afterAll events).Tracks c roster' := by
  induction events generalizing lobby recent roster with
  | nil => exact ⟨roster, read, right⟩
  | cons event events inductionHypothesis =>
    -- the induction is on the events; the lobby, what was read and the roster move along
    let step : Handled := ⟨lobby, event⟩
    have smallNow := small step List.mem_cons_self
    have smallLater := fun later listed => small later (List.mem_cons_of_mem step listed)
    have counted : step.before.directory.nextId.toNat +
        ((step.after.trace events).countP Handled.registers + step.registers.toNat) <
          UInt64.size := by
      rw [trace, List.countP_cons] at few
      cases registers : step.registers <;> simpa [step, registers] using few
    obtain ⟨numberedAfter, nextAfter⟩ := step.numbered_after consistent numbered (by omega)
    have fewAfter : step.after.directory.nextId.toNat +
        (step.after.trace events).countP Handled.registers < UInt64.size := by
      omega
    have consistentAfter := step.after_consistent consistent
    -- reading goes on, or starts over where the connection has no record and so no room
    obtain ⟨earlier, known, recentAfter, readEarlier, rightEarlier⟩ :
        ∃ earlier known, Handled.recent c recent step = earlier ++ [step] ∧
          Roster.readAll (earlier.flatMap (Handled.inbox c)) = .ok known ∧
          lobby.Tracks c known := by
      cases record : lobby.directory.get? c with
      | some client => exact ⟨recent, roster, by simp [Handled.recent, step, record], read, right⟩
      | none =>
        exact ⟨[], [], by simp [Handled.recent, step, record], rfl, .of_absent consistent record⟩
    obtain ⟨roster', readNow, rightAfter⟩ := step.tracks consistent numbered smallNow rightEarlier
    have readAfter : Roster.readAll ((earlier ++ [step]).flatMap (Handled.inbox c)) =
        .ok roster' := by
      rw [Roster.readAll, List.flatMap_append, List.foldlM_append, ← Roster.readAll, readEarlier,
        List.flatMap_singleton]
      exact readNow
    rw [trace, List.foldl_cons, afterAll_cons, recentAfter]
    exact inductionHypothesis consistentAfter numberedAfter fewAfter smallLater readAfter rightAfter

/-- A client in a room can tell from what it has been sent who else is there: it
    reads every packet since its record was made, and ends up with the ids of the
    other members, in their order. -/
theorem roster_of_inbox (limits : Limits) (draws : Draws) (events : List Event)
    (few : ((Lobby.empty limits draws).trace events).countP Handled.registers < 2 ^ 64 - 1)
    (small : ∀ step ∈ (Lobby.empty limits draws).trace events, step.before.RoomsFit)
    (c : ConnectionId) (code : RoomCode) (room : Room)
    (stored : ((Lobby.empty limits draws).afterAll events).rooms[code]? = some room)
    (member : c ∈ room.members) :
    ∃ roster,
      Roster.readAll (inboxSinceRecord c ((Lobby.empty limits draws).trace events)) = .ok roster ∧
      (room.members.filter (· ≠ c)).map ((Lobby.empty limits draws).afterAll events).id? =
        roster.map some := by
  have consistent := Lobby.Consistent.empty limits draws
  have spare : (Lobby.empty limits draws).directory.nextId.toNat +
      ((Lobby.empty limits draws).trace events).countP Handled.registers < UInt64.size := by
    have first : (Lobby.empty limits draws).directory.nextId.toNat = 1 := rfl
    have size : UInt64.size = 2 ^ 64 := rfl
    omega
  have nowhere : (Lobby.empty limits draws).Tracks c [] :=
    .of_absent consistent (Lobby.get?_empty limits draws c)
  have nothingRead : Roster.readAll (([] : List Handled).flatMap (Handled.inbox c)) = .ok [] := rfl
  obtain ⟨roster, read, right⟩ := Lobby.tracks_afterAll consistent
    (Lobby.Numbered.empty limits draws) spare small nothingRead nowhere
  exact ⟨roster, read, right code room stored member⟩

/-- At the end of a gathering the second guest knows that the host is still there. -/
theorem roster_of_second_guest :
    Roster.readAll
        (inboxSinceRecord ⟨3⟩ ((Lobby.empty {} (Draws.ofList [7])).trace gathering)) =
      .ok [⟨1⟩] := by
  have few : ((Lobby.empty {} (Draws.ofList [7])).trace gathering).countP Handled.registers <
      2 ^ 64 - 1 := by
    decide +kernel
  have small : ∀ step ∈ (Lobby.empty {} (Draws.ofList [7])).trace gathering,
      step.before.RoomsFit := by
    have listed : ∀ step ∈ (Lobby.empty {} (Draws.ofList [7])).trace gathering,
        ∀ entry ∈ step.before.rooms.toList, entry.2.members.length < 2 ^ 32 := by
      decide +kernel
    exact fun step member => Lobby.roomsFit_of_toList (listed step member)
  have stored : ((Lobby.empty {} (Draws.ofList [7])).afterAll gathering).rooms[(⟨7⟩ : RoomCode)]? =
      some { code := ⟨7⟩, host := ⟨1⟩, guests := [⟨3⟩] } := by
    decide +kernel
  obtain ⟨roster, read, right⟩ := roster_of_inbox {} (Draws.ofList [7]) gathering few small
    ⟨3⟩ ⟨7⟩ { code := ⟨7⟩, host := ⟨1⟩, guests := [⟨3⟩] } stored (by decide)
  have others : ([⟨1⟩, ⟨3⟩].filter (· ≠ (⟨3⟩ : ConnectionId))).map
      ((Lobby.empty {} (Draws.ofList [7])).afterAll gathering).id? = [some ⟨1⟩] := by
    decide +kernel
  have known : [⟨1⟩] = roster :=
    List.map_injective_iff.mpr (Option.some_injective _) (others.symm.trans right)
  rw [known, read]

end Rendezvous

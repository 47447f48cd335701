import Rendezvous.Proofs.Lobby.Lifetime
import Rendezvous.Proofs.Lobby.Roster

/-! # Joining a room

A join is told to the members that were there and to nobody else; the joiner is told who
they are, and is put behind them.  The list for the joiner is gathered from the records of
the members, and a member without a record would be missing from it.  There is no such
member (`records_roster`), and the joiner is not yet one (`Announced.stranger`), so the
list has everybody that is told of the join, in the same order.
-/

namespace Rendezvous.Lobby

open Rendezvous.Wire (Member)

/-- What a join tells and what it changes. -/
structure Announced (lobby : Lobby) (c : ConnectionId) (code : RoomCode) (client : Client)
    (room : Room) (roster : List Member) (outcome : Outcome (Answer Unit)) : Prop where
  record : lobby.directory.get? c = some client
  stored : lobby.rooms[code]? = some room
  /-- First the members are told of the joiner, the host before the guests, and then the
      joiner is sent a roster. -/
  messages_eq : outcome.messages =
    (room.host :: room.guests).map
        (fun d => .notify d (.memberJoined ⟨client.id, client.name⟩)) ++
      [.notify c (.roomMembers roster)]
  /-- The roster has the id and the name of each member, in the same order. -/
  roster_eq : List.Forall₂
    (fun d entry => ∃ other, lobby.directory.get? d = some other ∧ entry = ⟨other.id, other.name⟩)
    (room.host :: room.guests) roster
  members_nodup : (room.host :: room.guests).Nodup
  stranger : c ∉ room.host :: room.guests
  /-- The joiner is the last member afterwards. -/
  members_after : ∃ after, outcome.lobby.rooms[code]? = some after ∧
    after.host :: after.guests = (room.host :: room.guests) ++ [c]
  record_after : outcome.lobby.directory.get? c = some { client with room := some code }
  records_kept : ∀ d ≠ c, outcome.lobby.directory.get? d = lobby.directory.get? d

variable {lobby : Lobby} {c : ConnectionId} {client : Client} {code : RoomCode} {room : Room}

theorem Outside.join_eq (outside : lobby.Outside c client) (consistent : lobby.Consistent)
    (stored : lobby.rooms[code]? = some room) :
    lobby.join c code =
      ⟨.ok (), lobby.seat c code (room.addGuest c) (some code),
        Message.broadcast room.members (.memberJoined client.member) ++
          [.notify c (.roomMembers (lobby.roster room))]⟩ :=
  of_performed_done ((Step.join outside stored).perform_eq consistent nofun)

/-- Only a client in no room joins, and only a room that is open. -/
theorem Consistent.of_joined (consistent : lobby.Consistent)
    (joined : (lobby.join c code).value = .ok ()) :
    ∃ client room, lobby.Outside c client ∧ lobby.rooms[code]? = some room := by
  have step := perform_step consistent c (.join code)
  have done : (lobby.perform c (.join code)).value = .ok .done := by
    simp [Lobby.perform, Outcome.map, joined, Except.map]
  generalize lobby.perform c (.join code) = outcome at step done
  cases step with
  | declined => cases done
  | @join client code room outside stored => exact ⟨client, room, outside, stored⟩

theorem Consistent.roster_forall₂ (consistent : lobby.Consistent)
    (stored : lobby.rooms[code]? = some room) :
    List.Forall₂
      (fun d entry => ∃ other, lobby.directory.get? d = some other ∧
        entry = ⟨other.id, other.name⟩)
      room.members (lobby.roster room) := by
  have sameLists := records_roster consistent stored
  rw [← List.forall₂_eq_eq_eq, List.forall₂_map_left_iff, List.forall₂_map_right_iff] at sameLists
  refine sameLists.imp fun d entry same => ?_
  obtain ⟨other, record, rfl⟩ := Option.map_eq_some_iff.mp same
  exact ⟨other, record, rfl⟩

theorem Outside.announced (outside : lobby.Outside c client) (consistent : lobby.Consistent)
    (stored : lobby.rooms[code]? = some room) :
    lobby.Announced c code client room (lobby.roster room) (lobby.join c code) := by
  rw [outside.join_eq consistent stored]
  refine
    { record := outside.record
      stored := stored
      messages_eq := rfl
      roster_eq := consistent.roster_forall₂ stored
      members_nodup := consistent.members_nodup stored
      stranger := consistent.not_member (fun _ => outside.nowhere) stored
      members_after := ⟨room.addGuest c, ?_, rfl⟩
      record_after := ?_
      records_kept := fun d other => ?_ }
  · exact (room_seat lobby c code code _ _).trans (if_pos rfl)
  · exact (get?_seat lobby c c code _ _).trans (by rw [if_pos rfl, outside.record]; rfl)
  · exact (get?_seat lobby c d code _ _).trans (if_neg other)

/-- Whatever has happened before, a client that joins a room is announced to its members:
    the host, and then the guests in the order in which they joined, going by what has
    happened since the room was opened. -/
theorem join_announces (limits : Limits) (draws : Draws)
    (history : List (ConnectionId × Operation)) (c : ConnectionId) (code : RoomCode) :
    let lobby := (Lobby.empty limits draws).after history
    let chronicle := (Lobby.empty limits draws).chronicle history
    (lobby.join c code).value = .ok () →
      ∃ client room roster,
        lobby.Announced c code client room roster (lobby.join c code) ∧
        ∃ since, OpenSince chronicle code room.host since ∧
          room.guests = visitors code since := by
  intro lobby chronicle joined
  have consistent : lobby.Consistent := consistent_after limits draws history
  have chronicled : lobby.Chronicled chronicle := chronicled_after limits draws history
  obtain ⟨client, room, outside, stored⟩ := consistent.of_joined joined
  refine ⟨client, room, lobby.roster room, outside.announced consistent stored, ?_⟩
  -- the chronicle tells the host and the guests of the room that is found
  obtain ⟨host, since, openSince⟩ := chronicled.openSince stored
  obtain ⟨-, told⟩ := chronicled.room_eq openSince
  rw [stored] at told
  cases told
  exact ⟨since, openSince, rfl⟩

/-- A second guest joins: host and first guest are told its name, and it is told theirs,
    though one of them has none. -/
theorem second_guest_announced :
    let history : List (ConnectionId × Operation) :=
      [(⟨1⟩, .connect), (⟨2⟩, .connect), (⟨3⟩, .connect), (⟨1⟩, .setName "ada"),
        (⟨3⟩, .setName "eve"), (⟨1⟩, .create), (⟨2⟩, .join ⟨7⟩)]
    let lobby := (Lobby.empty {} (Draws.ofList [7])).after history
    let outcome := lobby.join ⟨3⟩ ⟨7⟩
    outcome.value = .ok () ∧
      outcome.messages =
        [.notify ⟨1⟩ (.memberJoined ⟨⟨3⟩, "eve"⟩), .notify ⟨2⟩ (.memberJoined ⟨⟨3⟩, "eve"⟩),
          .notify ⟨3⟩ (.roomMembers [⟨⟨1⟩, "ada"⟩, ⟨⟨2⟩, ""⟩])] ∧
      ∃ client room roster, lobby.Announced ⟨3⟩ ⟨7⟩ client room roster outcome := by
  intro history lobby outcome
  have joined : outcome.value = .ok () := by decide +kernel
  obtain ⟨client, room, roster, announced, -⟩ :=
    join_announces {} (Draws.ofList [7]) history ⟨3⟩ ⟨7⟩ joined
  exact ⟨joined, by decide +kernel, client, room, roster, announced⟩

end Rendezvous.Lobby

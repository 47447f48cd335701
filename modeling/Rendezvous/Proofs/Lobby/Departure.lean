import Rendezvous.Proofs.Lobby.Frame

/-! # Going away

There are two ways out of a room: a client asks, and closes the room that it hosts or
leaves the one that it visits, or its connection goes away.  The second is the first and
then the removal of the record.  What the others are told is the same in both; only the
client itself, which hears of the closing of its own room, hears nothing any more when it
has gone (`Hosts.disconnect_eq`, `Visits.disconnect_eq`, `Outside.disconnect_eq`).
-/

namespace Rendezvous.Lobby

variable {lobby : Lobby} {c : ConnectionId} {client : Client} {code : RoomCode} {room : Room}

/-! ## Closing and leaving -/

theorem Hosts.close_eq (hosts : lobby.Hosts c client code room) (consistent : lobby.Consistent) :
    lobby.close c =
      ⟨.ok (), lobby.release code room, Message.broadcast room.members .roomClosed⟩ :=
  of_performed_done ((Step.close hosts).perform_eq consistent nofun)

theorem Visits.leave_eq (visits : lobby.Visits c client code room)
    (consistent : lobby.Consistent) :
    lobby.leave c =
      ⟨.ok (), lobby.seat c code (room.removeGuest c) none,
        Message.broadcast (room.removeGuest c).members (.memberLeft client.id)⟩ :=
  of_performed_done ((Step.leave visits).perform_eq consistent nofun)

/-- A host that closes its room is told so itself, first of all and once. -/
theorem Hosts.told_of_close (hosts : lobby.Hosts c client code room)
    (consistent : lobby.Consistent) :
    ((lobby.close c).messages.filter fun message => message.recipient = c) =
      [.notify c .roomClosed] := by
  have once : room.members.filter (· = c) = [c] := by
    rw [List.filter_eq, (consistent.members_nodup hosts.stored).count, if_pos hosts.member]
    rfl
  rw [hosts.close_eq consistent, Message.filter_broadcast _ _ fun d => d = c, once]
  rfl

/-! ## The same by going away -/

/-- A host that goes away closes its room and is forgotten.  The others are told of the
    closing as if the host had closed the room. -/
theorem Hosts.disconnect_eq (hosts : lobby.Hosts c client code room)
    (consistent : lobby.Consistent) :
    lobby.disconnect c =
      ⟨some { client with room := none }, (lobby.close c).lobby.forget c,
        (lobby.close c).messages.filter fun message => message.recipient ≠ c⟩ := by
  have others : (Message.broadcast room.members .roomClosed).filter
      (fun message => message.recipient ≠ c) = Message.broadcast room.guests .roomClosed := by
    rw [Message.filter_broadcast _ _ fun d => d ≠ c, ← hosts.told_eq consistent]
    simp
  rw [hosts.close_eq consistent, others]
  exact of_performed_removed ((Step.departHost hosts).perform_eq consistent nofun)

theorem Visits.disconnect_eq (visits : lobby.Visits c client code room)
    (consistent : lobby.Consistent) :
    lobby.disconnect c =
      ⟨some { client with room := none }, (lobby.leave c).lobby.forget c,
        (lobby.leave c).messages⟩ := by
  rw [visits.leave_eq consistent]
  exact of_performed_removed ((Step.departGuest visits).perform_eq consistent nofun)

theorem Outside.disconnect_eq (outside : lobby.Outside c client) (consistent : lobby.Consistent) :
    lobby.disconnect c = ⟨some client, lobby.forget c, []⟩ :=
  of_performed_removed ((Step.depart outside).perform_eq consistent nofun)

theorem Consistent.removed_eq (consistent : lobby.Consistent)
    (record : lobby.directory.get? c = some client) :
    (lobby.disconnect c).value = some { client with room := none } := by
  obtain outside | ⟨code, room, hosts⟩ | ⟨code, room, visits⟩ := consistent.standing record
  · rw [outside.disconnect_eq consistent, ← outside.room_eq]
  · rw [hosts.disconnect_eq consistent]
  · rw [visits.disconnect_eq consistent]

theorem Consistent.not_member_of_disconnect (consistent : lobby.Consistent) (c : ConnectionId)
    (stored : (lobby.disconnect c).lobby.rooms[code]? = some room) : c ∉ room.members := by
  -- the record is gone, and every member has one
  have forgotten : (lobby.disconnect c).lobby.directory.get? c = none :=
    (perform_step consistent c .disconnect).forgotten
  have after : (lobby.disconnect c).lobby.Consistent := consistent.perform c .disconnect
  refine after.not_member (fun client record => ?_) stored
  rw [forgotten] at record
  cases record

/-- In every lobby that a history leads to, going away is closing or leaving the room and
    then being forgotten.  A host that goes away leaves the lobby that it leaves when it
    closes its room, less its record, and the others are told the same in the same order,
    without the one message to the host.  A guest leaves the lobby that it leaves when it
    leaves its room, less its record, and all are told the same.  For a client in no room
    nothing goes but its record.  The record is answered as it was, in no room, and no room
    lists the connection any more.  A connection without a record changes nothing. -/
theorem disconnect_leaves_then_forgets (limits : Limits) (draws : Draws)
    (history : List (ConnectionId × Operation)) (c : ConnectionId) :
    let lobby := (Lobby.empty limits draws).after history
    let gone := lobby.disconnect c
    (lobby.directory.get? c = none → gone = ⟨none, lobby, []⟩) ∧
      ∀ client, lobby.directory.get? c = some client →
        gone.value = some { client with room := none } ∧
        (∀ (code : RoomCode) (room : Room), gone.lobby.rooms[code]? = some room →
          c ∉ room.members) ∧
        (∀ (code : RoomCode) (room : Room), lobby.rooms[code]? = some room → room.host = c →
          (lobby.close c).value = .ok () ∧
          gone.lobby = (lobby.close c).lobby.forget c ∧
          gone.messages = ((lobby.close c).messages.filter fun message => message.recipient ≠ c) ∧
          ((lobby.close c).messages.filter fun message => message.recipient = c) =
            [.notify c .roomClosed]) ∧
        (∀ (code : RoomCode) (room : Room), lobby.rooms[code]? = some room → c ∈ room.guests →
          (lobby.leave c).value = .ok () ∧
          gone.lobby = (lobby.leave c).lobby.forget c ∧
          gone.messages = (lobby.leave c).messages) ∧
        ((∀ (code : RoomCode) (room : Room), lobby.rooms[code]? = some room →
            c ∉ room.members) →
          gone.lobby = lobby.forget c ∧ gone.messages = []) := by
  intro lobby gone
  have consistent : lobby.Consistent := consistent_after limits draws history
  refine ⟨fun absent => ?_, fun client record => ⟨?_, ?_, ?_, ?_, ?_⟩⟩
  · exact of_performed_removed ((Step.absent absent).perform_eq consistent nofun)
  · exact consistent.removed_eq record
  · exact fun code room => consistent.not_member_of_disconnect c
  · intro code room stored host
    have hosts : lobby.Hosts c client code room := ⟨record, stored, host⟩
    have departed : gone = _ := hosts.disconnect_eq consistent
    refine ⟨?_, ?_, ?_, hosts.told_of_close consistent⟩
    · rw [hosts.close_eq consistent]
    · rw [departed]
    · rw [departed]
  · intro code room stored guest
    have visits : lobby.Visits c client code room := ⟨record, stored, guest⟩
    have departed : gone = _ := visits.disconnect_eq consistent
    refine ⟨?_, ?_, ?_⟩
    · rw [visits.leave_eq consistent]
    · rw [departed]
    · rw [departed]
  · intro nowhere
    have outside : lobby.Outside c client := by
      refine ⟨record, Option.eq_none_iff_forall_ne_some.mpr fun code named => ?_⟩
      obtain ⟨room, stored, member⟩ := consistent.room_of_record record named
      exact nowhere code room stored member
    have departed : gone = _ := outside.disconnect_eq consistent
    exact ⟨by rw [departed], by rw [departed]⟩

/-- A host with two guests goes away: both are told, in the order in which they joined,
    as if it had closed the room.  When the second guest goes instead, it is as if it had
    left. -/
theorem departures_from_room_of_three :
    let history : List (ConnectionId × Operation) :=
      [(⟨1⟩, .connect), (⟨2⟩, .connect), (⟨3⟩, .connect), (⟨1⟩, .create), (⟨3⟩, .join ⟨7⟩),
        (⟨2⟩, .join ⟨7⟩)]
    let lobby := (Lobby.empty {} (Draws.ofList [7])).after history
    (lobby.disconnect ⟨1⟩).lobby = (lobby.close ⟨1⟩).lobby.forget ⟨1⟩ ∧
      (lobby.disconnect ⟨1⟩).messages = [.notify ⟨3⟩ .roomClosed, .notify ⟨2⟩ .roomClosed] ∧
      (lobby.disconnect ⟨2⟩).lobby = (lobby.leave ⟨2⟩).lobby.forget ⟨2⟩ ∧
      (lobby.disconnect ⟨2⟩).messages =
        [.notify ⟨1⟩ (.memberLeft ⟨2⟩), .notify ⟨3⟩ (.memberLeft ⟨2⟩)] := by
  intro history lobby
  have departures := disconnect_leaves_then_forgets {} (Draws.ofList [7]) history
  have stored : lobby.rooms[(⟨7⟩ : RoomCode)]? =
      some { code := ⟨7⟩, host := ⟨1⟩, guests := [⟨3⟩, ⟨2⟩] } := by
    decide +kernel
  have host : lobby.directory.get? ⟨1⟩ =
      some { id := ⟨1⟩, connection := ⟨1⟩, room := some ⟨7⟩ } := by
    decide +kernel
  have guest : lobby.directory.get? ⟨2⟩ =
      some { id := ⟨2⟩, connection := ⟨2⟩, room := some ⟨7⟩ } := by
    decide +kernel
  obtain ⟨-, -, asHost, -⟩ := (departures ⟨1⟩).2 _ host
  obtain ⟨-, -, -, asGuest, -⟩ := (departures ⟨2⟩).2 _ guest
  obtain ⟨-, closed, -⟩ := asHost ⟨7⟩ _ stored rfl
  obtain ⟨-, left, -⟩ := asGuest ⟨7⟩ _ stored (by decide)
  exact ⟨closed, by decide +kernel, left, by decide +kernel⟩

end Rendezvous.Lobby

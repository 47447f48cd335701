import Rendezvous.Proofs.Lobby.Names
import Rendezvous.Proofs.Server.Inbox
import Rendezvous.Proofs.Server.Relaying
import Rendezvous.Proofs.Wire.Command

/-! # Genuine notices

A client can believe every notice that it reads.  What another client sends is
never read as one, and what the server writes is read as the very notice that was
meant (`deliveries_genuine`).

The first half is in the first byte.  The second is about lengths: a text that is
too long for its field would be cut.  Reasons are short, and every name has come
out of a text field (`Event.name_fits`), so it goes back into one whatever the
limit on names is.
-/

namespace Rendezvous

open Rendezvous.Wire (Bytes Command Notice Packet)

/-! ## Texts that arrive -/

theorem Operation.name_fits {data : Bytes} {mode : DeliveryMode} {name : String}
    (asks : Operation.ofPacket? data mode = some (.setName name)) :
    name.utf8ByteSize ≤ Wire.maxTextLength := by
  simp only [ofPacket?] at asks
  split at asks
  next => cases asks
  next => cases asks
  next =>
    split at asks
    next => cases asks
    next command read =>
      have uncut := Command.cut_of_ofFields read
      cases command with
      | setName taken =>
        cases asks
        simp only [Command.cut, Command.setName.injEq] at uncut
        rw [← uncut]
        exact Wire.Utf8.longestPrefix_le _ name
      | _ => cases asks

theorem Event.name_fits {event : Event} {c : ConnectionId} {name : String}
    (asks : event.operation? = some (c, .setName name)) :
    name.utf8ByteSize ≤ Wire.maxTextLength := by
  cases event with
  | connected | disconnected | failed => simp [operation?] at asks
  | received d data mode =>
    simp only [operation?, Option.map_eq_some_iff, Prod.mk.injEq] at asks
    obtain ⟨operation, ofPacket, -, rfl⟩ := asks
    exact Operation.name_fits ofPacket

theorem Refusal.message_fits {refusal : Refusal} (reportable : refusal.isReportable = true) :
    refusal.message.utf8ByteSize ≤ Wire.maxTextLength := by
  have short : refusal.message.utf8ByteSize < 32 := by
    cases refusal with
    | unknownConnection => cases reportable
    | invalidRoomCode => exact (by decide : "Invalid Room Code".utf8ByteSize < 32)
    | nameTooLong => exact (by decide : "Name too long".utf8ByteSize < 32)
    | _ => decide
  rw [Wire.maxTextLength]
  omega

theorem Lobby.Step.of_relayed {lobby : Lobby} {c : ConnectionId} {operation : Operation}
    {outcome : Outcome (Answer Reply)} (step : lobby.Step c operation outcome) {message : Message}
    {data : Bytes} {mode : DeliveryMode} (told : message ∈ outcome.messages)
    (carries : message.content = .relayed data mode) : operation = .relay data mode := by
  by_cases other : ∀ data mode, operation ≠ .relay data mode
  · obtain ⟨recipient, notice, rfl⟩ := step.notices other message told
    cases carries
  · push Not at other
    obtain ⟨passed, guarantee, rfl⟩ := other
    cases step with
    | declined => cases told
    | relayToGuests =>
      obtain ⟨guest, -, rfl⟩ := List.mem_map.mp told
      cases carries
      rfl
    | relayToHost =>
      rw [List.mem_singleton.mp told] at carries
      cases carries
      rfl

/-! ## Messages that are read as they were meant -/

/-- How an event's delivery stands to the message that it was made from: it is the
    packet of the event, untouched and no notice, or it is read as the notice that
    was meant. -/
inductive Handled.Conveys (step : Handled) : Message → Delivery → Prop
  | passedOn {sender recipient : ConnectionId} {data : Bytes} {mode : DeliveryMode}
      (received : step.event = .received sender data mode)
      (notControl : ∃ first rest, data = first :: rest ∧ first ≠ 0)
      (unreadable : Notice.decode data = .error .notControl) :
      Conveys step (.forward recipient data mode) ⟨recipient, data, mode⟩
  | told {recipient : ConnectionId} {notice : Notice} {rest : Bytes}
      (read : Notice.decode (0 :: rest) = .ok notice) :
      Conveys step (.notify recipient notice) ⟨recipient, 0 :: rest, .reliableOrdered⟩

namespace Handled

variable {step : Handled}

theorem conveys_forward {sender : ConnectionId} {data : Bytes} {mode : DeliveryMode}
    (received : step.event = .received sender data mode)
    (relayed : Packet.isRelayed data = true) (recipient : ConnectionId) :
    step.Conveys (.forward recipient data mode) (Message.forward recipient data mode).delivery := by
  have unreadable : Notice.decode data = .error .notControl := by
    rw [Notice.decode, Packet.split_of_isRelayed relayed]
    rfl
  refine .passedOn received ?_ unreadable
  cases data with
  | nil => cases relayed
  | cons first rest => exact ⟨first, rest, rfl, of_decide_eq_true relayed⟩

theorem conveys_notify {notice : Notice} (sized : notice.WireSized) (recipient : ConnectionId) :
    step.Conveys (.notify recipient notice) (Message.notify recipient notice).delivery := by
  have readBack := sized.decode_encode []
  rw [List.append_nil] at readBack
  exact .told readBack

theorem conveys_report {message : Message} {operation : Operation} {c : ConnectionId}
    {answer : Answer Reply} (told : message ∈ operation.report c answer) :
    step.Conveys message message.delivery := by
  have refused : ∀ refusal, message ∈ Lobby.refusalNotice c refusal →
      step.Conveys message message.delivery := by
    intro refusal told
    rw [Lobby.refusalNotice] at told
    split at told
    next reportable =>
      -- a report says a reason, and reasons are short
      have sized : (Notice.invalid refusal.message).WireSized := Refusal.message_fits reportable
      rw [List.mem_singleton.mp told]
      exact conveys_notify sized c
    next => cases told
  cases answer with
  | ok => cases operation <;> cases told
  | error refusal =>
    cases operation with
    | relay => cases told
    | _ => exact refused refusal told

/-- If all names fit into text fields and no room is too large for its list, every
    delivery of an event conveys its message. -/
theorem conveys (consistent : step.before.Consistent) (fit : step.before.NamesFit)
    (small : step.before.RoomsFit) :
    List.Forall₂ step.Conveys step.messages step.deliveries := by
  rw [deliveries, List.forall₂_map_right_iff, List.forall₂_same]
  intro message told
  cases step.cases consistent with
  | inl idle => rw [idle.2.2] at told; cases told
  | inr active =>
    obtain ⟨c, operation, outcome, asks, done, -, messages⟩ := active
    rw [messages] at told
    cases List.mem_append.mp told with
    | inr inReport => exact conveys_report inReport
    | inl byStep =>
      have relayed : ∀ data mode, operation = .relay data mode → Packet.isRelayed data = true := by
        rintro data mode rfl
        exact (Event.operation?_eq_relay_iff.mp asks).2
      have readable := done.readable small relayed message byStep
      obtain ⟨recipient, content⟩ := message
      cases content with
      | notice notice =>
        refine conveys_notify (Notice.wireSized_iff.mpr ⟨readable, fun text listed => ?_⟩) recipient
        obtain ⟨d, client, record, rfl⟩ := done.text_origin byStep rfl text listed
        exact fit d client record
      | relayed data mode =>
        obtain rfl := done.of_relayed byStep rfl
        exact conveys_forward (Event.operation?_eq_relay_iff.mp asks).1 readable recipient

theorem namesFit_after (consistent : step.before.Consistent) (fit : step.before.NamesFit) :
    step.after.NamesFit := by
  cases step.cases consistent with
  | inl idle => rw [idle.2.1]; exact fit
  | inr active =>
    obtain ⟨c, operation, outcome, asks, done, after, -⟩ := active
    rw [after]
    refine done.namesFit fit ?_
    rintro name rfl
    exact Event.name_fits asks

end Handled

/-! ## Whole runs -/

theorem Lobby.NamesFit.trace {lobby : Lobby} (fit : lobby.NamesFit)
    (consistent : lobby.Consistent) (events : List Event) :
    ∀ step ∈ lobby.trace events, step.before.NamesFit := by
  induction events generalizing lobby with
  | nil => simp [Lobby.trace]
  | cons event events inductionHypothesis =>
    let step : Handled := ⟨lobby, event⟩
    have later := inductionHypothesis (step.namesFit_after consistent fit)
      (step.after_consistent consistent)
    simpa [Lobby.trace] using ⟨fit, later⟩

/-- Whatever clients send, and whatever the limit on names is, everything that is
    queued is either the packet of the event as it came, which does not begin with
    zero and is read as no notice, or a packet that begins with zero and is read as
    the very notice that was meant, with nothing cut. -/
theorem deliveries_genuine (limits : Limits) (draws : Draws) (events : List Event)
    (small : ∀ step ∈ (Lobby.empty limits draws).trace events, step.before.RoomsFit) :
    ∀ step ∈ (Lobby.empty limits draws).trace events,
      List.Forall₂ step.Conveys step.messages step.deliveries := by
  have consistent := Lobby.Consistent.empty limits draws
  have nameless : (Lobby.empty limits draws).NamesFit := by simp [Lobby.NamesFit]
  intro step listed
  exact Handled.conveys (consistent.trace events step listed)
    (nameless.trace consistent events step listed) (small step listed)

/-- Where the limit on names is no limit at all, a guest reads the name of its host,
    and the packet that the host sends is no notice to it. -/
theorem named_host_genuine :
    let events : List Event :=
      [.connected ⟨1⟩ "host", .received ⟨1⟩ (Command.setName "Zoë").encode .unreliable,
        .received ⟨1⟩ Command.createRoom.encode .reliableOrdered, .connected ⟨2⟩ "guest",
        .received ⟨2⟩ (Command.joinRoom ⟨7⟩).encode .reliableOrdered,
        .received ⟨1⟩ [7, 0, 0] .unreliable]
    let run := (Lobby.empty { maxNameLength := 100000 } (Draws.ofList [7])).trace events
    (run[4].messages = [.notify ⟨1⟩ (.memberJoined ⟨⟨2⟩, ""⟩),
        .notify ⟨2⟩ (.roomMembers [⟨⟨1⟩, "Zoë"⟩])] ∧
      List.Forall₂ run[4].Conveys run[4].messages run[4].deliveries) ∧
    run[5].messages = [.forward ⟨2⟩ [7, 0, 0] .unreliable] ∧
      List.Forall₂ run[5].Conveys run[5].messages run[5].deliveries := by
  intro events run
  have small : ∀ step ∈ run, step.before.RoomsFit := by
    have listed : ∀ step ∈ run, ∀ entry ∈ step.before.rooms.toList,
        entry.2.members.length < 2 ^ 32 := by
      decide +kernel
    exact fun step member => Lobby.roomsFit_of_toList (listed step member)
  have genuine := deliveries_genuine { maxNameLength := 100000 } (Draws.ofList [7]) events small
  refine ⟨⟨?_, genuine run[4] (List.getElem_mem _)⟩, ?_, genuine run[5] (List.getElem_mem _)⟩
  · decide +kernel
  · decide +kernel

end Rendezvous

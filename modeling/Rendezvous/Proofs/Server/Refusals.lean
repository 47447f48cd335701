import Rendezvous.Proofs.Lobby.Frame
import Rendezvous.Proofs.Server.Commands

/-! # Refusals

An operation that is declined leaves the lobby as it was, down to the numbers that
codes are drawn from, and tells nobody anything.  So a packet is one operation that
succeeds, or it changes nothing; and then its sender is told why exactly if the
packet is a command and the lobby knows the sender (`refusals_atomic`).

The lobby's part is `Step.of_error`.  Here the ways are listed in which a packet can
turn out (`Received`), and every packet turns out in one of them (`received`).
-/

namespace Rendezvous

open Rendezvous.Wire (Bytes Command Packet)

/-! ## What a packet asks for -/

/-- The operations that a packet asks for. -/
inductive Operation.AskedBy (data : Bytes) (mode : DeliveryMode) : Operation → Prop
  | relay (relayed : Packet.isRelayed data = true) : AskedBy data mode (.relay data mode)
  | command (command : Command) (rest : Bytes) (spelled : data = command.encode ++ rest) :
      AskedBy data mode (.ofCommand command.cut)

theorem Wire.Command.isRelayed_encode (command : Command) (rest : Bytes) :
    Packet.isRelayed (command.encode ++ rest) = false := rfl

/-- Packets that begin with commands which are read alike ask for the same. -/
theorem Wire.Command.cut_of_encode_append {command other : Command} {rest rest' : Bytes}
    (same : command.encode ++ rest = other.encode ++ rest') : command.cut = other.cut := by
  simp only [Command.encode, Packet.encode, List.cons_append, List.cons.injEq, true_and] at same
  obtain ⟨code, fields⟩ := same
  have read := Command.ofFields_encode command rest
  rw [code, fields, Command.ofFields_encode] at read
  exact (Except.ok.inj read).symm

namespace Lobby

/-! ## How a packet turns out -/

/-- What comes of a packet: it is an operation that succeeds, a command that is declined
    to somebody with a record, who is told why, or nothing at all. -/
inductive Received (lobby : Lobby) (c : ConnectionId) (data : Bytes) (mode : DeliveryMode) :
    Lobby × List Message → Prop
  | done {operation : Operation} {reply : Reply} (asks : operation.AskedBy data mode)
      (succeeds : (lobby.perform c operation).value = .ok reply) :
      Received lobby c data mode
        ((lobby.perform c operation).lobby, (lobby.perform c operation).messages)
  | refused {command : Command} {rest : Bytes} {refusal : Refusal}
      (spelled : data = command.encode ++ rest) (known : lobby.Knows c)
      (declined : (lobby.perform c (.ofCommand command.cut)).value = .error refusal) :
      Received lobby c data mode (lobby, [.notify c (.invalid refusal.message)])
  | dropped (silent : ∀ (command : Command) (rest : Bytes) (refusal : Refusal),
      data = command.encode ++ rest →
        (lobby.perform c (.ofCommand command.cut)).value = .error refusal → ¬lobby.Knows c) :
      Received lobby c data mode (lobby, [])

variable {lobby : Lobby} {c : ConnectionId} {data : Bytes} {mode : DeliveryMode}

/-- Only somebody without a record is not told why an operation is declined. -/
theorem Declines.not_known {operation : Operation} {refusal : Refusal}
    (declines : lobby.Declines c operation refusal) (unreported : refusal.isReportable = false) :
    ¬lobby.Knows c := by
  cases declines with
  | unknown _ absent =>
    rintro ⟨client, record⟩
    rw [absent] at record
    cases record
  | _ => cases unreported

theorem received_relay (consistent : lobby.Consistent)
    (relayed : Packet.isRelayed data = true) :
    lobby.Received c data mode (lobby.handle (.received c data mode)) := by
  have asks : (Event.received c data mode).operation? = some (c, .relay data mode) :=
    Event.operation?_eq_relay_iff.mpr ⟨rfl, relayed⟩
  rw [handle_eq, asks]
  simp only [Operation.report, List.append_nil]
  cases answer : (lobby.perform c (.relay data mode)).value with
  | ok reply => exact .done (.relay relayed) answer
  | error refusal =>
    obtain ⟨-, same, silent⟩ := (perform_step consistent c _).of_error answer
    rw [same, silent]
    refine .dropped fun command rest _ spelled => ?_
    rw [spelled, Command.isRelayed_encode] at relayed
    cases relayed

theorem received_command (consistent : lobby.Consistent) (command : Command) (rest : Bytes) :
    lobby.Received c (command.encode ++ rest) mode
      (lobby.handle (.received c (command.encode ++ rest) mode)) := by
  rw [handle_encode]
  cases answer : (lobby.perform c (.ofCommand command.cut)).value with
  | ok reply =>
    simp only [execute, answer]
    exact .done (.command command rest rfl) answer
  | error refusal =>
    obtain ⟨declines, same, silent⟩ := (perform_step consistent c _).of_error answer
    simp only [execute, answer, same, silent, List.nil_append, refusalNotice]
    cases reportable : refusal.isReportable with
    | true => exact .refused rfl (declines.known reportable) answer
    | false => exact .dropped fun _ _ _ _ _ => declines.not_known reportable

theorem received (consistent : lobby.Consistent) (c : ConnectionId) (data : Bytes)
    (mode : DeliveryMode) :
    lobby.Received c data mode (lobby.handle (.received c data mode)) := by
  by_cases relayed : Packet.isRelayed data = true
  · exact received_relay consistent relayed
  · by_cases readable : ∃ (command : Command) (rest : Bytes), data = command.encode ++ rest
    · obtain ⟨command, rest, rfl⟩ := readable
      exact received_command consistent command rest
    · rw [handle_unreadable lobby c mode (Bool.eq_false_of_not_eq_true relayed) readable]
      exact .dropped fun command rest _ spelled => absurd ⟨command, rest, spelled⟩ readable

theorem Step.not_invalid {operation : Operation} {outcome : Outcome (Answer Reply)}
    (step : Step lobby c operation outcome) (recipient : ConnectionId) (reason : String) :
    .notify recipient (.invalid reason) ∉ outcome.messages := by
  cases step <;> simp [Message.broadcast, Message.notify, Message.forward]

/-- A reason is told exactly to somebody with a record whose command is declined. -/
theorem Received.invalid_iff {result : Lobby × List Message} (consistent : lobby.Consistent)
    (turned : lobby.Received c data mode result) (recipient : ConnectionId) (reason : String) :
    .notify recipient (.invalid reason) ∈ result.2 ↔
      recipient = c ∧ ∃ command rest refusal, data = Command.encode command ++ rest ∧
        lobby.Knows c ∧ (lobby.perform c (.ofCommand command.cut)).value = .error refusal ∧
        reason = refusal.message := by
  cases turned with
  | done asks succeeds =>
    refine iff_of_false ((perform_step consistent c _).not_invalid recipient reason) ?_
    rintro ⟨-, command, rest, refusal, spelled, -, declined, -⟩
    cases asks with
    | relay relayed => rw [spelled, Command.isRelayed_encode] at relayed; cases relayed
    | command other _ spelledOther =>
      rw [Command.cut_of_encode_append (spelled.symm.trans spelledOther), succeeds] at declined
      cases declined
  | @refused command rest refusal spelled known declined =>
    simp only [List.mem_singleton, Message.notify, Message.mk.injEq, Content.notice.injEq,
      Wire.Notice.invalid.injEq]
    refine and_congr_right fun _ => ⟨?_, ?_⟩
    · rintro rfl
      exact ⟨command, rest, refusal, spelled, known, declined, rfl⟩
    · rintro ⟨other, _, refusal', spelledOther, -, declinedOther, rfl⟩
      rw [Command.cut_of_encode_append (spelledOther.symm.trans spelled), declined] at declinedOther
      cases declinedOther
      rfl
  | dropped silent =>
    refine iff_of_false List.not_mem_nil ?_
    rintro ⟨-, command, rest, refusal, spelled, known, declined, -⟩
    exact silent command rest refusal spelled declined known

end Lobby

/-- An operation that is declined does nothing, and no number is drawn for it.  So a
    packet is an operation that succeeds, or it leaves the lobby as it was and tells
    nobody anything but at most the reason to its sender.  The reason is told exactly
    if the packet is a command, the sender has a record and the command is declined,
    and so never for a packet that is passed on. -/
theorem refusals_atomic (limits : Limits) (draws : Draws)
    (history : List (ConnectionId × Operation)) :
    let lobby := (Lobby.empty limits draws).after history
    (∀ c operation refusal, (lobby.perform c operation).value = .error refusal →
      (lobby.perform c operation).lobby = lobby ∧ (lobby.perform c operation).messages = []) ∧
      ∀ c data mode,
        let handled := lobby.handle (.received c data mode)
        ((∃ operation reply, operation.AskedBy data mode ∧
            (lobby.perform c operation).value = .ok reply ∧
            handled = ((lobby.perform c operation).lobby, (lobby.perform c operation).messages)) ∨
          handled.1 = lobby ∧
            (handled.2 = [] ∨ ∃ reason, handled.2 = [.notify c (.invalid reason)])) ∧
        (∀ recipient reason, .notify recipient (.invalid reason) ∈ handled.2 ↔
          recipient = c ∧ ∃ command rest refusal, data = Command.encode command ++ rest ∧
            (∃ client, lobby.directory.get? c = some client) ∧
            (lobby.perform c (.ofCommand command.cut)).value = .error refusal ∧
            reason = refusal.message) ∧
        (Packet.isRelayed data = true →
          ∀ recipient reason, .notify recipient (.invalid reason) ∉ handled.2) := by
  intro lobby
  have consistent : lobby.Consistent := Lobby.consistent_after limits draws history
  refine ⟨?_, fun c data mode => ?_⟩
  · intro c operation refusal declined
    exact ((Lobby.perform_step consistent c operation).of_error declined).2
  · intro handled
    have turned : lobby.Received c data mode handled := Lobby.received consistent c data mode
    refine ⟨?_, turned.invalid_iff consistent, fun relayed recipient reason told => ?_⟩
    · clear_value handled
      cases turned with
      | done asks succeeds => exact .inl ⟨_, _, asks, succeeds, rfl⟩
      | refused => exact .inr ⟨rfl, .inr ⟨_, rfl⟩⟩
      | dropped => exact .inr ⟨rfl, .inl rfl⟩
    · obtain ⟨-, command, rest, -, spelled, -⟩ :=
        (turned.invalid_iff consistent recipient reason).mp told
      rw [spelled, Command.isRelayed_encode] at relayed
      cases relayed

/-- The one code that there is is taken: a second room is declined, and its host is told
    so once. -/
theorem second_room_declined :
    let limits : Limits := { codeSpace := 1, drawAttempts := 0 }
    let history : List (ConnectionId × Operation) :=
      [(⟨1⟩, .connect), (⟨2⟩, .connect), (⟨1⟩, .create)]
    let lobby := (Lobby.empty limits (Draws.ofList [])).after history
    (lobby.perform ⟨2⟩ .create).value = .error .codesExhausted ∧
      (lobby.perform ⟨2⟩ .create).lobby = lobby ∧
      .notify ⟨2⟩ (.invalid "No room codes available") ∈
        (lobby.handle (.received ⟨2⟩ [0, 0] .reliableOrdered)).2 := by
  intro limits history lobby
  have declined : (lobby.perform ⟨2⟩ .create).value = .error .codesExhausted := by
    decide +kernel
  have known : ∃ client, lobby.directory.get? ⟨2⟩ = some client :=
    Option.isSome_iff_exists.mp (by decide +kernel)
  obtain ⟨declines, packets⟩ := refusals_atomic limits (Draws.ofList []) history
  refine ⟨declined, (declines ⟨2⟩ .create _ declined).1, ?_⟩
  exact ((packets ⟨2⟩ [0, 0] .reliableOrdered).2.1 ⟨2⟩ _).mpr
    ⟨rfl, .createRoom, [], _, rfl, known, declined, rfl⟩

end Rendezvous

import Rendezvous.Proofs.Server.Trace
import Rendezvous.Proofs.Wire.Command

/-! # Packets as commands

To send a command is to perform the operation that it names: trailing bytes are
ignored, and the sender hears of a refusal once, unless the lobby does not know
it.  No other packet of the server's own does anything.  So the server accepts
exactly the packets that begin with a command as it is written
(`commands_are_operations`).

None of this needs a consistent lobby, since a packet is read before the lobby
is looked at.
-/

namespace Rendezvous

open Rendezvous.Wire (Bytes Command Packet)

namespace Lobby

variable (lobby : Lobby) (c : ConnectionId) (mode : DeliveryMode)

theorem handle_encode (command : Command) (rest : Bytes) :
    lobby.handle (.received c (command.encode ++ rest) mode) = lobby.execute c command.cut := by
  have isControl : Packet.split (command.encode ++ rest) =
      .ok (.control command.code.toByte
        (command.fields.flatMap Wire.Field.encode ++ rest)) := rfl
  simp only [handle, receive, isControl, Command.ofFields_encode]

/-- Carrying out a command is performing the operation that it names and saying why
    it is declined, unless there is nobody to tell. -/
theorem execute_eq (command : Command) :
    lobby.execute c command =
      let outcome := lobby.perform c (.ofCommand command)
      (outcome.lobby, outcome.messages ++
        match outcome.value with
        | .ok _ | .error (.unknownConnection _) => []
        | .error refusal => [.notify c (.invalid refusal.message)]) := by
  simp only [execute]
  cases (lobby.perform c (.ofCommand command)).value with
  | ok reply => simp
  | error refusal => cases refusal <;> rfl

/-- A packet of the server's own that begins with no command is dropped. -/
theorem handle_unreadable {data : Bytes} (notRelayed : Packet.isRelayed data = false)
    (unreadable : ¬∃ (command : Command) (rest : Bytes), data = command.encode ++ rest) :
    lobby.handle (.received c data mode) = (lobby, []) := by
  cases sorted : Packet.split data with
  | error error => simp only [handle, receive, sorted]
  | ok packet =>
    have spelled := Packet.encode_of_split sorted
    cases packet with
    | relayed data =>
      rw [(Packet.of_split_relayed sorted).2] at notRelayed
      cases notRelayed
    | control code fields =>
      cases read : Command.ofFields code fields with
      | error error => simp only [handle, receive, sorted, read]
      | ok command =>
        -- what can be read as a command begins with it, so there is one after all
        obtain ⟨rest, written⟩ := Command.of_ofFields read
        exact absurd ⟨command, rest, spelled.symm.trans written⟩ unreadable

end Lobby

/-- A packet that begins with a command is the operation that the command names, with
    a name cut to the longest prefix that a text field carries, followed by the
    reason to its sender if it is declined.  Any other packet that is not passed on
    does nothing.  This holds in every lobby. -/
theorem commands_are_operations :
    (Operation.ofCommand .createRoom = .create ∧
      (∀ code, Operation.ofCommand (.joinRoom code) = .join code) ∧
      Operation.ofCommand .leaveRoom = .leave ∧ Operation.ofCommand .startRoom = .start ∧
      Operation.ofCommand .closeRoom = .close ∧
      ∀ name, Operation.ofCommand (.setName name) = .setName name) ∧
    (∀ (lobby : Lobby) (c : ConnectionId) (command : Command) (rest : Bytes)
        (mode : DeliveryMode),
      let outcome := lobby.perform c (.ofCommand command.cut)
      lobby.handle (.received c (command.encode ++ rest) mode) =
        (outcome.lobby, outcome.messages ++
          match outcome.value with
          | .ok _ | .error (.unknownConnection _) => []
          | .error refusal => [.notify c (.invalid refusal.message)])) ∧
    (∀ name : String, ∃ kept, Command.cut (.setName name) = .setName kept ∧
      Wire.Utf8.IsLongestPrefix 65535 kept name) ∧
    ∀ (lobby : Lobby) (c : ConnectionId) (data : Bytes) (mode : DeliveryMode),
      Packet.isRelayed data = false →
      (¬∃ (command : Command) (rest : Bytes), data = command.encode ++ rest) →
        lobby.handle (.received c data mode) = (lobby, []) := by
  refine ⟨⟨rfl, fun _ => rfl, rfl, rfl, rfl, fun _ => rfl⟩,
    fun lobby c command rest mode => ?_, fun name => ?_, ?_⟩
  · rw [Lobby.handle_encode, Lobby.execute_eq]
  · exact ⟨_, rfl, Wire.Utf8.longestPrefix_isLongest 65535 name⟩
  · exact fun lobby c data mode notRelayed unreadable =>
      lobby.handle_unreadable c mode notRelayed unreadable

/-- A request to join whose code is cut short is dropped. -/
theorem truncated_join_dropped :
    Packet.isRelayed [0, 1, 7] = false ∧
      (¬∃ (command : Command) (rest : Bytes), [0, 1, 7] = command.encode ++ rest) ∧
      (Lobby.empty {} (Draws.ofList [])).handle (.received ⟨1⟩ [0, 1, 7] .reliableOrdered) =
        (Lobby.empty {} (Draws.ofList []), []) := by
  have unreadable : ¬∃ (command : Command) (rest : Bytes), [0, 1, 7] = command.encode ++ rest := by
    rintro ⟨command, rest, same⟩
    have length := congrArg List.length same
    cases command with
    | joinRoom code =>
      simp [Command.encode, Packet.encode, Command.fields, Wire.Field.encode] at length
      omega
    | _ => simp [Command.encode, Packet.encode, Command.code, Wire.CommandCode.toByte] at same
  refine ⟨rfl, unreadable, ?_⟩
  exact commands_are_operations.2.2.2 _ ⟨1⟩ [0, 1, 7] .reliableOrdered rfl unreadable

end Rendezvous

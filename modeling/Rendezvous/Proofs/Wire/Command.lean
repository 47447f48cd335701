import Rendezvous.Proofs.Wire.Field
import Rendezvous.Wire.Command

/-! # Reading a command back

A command is read back from its fields, whatever bytes follow, with its name cut
to what a text field carries (`ofFields_encode`).  Nothing else is read as a
command: fields that are read begin with the fields of the command
(`of_ofFields`).
-/

namespace Rendezvous.Wire.Command

def cut : Command → Command
  | .setName name => .setName (Utf8.longestPrefix maxTextLength name)
  | command => command

/-! ## Codes -/

theorem ofByte_toByte (code : CommandCode) : CommandCode.ofByte code.toByte = .ok code := by
  cases code <;> rfl

theorem toByte_of_ofByte {byte : UInt8} {code : CommandCode}
    (known : CommandCode.ofByte byte = .ok code) : code.toByte = byte := by
  simp only [CommandCode.ofByte] at known
  split at known <;> cases known <;> rfl

/-! ## Fields -/

theorem read_fields (command : Command) (rest : Bytes) :
    command.code.command.read (command.fields.flatMap Field.encode ++ rest) =
      (.ok command.cut, rest) := by
  cases command with
  | joinRoom code =>
    simp only [fields, List.flatMap_cons, List.flatMap_nil, List.append_nil]
    exact Reader.read_map _ (Reader.read_word32 code.val rest)
  | setName name =>
    simp only [fields, List.flatMap_cons, List.flatMap_nil, List.append_nil]
    exact Reader.read_map _ (Reader.read_text name rest)
  | createRoom | leaveRoom | startRoom | closeRoom => rfl

/-- Only fields that a command of this kind is written with are read as one. -/
theorem of_read_fields {code : CommandCode} {command : Command} {bytes rest : Bytes}
    (done : code.command.read bytes = (.ok command, rest)) :
    command.code = code ∧ bytes = command.fields.flatMap Field.encode ++ rest := by
  cases code with
  | joinRoom =>
    obtain ⟨code, taken, rfl⟩ := Reader.of_read_map done
    exact ⟨rfl, by simpa [fields] using Reader.of_read_word32 taken⟩
  | setName =>
    obtain ⟨name, taken, rfl⟩ := Reader.of_read_map done
    obtain ⟨-, rfl⟩ := Reader.of_read_text taken
    exact ⟨rfl, by simp [fields]⟩
  | createRoom | leaveRoom | startRoom | closeRoom =>
    cases done
    exact ⟨rfl, rfl⟩

/-! ## Commands -/

theorem ofFields_encode (command : Command) (rest : Bytes) :
    ofFields command.code.toByte (command.fields.flatMap Field.encode ++ rest) =
      .ok command.cut := by
  simp only [ofFields, ofByte_toByte, bind, Except.bind, read_fields]

/-- What is read as a command is that command as it is written, and some rest. -/
theorem of_ofFields {byte : UInt8} {bytes : Bytes} {command : Command}
    (read : ofFields byte bytes = .ok command) :
    ∃ rest, Packet.encode (.control byte bytes) = command.encode ++ rest := by
  cases known : CommandCode.ofByte byte with
  | error error => simp [ofFields, known, bind, Except.bind] at read
  | ok code =>
    simp only [ofFields, known, bind, Except.bind] at read
    have done : code.command.read bytes = (.ok command, (code.command.read bytes).2) :=
      Prod.ext read rfl
    obtain ⟨rfl, spelled⟩ := of_read_fields done
    refine ⟨(command.code.command.read bytes).2, ?_⟩
    rw [encode, toByte_of_ofByte known, Packet.encode, Packet.encode, List.cons_append,
      List.cons_append, ← spelled]

theorem cut_of_ofFields {byte : UInt8} {bytes : Bytes} {command : Command}
    (read : ofFields byte bytes = .ok command) : command.cut = command := by
  -- its text came out of a text field, and is cut as it was written
  obtain ⟨rest, written⟩ := of_ofFields read
  simp only [encode, Packet.encode, List.cons_append, List.cons.injEq, true_and] at written
  obtain ⟨rfl, rfl⟩ := written
  exact Except.ok.inj ((ofFields_encode command rest).symm.trans read)

end Rendezvous.Wire.Command

import Rendezvous.Proofs.Wire.Notice

/-! # Packets that are not complete yet

A packet may be cut anywhere.  What is said of one that cannot be read tells whether
more bytes could mend it: an error that `isIncomplete` names how many bytes are wanted
and how many are there, and any other error stands, whatever follows
(`incomplete_told_apart`).

Readers are put together from parts, and so is the argument.  A reader is `Incremental`
if what it has read stands when more bytes follow, and if what stops it is an ill-formed
text, which stays ill-formed, or a want of bytes, which lasts until there are enough.
Sequences of such readers are such readers, and every notice is read by one.
-/

namespace Rendezvous.Wire

/-- Whether an error says that bytes are missing at the end. -/
def WireError.isIncomplete : WireError → Bool
  | .tooShort _ | .truncated _ _ => true
  | .unknownCommand _ | .unknownNotice _ | .invalidUtf8 | .notControl => false

namespace Reader

variable {α β : Type} {reader : Reader α} {bytes rest : Bytes} {error : WireError}

/-! ## Incremental readers -/

/-- What stops a reader at some bytes, and what it says when more follow them. -/
inductive Stops (reader : Reader α) (bytes : Bytes) : WireError → Prop
  | illFormed (stays : ∀ more, (reader.read (bytes ++ more)).1 = .error .invalidUtf8) :
      Stops reader bytes .invalidUtf8
  | wanting {needed remaining : Nat} (missing : remaining < needed)
      (waits : ∀ more : Bytes, more.length < needed - remaining →
        (reader.read (bytes ++ more)).1 = .error (.truncated needed (remaining + more.length))) :
      Stops reader bytes (.truncated needed remaining)

/-- A reader whose results stand when more bytes follow, unless it wants bytes. -/
structure Incremental (reader : Reader α) : Prop where
  ok_append : ∀ {bytes rest : Bytes} {a : α} (more : Bytes),
    reader.read bytes = (.ok a, rest) → reader.read (bytes ++ more) = (.ok a, rest ++ more)
  stops : ∀ {bytes rest : Bytes} {error : WireError},
    reader.read bytes = (.error error, rest) → Stops reader bytes error

/-- A reader that fails whenever another does is stopped by what stops the other. -/
theorem Stops.transfer {other : Reader β} {bytes' : Bytes} (stops : Stops reader bytes error)
    (fails : ∀ more error, (reader.read (bytes ++ more)).1 = .error error →
      (other.read (bytes' ++ more)).1 = .error error) : Stops other bytes' error := by
  cases stops with
  | illFormed stays => exact .illFormed fun more => fails more _ (stays more)
  | wanting missing waits =>
    exact .wanting missing fun more short => fails more _ (waits more short)

namespace Incremental

theorem pure (a : α) : Incremental (pure a : Reader α) where
  ok_append := by
    intro bytes rest a' more done
    cases done
    rfl
  stops := by
    intro bytes rest error failed
    cases failed

theorem illFormed : Incremental (throw .invalidUtf8 : Reader α) where
  ok_append := by
    intro bytes rest a more done
    cases done
  stops := by
    intro bytes rest error failed
    cases failed
    exact .illFormed fun _ => rfl

theorem take (needed : Nat) : Incremental (take needed) where
  ok_append := by
    intro bytes rest front more done
    obtain ⟨rfl, rfl⟩ := of_read_take done
    rw [List.append_assoc, read_take]
  stops := by
    intro bytes rest error failed
    obtain ⟨short, rfl, -⟩ := of_read_take_error failed
    refine .wanting short fun more stillShort => ?_
    have length : (bytes ++ more).length = bytes.length + more.length := List.length_append
    rw [read_take_short (by omega), length]

theorem bind {f : α → Reader β} (first : Incremental reader)
    (second : ∀ a, Incremental (f a)) : Incremental (reader >>= f) where
  ok_append := by
    intro bytes rest b more done
    obtain ⟨a, left, taken, onward⟩ := of_read_bind done
    rw [read_bind f (first.ok_append more taken), (second a).ok_append more onward]
  stops := by
    intro bytes rest error failed
    rcases of_read_bind_error failed with early | ⟨a, left, taken, late⟩
    · -- the first part is stopped, and then the second is never tried
      exact (first.stops early).transfer fun more error stopped =>
        congrArg Prod.fst (read_bind_error f (Prod.ext stopped rfl))
    · -- the first part reads the same with more behind, and leaves the second with more
      refine ((second a).stops late).transfer fun more error stopped => ?_
      rw [read_bind f (first.ok_append more taken)]
      exact stopped

theorem map (f : α → β) (incremental : Incremental reader) : Incremental (f <$> reader) := by
  rw [← bind_pure_comp]
  exact incremental.bind fun a => pure (f a)

/-! ## What notices are read with -/

theorem word (width : Nat) : Incremental (word width) := (take width).map _

theorem word32 : Incremental word32 := (word 4).map _

theorem word64 : Incremental word64 := (word 8).map _

theorem text : Incremental text := by
  refine (word 2).bind fun length => (take length).bind fun spelled => ?_
  cases Utf8.decode spelled with
  | some s => exact pure s
  | none => exact illFormed

theorem clientId : Incremental clientId := word64.map _

theorem member : Incremental member :=
  clientId.bind fun _ => text.bind fun _ => pure _

theorem members (count : Nat) : Incremental (members count) := by
  induction count with
  | zero => exact pure []
  | succ count inductionHypothesis =>
    exact member.bind fun _ => inductionHypothesis.bind fun _ => pure _

theorem notice (code : NoticeCode) : Incremental code.notice := by
  cases code with
  | clientId | memberLeft => exact clientId.map _
  | roomCode => exact word32.map _
  | roomMembers => exact word32.bind fun count => (members count.toNat).map _
  | memberJoined => exact member.map _
  | roomStart | roomClosed => exact pure _
  | invalid => exact text.map _

end Incremental

end Reader

/-! ## Packets -/

namespace Notice

/-- What is said of a packet, and of the packet with more behind it. -/
inductive Verdict (packet : Bytes) : Except WireError Notice → Prop
  | final {result : Except WireError Notice}
      (complete : ∀ error, result = .error error → error.isIncomplete = false)
      (stays : ∀ more, decode (packet ++ more) = result) : Verdict packet result
  | tooShort (short : packet.length < 2) : Verdict packet (.error (.tooShort packet.length))
  | truncated {needed remaining : Nat} (headed : 2 ≤ packet.length) (missing : remaining < needed)
      (waits : ∀ more : Bytes, more.length < needed - remaining →
        decode (packet ++ more) = .error (.truncated needed (remaining + more.length))) :
      Verdict packet (.error (.truncated needed remaining))

theorem decode_control (byte : UInt8) (fields : Bytes) :
    decode (Packet.controlByte :: byte :: fields) =
      (NoticeCode.ofByte byte).bind fun code => (code.notice.read fields).1 := rfl

theorem decode_relayed {first : UInt8} (relayed : first ≠ Packet.controlByte) (rest : Bytes) :
    decode (first :: rest) = .error .notControl := by
  have sorted : Packet.split (first :: rest) = .ok (.relayed (first :: rest)) := by
    rw [Packet.split.eq_def]
    exact if_neg relayed
  simp only [decode, sorted, bind, Except.bind]
  rfl

theorem isIncomplete_of_ofByte {byte : UInt8} {error : WireError}
    (unknown : NoticeCode.ofByte byte = .error error) : error.isIncomplete = false := by
  simp only [NoticeCode.ofByte] at unknown
  split at unknown <;> cases unknown
  rfl

/-- A control packet with a code is judged by what stops the reader of its fields. -/
theorem verdict_control (byte : UInt8) (fields : Bytes) :
    Verdict (Packet.controlByte :: byte :: fields)
      (decode (Packet.controlByte :: byte :: fields)) := by
  cases known : NoticeCode.ofByte byte with
  | error error =>
    have refused : ∀ fields, decode (Packet.controlByte :: byte :: fields) = .error error := by
      intro fields
      rw [decode_control, known]
      rfl
    rw [refused]
    refine .final ?_ fun more => refused (fields ++ more)
    rintro _ ⟨⟩
    exact isIncomplete_of_ofByte known
  | ok code =>
    have read : ∀ fields,
        decode (Packet.controlByte :: byte :: fields) = (code.notice.read fields).1 := by
      intro fields
      rw [decode_control, known]
      rfl
    have incremental := Reader.Incremental.notice code
    rw [read]
    cases first : code.notice.read fields with
    | mk result rest =>
      cases result with
      | ok notice =>
        refine .final nofun fun more => (read (fields ++ more)).trans ?_
        rw [incremental.ok_append more first]
      | error error =>
        cases incremental.stops first with
        | illFormed stays =>
          refine .final ?_ fun more => (read (fields ++ more)).trans (stays more)
          rintro _ ⟨⟩
          rfl
        | wanting missing waits =>
          exact .truncated (by simp) missing fun more short =>
            (read (fields ++ more)).trans (waits more short)

theorem verdict (packet : Bytes) : Verdict packet (decode packet) := by
  cases packet with
  | nil => exact .tooShort (by decide)
  | cons first rest =>
    by_cases control : first = Packet.controlByte
    · subst control
      cases rest with
      | nil => exact .tooShort (by decide)
      | cons byte fields => exact verdict_control byte fields
    · rw [decode_relayed control]
      refine .final ?_ fun more => decode_relayed control (rest ++ more)
      rintro _ ⟨⟩
      rfl

/-- A packet that ends before the notice does is incomplete, and is said to be. -/
theorem verdict_of_prefix {notice : Notice} (fits : notice.Fits) {part : Bytes}
    (leading : part <+: notice.encode) (proper : part ≠ notice.encode) :
    part.length < 2 ∧ decode part = .error (.tooShort part.length) ∨
      2 ≤ part.length ∧ ∃ needed remaining, decode part = .error (.truncated needed remaining) := by
  have shorter : part.length < notice.encode.length := by
    refine Nat.lt_of_le_of_ne leading.length_le fun same => proper ?_
    exact leading.eq_of_length same
  obtain ⟨rest, whole⟩ := leading
  have readWhole : decode (part ++ rest) = .ok notice.cut := by
    rw [whole, ← List.append_nil notice.encode, decode_encode notice fits]
  have judged := verdict part
  generalize said : decode part = result at judged
  cases judged with
  | final complete stays =>
    -- the whole packet would be read off a part that it does not fit into
    rw [stays rest] at readWhole
    obtain ⟨-, carried⟩ := sized_of_decode (said.trans readWhole)
    rw [encode_cut] at carried
    exact absurd carried.length_le (Nat.not_le.mpr shorter)
  | tooShort short => exact .inl ⟨short, rfl⟩
  | truncated headed => exact .inr ⟨headed, _, _, rfl⟩

/-- What is said of a packet tells whether it is complete.  A notice, or an error that is
    not about missing bytes, stands whatever follows the packet.  An error about missing
    bytes says how many are wanted, and stands until they are there, while it counts
    those that come.  And it is an error about missing bytes that is said of every packet
    that ends before its notice does, be it in the header, in a length, in a character or
    between two members. -/
theorem incomplete_told_apart :
    (∀ packet more : Bytes,
      (∀ error, decode packet = .error error → error.isIncomplete = false) →
        decode (packet ++ more) = decode packet) ∧
      (∀ (packet : Bytes) (needed remaining : Nat),
        decode packet = .error (.truncated needed remaining) →
          remaining < needed ∧ ∀ more : Bytes, more.length < needed - remaining →
            decode (packet ++ more) = .error (.truncated needed (remaining + more.length))) ∧
      ∀ notice : Notice, notice.Fits → ∀ part, part <+: notice.encode → part ≠ notice.encode →
        (part.length < 2 → decode part = .error (.tooShort part.length)) ∧
          (2 ≤ part.length →
            ∃ needed remaining, decode part = .error (.truncated needed remaining)) := by
  refine ⟨?_, ?_, ?_⟩
  · intro packet more complete
    have judged := verdict packet
    generalize said : decode packet = result at judged complete
    cases judged with
    | final _ stays => exact stays more
    | tooShort | truncated => cases complete _ rfl
  · intro packet needed remaining said
    have judged := verdict packet
    rw [said] at judged
    cases judged with
    | final complete => cases complete _ rfl
    | truncated _ missing waits => exact ⟨missing, waits⟩
  · intro notice fits part leading proper
    obtain ⟨short, said⟩ | ⟨headed, said⟩ := verdict_of_prefix fits leading proper
    · exact ⟨fun _ => said, fun headed => absurd headed (Nat.not_le.mpr short)⟩
    · exact ⟨fun short => absurd headed (Nat.not_le.mpr short), fun _ => said⟩

/-- The three bytes of a character arrive one by one: a packet that is cut within it says so,
    and one with a wrong byte in it is no better for what follows. -/
theorem cut_character_told_apart :
    let part : Bytes := [0, 7, 3, 0, 0xE2, 0x82]
    part <+: (Notice.invalid "€").encode ∧
      (∃ needed remaining, decode part = .error (.truncated needed remaining)) ∧
      decode ([0, 7, 3, 0, 0xE2] ++ [0x82]) = .error (.truncated 3 (1 + 1)) ∧
      decode ([0, 7, 3, 0, 0xE2, 0x82, 0x41] ++ [0xAC]) = .error .invalidUtf8 := by
  intro part
  obtain ⟨stands, waits, tells⟩ := incomplete_told_apart
  have leading : part <+: (Notice.invalid "€").encode := by decide +kernel
  have wanting : decode [0, 7, 3, 0, 0xE2] = .error (.truncated 3 1) := by decide +kernel
  have illFormed : decode [0, 7, 3, 0, 0xE2, 0x82, 0x41] = .error .invalidUtf8 := by
    decide +kernel
  refine ⟨leading, ?_, (waits _ 3 1 wanting).2 [0x82] (by decide), ?_⟩
  · exact (tells (.invalid "€") trivial part leading (by decide +kernel)).2 (by decide)
  · refine (stands _ [0xAC] ?_).trans illFormed
    rw [illFormed]
    rintro _ ⟨⟩
    rfl

end Notice

end Rendezvous.Wire

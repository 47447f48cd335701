import Rendezvous.Proofs.Wire.Incomplete

/-! # How many members a packet has

A list of members is written with its length in front, and whoever writes a packet may put
any length there.  Reading members one after another until one cannot be read does not
depend on that length: it ends somewhere in the bytes (`exists_runsOut`), since every member
takes at least ten of them (`ten_le_of_read_member`).  A length that lies within what can be
read is met, and one beyond it fails where this reading ends, with the same error
(`RunsOut.read_within`, `RunsOut.read_beyond`).

So the bytes alone settle what is made of a packet, and a length that they cannot hold makes
no difference (`Notice.members_settled_by_bytes`).
-/

namespace Rendezvous.Wire

namespace Reader

variable {bytes rest : Bytes} {complete : List Member} {error : WireError} {count : Nat}

/-- Reading members without being told how many: those that are read, and the error that
    stops the reading. -/
inductive RunsOut : Bytes → List Member → WireError → Prop
  | stopped {bytes rest : Bytes} {error : WireError}
      (failed : member.read bytes = (.error error, rest)) : RunsOut bytes [] error
  | further {bytes rest : Bytes} {m : Member} {complete : List Member} {error : WireError}
      (taken : member.read bytes = (.ok m, rest)) (onward : RunsOut rest complete error) :
      RunsOut bytes (m :: complete) error

theorem ten_le_of_read_member {m : Member} (done : member.read bytes = (.ok m, rest)) :
    rest.length + 10 ≤ bytes.length := by
  obtain ⟨-, rfl⟩ := of_read_member done
  -- the id takes eight bytes, and the length of the name two
  simp only [Member.fields, List.flatMap_cons, List.flatMap_nil, Field.encode, encodeText,
    List.length_append, LittleEndian.length_encode]
  omega

theorem exists_runsOut (bytes : Bytes) : ∃ complete error, RunsOut bytes complete error := by
  cases first : member.read bytes with
  | mk result rest =>
    cases result with
    | error error => exact ⟨[], error, .stopped first⟩
    | ok m =>
      have shorter := ten_le_of_read_member first
      obtain ⟨complete, error, onward⟩ := exists_runsOut rest
      exact ⟨m :: complete, error, .further first onward⟩
termination_by bytes.length

namespace RunsOut

theorem length_le (runsOut : RunsOut bytes complete error) :
    10 * complete.length ≤ bytes.length := by
  induction runsOut with
  | stopped => simp
  | further taken _ inductionHypothesis =>
    have tookTen := ten_le_of_read_member taken
    rw [List.length_cons]
    omega

theorem error_cases (runsOut : RunsOut bytes complete error) :
    error = .invalidUtf8 ∨ ∃ needed remaining, error = .truncated needed remaining := by
  induction runsOut with
  | stopped failed =>
    cases Incremental.member.stops failed with
    | illFormed => exact .inl rfl
    | wanting => exact .inr ⟨_, _, rfl⟩
  | further _ _ inductionHypothesis => exact inductionHypothesis

theorem read_within (runsOut : RunsOut bytes complete error) (within : count ≤ complete.length) :
    ∃ left, (members count).read bytes = (.ok (complete.take count), left) := by
  induction runsOut generalizing count with
  | stopped =>
    obtain rfl := Nat.le_zero.mp within
    exact ⟨_, rfl⟩
  | further taken _ inductionHypothesis =>
    cases count with
    | zero => exact ⟨_, rfl⟩
    | succ count =>
      obtain ⟨left, others⟩ := inductionHypothesis (Nat.le_of_succ_le_succ within)
      refine ⟨left, ?_⟩
      rw [members, read_bind _ taken, read_bind _ others, read_pure, List.take_succ_cons]

theorem read_beyond (runsOut : RunsOut bytes complete error) (beyond : complete.length < count) :
    ∃ left, (members count).read bytes = (.error error, left) := by
  induction runsOut generalizing count with
  | stopped failed =>
    -- one more is asked for, and this is where reading without a count ends too
    obtain ⟨count, rfl⟩ := Nat.exists_eq_add_one.mpr beyond
    exact ⟨_, read_bind_error _ failed⟩
  | further taken _ inductionHypothesis =>
    cases count with
    | zero => cases beyond
    | succ count =>
      obtain ⟨left, failed⟩ := inductionHypothesis (Nat.lt_of_succ_lt_succ beyond)
      refine ⟨left, ?_⟩
      rw [members, read_bind _ taken, read_bind_error _ failed]

end RunsOut

end Reader

namespace Notice

/-- A packet that announces a number of members and has these bytes where they should be. -/
def membersPacket (count : UInt32) (rest : Bytes) : Bytes :=
  0 :: 2 :: (LittleEndian.encode 4 count.toNat ++ rest)

variable {count : UInt32} {rest : Bytes} {complete : List Member} {error : WireError}

theorem decode_membersPacket (count : UInt32) (rest : Bytes) :
    decode (membersPacket count rest) =
      ((roomMembers <$> Reader.members count.toNat).read rest).1 := by
  have announced := Reader.read_bind (fun count => roomMembers <$> Reader.members count.toNat)
    (Reader.read_word32 count rest)
  exact congrArg Prod.fst announced

theorem decode_within (runsOut : Reader.RunsOut rest complete error)
    (within : count.toNat ≤ complete.length) :
    decode (membersPacket count rest) = .ok (.roomMembers (complete.take count.toNat)) := by
  obtain ⟨left, done⟩ := runsOut.read_within within
  rw [decode_membersPacket, Reader.read_map _ done]

theorem decode_beyond (runsOut : Reader.RunsOut rest complete error)
    (beyond : complete.length < count.toNat) :
    decode (membersPacket count rest) = .error error := by
  obtain ⟨left, failed⟩ := runsOut.read_beyond beyond
  rw [decode_membersPacket, Reader.read_map_error _ failed]

/-- The bytes behind the announced number of members settle what a packet is read as.  There is
    one error, about missing bytes or an ill-formed name, that every number is answered with
    that the bytes cannot hold at ten for each member, and it comes up behind at most as many
    complete members as they could hold.  A number that is not answered with an error is the
    number of the members that are read, and the bytes could hold that many; so room that is
    made beforehand, for as many as announced but no more than the bytes could hold, is room for
    just these. -/
theorem members_settled_by_bytes (rest : Bytes) :
    (∃ complete error, Reader.RunsOut rest complete error ∧
        complete.length ≤ rest.length / 10 ∧
        (error = .invalidUtf8 ∨ ∃ needed remaining, error = .truncated needed remaining) ∧
        ∀ count : UInt32, rest.length < 10 * count.toNat →
          decode (membersPacket count rest) = .error error) ∧
      ∀ (count : UInt32) (notice : Notice), decode (membersPacket count rest) = .ok notice →
        ∃ members, notice = .roomMembers members ∧ members.length = count.toNat ∧
          count.toNat ≤ rest.length / 10 ∧
          min count.toNat (rest.length / 10) = members.length := by
  obtain ⟨complete, error, runsOut⟩ := Reader.exists_runsOut rest
  have bound := runsOut.length_le
  refine ⟨⟨complete, error, runsOut, by omega, runsOut.error_cases, ?_⟩, ?_⟩
  · intro count lying
    exact decode_beyond runsOut (by omega)
  · intro count notice decoded
    by_cases within : count.toNat ≤ complete.length
    · rw [decode_within runsOut within] at decoded
      cases decoded
      have length : (complete.take count.toNat).length = count.toNat :=
        List.length_take_of_le within
      exact ⟨_, rfl, length, by omega, by omega⟩
    · rw [decode_beyond runsOut (Nat.not_le.mp within)] at decoded
      cases decoded

/-- One member and a bit of a second: a packet that announces seven members is read no further
    than one that announces as many as can be announced at all, and one that announces the one
    member has it. -/
theorem seven_announced_one_sent :
    let rest : Bytes := [5, 0, 0, 0, 0, 0, 0, 0, 1, 0, 65, 6, 0]
    rest.length < 10 * (7 : UInt32).toNat ∧
      decode (membersPacket 7 rest) = .error (.truncated 8 2) ∧
      decode (membersPacket 4294967295 rest) = .error (.truncated 8 2) ∧
      decode (membersPacket 1 rest) = .ok (.roomMembers [⟨⟨5⟩, "A"⟩]) ∧
      (1 : UInt32).toNat ≤ rest.length / 10 := by
  intro rest
  obtain ⟨⟨complete, error, -, -, -, lying⟩, holds⟩ := members_settled_by_bytes rest
  have seven : decode (membersPacket 7 rest) = .error (.truncated 8 2) := by decide +kernel
  have one : decode (membersPacket 1 rest) = .ok (.roomMembers [⟨⟨5⟩, "A"⟩]) := by
    decide +kernel
  -- both numbers are too large for the bytes, so both are answered alike
  have same : decode (membersPacket 4294967295 rest) = decode (membersPacket 7 rest) :=
    (lying 4294967295 (by decide)).trans (lying 7 (by decide)).symm
  obtain ⟨-, -, -, room, -⟩ := holds 1 _ one
  exact ⟨by decide, seven, same.trans seven, one, room⟩

end Notice

end Rendezvous.Wire

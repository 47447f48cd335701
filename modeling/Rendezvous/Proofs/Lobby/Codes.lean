import Rendezvous.Proofs.Lobby.History

/-! # When codes run out

A table may hold rooms under codes outside the space.  They count against it, so allocation
may decline while there is still a free code.  A lobby has no such rooms: as many rooms are
open as there are codes exactly if every code is taken (`Consistent.full_iff`).

`codes_allocated` puts this together with how a code is picked.
-/

namespace Rendezvous.Lobby

variable {lobby : Lobby} {c : ConnectionId} {client : Client}

theorem Consistent.full_iff (consistent : lobby.Consistent) :
    lobby.limits.codeSpace.toNat ≤ lobby.rooms.size ↔
      ∀ code : RoomCode, code.val < lobby.limits.codeSpace →
        ∃ room, lobby.rooms[code]? = some room := by
  constructor
  · intro full code inSpace
    by_contra closed
    have free : lobby.rooms[code]? = none :=
      Option.eq_none_iff_forall_ne_some.mpr fun room stored => closed ⟨room, stored⟩
    -- one more room would still have a code of the space, but there would be too many
    let crowded : RoomTable := lobby.rooms.insert code { code, host := ⟨0⟩ }
    have size : crowded.size = lobby.rooms.size + 1 := by
      rw [Std.ExtTreeMap.size_insert, Std.ExtTreeMap.contains_eq_isSome_getElem?, free]
      rfl
    have bound : crowded.size ≤ lobby.limits.codeSpace.toNat := by
      refine RoomTable.size_le_space fun other room stored => ?_
      rw [RoomTable.getElem?_insert] at stored
      split at stored
      next same => exact same ▸ inSpace
      next => exact consistent.code_lt stored
    omega
  · intro taken
    refine RoomTable.space_le_size fun code inSpace free => ?_
    obtain ⟨room, stored⟩ := taken code inSpace
    rw [free] at stored
    cases stored

theorem Outside.create_exhausted_iff (outside : lobby.Outside c client)
    (consistent : lobby.Consistent) :
    (lobby.create c).value = .error .codesExhausted ↔
      ∀ code : RoomCode, code.val < lobby.limits.codeSpace →
        ∃ room, lobby.rooms[code]? = some room := by
  rw [← consistent.full_iff, Lobby.create, withClient_record outside.record]
  simp only [outside.roleOf_eq]
  obtain ⟨full, declined⟩ | ⟨spare, code, after, picked, -⟩ :=
    RoomTable.allocate_cases lobby.rooms lobby.limits lobby.draws
  · simp only [declined]
    exact iff_of_true rfl full
  · simp only [picked]
    refine iff_of_false (fun declined => ?_) (Nat.not_le.mpr spare)
    cases declined

open RoomTable in
/-- Allocation declines, without a draw, exactly if there is no code or there are as many
    rooms as codes, wherever the codes of these rooms lie.  Otherwise it picks a free code
    of the space: the first of the allowed draws that is free, with no draw after it, or if
    all of these collide, the first free code in cyclic order from one more draw on.  The
    arithmetic of the scan wraps in no width, whatever the size of the space.  So a client
    in no room is declined a room exactly while every code of the space is in use. -/
theorem codes_allocated (limits : Limits) :
    (∀ (rooms : RoomTable) (draws : Draws),
      (rooms.allocate limits draws = (.error .codesExhausted, draws) ↔
        limits.codeSpace = 0 ∨ limits.codeSpace.toNat ≤ rooms.size) ∧
      (¬(limits.codeSpace = 0 ∨ limits.codeSpace.toNat ≤ rooms.size) →
        ∃ code after, rooms.allocate limits draws = (.ok code, after) ∧
          rooms.Picks limits draws code after ∧
          code.val < limits.codeSpace ∧ rooms[code]? = none)) ∧
      (∀ start offset : UInt32, start < limits.codeSpace → offset < limits.codeSpace →
        (start.toUInt64 + offset.toUInt64).toNat = start.toNat + offset.toNat ∧
          (probe limits.codeSpace start offset).val.toNat =
            (start.toNat + offset.toNat) % limits.codeSpace.toNat) ∧
      ∀ (draws : Draws) (history : List (ConnectionId × Operation)) (c : ConnectionId)
        (client : Client),
        let lobby := (Lobby.empty limits draws).after history
        lobby.Outside c client →
          ((lobby.create c).value = .error .codesExhausted ↔
            ∀ code : RoomCode, code.val < limits.codeSpace →
              ∃ room, lobby.rooms[code]? = some room) := by
  refine ⟨fun rooms draws => ⟨allocate_eq_error_iff rooms limits draws, fun guard => ?_⟩, ?_, ?_⟩
  · have spare : rooms.size < limits.codeSpace.toNat :=
      Nat.not_le.mp fun full => guard (.inr full)
    obtain ⟨code, after, picked, picks⟩ := allocate_picks spare draws
    exact ⟨code, after, picked, picks, picks.free spare⟩
  · intro start offset startBound _
    have positive : 0 < limits.codeSpace := UInt32.lt_of_le_of_lt UInt32.zero_le startBound
    exact ⟨toNat_probe_sum start offset, probe_val positive start offset⟩
  · intro draws history c client lobby outside
    have consistent : lobby.Consistent := consistent_after limits draws history
    have limitsEq : lobby.limits = limits := (Consistent.empty limits draws).limits_after history
    rw [outside.create_exhausted_iff consistent, limitsEq]

/-- Of three codes the last is taken, and it is drawn twice: the scan goes on to the first.
    The room under a code outside the space counts, but is not in the way. -/
theorem scan_past_last_code :
    let limits : Limits := { codeSpace := 3, drawAttempts := 1 }
    let rooms : RoomTable :=
      ((∅ : RoomTable).insert ⟨2⟩ { code := ⟨2⟩, host := ⟨1⟩ }).insert ⟨9⟩
        { code := ⟨9⟩, host := ⟨2⟩ }
    let draws := Draws.ofList [2, 2]
    rooms.size = 2 ∧ ∃ after, rooms.allocate limits draws = (.ok ⟨0⟩, after) ∧
      after.taken = 2 ∧ rooms.Picks limits draws ⟨0⟩ after := by
  intro limits rooms draws
  have size : rooms.size = 2 := by decide +kernel
  have guard : ¬(limits.codeSpace = 0 ∨ limits.codeSpace.toNat ≤ rooms.size) := by
    rw [size]
    decide
  obtain ⟨code, after, picked, picks, -⟩ := ((codes_allocated limits).1 rooms draws).2 guard
  have first : (rooms.allocate limits draws).1 = .ok ⟨0⟩ := by decide +kernel
  have taken : (rooms.allocate limits draws).2.taken = 2 := by decide +kernel
  rw [picked] at first taken
  cases first
  exact ⟨size, after, picked, taken, picks⟩

end Rendezvous.Lobby

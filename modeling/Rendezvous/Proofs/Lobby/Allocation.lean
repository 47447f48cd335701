import Mathlib.Data.List.Nodup
import Mathlib.Data.List.Rotate
import Rendezvous.Proofs.Lobby.Lookup

/-! # Picking room codes

A code is picked exactly when fewer rooms are open than there are codes.  It is the first
free code that is drawn, and if none of the draws is free, the first free code in cyclic
order from one more draw on.  `Picks` says this of a code and of the draws that are left,
with the cyclic order written out as a list (`circle`).

The scan computes each code from the start and an offset.  That it goes through the
circle, whatever the size of the space, is `scanFree_eq_find?`.  The non-trivial part is
that it cannot come back empty-handed: if all codes of the circle are taken, the table
holds as many rooms as there are codes (`space_le_size`), and then nothing would have been
drawn in the first place.
-/

namespace Rendezvous

namespace Draws

def code (draws : Draws) (space : UInt32) (n : Nat) : RoomCode :=
  ⟨draws.source (draws.taken + n) % space⟩

def skip (draws : Draws) (n : Nat) : Draws := { draws with taken := draws.taken + n }

variable (draws : Draws) (space : UInt32)

theorem next_eq : draws.next space = ((draws.code space 0).val, draws.skip 1) := rfl

theorem code_skip (m n : Nat) : (draws.skip m).code space n = draws.code space (m + n) := by
  rw [code, code, skip, Nat.add_assoc]

theorem skip_skip (m n : Nat) : (draws.skip m).skip n = draws.skip (m + n) := by
  rw [skip, skip, skip, Nat.add_assoc]

end Draws

namespace RoomTable

/-- The codes of a space in cyclic order: from the start on, and then those before it. -/
def circle (space start : UInt32) : List RoomCode :=
  ((List.range space.toNat).rotate start.toNat).map fun n => ⟨UInt32.ofNat n⟩

/-- A code that may be picked from these draws, and the draws that are left. -/
inductive Picks (rooms : RoomTable) (limits : Limits) (draws : Draws) : RoomCode → Draws → Prop
  | drawn {n : Nat} (within : n < limits.drawAttempts.toNat)
      (collided : ∀ m < n, rooms.isFree (draws.code limits.codeSpace m) = false)
      (free : rooms.isFree (draws.code limits.codeSpace n) = true) :
      Picks rooms limits draws (draws.code limits.codeSpace n) (draws.skip (n + 1))
  | scanned {code : RoomCode}
      (collided : ∀ m < limits.drawAttempts.toNat,
        rooms.isFree (draws.code limits.codeSpace m) = false)
      (found : (circle limits.codeSpace
          (draws.code limits.codeSpace limits.drawAttempts.toNat).val).find? rooms.isFree =
        some code) :
      Picks rooms limits draws code (draws.skip (limits.drawAttempts.toNat + 1))

variable {rooms : RoomTable} {space start : UInt32} {code : RoomCode}

theorem isFree_iff : rooms.isFree code = true ↔ rooms[code]? = none := by
  rw [isFree, Std.ExtTreeMap.contains_eq_isSome_getElem?]
  cases rooms[code]? <;> simp

/-! ## Drawing -/

/-- Drawing stops at the first free code, and takes no number after it. -/
theorem drawFree_cases (rooms : RoomTable) (space : UInt32) (attempts : Nat) (draws : Draws) :
    (∃ n < attempts, (∀ m < n, rooms.isFree (draws.code space m) = false) ∧
        rooms.isFree (draws.code space n) = true ∧
        rooms.drawFree space attempts draws = (some (draws.code space n), draws.skip (n + 1))) ∨
      (∀ m < attempts, rooms.isFree (draws.code space m) = false) ∧
        rooms.drawFree space attempts draws = (none, draws.skip attempts) := by
  induction attempts generalizing draws with
  | zero => exact .inr ⟨nofun, rfl⟩
  | succ attempts inductionHypothesis =>
    rw [drawFree, Draws.next_eq]
    by_cases free : rooms.isFree (draws.code space 0) = true
    · exact .inl ⟨0, Nat.succ_pos attempts, nofun, free, if_pos free⟩
    · -- the first code is taken, and the others are those of the stream after it
      have taken : rooms.isFree (draws.code space 0) = false := Bool.eq_false_iff.mpr free
      have collided : ∀ {n}, (∀ m < n, rooms.isFree ((draws.skip 1).code space m) = false) →
          ∀ m < n + 1, rooms.isFree (draws.code space m) = false := by
        intro n others m bound
        cases m with
        | zero => exact taken
        | succ m =>
          have later := others m (Nat.lt_of_succ_lt_succ bound)
          rwa [Draws.code_skip, Nat.add_comm] at later
      obtain ⟨n, within, others, freeLater, drawn⟩ | ⟨others, missed⟩ :=
        inductionHypothesis (draws.skip 1)
      · rw [Draws.code_skip, Nat.add_comm] at freeLater drawn
        rw [Draws.skip_skip, Nat.add_comm 1] at drawn
        exact .inl ⟨n + 1, Nat.succ_lt_succ within, collided others, freeLater,
          (if_neg free).trans drawn⟩
      · rw [Draws.skip_skip, Nat.add_comm] at missed
        exact .inr ⟨collided others, (if_neg free).trans missed⟩

/-! ## Scanning -/

theorem toNat_probe_sum (start offset : UInt32) :
    (start.toUInt64 + offset.toUInt64).toNat = start.toNat + offset.toNat := by
  have startBound := start.toNat_lt
  have offsetBound := offset.toNat_lt
  -- the sum is taken in twice the width, so it does not wrap before it is reduced
  rw [UInt64.toNat_add, UInt32.toNat_toUInt64, UInt32.toNat_toUInt64]
  omega

theorem probe_val (positive : 0 < space) (start offset : UInt32) :
    (probe space start offset).val.toNat = (start.toNat + offset.toNat) % space.toNat := by
  have spacePositive : 0 < space.toNat := by simpa [UInt32.lt_iff_toNat_lt] using positive
  have spaceBound := space.toNat_lt
  have bound := Nat.mod_lt (start.toNat + offset.toNat) spacePositive
  rw [probe, UInt64.toNat_toUInt32, UInt64.toNat_mod, toNat_probe_sum, UInt32.toNat_toUInt64]
  omega

theorem scanFree_eq_find?_probe (rooms : RoomTable) (space start : UInt32) {offset : UInt32}
    {count : Nat} (inWidth : offset.toNat + count < UInt32.size) :
    rooms.scanFree space start offset count =
      ((List.range' offset.toNat count).map fun n => probe space start (UInt32.ofNat n)).find?
        rooms.isFree := by
  induction count generalizing offset with
  | zero => rfl
  | succ count inductionHypothesis =>
    have fits : offset.toNat + 1 < UInt32.size := by omega
    have next : (offset + 1).toNat = offset.toNat + 1 := by
      rw [UInt32.toNat_add]
      exact Nat.mod_eq_of_lt fits
    have rest := @inductionHypothesis (offset + 1) (by omega)
    rw [scanFree, List.range'_succ, List.map_cons, UInt32.ofNat_toNat, List.find?_cons, rest, next]
    cases rooms.isFree (probe space start offset) <;> rfl

theorem circle_eq_probes (positive : 0 < space) (start : UInt32) :
    circle space start =
      (List.range' 0 space.toNat).map fun n => probe space start (UInt32.ofNat n) := by
  have spaceBound := space.toNat_lt
  apply List.ext_getElem
  · simp [circle]
  · intro i bound bound'
    have offsetBound : i < space.toNat := by simpa using bound'
    have offset : (UInt32.ofNat i).toNat = i := by
      rw [UInt32.toNat_ofNat', Nat.mod_eq_of_lt (by omega)]
    have value := probe_val positive start (UInt32.ofNat i)
    rw [offset, Nat.add_comm] at value
    simp only [circle, List.getElem_map, List.getElem_rotate, List.getElem_range, List.length_range,
      List.getElem_range', Nat.zero_add, Nat.one_mul, ← value, UInt32.ofNat_toNat]

example : circle 5 2 = [⟨2⟩, ⟨3⟩, ⟨4⟩, ⟨0⟩, ⟨1⟩] := by decide

/-- The scan round the whole space finds the first free code of the circle. -/
theorem scanFree_eq_find? (rooms : RoomTable) (positive : 0 < space) (start : UInt32) :
    rooms.scanFree space start 0 space.toNat = (circle space start).find? rooms.isFree := by
  rw [scanFree_eq_find?_probe rooms space start (by simpa using space.toNat_lt_size),
    circle_eq_probes positive]
  rfl

/-! ## How many rooms there are

The circle lists every code of the space once, so what is known of all codes is counted
by comparing it with the codes that are stored. -/

theorem mem_circle : code ∈ circle space start ↔ code.val < space := by
  have spaceBound := space.toNat_lt
  simp only [circle, List.mem_map, List.mem_rotate, List.mem_range, UInt32.lt_iff_toNat_lt]
  constructor
  · rintro ⟨n, bound, rfl⟩
    rwa [UInt32.toNat_ofNat', Nat.mod_eq_of_lt (by omega)]
  · intro bound
    exact ⟨code.val.toNat, bound, by rw [UInt32.ofNat_toNat]⟩

theorem length_circle : (circle space start).length = space.toNat := by
  rw [circle, List.length_map, List.length_rotate, List.length_range]

theorem nodup_circle : (circle space start).Nodup := by
  have spaceBound := space.toNat_lt
  refine List.Nodup.map_on ?_ (List.nodup_rotate.mpr List.nodup_range)
  intro m mBound n nBound equal
  rw [List.mem_rotate, List.mem_range] at mBound nBound
  have numbers := congrArg (fun code : RoomCode => code.val.toNat) equal
  simp only [UInt32.toNat_ofNat'] at numbers
  rwa [Nat.mod_eq_of_lt (by omega), Nat.mod_eq_of_lt (by omega)] at numbers

theorem mem_keys_iff : code ∈ rooms.keys ↔ ∃ room, rooms[code]? = some room := by
  rw [Std.ExtTreeMap.mem_keys, Std.ExtTreeMap.mem_iff_isSome_getElem?, Option.isSome_iff_exists]

/-- A table that has a room under every code of the space has at least as many
    rooms as there are codes. -/
theorem space_le_size (full : ∀ code : RoomCode, code.val < space → rooms[code]? ≠ none) :
    space.toNat ≤ rooms.size := by
  have stored : circle space 0 ⊆ rooms.keys := by
    intro code inSpace
    exact mem_keys_iff.mpr (Option.ne_none_iff_exists'.mp (full code (mem_circle.mp inSpace)))
  have bound := nodup_circle.length_le_of_subset stored
  rwa [length_circle, Std.ExtTreeMap.length_keys] at bound

/-- A table whose codes are all in the space holds at most as many rooms as there
    are codes. -/
theorem size_le_space
    (inSpace : ∀ (code : RoomCode) (room : Room), rooms[code]? = some room → code.val < space) :
    rooms.size ≤ space.toNat := by
  have listed : rooms.keys ⊆ circle space 0 := by
    intro code stored
    obtain ⟨room, stored⟩ := mem_keys_iff.mp stored
    exact mem_circle.mpr (inSpace code room stored)
  have bound := Std.ExtTreeMap.nodup_keys.length_le_of_subset listed
  rwa [length_circle, Std.ExtTreeMap.length_keys] at bound

/-! ## Allocation -/

theorem positive_of_spare (spare : rooms.size < space.toNat) : 0 < space :=
  UInt32.lt_iff_toNat_lt.mpr (Nat.zero_lt_of_lt spare)

theorem Picks.free {limits : Limits} {draws after : Draws}
    (picks : rooms.Picks limits draws code after)
    (spare : rooms.size < limits.codeSpace.toNat) :
    code.val < limits.codeSpace ∧ rooms[code]? = none := by
  have positive := positive_of_spare spare
  cases picks with
  | drawn within collided free => exact ⟨UInt32.mod_lt _ positive, isFree_iff.mp free⟩
  | scanned collided found =>
    exact ⟨mem_circle.mp (List.mem_of_find?_eq_some found), isFree_iff.mp (List.find?_some found)⟩

theorem allocate_picks {limits : Limits} (spare : rooms.size < limits.codeSpace.toNat)
    (draws : Draws) :
    ∃ code after, rooms.allocate limits draws = (.ok code, after) ∧
      rooms.Picks limits draws code after := by
  have positive := positive_of_spare spare
  have guard : ¬(limits.codeSpace = 0 ∨ limits.codeSpace.toNat ≤ rooms.size) := by
    rintro (zero | full)
    · simp [zero] at spare
    · omega
  obtain ⟨n, within, collided, free, drawn⟩ | ⟨collided, missed⟩ :=
    drawFree_cases rooms limits.codeSpace limits.drawAttempts.toNat draws
  · refine ⟨_, _, ?_, .drawn within collided free⟩
    simp only [allocate, if_neg guard, drawn]
  · let start := draws.code limits.codeSpace limits.drawAttempts.toNat
    -- all draws have collided, but there are more codes than rooms
    have inCircle : ∃ code ∈ circle limits.codeSpace start.val, rooms.isFree code = true := by
      by_contra none
      refine Nat.not_le.mpr spare (space_le_size fun code inSpace free => none ?_)
      exact ⟨code, mem_circle.mpr inSpace, isFree_iff.mpr free⟩
    obtain ⟨code, found⟩ := Option.isSome_iff_exists.mp (List.find?_isSome.mpr inCircle)
    refine ⟨code, _, ?_, .scanned collided found⟩
    simp only [allocate, if_neg guard, missed, Draws.next_eq, Draws.code_skip, Draws.skip_skip,
      Nat.add_zero, scanFree_eq_find? rooms positive, start] at found ⊢
    rw [found]

/-- Allocation declines without a draw exactly if there is no code at all or there are as
    many rooms as codes. -/
theorem allocate_eq_error_iff (rooms : RoomTable) (limits : Limits) (draws : Draws) :
    rooms.allocate limits draws = (.error .codesExhausted, draws) ↔
      limits.codeSpace = 0 ∨ limits.codeSpace.toNat ≤ rooms.size := by
  constructor
  · intro declined
    by_contra guard
    obtain ⟨code, after, picked, -⟩ :=
      allocate_picks (Nat.not_le.mp fun full => guard (.inr full)) draws
    rw [declined] at picked
    cases picked
  · intro guard
    simp only [allocate, if_pos guard]

/-- Allocation declines without a draw when as many rooms are open as there are
    codes, and otherwise picks a free code of the space. -/
theorem allocate_cases (rooms : RoomTable) (limits : Limits) (draws : Draws) :
    limits.codeSpace.toNat ≤ rooms.size ∧
        rooms.allocate limits draws = (.error .codesExhausted, draws) ∨
      rooms.size < limits.codeSpace.toNat ∧
        ∃ code after, rooms.allocate limits draws = (.ok code, after) ∧
          code.val < limits.codeSpace ∧ rooms[code]? = none := by
  by_cases full : limits.codeSpace.toNat ≤ rooms.size
  · exact .inl ⟨full, (allocate_eq_error_iff rooms limits draws).mpr (.inr full)⟩
  · have spare : rooms.size < limits.codeSpace.toNat := Nat.not_le.mp full
    obtain ⟨code, after, picked, picks⟩ := allocate_picks spare draws
    exact .inr ⟨spare, code, after, picked, picks.free spare⟩

/-! ## What allocation depends on -/

section Congruence

variable {rooms' : RoomTable}
  (taken : ∀ code : RoomCode, rooms[code]? = none ↔ rooms'[code]? = none)

include taken

theorem isFree_congr (code : RoomCode) : rooms.isFree code = rooms'.isFree code := by
  rw [Bool.eq_iff_iff, isFree_iff, isFree_iff, taken]

theorem drawFree_congr (space : UInt32) (attempts : Nat) (draws : Draws) :
    rooms.drawFree space attempts draws = rooms'.drawFree space attempts draws := by
  induction attempts generalizing draws with
  | zero => rfl
  | succ attempts inductionHypothesis =>
    simp only [drawFree, isFree_congr taken, inductionHypothesis]

theorem scanFree_congr (space start offset : UInt32) (count : Nat) :
    rooms.scanFree space start offset count = rooms'.scanFree space start offset count := by
  induction count generalizing offset with
  | zero => rfl
  | succ count inductionHypothesis =>
    simp only [scanFree, isFree_congr taken, inductionHypothesis]

theorem size_congr : rooms.size = rooms'.size := by
  have sameKeys : rooms.keys.Perm rooms'.keys := by
    rw [List.perm_ext_iff_of_nodup Std.ExtTreeMap.nodup_keys Std.ExtTreeMap.nodup_keys]
    intro code
    simp only [Std.ExtTreeMap.mem_keys, Std.ExtTreeMap.mem_iff_isSome_getElem?,
      Option.isSome_iff_ne_none, ne_eq, taken]
  simpa [Std.ExtTreeMap.length_keys] using sameKeys.length_eq

/-- The code that is picked depends on which codes are taken, not on the rooms. -/
theorem allocate_congr (limits : Limits) (draws : Draws) :
    rooms.allocate limits draws = rooms'.allocate limits draws := by
  simp only [allocate, size_congr taken, drawFree_congr taken, scanFree_congr taken]

end Congruence

end RoomTable

end Rendezvous

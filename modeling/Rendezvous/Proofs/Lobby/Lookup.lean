import Rendezvous.Lobby.Basic

/-! # Looking records and rooms up

What a record or a room is after an update of the directory or of the table,
seen from one key.  Everything later argues about lookups only, so no other
module opens the maps.
-/

namespace Rendezvous

/-! ## The directory -/

namespace Directory

variable (directory : Directory) (c d : ConnectionId)

@[simp] theorem get?_empty : ({} : Directory).get? c = none :=
  Std.ExtTreeMap.getElem?_empty

theorem get?_erase :
    (directory.erase c).get? d = if d = c then none else directory.get? d := by
  simp only [get?, erase, Std.ExtTreeMap.getElem?_erase, Std.compare_eq_iff_eq, eq_comm (a := d)]

theorem get?_update (change : Client → Client) :
    (directory.update c change).get? d =
      if d = c then (directory.get? d).map change else directory.get? d := by
  simp only [get?, update, Std.ExtTreeMap.getElem?_modify, Std.compare_eq_iff_eq]
  by_cases same : c = d
  · simp [same]
  · simp [same, Ne.symm same]

theorem get?_place (room : Option RoomCode) :
    (directory.place c room).get? d =
      if d = c then (directory.get? d).map fun client => { client with room }
      else directory.get? d :=
  get?_update ..

theorem get?_rename (name : String) :
    (directory.rename c name).get? d =
      if d = c then (directory.get? d).map fun client => { client with name }
      else directory.get? d :=
  get?_update ..

/-- Placing every connection of a list changes the records of the list and no
    other; a connection that is listed twice is placed twice the same way. -/
theorem get?_foldl_place (members : List ConnectionId) (room : Option RoomCode) :
    (members.foldl (fun directory c => directory.place c room) directory).get? d =
      if d ∈ members then (directory.get? d).map fun client => { client with room }
      else directory.get? d := by
  induction members generalizing directory with
  | nil => simp
  | cons member members inductionHypothesis =>
    rw [List.foldl_cons, inductionHypothesis, get?_place]
    by_cases same : d = member
    · subst same
      cases directory.get? d <;> simp
    · simp [same]

theorem get?_register (fresh : directory.get? c = none) :
    (directory.register c).2.get? d =
      if d = c then some { id := ⟨directory.nextId⟩, connection := c } else directory.get? d := by
  simp only [register, fresh]
  simp only [get?, Std.ExtTreeMap.getElem?_insert, Std.compare_eq_iff_eq, eq_comm (a := d)]

theorem register_fresh (fresh : directory.get? c = none) :
    directory.register c =
      ({ id := ⟨directory.nextId⟩, connection := c }, (directory.register c).2) := by
  simp [register, fresh]

theorem nextId_register (fresh : directory.get? c = none) :
    (directory.register c).2.nextId = directory.nextId + 1 := by
  simp [register, fresh]

theorem nextId_foldl_place (members : List ConnectionId) (room : Option RoomCode) :
    (members.foldl (fun directory c => directory.place c room) directory).nextId =
      directory.nextId := by
  induction members generalizing directory with
  | nil => rfl
  | cons member members inductionHypothesis => rw [List.foldl_cons, inductionHypothesis]; rfl

end Directory

/-! ## Rooms -/

namespace Room

variable (room : Room) (c : ConnectionId)

theorem code_addGuest : (room.addGuest c).code = room.code := rfl

theorem code_removeGuest : (room.removeGuest c).code = room.code := rfl

theorem members_addGuest : (room.addGuest c).members = room.members ++ [c] := rfl

theorem members_removeGuest (notHost : room.host ≠ c) :
    (room.removeGuest c).members = room.members.erase c := by
  rw [members, members, List.erase_cons_tail (by simpa using notHost)]
  rfl

end Room

/-! ## The table of rooms -/

namespace RoomTable

variable (rooms : RoomTable) (code other : RoomCode) (room : Room)

theorem getElem?_insert :
    (rooms.insert code room)[other]? = if other = code then some room else rooms[other]? := by
  simp only [Std.ExtTreeMap.getElem?_insert, Std.compare_eq_iff_eq, eq_comm (a := other)]

theorem getElem?_erase :
    (rooms.erase code)[other]? = if other = code then none else rooms[other]? := by
  simp only [Std.ExtTreeMap.getElem?_erase, Std.compare_eq_iff_eq, eq_comm (a := other)]

theorem add_free (free : rooms[room.code]? = none) :
    rooms.add room = (true, rooms.insert room.code room) := by
  have absent : rooms.contains room.code = false := by
    rw [Std.ExtTreeMap.contains_eq_isSome_getElem?, free]; rfl
  refine Prod.ext (by simp only [add, absent, Bool.not_false]) ?_
  apply Std.ExtTreeMap.ext_getElem?
  intro key
  simp only [add, Std.ExtTreeMap.getElem?_insertIfNew, Std.ExtTreeMap.getElem?_insert,
    Std.ExtTreeMap.mem_iff_contains, absent, Bool.false_eq_true, not_false_eq_true, and_true]

end RoomTable

/-! ## Whole lobbies -/

/-- Lookups tell everything about a directory but the next id. -/
theorem Directory.ext_get? {directory directory' : Directory}
    (nextId : directory.nextId = directory'.nextId)
    (records : ∀ c, directory.get? c = directory'.get? c) : directory = directory' := by
  cases directory
  cases directory'
  congr
  exact Std.ExtTreeMap.ext_getElem? fun {c} => records c

theorem Lobby.ext_lookups {lobby lobby' : Lobby} (limits : lobby.limits = lobby'.limits)
    (draws : lobby.draws = lobby'.draws)
    (nextId : lobby.directory.nextId = lobby'.directory.nextId)
    (records : ∀ c, lobby.directory.get? c = lobby'.directory.get? c)
    (rooms : ∀ code : RoomCode, lobby.rooms[code]? = lobby'.rooms[code]?) : lobby = lobby' := by
  have directory := Directory.ext_get? nextId records
  have table : lobby.rooms = lobby'.rooms := Std.ExtTreeMap.ext_getElem? fun {code} => rooms code
  cases lobby
  cases lobby'
  simp_all

end Rendezvous

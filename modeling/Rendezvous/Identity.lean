import Std.Data.ExtTreeMap

/-! # Identities

Three kinds of number name things: a connection, a client and a room.  Each has
a type of its own, so that none can stand in for another, and a spelling for
people.  Connections and rooms are also keys of finite maps, so they are ordered
by number.
-/

namespace Rendezvous

/-- Names a connection while it lasts. -/
structure ConnectionId where
  val : UInt64
  deriving DecidableEq, Repr

/-- Names a client for as long as the server runs. -/
structure ClientId where
  val : UInt64
  deriving DecidableEq, Repr

/-- The number by which guests find a room. -/
structure RoomCode where
  val : UInt32
  deriving DecidableEq, Repr

/-! ## Spelling -/

instance : ToString ConnectionId := ⟨fun c => s!"conn-{c.val}"⟩
instance : ToString ClientId := ⟨fun id => s!"C-{id.val}"⟩
instance : ToString RoomCode := ⟨fun code => s!"R-{code.val}"⟩

/-! ## Order -/

instance : Ord ConnectionId := ⟨compareOn ConnectionId.val⟩
instance : Ord RoomCode := ⟨compareOn RoomCode.val⟩

instance : Std.TransOrd ConnectionId := inferInstanceAs (Std.TransCmp (compareOn ConnectionId.val))
instance : Std.TransOrd RoomCode := inferInstanceAs (Std.TransCmp (compareOn RoomCode.val))

instance : Std.LawfulEqOrd ConnectionId where
  eq_of_compare {a b} h := by
    have hval : compare a.val b.val = .eq := h
    cases a; cases b
    exact congrArg _ (Std.LawfulEqCmp.eq_of_compare hval)

instance : Std.LawfulEqOrd RoomCode where
  eq_of_compare {a b} h := by
    have hval : compare a.val b.val = .eq := h
    cases a; cases b
    exact congrArg _ (Std.LawfulEqCmp.eq_of_compare hval)

end Rendezvous

import Rendezvous.Proofs.Lobby.Step

/-! # Client ids

No two connections have the same client id (`Numbered`).  The next id to give is
above all that were given, so a new record is told apart from every other, as
long as the ids have not run out; no step but a registration gives one.
-/

namespace Rendezvous.Lobby

def id? (lobby : Lobby) (c : ConnectionId) : Option ClientId :=
  (lobby.directory.get? c).map Client.id

section Changes

variable (lobby : Lobby) (c d : ConnectionId) (code : RoomCode) (room : Room)

theorem id?_enroll (fresh : lobby.directory.get? c = none) :
    (lobby.enroll c).id? d = if d = c then some ⟨lobby.directory.nextId⟩ else lobby.id? d := by
  rw [id?, get?_enroll _ _ _ fresh, id?]
  split <;> rfl

theorem id?_forget : (lobby.forget c).id? d = if d = c then none else lobby.id? d := by
  rw [id?, get?_forget, id?]
  split <;> rfl

theorem id?_rename (name : String) : (lobby.rename c name).id? d = lobby.id? d := by
  rw [id?, get?_rename, id?]
  split
  · rw [Option.map_map]; rfl
  · rfl

theorem id?_seat (place : Option RoomCode) :
    (lobby.seat c code room place).id? d = lobby.id? d := by
  rw [id?, get?_seat, id?]
  split
  · rw [Option.map_map]; rfl
  · rfl

theorem id?_release : (lobby.release code room).id? d = lobby.id? d := by
  rw [id?, get?_release, id?]
  split
  · rw [Option.map_map]; rfl
  · rfl

end Changes

theorem toNat_nextId_enroll {lobby : Lobby} {c : ConnectionId}
    (fresh : lobby.directory.get? c = none)
    (spare : lobby.directory.nextId.toNat + 1 < UInt64.size) :
    (lobby.enroll c).directory.nextId.toNat = lobby.directory.nextId.toNat + 1 := by
  rw [enroll, Directory.nextId_register _ _ fresh, UInt64.toNat_add]
  exact Nat.mod_eq_of_lt spare

/-- Every client has an id of its own, and the next id is above them all. -/
structure Numbered (lobby : Lobby) : Prop where
  id_lt : ∀ {c : ConnectionId} {id : ClientId},
    lobby.id? c = some id → id.val < lobby.directory.nextId
  unique : ∀ {c d : ConnectionId} {id : ClientId},
    lobby.id? c = some id → lobby.id? d = some id → c = d

namespace Numbered

theorem empty (limits : Limits) (draws : Draws) : (Lobby.empty limits draws).Numbered := by
  have noId : ∀ c, (Lobby.empty limits draws).id? c = none := fun c => by simp [id?]
  constructor <;> simp [noId]

variable {lobby after : Lobby} {c : ConnectionId}

/-- Clients that keep their ids are told apart as before. -/
theorem mono (numbered : lobby.Numbered) (next : after.directory.nextId = lobby.directory.nextId)
    (kept : ∀ d id, after.id? d = some id → lobby.id? d = some id) : after.Numbered where
  id_lt := fun given => by
    rw [next]
    exact numbered.id_lt (kept _ _ given)
  unique := fun given given' => numbered.unique (kept _ _ given) (kept _ _ given')

/-- A new client gets an id that nobody has, unless the ids have run out. -/
theorem enroll (numbered : lobby.Numbered) (fresh : lobby.directory.get? c = none)
    (spare : lobby.directory.nextId.toNat + 1 < UInt64.size) : (lobby.enroll c).Numbered := by
  have next := toNat_nextId_enroll fresh spare
  -- the next id is above all that were given, so nobody has it yet
  have notGiven : ∀ {d : ConnectionId}, lobby.id? d ≠ some ⟨lobby.directory.nextId⟩ := by
    intro d given
    exact (UInt64.lt_irrefl _ (numbered.id_lt given)).elim
  constructor
  · -- the next id has moved on past the one that was just given
    intro d id given
    rw [UInt64.lt_iff_toNat_lt, next]
    rw [id?_enroll _ _ _ fresh] at given
    split at given
    · cases given; exact Nat.lt_succ_self _
    · exact Nat.lt_succ_of_lt (UInt64.lt_iff_toNat_lt.mp (numbered.id_lt given))
  · -- old clients differ as before, and the new one differs from each of them
    intro d e id given given'
    rw [id?_enroll _ _ _ fresh] at given given'
    split at given <;> split at given'
    next same same' => rw [same, same']
    next => cases given; exact absurd given' notGiven
    next => cases given'; exact absurd given notGiven
    next => exact numbered.unique given given'

end Numbered

/-- A step gives a new client the next id, or leaves the ids of all that remain. -/
theorem Step.ids {lobby : Lobby} {c : ConnectionId} {operation : Operation}
    {outcome : Outcome (Answer Reply)} (step : Step lobby c operation outcome) :
    (operation = .connect ∧ lobby.directory.get? c = none ∧ outcome.lobby = lobby.enroll c) ∨
      outcome.lobby.directory.nextId = lobby.directory.nextId ∧
        ∀ d id, outcome.lobby.id? d = some id → lobby.id? d = some id := by
  have forgotten : ∀ (before : Lobby) d id, (before.forget c).id? d = some id →
      before.id? d = some id := by
    intro before d id given
    rw [id?_forget] at given
    split at given
    · cases given
    · exact given
  have released : ∀ code room,
      (lobby.release code room).directory.nextId = lobby.directory.nextId := fun _ room =>
    lobby.directory.nextId_foldl_place room.members none
  cases step with
  | enroll fresh => exact .inl ⟨rfl, fresh, rfl⟩
  | depart => exact .inr ⟨rfl, forgotten lobby⟩
  | departHost =>
    refine .inr ⟨released _ _, fun d id given => ?_⟩
    rw [← id?_release]
    exact forgotten _ d id given
  | departGuest =>
    refine .inr ⟨rfl, fun d id given => ?_⟩
    rw [← id?_seat]
    exact forgotten _ d id given
  | rename => exact .inr ⟨rfl, fun d id given => by rwa [id?_rename] at given⟩
  | @create _ code =>
    refine .inr ⟨rfl, fun d id given => ?_⟩
    rw [← id?_seat lobby c d code { code, host := c } (some code)]
    exact given
  | join => exact .inr ⟨rfl, fun d id given => by rwa [id?_seat] at given⟩
  | leave => exact .inr ⟨rfl, fun d id given => by rwa [id?_seat] at given⟩
  | close => exact .inr ⟨released _ _, fun d id given => by rwa [id?_release] at given⟩
  | _ => exact .inr ⟨rfl, fun d id given => given⟩

/-! ## Counting -/

def enrolls (lobby : Lobby) (c : ConnectionId) (operation : Operation) : Bool :=
  operation = .connect && (lobby.directory.get? c).isNone

theorem connects_of_enrolls {lobby : Lobby} {c : ConnectionId} {operation : Operation}
    (enrolls : lobby.enrolls c operation = true) :
    operation = .connect ∧ lobby.directory.get? c = none := by
  simpa [Lobby.enrolls] using enrolls

section Counting

variable {lobby : Lobby} {c : ConnectionId} {operation : Operation}
  {outcome : Outcome (Answer Reply)}

theorem Step.of_enrolls (step : Step lobby c operation outcome)
    (enrolls : lobby.enrolls c operation = true) :
    outcome = ⟨.ok (.connected ⟨lobby.directory.nextId⟩), lobby.enroll c,
      [.notify c (.clientId ⟨lobby.directory.nextId⟩)]⟩ := by
  obtain ⟨rfl, fresh⟩ := connects_of_enrolls enrolls
  cases step with
  | declined declines =>
    cases declines with
    | unknown needs => cases needs
    | hostInside enters | guestInside enters => cases enters
    | notInside needs => cases needs
  | reconnect record => rw [fresh] at record; cases record
  | enroll => rfl

/-- Ids stay distinct, and the next id moves on exactly when a record is made. -/
theorem Step.numbered (step : Step lobby c operation outcome) (numbered : lobby.Numbered)
    (spare : lobby.directory.nextId.toNat + (lobby.enrolls c operation).toNat < UInt64.size) :
    outcome.lobby.Numbered ∧ outcome.lobby.directory.nextId.toNat =
      lobby.directory.nextId.toNat + (lobby.enrolls c operation).toNat := by
  rcases step.ids with ⟨rfl, fresh, after⟩ | ⟨next, kept⟩
  · have enrolls : lobby.enrolls c .connect = true := by simp [Lobby.enrolls, fresh]
    rw [enrolls] at spare ⊢
    rw [after]
    exact ⟨numbered.enroll fresh spare, toNat_nextId_enroll fresh spare⟩
  · refine ⟨numbered.mono next kept, ?_⟩
    cases enrolls : lobby.enrolls c operation with
    | false => rw [next]; rfl
    | true =>
      -- a record that is made takes the next id, so the next id would not be what it was
      have fresh := (connects_of_enrolls enrolls).2
      have given : outcome.lobby.id? c = some ⟨lobby.directory.nextId⟩ := by
        rw [step.of_enrolls enrolls, id?_enroll _ _ _ fresh, if_pos rfl]
      have before := kept c _ given
      rw [id?, fresh] at before
      cases before

end Counting

end Rendezvous.Lobby

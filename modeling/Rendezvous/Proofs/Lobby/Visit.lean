import Rendezvous.Proofs.Lobby.History

/-! # A visit leaves no trace

A connection joins a room, others do what they do, and it leaves.  The lobby is then
the one that it would be without the visit, and nobody was answered differently on
the way, but for how many connections a packet was passed on to
(`visit_leaves_no_trace`).

The two runs are compared by `Without`: one lobby is the other with the visitor taken
out of all guest lists and its record placed outside.  It has to cover more than the
room that was joined, since that room may be closed meanwhile and its code given to
another host.  Every operation of somebody else keeps it (`Without.perform`), and
leaving is what arrives at it (`Consistent.without_leave`).
-/

namespace Rendezvous

theorem Room.removeGuest_comm (room : Room) (c d : ConnectionId) :
    (room.removeGuest c).removeGuest d = (room.removeGuest d).removeGuest c := by
  simp [removeGuest, List.erase_comm c d]

theorem Room.removeGuest_addGuest (room : Room) {c d : ConnectionId} (other : d ≠ c) :
    (room.addGuest d).removeGuest c = (room.removeGuest c).addGuest d := by
  have single : [d].erase c = [d] := List.erase_of_not_mem (by simpa using Ne.symm other)
  simp only [removeGuest, addGuest, List.erase_append, single]
  split
  next => rfl
  next absent => rw [List.erase_of_not_mem absent]

theorem Room.removeGuest_of_not_mem {room : Room} {c : ConnectionId} (absent : c ∉ room.guests) :
    room.removeGuest c = room := by
  rw [removeGuest, List.erase_of_not_mem absent]

theorem Room.map_removeGuest {found : Option Room} {c : ConnectionId}
    (stranger : ∀ room, found = some room → c ∉ room.guests) :
    found.map (fun room => room.removeGuest c) = found := by
  cases found with
  | none => rfl
  | some room => rw [Option.map_some, Room.removeGuest_of_not_mem (stranger room rfl)]

theorem Room.addGuest_removeGuest {room : Room} {c : ConnectionId} (absent : c ∉ room.guests) :
    (room.addGuest c).removeGuest c = room := by
  simp [addGuest, removeGuest, List.erase_append_right _ absent]

namespace Lobby

/-- The second lobby is the first with a connection taken out of all guest lists and
    its record placed outside. -/
structure Without (lobby : Lobby) (c : ConnectionId) (bare : Lobby) : Prop where
  limits_eq : bare.limits = lobby.limits
  draws_eq : bare.draws = lobby.draws
  nextId_eq : bare.directory.nextId = lobby.directory.nextId
  record_eq : ∀ d, bare.directory.get? d = (lobby.directory.get? d).map fun client =>
    if d = c then { client with room := none } else client
  room_eq : ∀ code : RoomCode,
    bare.rooms[code]? = (lobby.rooms[code]?).map fun room => room.removeGuest c

variable {lobby bare : Lobby} {c d : ConnectionId} {client : Client} {code : RoomCode}
  {room : Room}

namespace Without

theorem unique {bare' : Lobby} (without : lobby.Without c bare) (without' : lobby.Without c bare') :
    bare = bare' := by
  apply Lobby.ext_lookups
  · rw [without.limits_eq, without'.limits_eq]
  · rw [without.draws_eq, without'.draws_eq]
  · rw [without.nextId_eq, without'.nextId_eq]
  · intro d
    rw [without.record_eq, without'.record_eq]
  · intro code
    rw [without.room_eq, without'.room_eq]

/-! ## How others stand -/

theorem record_of_ne (without : lobby.Without c bare) (other : d ≠ c) :
    bare.directory.get? d = lobby.directory.get? d := by
  simp [without.record_eq, other]

theorem stored (without : lobby.Without c bare) (stored : lobby.rooms[code]? = some room) :
    bare.rooms[code]? = some (room.removeGuest c) := by
  rw [without.room_eq, stored, Option.map_some]

theorem free_iff (without : lobby.Without c bare) (code : RoomCode) :
    bare.rooms[code]? = none ↔ lobby.rooms[code]? = none := by
  rw [without.room_eq, Option.map_eq_none_iff]

theorem outside (without : lobby.Without c bare) (other : d ≠ c)
    (outside : lobby.Outside d client) : bare.Outside d client :=
  ⟨(without.record_of_ne other).trans outside.record, outside.room_eq⟩

theorem hosts (without : lobby.Without c bare) (other : d ≠ c)
    (hosts : lobby.Hosts d client code room) :
    bare.Hosts d client code (room.removeGuest c) :=
  ⟨(without.record_of_ne other).trans hosts.record, without.stored hosts.stored, hosts.host_eq⟩

theorem visits (without : lobby.Without c bare) (other : d ≠ c)
    (visits : lobby.Visits d client code room) :
    bare.Visits d client code (room.removeGuest c) :=
  ⟨(without.record_of_ne other).trans visits.record, without.stored visits.stored,
    (List.mem_erase_of_ne other).mpr visits.guest⟩

theorem declines (without : lobby.Without c bare) (other : d ≠ c) {operation : Operation}
    {refusal : Refusal} (declines : lobby.Declines d operation refusal) :
    bare.Declines d operation refusal :=
  declines.transfer without.limits_eq (without.record_of_ne other)
    (fun hosts => ⟨_, without.hosts other hosts⟩) (fun visits => ⟨_, without.visits other visits⟩)
    (fun code _ => (without.free_iff code).mpr) fun _ => RoomTable.size_congr without.free_iff

/-! ## What others change -/

theorem enroll (without : lobby.Without c bare) (other : d ≠ c)
    (fresh : lobby.directory.get? d = none) : (lobby.enroll d).Without c (bare.enroll d) := by
  have freshBare := (without.record_of_ne other).trans fresh
  refine ⟨without.limits_eq, without.draws_eq, ?_, fun e => ?_, without.room_eq⟩
  · rw [Lobby.enroll, Lobby.enroll, Directory.nextId_register _ _ fresh,
      Directory.nextId_register _ _ freshBare, without.nextId_eq]
  · rw [get?_enroll _ _ _ fresh, get?_enroll _ _ _ freshBare, without.record_eq,
      without.nextId_eq]
    split
    next same => simp [same, other]
    next => rfl

theorem forget (without : lobby.Without c bare) :
    (lobby.forget d).Without c (bare.forget d) := by
  refine ⟨without.limits_eq, without.draws_eq, without.nextId_eq, fun e => ?_, without.room_eq⟩
  rw [get?_forget, get?_forget, without.record_eq]
  split <;> rfl

theorem rename (without : lobby.Without c bare) (other : d ≠ c) (name : String) :
    (lobby.rename d name).Without c (bare.rename d name) := by
  refine ⟨without.limits_eq, without.draws_eq, without.nextId_eq, fun e => ?_, without.room_eq⟩
  rw [get?_rename, get?_rename, without.record_eq]
  split
  next same => simp [same, other, Function.comp_def]
  next => rfl

theorem seat (without : lobby.Without c bare) (other : d ≠ c) (code : RoomCode) (room : Room)
    (place : Option RoomCode) :
    (lobby.seat d code room place).Without c (bare.seat d code (room.removeGuest c) place) := by
  refine ⟨without.limits_eq, without.draws_eq, without.nextId_eq, fun e => ?_, fun k => ?_⟩
  · rw [get?_seat, get?_seat, without.record_eq]
    split
    next same => simp [same, other, Function.comp_def]
    next => rfl
  · rw [room_seat, room_seat, without.room_eq]
    split <;> rfl

theorem release (without : lobby.Without c bare) (code : RoomCode) (room : Room) :
    (lobby.release code room).Without c (bare.release code (room.removeGuest c)) := by
  refine ⟨without.limits_eq, without.draws_eq, ?_, fun e => ?_, fun k => ?_⟩
  · rw [Lobby.release, Lobby.release, Directory.nextId_foldl_place, Directory.nextId_foldl_place,
      without.nextId_eq]
  · rw [get?_release, get?_release, without.record_eq]
    by_cases visitor : e = c
    -- the visitor is placed outside in the one lobby, and is outside in the other
    · subst visitor
      cases lobby.directory.get? e with
      | none => simp
      | some client => by_cases member : e ∈ room.members <;> simp [member]
    · have listed : e ∈ (room.removeGuest c).members ↔ e ∈ room.members := by
        simp [Room.members, Room.removeGuest, List.mem_erase_of_ne visitor]
      simp [visitor, listed]
  · rw [room_release, room_release, without.room_eq]
    split <;> rfl

theorem withDraws (without : lobby.Without c bare) (draws : Draws) :
    Without { lobby with draws } c { bare with draws } :=
  { without with draws_eq := rfl }

end Without

/-! ## One operation -/

/-- The two answers are the same, unless a packet is to be passed on: then they may count
    different guests. -/
def AnsweredAlike (operation : Operation) (answer answer' : Answer Reply) : Prop :=
  (∀ data mode, operation ≠ .relay data mode) → answer = answer'

theorem Without.perform_create (without : lobby.Without c bare) (other : d ≠ c)
    (outside : lobby.Outside d client) (spare : lobby.rooms.size < lobby.limits.codeSpace.toNat) :
    (lobby.perform d .create).lobby.Without c (bare.perform d .create).lobby ∧
      (lobby.perform d .create).value = (bare.perform d .create).value := by
  obtain ⟨full, -⟩ | ⟨-, code, after, picked, -, free⟩ :=
    RoomTable.allocate_cases lobby.rooms lobby.limits lobby.draws
  · exact absurd full (Nat.not_le.mpr spare)
  · -- the same codes are taken, so the same code is picked
    have pickedBare : bare.rooms.allocate bare.limits bare.draws = (.ok code, after) := by
      rw [without.limits_eq, without.draws_eq, RoomTable.allocate_congr without.free_iff, picked]
    rw [outside.perform_create picked free,
      (without.outside other outside).perform_create pickedBare ((without.free_iff code).mpr free)]
    exact ⟨(without.seat other code { code, host := d } (some code)).withDraws after, rfl⟩

/-- Whatever somebody else does has the same effect and is answered alike. -/
theorem Without.perform (without : lobby.Without c bare) (other : d ≠ c)
    (consistent : lobby.Consistent) (consistentBare : bare.Consistent) (operation : Operation) :
    (lobby.perform d operation).lobby.Without c (bare.perform d operation).lobby ∧
      AnsweredAlike operation (lobby.perform d operation).value (bare.perform d operation).value := by
  have step := perform_step consistent d operation
  generalize performed : lobby.perform d operation = outcome at step ⊢
  -- in each case the same step is possible in the other lobby, so it is what is performed
  cases step with
  | declined declines =>
    rw [(without.declines other declines).perform_eq consistentBare]
    exact ⟨without, fun _ => rfl⟩
  | reconnect record =>
    have recordBare := (without.record_of_ne other).trans record
    rw [(Step.reconnect recordBare).perform_eq consistentBare nofun]
    exact ⟨without, fun _ => rfl⟩
  | enroll fresh =>
    have freshBare := (without.record_of_ne other).trans fresh
    rw [(Step.enroll freshBare).perform_eq consistentBare nofun]
    exact ⟨without.enroll other fresh, fun _ => by rw [without.nextId_eq]⟩
  | absent absent =>
    have absentBare := (without.record_of_ne other).trans absent
    rw [(Step.absent absentBare).perform_eq consistentBare nofun]
    exact ⟨without, fun _ => rfl⟩
  | depart outside =>
    rw [(Step.depart (without.outside other outside)).perform_eq consistentBare nofun]
    exact ⟨without.forget, fun _ => rfl⟩
  | @departHost client code room hosts =>
    rw [(Step.departHost (without.hosts other hosts)).perform_eq consistentBare nofun]
    exact ⟨(without.release code room).forget, fun _ => rfl⟩
  | @departGuest client code room visits =>
    rw [(Step.departGuest (without.visits other visits)).perform_eq consistentBare nofun,
      room.removeGuest_comm c d]
    exact ⟨(without.seat other code (room.removeGuest d) none).forget, fun _ => rfl⟩
  | @rename client name record short =>
    have recordBare := (without.record_of_ne other).trans record
    rw [← without.limits_eq] at short
    rw [(Step.rename recordBare short).perform_eq consistentBare nofun]
    exact ⟨without.rename other name, fun _ => rfl⟩
  | create outside spare =>
    rw [← performed]
    obtain ⟨withoutAfter, answer⟩ := without.perform_create other outside spare
    exact ⟨withoutAfter, fun _ => answer⟩
  | @join client code room outside stored =>
    have outsideBare := without.outside other outside
    rw [(Step.join outsideBare (without.stored stored)).perform_eq consistentBare nofun,
      ← room.removeGuest_addGuest other]
    exact ⟨without.seat other code (room.addGuest d) (some code), fun _ => rfl⟩
  | @leave client code room visits =>
    rw [(Step.leave (without.visits other visits)).perform_eq consistentBare nofun,
      room.removeGuest_comm c d]
    exact ⟨without.seat other code (room.removeGuest d) none, fun _ => rfl⟩
  | start hosts =>
    rw [(Step.start (without.hosts other hosts)).perform_eq consistentBare nofun]
    exact ⟨without, fun _ => rfl⟩
  | @close client code room hosts =>
    rw [(Step.close (without.hosts other hosts)).perform_eq consistentBare nofun]
    exact ⟨without.release code room, fun _ => rfl⟩
  | relayToGuests hosts =>
    rw [(Step.relayToGuests (without.hosts other hosts)).perform_eq consistentBare nofun]
    exact ⟨without, fun passesOn => absurd rfl (passesOn _ _)⟩
  | relayToHost visits =>
    rw [(Step.relayToHost (without.visits other visits)).perform_eq consistentBare nofun]
    exact ⟨without, fun _ => rfl⟩

/-! ## Coming and going -/

theorem without_self (consistent : lobby.Consistent)
    (outside : ∀ client, lobby.directory.get? c = some client → client.room = none) :
    lobby.Without c lobby := by
  refine ⟨rfl, rfl, rfl, fun d => ?_, fun code => ?_⟩
  · cases record : lobby.directory.get? d with
    | none => rfl
    | some client =>
      by_cases visitor : d = c
      · subst visitor
        cases client
        simp_all
      · simp [visitor]
  · refine (Room.map_removeGuest fun room stored guest => ?_).symm
    exact consistent.not_member outside stored (List.mem_cons_of_mem _ guest)

theorem Outside.without_join (outside : lobby.Outside c client) (consistent : lobby.Consistent)
    (stored : lobby.rooms[code]? = some room) :
    (lobby.seat c code (room.addGuest c) (some code)).Without c lobby := by
  have self := without_self consistent fun _ => outside.nowhere
  have stranger := consistent.not_member (fun _ => outside.nowhere) stored
  refine ⟨rfl, rfl, rfl, fun d => ?_, fun k => ?_⟩
  · rw [self.record_eq, get?_seat]
    split
    next visitor => simp [visitor, Function.comp_def]
    next => rfl
  · rw [room_seat]
    split
    next same =>
      rw [same, stored, Option.map_some,
        Room.addGuest_removeGuest fun guest => stranger (List.mem_cons_of_mem _ guest)]
    next => exact self.room_eq k

theorem Visits.without_leave (visits : lobby.Visits c client code room)
    (consistent : lobby.Consistent) :
    lobby.Without c (lobby.seat c code (room.removeGuest c) none) := by
  refine ⟨rfl, rfl, rfl, fun d => ?_, fun k => ?_⟩
  · rw [get?_seat]
    split
    next => rfl
    next => simp
  · rw [room_seat]
    split
    next same => rw [same, visits.stored, Option.map_some]
    next different =>
      refine (Room.map_removeGuest fun found stored guest => different ?_).symm
      exact consistent.one_room stored (List.mem_cons_of_mem _ guest) visits.stored visits.member

/-- Whoever hosts no room is in none after it has asked to leave. -/
theorem Consistent.without_leave (consistent : lobby.Consistent)
    (noHost : ∀ (code : RoomCode) (room : Room), lobby.rooms[code]? = some room → room.host ≠ c) :
    lobby.Without c (lobby.perform c .leave).lobby := by
  cases record : lobby.directory.get? c with
  | none =>
    rw [(Declines.unknown rfl record : lobby.Declines c .leave _).perform_eq consistent]
    exact without_self consistent (by simp [record])
  | some client =>
    rcases consistent.standing record with outside | ⟨code, room, hosts⟩ | ⟨code, room, visits⟩
    · rw [(Declines.notInside rfl outside : lobby.Declines c .leave _).perform_eq consistent]
      exact without_self consistent fun _ => outside.nowhere
    · exact absurd hosts.host_eq (noHost code room hosts.stored)
    · rw [(Step.leave visits).perform_eq consistent nofun]
      exact visits.without_leave consistent

theorem Without.host_ne (without : lobby.Without c bare) (consistentBare : bare.Consistent)
    (stored : lobby.rooms[code]? = some room) : room.host ≠ c := by
  intro hosts
  refine consistentBare.not_member (c := c) (fun client record => ?_) (without.stored stored) ?_
  · rw [without.record_eq] at record
    obtain ⟨before, -, rfl⟩ := Option.map_eq_some_iff.mp record
    simp
  · simp [Room.members, Room.removeGuest, hosts]

/-! ## Whole visits -/

/-- The same was done, and answered alike. -/
def Entry.Alike (entry entry' : Entry) : Prop :=
  entry.connection = entry'.connection ∧ entry.operation = entry'.operation ∧
    AnsweredAlike entry.operation entry.answer entry'.answer

theorem Without.after {meanwhile : List (ConnectionId × Operation)}
    (without : lobby.Without c bare) (consistent : lobby.Consistent)
    (consistentBare : bare.Consistent) (others : ∀ entry ∈ meanwhile, entry.1 ≠ c) :
    (lobby.after meanwhile).Without c (bare.after meanwhile) ∧
      List.Forall₂ Entry.Alike (lobby.chronicle meanwhile) (bare.chronicle meanwhile) := by
  induction meanwhile generalizing lobby bare with
  | nil => exact ⟨without, .nil⟩
  | cons entry meanwhile inductionHypothesis =>
    obtain ⟨now, alike⟩ := without.perform (others entry List.mem_cons_self) consistent
      consistentBare entry.2
    obtain ⟨later, answers⟩ := inductionHypothesis now (consistent.perform entry.1 entry.2)
      (consistentBare.perform entry.1 entry.2)
      fun entry listed => others entry (List.mem_cons_of_mem _ listed)
    exact ⟨later, .cons ⟨rfl, rfl, alike⟩ answers⟩

/-- A client that is in no room joins one, others do what they do, and it leaves if it
    still can.  That comes to the same as if it had not joined, down to the codes that
    are drawn, and the others are answered alike on the way. -/
theorem visit_leaves_no_trace (limits : Limits) (draws : Draws)
    (history meanwhile : List (ConnectionId × Operation))
    (outside : ((Lobby.empty limits draws).after history).Outside c client)
    (stored : ((Lobby.empty limits draws).after history).rooms[code]? = some room)
    (others : ∀ entry ∈ meanwhile, entry.1 ≠ c) :
    let lobby := (Lobby.empty limits draws).after history
    let joined := (lobby.perform c (.join code)).lobby
    ((joined.after meanwhile).perform c .leave).lobby = lobby.after meanwhile ∧
      List.Forall₂ Entry.Alike (joined.chronicle meanwhile) (lobby.chronicle meanwhile) := by
  intro lobby joined
  have consistent : lobby.Consistent := consistent_after limits draws history
  have consistentJoined : joined.Consistent := consistent.perform c (.join code)
  have entered : joined = lobby.seat c code (room.addGuest c) (some code) :=
    congrArg Outcome.lobby ((Step.join outside stored).perform_eq consistent nofun)
  have visit : joined.Without c lobby := by
    rw [entered]
    exact outside.without_join consistent stored
  obtain ⟨stays, answers⟩ := visit.after consistentJoined consistent others
  refine ⟨Without.unique ?_ stays, answers⟩
  exact (consistentJoined.after meanwhile).without_leave fun _ _ =>
    stays.host_ne (consistent.after meanwhile)

/-- While the visitor is there, the room is closed and its code goes to another host: then
    there is nothing to leave, and still no trace. -/
theorem visit_outlives_room :
    let lobby := (Lobby.empty {} (Draws.ofList [7, 7])).after
      [(⟨1⟩, .connect), (⟨1⟩, .create), (⟨2⟩, .connect), (⟨3⟩, .connect)]
    let meanwhile : List (ConnectionId × Operation) :=
      [(⟨3⟩, .join ⟨7⟩), (⟨1⟩, .relay [1] .unreliable), (⟨1⟩, .close), (⟨3⟩, .create),
        (⟨1⟩, .join ⟨7⟩)]
    let joined := (lobby.perform ⟨2⟩ (.join ⟨7⟩)).lobby
    (joined.after meanwhile).rooms[(⟨7⟩ : RoomCode)]? =
        some { code := ⟨7⟩, host := ⟨3⟩, guests := [⟨1⟩] } ∧
      ((joined.after meanwhile).perform ⟨2⟩ .leave).value = .error .notInRoom ∧
      ((joined.after meanwhile).perform ⟨2⟩ .leave).lobby = lobby.after meanwhile ∧
      List.Forall₂ Entry.Alike (joined.chronicle meanwhile) (lobby.chronicle meanwhile) := by
  intro lobby meanwhile joined
  have outside : lobby.Outside ⟨2⟩ { id := ⟨2⟩, connection := ⟨2⟩ } :=
    ⟨by decide +kernel, rfl⟩
  have stored : lobby.rooms[(⟨7⟩ : RoomCode)]? = some { code := ⟨7⟩, host := ⟨1⟩ } := by
    decide +kernel
  refine ⟨by decide +kernel, by decide +kernel, ?_⟩
  exact visit_leaves_no_trace {} (Draws.ofList [7, 7]) _ meanwhile outside stored (by decide)

end Lobby

end Rendezvous

import Rendezvous.Proofs.Lobby.Frame
import Rendezvous.Proofs.Lobby.Numbering

/-! # Operations in different rooms

Two connections that have to do with different rooms do not notice in which order
they act: the lobby is the same afterwards, each is answered the same, and the same
is told to the same connections (`operations_commute`).  Registering a connection and
opening a room are left out, since they take the next id and the next free code from
what all share.

An operation has to do with its footprint, the room that its connection is in and the
one that it asks for, and with the connections that these concern.  It changes nothing
elsewhere (`Step.frame`), and all that it does depends on nothing elsewhere
(`Step.transfer`).  So whatever happens elsewhere in between makes no difference to it.
-/

namespace Rendezvous

namespace Operation

/-- Whether an operation takes nothing from what all share, neither an id nor a code. -/
def isLocal : Operation → Bool
  | .connect | .create => false
  | _ => true

def target? : Operation → Option RoomCode
  | .join code => some code
  | _ => none

end Operation

namespace Lobby

/-- The room that a connection is in, if any, and the one that it asks for. -/
def footprint (lobby : Lobby) (c : ConnectionId) (operation : Operation) : List RoomCode :=
  (lobby.place? c).toList ++ operation.target?.toList

/-- A connection that acts, and the members of the rooms in its footprint. -/
def concerned (lobby : Lobby) (c : ConnectionId) (operation : Operation) : Set ConnectionId :=
  { d | d = c ∨ ∃ code ∈ lobby.footprint c operation,
    ∃ room, lobby.rooms[code]? = some room ∧ d ∈ room.members }

structure AgreeOn (connections : Set ConnectionId) (codes : Set RoomCode)
    (lobby lobby' : Lobby) : Prop where
  record_eq : ∀ c ∈ connections, lobby'.directory.get? c = lobby.directory.get? c
  room_eq : ∀ code ∈ codes, lobby'.rooms[code]? = lobby.rooms[code]?

/-- What an operation has to do with is the same in both lobbies. -/
def AgreeNear (lobby : Lobby) (c : ConnectionId) (operation : Operation) : Lobby → Lobby → Prop :=
  AgreeOn (lobby.concerned c operation) { code | code ∈ lobby.footprint c operation }

/-- What an operation has nothing to do with is the same in both lobbies. -/
def AgreeFar (lobby : Lobby) (c : ConnectionId) (operation : Operation) : Lobby → Lobby → Prop :=
  AgreeOn (lobby.concerned c operation)ᶜ { code | code ∉ lobby.footprint c operation }

variable {lobby lobby' : Lobby} {c d : ConnectionId} {operation : Operation}
  {outcome : Outcome (Answer Reply)} {client : Client} {code : RoomCode} {room : Room}

/-! ## Footprints -/

theorem mem_footprint : code ∈ lobby.footprint c operation ↔
    lobby.place? c = some code ∨ operation.target? = some code := by
  simp [footprint, Option.mem_toList]

theorem Consistent.mem_footprint (consistent : lobby.Consistent)
    (stored : lobby.rooms[code]? = some room) (member : c ∈ room.members) :
    code ∈ lobby.footprint c operation :=
  Lobby.mem_footprint.mpr (.inl (consistent.place?_of_member stored member))

theorem mem_concerned_self : c ∈ lobby.concerned c operation := .inl rfl

theorem mem_concerned (near : code ∈ lobby.footprint c operation)
    (stored : lobby.rooms[code]? = some room) (member : d ∈ room.members) :
    d ∈ lobby.concerned c operation :=
  .inr ⟨code, near, room, stored, member⟩

theorem Step.place?_after (step : Step lobby c operation outcome)
    (isLocal : operation.isLocal = true) (place : outcome.lobby.place? c = some code) :
    code ∈ lobby.footprint c operation := by
  refine mem_footprint.mpr ?_
  cases step with
  | reconnect | enroll | create => cases isLocal
  | declined | absent | start | relayToGuests | relayToHost => exact .inl place
  | depart | departHost | departGuest => simp [place?, get?_forget] at place
  | @rename client name record =>
    simp only [place?, get?_rename, if_true, record, Option.map_some, Option.bind_some] at place
    exact .inl (by rw [place?, record, Option.bind_some, place])
  | join outside => exact .inr (by rwa [place?_seat ⟨_, outside.record⟩] at place)
  | leave visits => rw [place?_seat ⟨_, visits.record⟩] at place; cases place
  | close hosts => simp [place?, get?_release, hosts.member, hosts.record] at place

/-- A step changes nothing but what it has to do with. -/
theorem Step.frame (step : Step lobby c operation outcome) (consistent : lobby.Consistent)
    (isLocal : operation.isLocal = true) : lobby.AgreeFar c operation lobby outcome.lobby := by
  constructor
  · intro d far
    refine step.record_kept (fun same => far (.inl same)) ?_
    intro code room stored host _ member
    refine far (mem_concerned (consistent.mem_footprint stored ?_) stored member)
    simp [Room.members, host]
  · intro code far
    refine step.room_kept consistent ?_ ?_
    · exact fun place => far (mem_footprint.mpr (.inl place))
    · exact fun place => far (step.place?_after isLocal place)

/-! ## What a step depends on -/

namespace AgreeOn

variable {connections connections' : Set ConnectionId} {codes codes' : Set RoomCode}

theorem mono (agree : AgreeOn connections codes lobby lobby') (fewer : connections' ⊆ connections)
    (fewerCodes : codes' ⊆ codes) : AgreeOn connections' codes' lobby lobby' :=
  ⟨fun c listed => agree.record_eq c (fewer listed),
    fun code listed => agree.room_eq code (fewerCodes listed)⟩

theorem forget (agree : AgreeOn connections codes lobby lobby') (c : ConnectionId) :
    AgreeOn connections codes (lobby.forget c) (lobby'.forget c) :=
  ⟨fun d listed => by rw [get?_forget, get?_forget, agree.record_eq d listed], agree.room_eq⟩

theorem rename (agree : AgreeOn connections codes lobby lobby') (c : ConnectionId)
    (name : String) : AgreeOn connections codes (lobby.rename c name) (lobby'.rename c name) :=
  ⟨fun d listed => by rw [get?_rename, get?_rename, agree.record_eq d listed], agree.room_eq⟩

theorem seat (agree : AgreeOn connections codes lobby lobby') (c : ConnectionId) (code : RoomCode)
    (room : Room) (place : Option RoomCode) :
    AgreeOn connections codes (lobby.seat c code room place) (lobby'.seat c code room place) :=
  ⟨fun d listed => by rw [get?_seat, get?_seat, agree.record_eq d listed],
    fun other listed => by rw [room_seat, room_seat, agree.room_eq other listed]⟩

theorem release (agree : AgreeOn connections codes lobby lobby') (code : RoomCode) (room : Room) :
    AgreeOn connections codes (lobby.release code room) (lobby'.release code room) :=
  ⟨fun d listed => by rw [get?_release, get?_release, agree.record_eq d listed],
    fun other listed => by rw [room_release, room_release, agree.room_eq other listed]⟩

end AgreeOn

namespace AgreeNear

theorem own_record (agree : lobby.AgreeNear c operation lobby lobby') :
    lobby'.directory.get? c = lobby.directory.get? c :=
  agree.record_eq c mem_concerned_self

theorem outside (agree : lobby.AgreeNear c operation lobby lobby')
    (outside : lobby.Outside c client) : lobby'.Outside c client :=
  ⟨agree.own_record.trans outside.record, outside.room_eq⟩

theorem hosts (agree : lobby.AgreeNear c operation lobby lobby') (consistent : lobby.Consistent)
    (hosts : lobby.Hosts c client code room) : lobby'.Hosts c client code room :=
  ⟨agree.own_record.trans hosts.record,
    (agree.room_eq code (consistent.mem_footprint hosts.stored hosts.member)).trans hosts.stored,
    hosts.host_eq⟩

theorem visits (agree : lobby.AgreeNear c operation lobby lobby') (consistent : lobby.Consistent)
    (visits : lobby.Visits c client code room) : lobby'.Visits c client code room :=
  ⟨agree.own_record.trans visits.record,
    (agree.room_eq code (consistent.mem_footprint visits.stored visits.member)).trans visits.stored,
    visits.guest⟩

theorem target (agree : lobby.AgreeNear c (.join code) lobby lobby') :
    lobby'.rooms[code]? = lobby.rooms[code]? :=
  agree.room_eq code (mem_footprint.mpr (.inr rfl))

theorem roster (agree : lobby.AgreeNear c operation lobby lobby')
    (near : code ∈ lobby.footprint c operation) (stored : lobby.rooms[code]? = some room) :
    lobby'.roster room = lobby.roster room :=
  List.filterMap_congr fun d member => by
    rw [agree.record_eq d (mem_concerned near stored member)]

theorem footprint_eq (agree : lobby.AgreeNear c operation lobby lobby') :
    lobby'.footprint c operation = lobby.footprint c operation := by
  rw [footprint, footprint, place?, place?, agree.own_record]

theorem concerned_eq (agree : lobby.AgreeNear c operation lobby lobby') :
    lobby'.concerned c operation = lobby.concerned c operation := by
  ext d
  simp only [concerned, Set.mem_ofPred_eq, agree.footprint_eq]
  refine or_congr_right (exists_congr fun code => and_congr_right fun near => ?_)
  rw [agree.room_eq code near]

theorem agreeFar_eq (agree : lobby.AgreeNear c operation lobby lobby') :
    lobby'.AgreeFar c operation = lobby.AgreeFar c operation := by
  rw [AgreeFar, AgreeFar, agree.footprint_eq, agree.concerned_eq]

end AgreeNear

/-- What a step does, answers and tells depends on nothing but what it has to do with. -/
theorem Step.transfer (step : Step lobby c operation outcome) (consistent : lobby.Consistent)
    (consistent' : lobby'.Consistent) (isLocal : operation.isLocal = true)
    (limits : lobby'.limits = lobby.limits)
    (agree : lobby.AgreeNear c operation lobby lobby') :
    (lobby'.perform c operation).value = outcome.value ∧
      (lobby'.perform c operation).messages = outcome.messages ∧
      lobby.AgreeNear c operation outcome.lobby (lobby'.perform c operation).lobby := by
  -- in each case the same step is possible in the other lobby, so it is what is performed
  cases step with
  | reconnect | enroll | create => cases isLocal
  | declined declines =>
    have declines' := declines.transfer limits agree.own_record
      (fun hosts => ⟨_, agree.hosts consistent hosts⟩)
      (fun visits => ⟨_, agree.visits consistent visits⟩)
      (fun code asks closed => by subst asks; exact agree.target.trans closed)
      (fun creates => by subst creates; cases isLocal)
    rw [declines'.perform_eq consistent']
    exact ⟨rfl, rfl, agree⟩
  | absent absent =>
    rw [(Step.absent (agree.own_record.trans absent)).perform_eq consistent' nofun]
    exact ⟨rfl, rfl, agree⟩
  | depart outside =>
    rw [(Step.depart (agree.outside outside)).perform_eq consistent' nofun]
    exact ⟨rfl, rfl, agree.forget c⟩
  | @departHost client code room hosts =>
    rw [(Step.departHost (agree.hosts consistent hosts)).perform_eq consistent' nofun]
    exact ⟨rfl, rfl, (agree.release code room).forget c⟩
  | @departGuest client code room visits =>
    rw [(Step.departGuest (agree.visits consistent visits)).perform_eq consistent' nofun]
    exact ⟨rfl, rfl, (agree.seat c code (room.removeGuest c) none).forget c⟩
  | @rename client name record short =>
    rw [← limits] at short
    rw [(Step.rename (agree.own_record.trans record) short).perform_eq consistent' nofun]
    exact ⟨rfl, rfl, agree.rename c name⟩
  | @join client code room outside stored =>
    have stored' := agree.target.trans stored
    rw [(Step.join (agree.outside outside) stored').perform_eq consistent' nofun,
      agree.roster (mem_footprint.mpr (.inr rfl)) stored]
    exact ⟨rfl, rfl, agree.seat c code (room.addGuest c) (some code)⟩
  | @leave client code room visits =>
    rw [(Step.leave (agree.visits consistent visits)).perform_eq consistent' nofun]
    exact ⟨rfl, rfl, agree.seat c code (room.removeGuest c) none⟩
  | start hosts =>
    rw [(Step.start (agree.hosts consistent hosts)).perform_eq consistent' nofun]
    exact ⟨rfl, rfl, agree⟩
  | @close client code room hosts =>
    rw [(Step.close (agree.hosts consistent hosts)).perform_eq consistent' nofun]
    exact ⟨rfl, rfl, agree.release code room⟩
  | relayToGuests hosts =>
    rw [(Step.relayToGuests (agree.hosts consistent hosts)).perform_eq consistent' nofun]
    exact ⟨rfl, rfl, agree⟩
  | relayToHost visits =>
    rw [(Step.relayToHost (agree.visits consistent visits)).perform_eq consistent' nofun]
    exact ⟨rfl, rfl, agree⟩

/-! ## Two operations

Nobody is concerned by two operations in different rooms, since nobody is in two
rooms.  So what one of them leaves alone contains all that the other has to do with:
after the one, the other does, answers and tells the same (`Apart.second_after_first`).
-/

structure Apart (lobby : Lobby) (c : ConnectionId) (first : Operation) (d : ConnectionId)
    (second : Operation) : Prop where
  distinct : c ≠ d
  first_local : first.isLocal = true
  second_local : second.isLocal = true
  footprints : (lobby.footprint c first).Disjoint (lobby.footprint d second)

namespace Apart

variable {first second : Operation}

theorem symm (apart : lobby.Apart c first d second) : lobby.Apart d second c first :=
  ⟨apart.distinct.symm, apart.second_local, apart.first_local, apart.footprints.symm⟩

theorem not_concerned (apart : lobby.Apart c first d second) (consistent : lobby.Consistent) :
    c ∉ lobby.concerned d second := by
  rintro (same | ⟨code, near, room, stored, member⟩)
  · exact apart.distinct same
  · exact apart.footprints (consistent.mem_footprint stored member) near

theorem concerned_subset_compl (apart : lobby.Apart c first d second)
    (consistent : lobby.Consistent) :
    lobby.concerned d second ⊆ (lobby.concerned c first)ᶜ := by
  rintro e (rfl | ⟨code, near, room, stored, member⟩)
  · exact apart.symm.not_concerned consistent
  · rintro (rfl | ⟨code', near', room', stored', member'⟩)
    · exact apart.footprints (consistent.mem_footprint stored member) near
    · obtain rfl := consistent.one_room stored member stored' member'
      exact apart.footprints near' near

theorem near_of_far (apart : lobby.Apart c first d second) (consistent : lobby.Consistent)
    {before after : Lobby} (far : lobby.AgreeFar c first before after) :
    lobby.AgreeNear d second before after :=
  far.mono (apart.concerned_subset_compl consistent) fun _ near near' => apart.footprints near' near

theorem near_after (apart : lobby.Apart c first d second) (consistent : lobby.Consistent) :
    lobby.AgreeNear d second lobby (lobby.perform c first).lobby :=
  apart.near_of_far consistent
    ((perform_step consistent c first).frame consistent apart.first_local)

theorem second_after_first (apart : lobby.Apart c first d second)
    (consistent : lobby.Consistent) :
    ((lobby.perform c first).lobby.perform d second).value = (lobby.perform d second).value ∧
      ((lobby.perform c first).lobby.perform d second).messages =
        (lobby.perform d second).messages ∧
      lobby.AgreeNear d second (lobby.perform d second).lobby
        ((lobby.perform c first).lobby.perform d second).lobby :=
  (perform_step consistent d second).transfer consistent (consistent.perform c first)
    apart.second_local (perform_step consistent c first).limits_eq (apart.near_after consistent)

theorem second_after_first_frame (apart : lobby.Apart c first d second)
    (consistent : lobby.Consistent) :
    lobby.AgreeFar d second (lobby.perform c first).lobby
      ((lobby.perform c first).lobby.perform d second).lobby := by
  have consistentAfter := consistent.perform c first
  have frame := (perform_step consistentAfter d second).frame consistentAfter apart.second_local
  rwa [(apart.near_after consistent).agreeFar_eq] at frame

/-- Where the first operation has nothing to do, the order makes no difference. -/
theorem agreeFar_swap (apart : lobby.Apart c first d second) (consistent : lobby.Consistent) :
    lobby.AgreeFar c first ((lobby.perform c first).lobby.perform d second).lobby
      ((lobby.perform d second).lobby.perform c first).lobby := by
  have early := (perform_step consistent c first).frame consistent apart.first_local
  have early' := (perform_step consistent d second).frame consistent apart.second_local
  have late := apart.symm.second_after_first_frame consistent
  have late' := apart.second_after_first_frame consistent
  obtain ⟨-, -, same⟩ := apart.second_after_first consistent
  -- near the second operation both orders leave what it does; far from both, what was there
  constructor
  · intro e far
    rw [late.record_eq e far]
    by_cases near : e ∈ lobby.concerned d second
    · rw [same.record_eq e near]
    · rw [late'.record_eq e near, early.record_eq e far, early'.record_eq e near]
  · intro code far
    rw [late.room_eq code far]
    by_cases near : code ∈ lobby.footprint d second
    · rw [same.room_eq code near]
    · rw [late'.room_eq code near, early.room_eq code far, early'.room_eq code near]

end Apart

theorem Step.shared_eq (step : Step lobby c operation outcome)
    (isLocal : operation.isLocal = true) :
    outcome.lobby.limits = lobby.limits ∧ outcome.lobby.draws = lobby.draws ∧
      outcome.lobby.directory.nextId = lobby.directory.nextId := by
  refine ⟨step.limits_eq, ?_, ?_⟩
  · cases step with
    | create => cases isLocal
    | _ => rfl
  · obtain ⟨rfl, -⟩ | ⟨next, -⟩ := step.ids
    · cases isLocal
    · exact next

theorem Apart.swap {first second : Operation} (apart : lobby.Apart c first d second)
    (consistent : lobby.Consistent) :
    ((lobby.perform d second).lobby.perform c first).lobby =
      ((lobby.perform c first).lobby.perform d second).lobby := by
  have far := apart.agreeFar_swap consistent
  have near := apart.symm.near_of_far consistent (apart.symm.agreeFar_swap consistent)
  obtain ⟨limits, draws, nextId⟩ :=
    (perform_step consistent c first).shared_eq apart.first_local
  obtain ⟨limits', draws', nextId'⟩ :=
    (perform_step consistent d second).shared_eq apart.second_local
  obtain ⟨lateLimits, lateDraws, lateNextId⟩ :=
    (perform_step (consistent.perform d second) c first).shared_eq apart.first_local
  obtain ⟨lateLimits', lateDraws', lateNextId'⟩ :=
    (perform_step (consistent.perform c first) d second).shared_eq apart.second_local
  apply Lobby.ext_lookups
  · rw [lateLimits, limits', lateLimits', limits]
  · rw [lateDraws, draws', lateDraws', draws]
  · rw [lateNextId, nextId', lateNextId', nextId]
  · intro e
    by_cases concerned : e ∈ lobby.concerned c first
    · exact (near.record_eq e concerned).symm
    · exact far.record_eq e concerned
  · intro code
    by_cases concerned : code ∈ lobby.footprint c first
    · exact (near.room_eq code concerned).symm
    · exact far.room_eq code concerned

/-- Operations of two connections that have to do with different rooms can be swapped:
    the lobby is the same in the end, and each of them answers and tells the same. -/
theorem operations_commute (limits : Limits) (draws : Draws)
    (history : List (ConnectionId × Operation)) {first second : Operation}
    (distinct : c ≠ d) (firstLocal : first.isLocal = true) (secondLocal : second.isLocal = true)
    (footprints : List.Disjoint
      (((Lobby.empty limits draws).after history).footprint c first)
      (((Lobby.empty limits draws).after history).footprint d second)) :
    let lobby := (Lobby.empty limits draws).after history
    let early := lobby.perform c first
    let early' := lobby.perform d second
    let late := early'.lobby.perform c first
    let late' := early.lobby.perform d second
    late.lobby = late'.lobby ∧
      (late.value = early.value ∧ late.messages = early.messages) ∧
      late'.value = early'.value ∧ late'.messages = early'.messages := by
  intro lobby early early' late late'
  have consistent : lobby.Consistent := consistent_after limits draws history
  have apart : lobby.Apart c first d second := ⟨distinct, firstLocal, secondLocal, footprints⟩
  obtain ⟨value, messages, -⟩ := apart.symm.second_after_first consistent
  obtain ⟨value', messages', -⟩ := apart.second_after_first consistent
  exact ⟨apart.swap consistent, ⟨value, messages⟩, value', messages'⟩

/-- A host goes away while somebody joins the room of another host. -/
theorem departure_and_join_commute :
    let lobby := (Lobby.empty {} (Draws.ofList [7, 8])).after
      [(⟨1⟩, .connect), (⟨2⟩, .connect), (⟨3⟩, .connect), (⟨4⟩, .connect), (⟨1⟩, .create),
        (⟨2⟩, .create), (⟨3⟩, .join ⟨7⟩)]
    let departed := lobby.perform ⟨1⟩ .disconnect
    let joined := lobby.perform ⟨4⟩ (.join ⟨8⟩)
    lobby.footprint ⟨1⟩ .disconnect = [⟨7⟩] ∧ lobby.footprint ⟨4⟩ (.join ⟨8⟩) = [⟨8⟩] ∧
      (joined.lobby.perform ⟨1⟩ .disconnect).lobby =
        (departed.lobby.perform ⟨4⟩ (.join ⟨8⟩)).lobby ∧
      (joined.lobby.perform ⟨1⟩ .disconnect).messages = [.notify ⟨3⟩ .roomClosed] := by
  intro lobby departed joined
  have first : lobby.footprint ⟨1⟩ .disconnect = [⟨7⟩] := by decide +kernel
  have second : lobby.footprint ⟨4⟩ (.join ⟨8⟩) = [⟨8⟩] := by decide +kernel
  have footprints : (lobby.footprint ⟨1⟩ .disconnect).Disjoint
      (lobby.footprint ⟨4⟩ (.join ⟨8⟩)) := by
    rw [first, second]
    simp
  obtain ⟨same, ⟨-, told⟩, -⟩ := operations_commute {} (Draws.ofList [7, 8]) _
    (by decide) rfl rfl footprints
  exact ⟨first, second, same, told.trans (by decide +kernel)⟩

end Lobby

end Rendezvous

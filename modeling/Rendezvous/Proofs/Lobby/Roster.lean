import Rendezvous.Proofs.Lobby.History
import Rendezvous.Proofs.Lobby.Numbering

/-! # What the members of a room know

A client can keep a roster of the others in its room from the notices that it
gets: it takes the list that a joiner is sent, adds whoever joins and removes
whoever leaves.  `Tracks` says that a roster is right, and `Step.tracks` that it
stays right whatever anybody does.

Three things make this work.  The members of a room are told of every change to
its guests, and nobody else is; they hear of it once, because no member is
listed twice; and removing an id removes one member, because ids are distinct.
-/

namespace Rendezvous

open Rendezvous.Wire (Bytes Member Notice)

/-- The ids of the others in a room, as a client knows them. -/
abbrev Roster := List ClientId

namespace Roster

def update (roster : Roster) : Notice → Roster
  | .roomCode _ => []
  | .roomMembers members => members.map Member.id
  | .memberJoined member => roster ++ [member.id]
  | .memberLeft id => roster.filter (· ≠ id)
  | .clientId _ | .roomStart | .roomClosed | .invalid _ => roster

def note (roster : Roster) (message : Message) : Roster :=
  match message.content with
  | .notice notice => roster.update notice
  | .relayed _ _ => roster

/-- The roster of a client after messages of which it gets its own. -/
def hear (roster : Roster) (c : ConnectionId) (messages : List Message) : Roster :=
  (messages.filter fun message => message.recipient = c).foldl note roster

/-! ## Hearing -/

variable (roster : Roster) (c : ConnectionId)

theorem hear_append (early late : List Message) :
    roster.hear c (early ++ late) = Roster.hear (roster.hear c early) c late := by
  rw [hear, List.filter_append, List.foldl_append]
  rfl

theorem hear_notify (r : ConnectionId) (notice : Notice) :
    roster.hear c [.notify r notice] = if r = c then roster.update notice else roster := by
  by_cases same : r = c <;> simp [hear, same, note, Message.notify]

/-- A notice to a list of connections is heard once by each of them. -/
theorem hear_broadcast {recipients : List ConnectionId} (nodup : recipients.Nodup)
    (notice : Notice) :
    roster.hear c (Message.broadcast recipients notice) =
      if c ∈ recipients then roster.update notice else roster := by
  -- a list without repetition has a connection once or not at all
  rw [hear, Message.filter_broadcast _ _ fun d => d = c, List.filter_eq, nodup.count]
  by_cases listed : c ∈ recipients <;> simp [listed, note, Message.broadcast, Message.notify]

theorem hear_silent {messages : List Message}
    (silent : ∀ message ∈ messages, ∀ roster : Roster, roster.note message = roster) :
    roster.hear c messages = roster := by
  induction messages with
  | nil => rfl
  | cons message messages inductionHypothesis =>
    have others := inductionHypothesis fun other listed =>
      silent other (List.mem_cons_of_mem _ listed)
    rw [hear] at others ⊢
    by_cases own : message.recipient = c
    · rw [List.filter_cons_of_pos (by simpa using own), List.foldl_cons,
        silent message List.mem_cons_self, others]
    · rw [List.filter_cons_of_neg (by simpa using own), others]

theorem hear_broadcast_silent (recipients : List ConnectionId) {notice : Notice}
    (silent : ∀ roster : Roster, roster.update notice = roster) :
    roster.hear c (Message.broadcast recipients notice) = roster := by
  apply hear_silent
  intro message listed roster
  obtain ⟨r, -, rfl⟩ := List.mem_map.mp listed
  exact silent roster

end Roster

namespace Lobby

/-- A roster of a client lists the others in its room, in the order of the members.
    For a client in no room it may be anything. -/
def Tracks (lobby : Lobby) (c : ConnectionId) (roster : Roster) : Prop :=
  ∀ (code : RoomCode) (room : Room), lobby.rooms[code]? = some room → c ∈ room.members →
    (room.members.filter (· ≠ c)).map lobby.id? = roster.map some

section Steps

variable {lobby after : Lobby} {a c : ConnectionId} {roster : Roster} {client : Client}
  {code : RoomCode} {room : Room}

/-- A roster stays right while the room keeps its members and they keep their ids. -/
theorem Tracks.kept (tracks : lobby.Tracks c roster)
    (kept : ∀ (code : RoomCode) (room : Room), after.rooms[code]? = some room →
      c ∈ room.members →
        lobby.rooms[code]? = some room ∧ ∀ d ∈ room.members, after.id? d = lobby.id? d) :
    after.Tracks c roster := by
  intro code room stored member
  obtain ⟨storedBefore, ids⟩ := kept code room stored member
  rw [← tracks code room storedBefore member]
  exact List.map_congr_left fun d listed => ids d (List.mem_of_mem_filter listed)

/-- A connection without a record is in no room, so any roster will do. -/
theorem Tracks.of_absent (consistent : lobby.Consistent)
    (absent : lobby.directory.get? c = none) : lobby.Tracks c roster := by
  intro code room stored member
  obtain ⟨client, record, -⟩ := consistent.record_of_member stored member
  rw [absent] at record
  cases record

theorem Tracks.enroll (tracks : lobby.Tracks c roster) (consistent : lobby.Consistent)
    (fresh : lobby.directory.get? a = none) : (lobby.enroll a).Tracks c roster := by
  apply tracks.kept
  intro code room stored member
  rw [rooms_enroll] at stored
  refine ⟨stored, fun d listed => ?_⟩
  have other : d ≠ a := by
    rintro rfl
    obtain ⟨client, record, -⟩ := consistent.record_of_member stored listed
    rw [fresh] at record
    cases record
  rw [id?_enroll _ _ _ fresh, if_neg other]

theorem Tracks.forget (tracks : lobby.Tracks c roster) (consistent : lobby.Consistent)
    (outside : ∀ client, lobby.directory.get? a = some client → client.room = none) :
    (lobby.forget a).Tracks c roster := by
  apply tracks.kept
  intro code room stored member
  rw [rooms_forget] at stored
  refine ⟨stored, fun d listed => ?_⟩
  have other : d ≠ a := by
    rintro rfl
    exact consistent.not_member outside stored listed
  rw [id?_forget, if_neg other]

theorem Tracks.rename (tracks : lobby.Tracks c roster) (name : String) :
    (lobby.rename a name).Tracks c roster :=
  tracks.kept fun _ _ stored _ => ⟨stored, fun _ _ => id?_rename ..⟩

/-- The members of a closed room are in none, and the other rooms are as before. -/
theorem Tracks.release (tracks : lobby.Tracks c roster) :
    (lobby.release code room).Tracks c roster := by
  apply tracks.kept
  intro other found stored member
  rw [room_release] at stored
  split at stored
  · cases stored
  · exact ⟨stored, fun d _ => id?_release ..⟩

/-- A roster stays right for those that the changed room does not list. -/
theorem Tracks.seat_elsewhere (tracks : lobby.Tracks c roster) (place : Option RoomCode)
    (notListed : c ∉ room.members) : (lobby.seat a code room place).Tracks c roster := by
  apply tracks.kept
  intro other found stored member
  rw [room_seat] at stored
  split at stored
  · cases stored
    exact absurd member notListed
  · exact ⟨stored, fun d _ => id?_seat ..⟩

/-- The roster of a member of the changed room is that of the room. -/
theorem tracks_seat {place : Option RoomCode}
    (consistent : (lobby.seat a code room place).Consistent) (listed : c ∈ room.members)
    (right : (room.members.filter (· ≠ c)).map lobby.id? = roster.map some) :
    (lobby.seat a code room place).Tracks c roster := by
  intro other found stored member
  -- a client is in one room only, so the room found is the changed one
  have here : (lobby.seat a code room place).rooms[code]? = some room := by
    rw [room_seat, if_pos rfl]
  have same := consistent.one_room stored member here listed
  rw [same, here] at stored
  cases stored
  rw [← right]
  exact List.map_congr_left fun d _ => id?_seat ..

theorem id?_of_record (record : lobby.directory.get? a = some client) :
    lobby.id? a = some client.id := by
  rw [id?, record, Option.map_some]

theorem records_roster (consistent : lobby.Consistent) (stored : lobby.rooms[code]? = some room) :
    (room.members.map fun d => (lobby.directory.get? d).map Client.member) =
      (lobby.roster room).map some := by
  rw [roster, List.map_filterMap_some_eq_filter_map_isSome]
  refine (List.filter_eq_self.mpr fun entry listed => ?_).symm
  obtain ⟨d, member, rfl⟩ := List.mem_map.mp listed
  -- nothing is filtered out, since every member has a record
  obtain ⟨client, record, -⟩ := consistent.record_of_member stored member
  rw [record]
  rfl

theorem ids_roster (consistent : lobby.Consistent) (stored : lobby.rooms[code]? = some room) :
    room.members.map lobby.id? = ((lobby.roster room).map Member.id).map some := by
  have ids : lobby.id? =
      Option.map Member.id ∘ fun d => (lobby.directory.get? d).map Client.member := by
    funext d
    rw [Function.comp_apply, Option.map_map]
    rfl
  rw [ids, ← List.map_map, records_roster consistent stored, List.map_map, List.map_map]
  rfl

/-- Removing an id from a list of ids removes the one connection that has it. -/
theorem ids_without (numbered : lobby.Numbered) (given : lobby.id? a = some client.id)
    {members : List ConnectionId} (right : members.map lobby.id? = roster.map some) :
    (members.filter (· ≠ a)).map lobby.id? = (roster.filter (· ≠ client.id)).map some := by
  -- ids are distinct, so dropping the id is dropping the connection
  have sameTest : ∀ d ∈ members, decide (d ≠ a) = decide (lobby.id? d ≠ some client.id) := by
    intro d _
    rw [decide_eq_decide, not_iff_not]
    constructor
    · rintro rfl
      exact given
    · intro given'
      exact numbered.unique given' given
  calc (members.filter (· ≠ a)).map lobby.id?
      = (members.filter fun d => lobby.id? d ≠ some client.id).map lobby.id? := by
        rw [List.filter_congr sameTest]
    _ = (members.map lobby.id?).filter (· ≠ some client.id) := by
        rw [List.filter_map]; rfl
    _ = (roster.map some).filter (· ≠ some client.id) := by
        rw [right]
    _ = (roster.filter (· ≠ client.id)).map some := by
        rw [List.filter_map]
        congr 1
        exact List.filter_congr fun id _ => by simp

/-! ## One step -/

theorem tracks_opened (tracks : lobby.Tracks c roster) (consistent : lobby.Consistent)
    (outside : lobby.Outside a client) (inSpace : code.val < lobby.limits.codeSpace)
    (free : lobby.rooms[code]? = none) :
    (lobby.seat a code { code, host := a } (some code)).Tracks c
      (roster.hear c [.notify a (.roomCode code)]) := by
  have consistentAfter := consistent.opened outside inSpace free
  rw [Roster.hear_notify]
  split
  next same =>
    subst same
    apply tracks_seat consistentAfter
    · exact List.mem_singleton_self a
    · simp [Room.members, Roster.update]
  next different =>
    apply tracks.seat_elsewhere
    simpa [Room.members] using Ne.symm different

/-- A joiner takes the list that it is sent, and the members add the joiner. -/
theorem tracks_joined (tracks : lobby.Tracks c roster) (consistent : lobby.Consistent)
    (outside : lobby.Outside a client) (stored : lobby.rooms[code]? = some room) :
    (lobby.seat a code (room.addGuest a) (some code)).Tracks c
      (roster.hear c (Message.broadcast room.members (.memberJoined client.member) ++
        [.notify a (.roomMembers (lobby.roster room))])) := by
  have consistentAfter := consistent.joined outside stored
  have stranger := consistent.not_member (fun _ => outside.nowhere) stored
  rw [Roster.hear_append, Roster.hear_broadcast _ _ (consistent.members_nodup stored),
    Roster.hear_notify]
  by_cases same : a = c
  · -- the joiner: it was no member yet, so it hears nothing but the list
    subst same
    rw [if_pos rfl, Roster.update]
    apply tracks_seat consistentAfter
    · simp [room.members_addGuest]
    · have others : (room.addGuest a).members.filter (· ≠ a) = room.members := by
        rw [room.members_addGuest, List.filter_append, List.filter_cons_of_neg (by simp),
          List.filter_nil, List.append_nil]
        refine List.filter_eq_self.mpr fun d listed => ?_
        simpa using fun same : d = a => stranger (same ▸ listed)
      rw [others, ids_roster consistent stored]
  · rw [if_neg same]
    by_cases listed : c ∈ room.members
    · -- a member: the joiner stands behind those that it knows
      rw [if_pos listed, Roster.update]
      apply tracks_seat consistentAfter
      · simp [room.members_addGuest, listed]
      · rw [room.members_addGuest, List.filter_append, List.map_append,
          tracks code room stored listed, List.filter_cons_of_pos (by simpa using same),
          List.filter_nil, List.map_append]
        simp [id?_of_record outside.record, Client.member]
    · -- anybody else: nothing is heard and nothing has changed
      rw [if_neg listed]
      apply tracks.seat_elsewhere
      simp [room.members_addGuest, listed, Ne.symm same]

/-- The members that remain remove the guest that has left. -/
theorem tracks_left (tracks : lobby.Tracks c roster) (consistent : lobby.Consistent)
    (numbered : lobby.Numbered) (visits : lobby.Visits a client code room) :
    (lobby.seat a code (room.removeGuest a) none).Tracks c
      (roster.hear c
        (Message.broadcast (room.removeGuest a).members (.memberLeft client.id))) := by
  have consistentAfter := consistent.left visits
  have nodup := consistent.members_nodup visits.stored
  have members : (room.removeGuest a).members = room.members.filter (· ≠ a) := by
    rw [room.members_removeGuest a (visits.host_ne consistent), nodup.erase_eq_filter]
    refine List.filter_congr fun d _ => ?_
    by_cases same : d = a <;> simp [same]
  have nodupAfter : (room.removeGuest a).members.Nodup := by
    rw [members]
    exact nodup.filter _
  rw [Roster.hear_broadcast _ _ nodupAfter]
  split
  next listed =>
    apply tracks_seat consistentAfter listed
    have listedBefore : c ∈ room.members := by
      rw [members] at listed
      exact List.mem_of_mem_filter listed
    rw [members, List.filter_comm, Roster.update]
    exact ids_without numbered (id?_of_record visits.record)
      (tracks code room visits.stored listedBefore)
  next notListed => exact tracks.seat_elsewhere none notListed

/-- Whatever anybody does, a roster that was right is right after what it causes to
    be told. -/
theorem Step.tracks {operation : Operation} {outcome : Outcome (Answer Reply)}
    (step : Step lobby a operation outcome) (consistent : lobby.Consistent)
    (numbered : lobby.Numbered) (tracks : lobby.Tracks c roster) :
    outcome.lobby.Tracks c (roster.hear c outcome.messages) := by
  cases step with
  | declined => exact tracks
  | reconnect => exact tracks
  | enroll fresh =>
    rw [Roster.hear_notify, Roster.update, ite_self]
    exact tracks.enroll consistent fresh
  | absent => exact tracks
  | depart outside => exact tracks.forget consistent fun _ => outside.nowhere
  | departHost hosts =>
    -- the members are told and may keep their roster: they are in no room any more
    rw [Roster.hear_broadcast_silent _ _ _ fun _ => rfl]
    exact tracks.release.forget (consistent.release hosts.stored) fun _ record =>
      outside_after_release hosts.member record
  | departGuest visits =>
    exact (tracks_left tracks consistent numbered visits).forget (consistent.left visits)
      fun _ record => outside_after_seat record
  | rename record short => exact tracks.rename _
  | create outside spare inSpace free => exact tracks_opened tracks consistent outside inSpace free
  | join outside stored => exact tracks_joined tracks consistent outside stored
  | leave visits => exact tracks_left tracks consistent numbered visits
  | start hosts =>
    rw [Roster.hear_broadcast_silent _ _ _ fun _ => rfl]
    exact tracks
  | close hosts =>
    rw [Roster.hear_broadcast_silent _ _ _ fun _ => rfl]
    exact tracks.release
  | relayToGuests hosts =>
    rw [Roster.hear_silent]
    · exact tracks
    · intro message listed roster
      obtain ⟨r, -, rfl⟩ := List.mem_map.mp listed
      rfl
  | relayToHost visits =>
    rw [Roster.hear_silent]
    · exact tracks
    · intro message listed roster
      rw [List.mem_singleton.mp listed]
      rfl

end Steps

end Lobby

end Rendezvous

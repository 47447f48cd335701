import Rendezvous.Proofs.Lobby.Frame

/-! # The life of a room

A room can be told from the chronicle alone, without a look at the lobby: from when
somebody opens it until its host closes it or goes away, it has that host, nobody
else is given its code, and its guests are those that have joined since and not
gone away again, in the order of their latest join (`room_lifetimes`).

One operation is enough: what it does to an open room (`Step.room_after`) is what
its entry does to the list of visitors (`visitors_append`).
-/

namespace Rendezvous.Lobby

namespace Entry

def opens (entry : Entry) (code : RoomCode) : Bool :=
  match entry.answer, entry.operation with
  | .ok (.opened opened), .create => opened = code
  | _, _ => false

def joins (entry : Entry) (code : RoomCode) : Bool :=
  match entry.answer, entry.operation with
  | .ok _, .join joined => joined = code
  | _, _ => false

/-- Whether the connection left its room as a guest, or went away. -/
def departs (entry : Entry) : Bool :=
  match entry.answer, entry.operation with
  | .ok _, .leave | .ok _, .disconnect => true
  | _, _ => false

/-- Whether this host closed its room, or went away. -/
def ends (entry : Entry) (host : ConnectionId) : Bool :=
  match entry.answer, entry.operation with
  | .ok _, .close | .ok _, .disconnect => entry.connection = host
  | _, _ => false

/-- Whether a guest of the room is no more what it was: it joins anew, or departs. -/
def moves (entry : Entry) (code : RoomCode) : Bool := entry.joins code || entry.departs

end Entry

/-- Whether the connection became a guest of the room and, going by later entries, has
    not joined it again or gone away. -/
def Entry.lasts (entry : Entry) (code : RoomCode) (later : List Entry) : Bool :=
  entry.joins code && later.all fun other =>
    other.connection ≠ entry.connection || !other.moves code

/-- The connections that joined a room, in the order of their latest join, without
    those that left or went away after it. -/
def visitors (code : RoomCode) : List Entry → List ConnectionId
  | [] => []
  | entry :: later =>
    if entry.lasts code later then entry.connection :: visitors code later
    else visitors code later

/-- A room was opened under a code, and its host has neither closed it since nor gone
    away. -/
def OpenSince (chronicle : List Entry) (code : RoomCode) (host : ConnectionId)
    (since : List Entry) : Prop :=
  (∃ early, chronicle = early ++ ⟨host, .create, .ok (.opened code)⟩ :: since) ∧
    ∀ entry ∈ since, entry.ends host = false

namespace Entry

variable {entry : Entry} {code : RoomCode} {guests : List ConnectionId}

/-- What an entry makes of the guests of a room: who moves is no guest from before, and
    is the last one if it joins. -/
def change (entry : Entry) (code : RoomCode) (guests : List ConnectionId) : List ConnectionId :=
  guests.filter (fun d => entry.connection ≠ d || !entry.moves code) ++
    if entry.joins code then [entry.connection] else []

theorem change_of_not_joins (notJoins : entry.joins code = false)
    (stranger : entry.departs = true → entry.connection ∉ guests) :
    entry.change code guests = guests := by
  simp only [change, notJoins, moves, Bool.false_or, Bool.false_eq_true, if_false, List.append_nil]
  refine List.filter_eq_self.mpr fun d guest => ?_
  cases departs : entry.departs with
  | false => simp
  | true => simpa using fun same : entry.connection = d => stranger departs (same ▸ guest)

theorem change_of_joins (joins : entry.joins code = true)
    (stranger : entry.connection ∉ guests) :
    entry.change code guests = guests ++ [entry.connection] := by
  simp only [change, joins, if_true]
  congr 1
  refine List.filter_eq_self.mpr fun d guest => ?_
  simpa using .inl fun same : entry.connection = d => stranger (same ▸ guest)

theorem change_of_departs (notJoins : entry.joins code = false) (departs : entry.departs = true)
    (nodup : guests.Nodup) : entry.change code guests = guests.erase entry.connection := by
  rw [nodup.erase_eq_filter]
  simp only [change, notJoins, moves, departs, Bool.or_true, Bool.not_true, Bool.or_false,
    Bool.false_eq_true, if_false, List.append_nil]
  refine List.filter_congr fun d _ => ?_
  by_cases same : entry.connection = d
  · simp [same]
  · simp [same, Ne.symm same]

end Entry

section Chronicles

variable {chronicle since : List Entry} {entry : Entry} {code : RoomCode} {host : ConnectionId}

theorem visitors_append (code : RoomCode) (since : List Entry) (entry : Entry) :
    visitors code (since ++ [entry]) = entry.change code (visitors code since) := by
  induction since with
  | nil => simp [visitors, Entry.lasts, Entry.change]
  | cons first since inductionHypothesis =>
    have lasts : first.lasts code (since ++ [entry]) =
        (first.lasts code since &&
          (entry.connection ≠ first.connection || !entry.moves code)) := by
      simp [Entry.lasts, Bool.and_assoc]
    rw [List.cons_append, visitors, visitors, lasts, inductionHypothesis]
    cases first.lasts code since with
    | false => simp
    | true =>
      cases stays : entry.connection ≠ first.connection || !entry.moves code <;>
        simp_all [Entry.change]

/-- A guest that leaves and comes back is behind those that have stayed. -/
example :
    visitors ⟨7⟩ [⟨⟨2⟩, .join ⟨7⟩, .ok .done⟩, ⟨⟨3⟩, .join ⟨7⟩, .ok .done⟩,
      ⟨⟨2⟩, .leave, .ok .done⟩, ⟨⟨2⟩, .join ⟨7⟩, .ok .done⟩] = [⟨3⟩, ⟨2⟩] := by
  decide

theorem OpenSince.append (openSince : OpenSince chronicle code host since)
    (goesOn : entry.ends host = false) :
    OpenSince (chronicle ++ [entry]) code host (since ++ [entry]) := by
  obtain ⟨⟨early, rfl⟩, stays⟩ := openSince
  refine ⟨⟨early, by simp⟩, ?_⟩
  simpa [or_imp, forall_and] using ⟨stays, goesOn⟩

theorem OpenSince.of_append (openSince : OpenSince (chronicle ++ [entry]) code host since) :
    since = [] ∧ entry = ⟨host, .create, .ok (.opened code)⟩ ∨
      ∃ earlier, since = earlier ++ [entry] ∧ OpenSince chronicle code host earlier ∧
        entry.ends host = false := by
  obtain ⟨⟨early, same⟩, stays⟩ := openSince
  cases since using List.reverseRecOn with
  | nil =>
    obtain ⟨-, last⟩ := List.append_inj' same rfl
    exact .inl ⟨rfl, List.singleton_inj.mp last⟩
  | append_singleton earlier last =>
    rw [← List.cons_append, ← List.append_assoc] at same
    obtain ⟨before, lastEq⟩ := List.append_inj' same rfl
    cases lastEq
    simp only [List.mem_append, List.mem_singleton, or_imp, forall_and, forall_eq] at stays
    exact .inr ⟨earlier, rfl, ⟨⟨early, before⟩, stays.1⟩, stays.2⟩

end Chronicles

/-! ## One operation -/

section Steps

variable {lobby : Lobby} {c : ConnectionId} {operation : Operation}
  {outcome : Outcome (Answer Reply)} {code : RoomCode} {room : Room}

theorem Step.not_opens (step : Step lobby c operation outcome)
    (stored : lobby.rooms[code]? = some room) :
    Entry.opens ⟨c, operation, outcome.value⟩ code = false := by
  cases step with
  | @create client other after outside spare inSpace free =>
    have different : other ≠ code := by
      rintro rfl
      rw [free] at stored
      cases stored
    simpa [Entry.opens] using different
  | _ => rfl

theorem Hosts.code_ne {client : Client} {other : RoomCode} {found : Room}
    (hosts : lobby.Hosts c client other found) (stored : lobby.rooms[code]? = some room)
    (goesOn : c ≠ room.host) : code ≠ other := by
  rintro rfl
  rw [hosts.stored] at stored
  cases stored
  exact goesOn hosts.host_eq.symm

theorem Consistent.not_guest (consistent : lobby.Consistent) {other : RoomCode} {found : Room}
    (stored : lobby.rooms[code]? = some room) (storedOther : lobby.rooms[other]? = some found)
    (member : c ∈ found.members) (different : code ≠ other) : c ∉ room.guests := fun guest =>
  different (consistent.one_room stored (List.mem_cons_of_mem _ guest) storedOther member)

/-- An open room that is not closed keeps its host, and its guests change as the entry
    says. -/
theorem Step.room_after (step : Step lobby c operation outcome) (consistent : lobby.Consistent)
    (stored : lobby.rooms[code]? = some room) :
    let entry : Entry := ⟨c, operation, outcome.value⟩
    entry.ends room.host = false → outcome.lobby.rooms[code]? =
      some { room with guests := entry.change code room.guests } := by
  intro entry goesOn
  have kept : entry.joins code = false → (entry.departs = true → c ∉ room.guests) →
      some room = some { room with guests := entry.change code room.guests } := by
    intro notJoins stranger
    rw [Entry.change_of_not_joins notJoins stranger]
  cases step with
  | declined | reconnect | enroll | rename | start | relayToGuests | relayToHost =>
    exact stored.trans (kept rfl nofun)
  | absent absent =>
    refine stored.trans (kept rfl fun _ guest => ?_)
    obtain ⟨client, record⟩ := consistent.knows_member stored (List.mem_cons_of_mem _ guest)
    rw [absent] at record
    cases record
  | depart outside =>
    refine stored.trans (kept rfl fun _ guest => ?_)
    exact consistent.not_member (fun _ => outside.nowhere) stored (List.mem_cons_of_mem _ guest)
  | departHost hosts =>
    have different := hosts.code_ne stored (of_decide_eq_false goesOn)
    rw [rooms_forget, room_release, if_neg different, stored]
    exact kept rfl fun _ => consistent.not_guest stored hosts.stored hosts.member different
  | close hosts =>
    have different := hosts.code_ne stored (of_decide_eq_false goesOn)
    rw [room_release, if_neg different, stored]
    exact kept rfl nofun
  | @departGuest client other found visits | @leave client other found visits =>
    refine (room_seat lobby c other code (found.removeGuest c) none).trans ?_
    split
    next same =>
      subst same
      rw [visits.stored] at stored
      cases stored
      rw [Entry.change_of_departs rfl rfl (consistent.guests_nodup visits.stored)]
      rfl
    next different =>
      rw [stored]
      exact kept rfl fun _ => consistent.not_guest stored visits.stored visits.member different
  | @create client other after outside spare inSpace free =>
    have different : code ≠ other := by
      rintro rfl
      rw [free] at stored
      cases stored
    refine (room_seat lobby c other code { code := other, host := c } (some other)).trans ?_
    rw [if_neg different, stored]
    exact kept rfl nofun
  | @join client other found outside storedOther =>
    have stranger := consistent.not_member (fun _ => outside.nowhere) stored
    rw [room_seat]
    split
    next same =>
      subst same
      rw [storedOther] at stored
      cases stored
      rw [Entry.change_of_joins (by simp [entry, Entry.joins])
        fun guest => stranger (List.mem_cons_of_mem _ guest)]
      rfl
    next different =>
      rw [stored]
      exact kept (by simpa [entry, Entry.joins] using Ne.symm different) nofun

/-- A room that is open where none was is the new room of the connection. -/
theorem Step.opens_of_new (step : Step lobby c operation outcome)
    (closed : lobby.rooms[code]? = none) (stored : outcome.lobby.rooms[code]? = some room) :
    operation = .create ∧ outcome.value = .ok (.opened code) := by
  have open_before : ∀ {other : RoomCode} {found : Room} (place : Option RoomCode) (put : Room),
      lobby.rooms[other]? = some found →
        (lobby.seat c other put place).rooms[code]? ≠ some room := by
    intro other found place put storedOther storedAfter
    rw [room_seat] at storedAfter
    split at storedAfter
    next same => rw [← same, closed] at storedOther; cases storedOther
    next => rw [closed] at storedAfter; cases storedAfter
  have shut : ∀ (other : RoomCode) (found : Room),
      (lobby.release other found).rooms[code]? ≠ some room := by
    intro other found storedAfter
    rw [room_release, closed, ite_self] at storedAfter
    cases storedAfter
  cases step with
  | @departHost client other found | @close client other found =>
    exact absurd stored (shut other found)
  | @departGuest client other found visits | @leave client other found visits =>
    exact absurd stored (open_before none (found.removeGuest c) visits.stored)
  | join outside storedOther => exact absurd stored (open_before _ _ storedOther)
  | @create client other =>
    have same : code = other := by
      by_contra different
      have storedAfter : (lobby.seat c other { code := other, host := c } (some other)).rooms[code]? =
          some room := stored
      rw [room_seat, if_neg different, closed] at storedAfter
      cases storedAfter
    rw [same]
    exact ⟨rfl, rfl⟩
  | _ => exact absurd (closed.symm.trans stored) nofun

theorem Step.room_opened (step : Step lobby c .create outcome)
    (answer : outcome.value = .ok (.opened code)) :
    outcome.lobby.rooms[code]? = some { code, host := c } := by
  cases step with
  | declined => cases answer
  | create =>
    cases answer
    exact (room_seat lobby c code code { code, host := c } (some code)).trans (if_pos rfl)

theorem Entry.of_ends {entry : Entry} {host : ConnectionId} (ends : entry.ends host = true) :
    entry.connection = host ∧ entry.operation.closesRoom = true := by
  simp only [Entry.ends] at ends
  split at ends
  next operation => exact ⟨of_decide_eq_true ends, by rw [operation]; rfl⟩
  next operation => exact ⟨of_decide_eq_true ends, by rw [operation]; rfl⟩
  next => cases ends

end Steps

/-! ## Whole histories -/

/-- The chronicle of a history says of every code whether a room is open under it, and
    if so all about that room. -/
structure Chronicled (lobby : Lobby) (chronicle : List Entry) : Prop where
  room_eq : ∀ {code : RoomCode} {host : ConnectionId} {since : List Entry},
    OpenSince chronicle code host since → (∀ entry ∈ since, entry.opens code = false) ∧
      lobby.rooms[code]? = some { code, host, guests := visitors code since }
  openSince : ∀ {code : RoomCode} {room : Room}, lobby.rooms[code]? = some room →
    ∃ host since, OpenSince chronicle code host since

theorem Chronicled.append {lobby : Lobby} {chronicle : List Entry} {c : ConnectionId}
    {operation : Operation} {outcome : Outcome (Answer Reply)}
    (chronicled : lobby.Chronicled chronicle) (consistent : lobby.Consistent)
    (step : Step lobby c operation outcome) :
    outcome.lobby.Chronicled (chronicle ++ [⟨c, operation, outcome.value⟩]) := by
  constructor
  · intro code host since openSince
    cases openSince.of_append with
    | inl opened =>
      -- the room was opened just now
      obtain ⟨rfl, same⟩ := opened
      simp only [Entry.mk.injEq] at same
      obtain ⟨rfl, rfl, answer⟩ := same
      exact ⟨by simp, step.room_opened answer⟩
    | inr goesOn =>
      obtain ⟨earlier, rfl, before, stays⟩ := goesOn
      obtain ⟨unopened, stored⟩ := chronicled.room_eq before
      refine ⟨?_, by rw [step.room_after consistent stored stays, visitors_append]⟩
      simpa [or_imp, forall_and] using ⟨unopened, step.not_opens stored⟩
  · intro code room stored
    cases before : lobby.rooms[code]? with
    | none =>
      obtain ⟨rfl, answer⟩ := step.opens_of_new before stored
      exact ⟨c, [], ⟨chronicle, by rw [answer]⟩, by simp⟩
    | some found =>
      obtain ⟨host, since, openSince⟩ := chronicled.openSince before
      obtain ⟨-, same⟩ := chronicled.room_eq openSince
      rw [same] at before
      cases before
      refine ⟨host, _, openSince.append ?_⟩
      -- had the host ended the room, it would not be open
      rw [Bool.eq_false_iff]
      intro ends
      have closed := (step.closed_iff consistent same).mpr
        ⟨(Entry.of_ends ends).1.symm, (Entry.of_ends ends).2⟩
      rw [closed] at stored
      cases stored

theorem chronicled_after (limits : Limits) (draws : Draws)
    (history : List (ConnectionId × Operation)) :
    ((Lobby.empty limits draws).after history).Chronicled
      ((Lobby.empty limits draws).chronicle history) := by
  induction history using List.reverseRecOn with
  | nil =>
    constructor
    · rintro code host since ⟨⟨early, same⟩, -⟩
      simp [chronicle] at same
    · intro code room stored
      have noRoom : (Lobby.empty limits draws).rooms[code]? = none :=
        Std.ExtTreeMap.getElem?_empty
      rw [after, List.foldl_nil, noRoom] at stored
      cases stored
  | append_singleton history entry inductionHypothesis =>
    rw [after_append, chronicle_append]
    have consistent := consistent_after limits draws history
    exact inductionHypothesis.append consistent (perform_step consistent entry.1 entry.2)

theorem Outside.join_ok_iff {lobby : Lobby} {c : ConnectionId} {client : Client}
    (outside : lobby.Outside c client) (consistent : lobby.Consistent) (code : RoomCode) :
    (lobby.perform c (.join code)).value = .ok .done ↔ ∃ room, lobby.rooms[code]? = some room := by
  cases stored : lobby.rooms[code]? with
  | some room => simp [(Step.join outside stored).perform_eq consistent nofun]
  | none =>
    have declines : lobby.Declines c (.join code) (.invalidRoomCode code) :=
      .noSuchRoom outside stored
    simp [declines.perform_eq consistent]

/-- A room is open under a code exactly if somebody was given the code and has, since
    the last time that anybody was, neither closed the room nor gone away.  Until then
    nobody else is given the code, the room has the same host, and its guests are
    those that have joined and not gone away after it, in the order of their latest
    join.  Who is in no room can join exactly the rooms that are open. -/
theorem room_lifetimes (limits : Limits) (draws : Draws)
    (history : List (ConnectionId × Operation)) (code : RoomCode) :
    let lobby := (Lobby.empty limits draws).after history
    let chronicle := (Lobby.empty limits draws).chronicle history
    ((∃ room, lobby.rooms[code]? = some room) ↔
        ∃ host since, OpenSince chronicle code host since ∧
          ∀ entry ∈ since, entry.opens code = false) ∧
      (∀ host since, OpenSince chronicle code host since →
        (∀ entry ∈ since, entry.opens code = false) ∧
          lobby.rooms[code]? = some { code, host, guests := visitors code since }) ∧
      ∀ c client, lobby.directory.get? c = some client → client.room = none →
        ((lobby.perform c (.join code)).value = .ok .done ↔
          ∃ room, lobby.rooms[code]? = some room) := by
  intro lobby chronicle
  have chronicled : lobby.Chronicled chronicle := chronicled_after limits draws history
  refine ⟨⟨?_, ?_⟩, fun host since => chronicled.room_eq, ?_⟩
  · rintro ⟨room, stored⟩
    obtain ⟨host, since, openSince⟩ := chronicled.openSince stored
    exact ⟨host, since, openSince, (chronicled.room_eq openSince).1⟩
  · rintro ⟨host, since, openSince, -⟩
    exact ⟨_, (chronicled.room_eq openSince).2⟩
  · intro c client record outside
    exact Outside.join_ok_iff ⟨record, outside⟩ (consistent_after limits draws history) code

end Rendezvous.Lobby

import Rendezvous.Proofs.Session.Log

/-! # One action at an endpoint

Whatever is done at an endpoint, and by whom, it means one of seven things for a given
connection, and `Turn` lists them: a peer is admitted under the number; or the number is
nobody's and nothing happens; or it is somebody's and packets are taken at most, or handed
over at most, or the link is shut, or it has been shut before, or the peer parts.  Each
comes with what is raised and with what is held for the peer then (`perform_turn`), so that
no later proof looks into an endpoint.

What concerns no connection in particular is in `perform_effect`.
-/

namespace Rendezvous.Session

open Rendezvous.Wire (Bytes)

/-! ## What the writers hand over -/

theorem flatMap_of_absent {c : ConnectionId} {links : List (ConnectionId × Link)}
    (absent : ∀ link, (c, link) ∉ links) :
    (links.flatMap fun entry => if entry.1 = c then entry.2.waiting else []) = [] := by
  rw [List.flatMap_eq_nil_iff]
  rintro ⟨d, link⟩ listed
  rw [if_neg]
  rintro rfl
  exact absent link listed

theorem flatMap_of_distinct {c : ConnectionId} {links : List (ConnectionId × Link)}
    {link : Link} (distinct : links.Pairwise fun a b => a.1 ≠ b.1) (listed : (c, link) ∈ links) :
    (links.flatMap fun entry => if entry.1 = c then entry.2.waiting else []) = link.waiting := by
  induction links with
  | nil => cases listed
  | cons entry links inductionHypothesis =>
    obtain ⟨others, distinct⟩ := List.pairwise_cons.mp distinct
    rw [List.flatMap_cons]
    obtain same | listed := List.mem_cons.mp listed
    · subst same
      have absent : ∀ link, (c, link) ∉ links := fun link listed => others _ listed rfl
      rw [if_pos rfl, flatMap_of_absent absent, List.append_nil]
    · rw [if_neg (others _ listed), inductionHypothesis distinct listed, List.nil_append]

namespace Endpoint

variable {endpoint : Endpoint} {c : ConnectionId}

theorem handed_deliveries (endpoint : Endpoint) (c : ConnectionId) :
    endpoint.deliveries.flatMap (Observation.handed c) = waitingAt endpoint.links[c]? := by
  -- a link with nothing waiting makes no delivery, nor would it add anything to one
  have all : endpoint.deliveries.flatMap (Observation.handed c) =
      endpoint.links.toList.flatMap fun entry => if entry.1 = c then entry.2.waiting else [] := by
    rw [deliveries, List.flatMap_map]
    induction endpoint.links.toList with
    | nil => rfl
    | cons entry links inductionHypothesis =>
      rw [List.flatMap_cons, ← inductionHypothesis]
      by_cases empty : entry.2.waiting = []
      · rw [List.filter_cons_of_neg (by simpa using empty), empty, ite_self, List.nil_append]
      · rw [List.filter_cons_of_pos (by simpa using empty), List.flatMap_cons]
        rfl
  rw [all]
  cases stored : endpoint.links[c]? with
  | none =>
    refine flatMap_of_absent fun link listed => ?_
    rw [Std.ExtTreeMap.mem_toList_iff_getElem?_eq_some, stored] at listed
    cases listed
  | some link =>
    refine flatMap_of_distinct ?_ (Std.ExtTreeMap.mem_toList_iff_getElem?_eq_some.mpr stored)
    refine Std.ExtTreeMap.distinct_keys_toList.imp fun different same => ?_
    exact different (Std.compare_eq_iff_eq.mpr same)

theorem handed_farewells (endpoint : Endpoint) (c : ConnectionId) :
    endpoint.farewells.flatMap (Observation.handed c) = [] := by
  rw [farewells, List.flatMap_map]
  exact List.flatMap_eq_nil_iff.mpr fun _ _ => rfl

theorem of_mem_outgoing {seen : Observation}
    (listed : seen ∈ endpoint.deliveries ++ endpoint.farewells) :
    (∃ d packets, seen = .delivered d packets) ∨ ∃ d, seen = .hungUp d := by
  rw [List.mem_append, deliveries, farewells, List.mem_map, List.mem_map] at listed
  obtain ⟨entry, -, rfl⟩ | ⟨entry, -, rfl⟩ := listed
  · exact .inl ⟨_, _, rfl⟩
  · exact .inr ⟨_, rfl⟩

theorem raised_outgoing (endpoint : Endpoint) :
    (endpoint.deliveries ++ endpoint.farewells).filterMap Observation.raised? = [] := by
  refine List.filterMap_eq_nil_iff.mpr fun seen listed => ?_
  obtain ⟨d, packets, rfl⟩ | ⟨d, rfl⟩ := of_mem_outgoing listed <;> rfl

theorem polled_outgoing (endpoint : Endpoint) :
    (endpoint.deliveries ++ endpoint.farewells).flatMap Observation.surfaced = [] := by
  refine List.flatMap_eq_nil_iff.mpr fun seen listed => ?_
  obtain ⟨d, packets, rfl⟩ | ⟨d, rfl⟩ := of_mem_outgoing listed <;> rfl

end Endpoint

/-! ## One action -/

/-- What an action means for one connection: what is held for its peer before, nothing if
    there is none, the entry of the action, and what is held then. -/
inductive Turn (c : ConnectionId) : Option Link → Entry → Option Link → Prop
  -- whatever was held for a peer that had the number before is gone
  | admitted {before : Option Link} {peer : String} {request : Admission.UpgradeRequest} :
      Turn c before ⟨.dial peer request, [.handshake (.admitted c), .event (.connected c peer)]⟩
        (some (.writable []))
  | absent {entry : Entry} :
      entry.peer? c = none → entry.events c = [] → entry.accepted c = [] →
        entry.delivered c = [] → Turn c none entry none
  | kept {entry : Entry} {waiting : List Bytes} :
      entry.peer? c = none → entry.action.settles = false → entry.action.parts c = false →
        entry.action.shuts c = false → entry.events c = entry.action.raises c →
          entry.delivered c = [] →
            (waiting ++ entry.accepted c).length ≤ max waiting.length queueCapacity →
              Turn c (some (.writable waiting)) entry
                (some (.writable (waiting ++ entry.accepted c)))
  | written {entry : Entry} {waiting rest : List Bytes} :
      entry.peer? c = none → entry.action.parts c = false → entry.action.shuts c = false →
        entry.events c = entry.action.raises c → entry.accepted c = [] →
          waiting = entry.delivered c ++ rest → (entry.action.settles = true → rest = []) →
            Turn c (some (.writable waiting)) entry (some (.writable rest))
  | shut {entry : Entry} {waiting : List Bytes} :
      entry.peer? c = none → entry.action.parts c = false → entry.action.shuts c = true →
        entry.events c = entry.action.raises c → entry.accepted c = [] →
          entry.delivered c <+: waiting →
            Turn c (some (.writable waiting)) entry (some .shut)
  | shutBefore {entry : Entry} :
      entry.peer? c = none → entry.action.parts c = false →
        entry.events c = entry.action.raises c → entry.accepted c = [] →
          entry.delivered c = [] → Turn c (some .shut) entry (some .shut)
  | parted {entry : Entry} {link : Link} :
      entry.peer? c = none → entry.action.parts c = true →
        entry.events c = entry.action.raises c → entry.accepted c = [] →
          entry.delivered c = [] → Turn c (some link) entry none

section Unchanged

variable {c : ConnectionId} {link? : Option Link} {entry : Entry}

/-- Nothing is sent, taken or handed over, but perhaps something is raised. -/
theorem Turn.told (stranger : entry.peer? c = none) (waits : entry.action.settles = false)
    (stays : entry.action.parts c = false) (goesOn : entry.action.shuts c = false)
    (events : entry.events c = if link?.isSome then entry.action.raises c else [])
    (accepted : entry.accepted c = []) (delivered : entry.delivered c = []) :
    Turn c link? entry link? := by
  cases link? with
  | none => exact .absent stranger events accepted delivered
  | some link =>
    cases link with
    | shut => exact .shutBefore stranger stays events accepted delivered
    | writable waiting =>
      have turn : Turn c (some (.writable waiting)) entry
          (some (.writable (waiting ++ entry.accepted c))) := by
        refine .kept stranger waits stays goesOn events delivered ?_
        rw [accepted, List.append_nil]
        exact Nat.le_max_left ..
      rwa [accepted, List.append_nil] at turn

theorem Turn.unchanged (stranger : entry.peer? c = none) (waits : entry.action.settles = false)
    (stays : entry.action.parts c = false) (goesOn : entry.action.shuts c = false)
    (silent : entry.action.raises c = []) (events : entry.events c = [])
    (accepted : entry.accepted c = []) (delivered : entry.delivered c = []) :
    Turn c link? entry link? :=
  .told stranger waits stays goesOn (by rw [events, silent, ite_self]) accepted delivered

end Unchanged

theorem Turn.stranger_or_admitted {c : ConnectionId} {before after : Option Link} {entry : Entry}
    (turn : Turn c before entry after) :
    entry.peer? c = none ∨ ∃ peer request, after = some (.writable []) ∧
      entry = ⟨.dial peer request, [.handshake (.admitted c), .event (.connected c peer)]⟩ := by
  cases turn with
  | admitted => exact .inr ⟨_, _, rfl, rfl⟩
  | absent other | kept other | written other | shut other | shutBefore other | parted other =>
    exact .inl other

/-- Links that are shut stay shut, unless the number is given to somebody else. -/
theorem Turn.shut_after {c : ConnectionId} {before after : Option Link} {entry : Entry}
    (turn : Turn c before entry after) (stranger : entry.peer? c = none)
    (shut : ∀ link ∈ before, link = .shut) : ∀ link ∈ after, link = .shut := by
  intro link stored
  cases turn with
  | admitted => simp [Entry.peer?, Entry.admission?] at stranger
  | absent | parted => cases stored
  | kept | written | shut => cases shut _ rfl
  | shutBefore => exact (Option.some.inj stored).symm

namespace Endpoint

/-- An endpoint that has stopped sends nothing to anybody. -/
def Sound (endpoint : Endpoint) : Prop :=
  endpoint.stopped = true → ∀ (c : ConnectionId), ∀ link ∈ endpoint.links[c]?, link = .shut

variable {endpoint : Endpoint} {c d : ConnectionId}

theorem contains_eq (endpoint : Endpoint) (c : ConnectionId) :
    endpoint.links.contains c = endpoint.links[c]?.isSome :=
  Std.ExtTreeMap.contains_eq_isSome_getElem?

theorem dial_turn (endpoint : Endpoint) (c : ConnectionId) (peer : String)
    (request : Admission.UpgradeRequest) :
    Turn c endpoint.links[c]? ⟨.dial peer request, (endpoint.dial peer request).1⟩
      (endpoint.dial peer request).2.links[c]? := by
  rw [dial]
  split
  · exact .unchanged rfl rfl rfl rfl rfl rfl rfl rfl
  split
  next =>
    simp only [raise, Std.ExtTreeMap.getElem?_insert, Std.compare_eq_iff_eq]
    generalize (⟨UInt64.ofNat (endpoint.admitted + 1)⟩ : ConnectionId) = fresh
    split
    next same =>
      rw [same]
      exact .admitted
    next other =>
      have elsewhere : some fresh ≠ some c := fun same => other (Option.some.inj same)
      refine .unchanged ?_ rfl rfl rfl rfl (Entry.events_elsewhere rfl elsewhere) rfl rfl
      simp [Entry.peer?, Entry.admission?, other]
  next => exact .unchanged rfl rfl rfl rfl rfl rfl rfl rfl

theorem acceptFails_turn (endpoint : Endpoint) (c : ConnectionId) (cause : String) :
    Turn c endpoint.links[c]? ⟨.acceptFails cause, (endpoint.acceptFails cause).1⟩
      (endpoint.acceptFails cause).2.links[c]? := by
  rw [acceptFails]
  split
  · exact .unchanged rfl rfl rfl rfl rfl rfl rfl rfl
  · exact .unchanged rfl rfl rfl rfl rfl (Entry.events_elsewhere rfl nofun) rfl rfl

theorem raised_frame (endpoint : Endpoint) (d : ConnectionId) (sent : Frame) :
    Entry.raised ⟨.frame d sent, (endpoint.frame d sent).1⟩ =
      if endpoint.links[d]?.isSome then
        sent.data?.toList.map fun data => .received d data .reliableOrdered
      else [] := by
  rw [frame.eq_def]
  cases endpoint.links[d]? with
  | none => rfl
  | some link => cases link <;> cases sent <;> rfl

theorem about_received (c d : ConnectionId) (packets : List Bytes) (mode : DeliveryMode) :
    about c (packets.map fun data => .received d data mode) =
      if d = c then packets.map fun data => .received d data mode else [] := by
  have happens : ∀ event ∈ packets.map fun data => Event.received d data mode,
      event.connection? = some d := by
    rintro event listed
    obtain ⟨data, -, rfl⟩ := List.mem_map.mp listed
    rfl
  split
  next same =>
    subst same
    exact List.filter_eq_self.mpr fun event listed => decide_eq_true (happens event listed)
  next other =>
    refine List.filter_eq_nil_iff.mpr fun event listed found => ?_
    rw [decide_eq_true_eq, happens event listed] at found
    exact other (Option.some.inj found)

theorem frame_turn (endpoint : Endpoint) (c d : ConnectionId) (sent : Frame) :
    Turn c endpoint.links[c]? ⟨.frame d sent, (endpoint.frame d sent).1⟩
      (endpoint.frame d sent).2.links[c]? := by
  have links : (endpoint.frame d sent).2.links = endpoint.links := by
    rw [frame.eq_def]
    split <;> rfl
  have delivered : Entry.delivered ⟨.frame d sent, (endpoint.frame d sent).1⟩ c = [] := by
    rw [frame.eq_def]
    split <;> rfl
  rw [links]
  refine .told rfl rfl rfl rfl ?_ rfl delivered
  rw [Entry.events, raised_frame, Action.raises]
  by_cases same : d = c
  · subst same
    rw [if_pos rfl]
    split
    · exact (about_received d d ..).trans (if_pos rfl)
    · rfl
  · rw [if_neg same, ite_self]
    split
    · exact (about_received c d ..).trans (if_neg same)
    · rfl

theorem part_turn (endpoint : Endpoint) (c d : ConnectionId) (how : Parting) :
    Turn c endpoint.links[c]? ⟨.part d how, (endpoint.part d how).1⟩
      (endpoint.part d how).2.links[c]? := by
  rw [part, contains_eq]
  by_cases same : d = c
  · subst same
    cases stored : endpoint.links[d]? with
    | none =>
      rw [Option.isSome_none, if_neg Bool.false_ne_true, stored]
      exact .absent rfl rfl rfl rfl
    | some link =>
      rw [Option.isSome_some, if_pos rfl]
      simp only [raise, Std.ExtTreeMap.getElem?_erase, Std.compare_eq_iff_eq, if_true]
      refine .parted rfl (decide_eq_true rfl) ?_ rfl rfl
      rw [Action.raises, if_pos rfl]
      exact Entry.events_here rfl rfl
  · have stays : (Action.part d how).parts c = false := decide_eq_false same
    have elsewhere : some d ≠ some c := fun found => same (Option.some.inj found)
    split
    · simp only [raise, Std.ExtTreeMap.getElem?_erase, Std.compare_eq_iff_eq, if_neg same]
      exact .unchanged rfl rfl stays rfl (if_neg same) (Entry.events_elsewhere rfl elsewhere) rfl
        rfl
    · exact .unchanged rfl rfl stays rfl (if_neg same) rfl rfl rfl

theorem fail_turn (endpoint : Endpoint) (c d : ConnectionId) :
    Turn c endpoint.links[c]? ⟨.fail d, []⟩ (endpoint.fail d).links[c]? := by
  rw [fail, contains_eq]
  by_cases same : d = c
  · subst same
    cases stored : endpoint.links[d]? with
    | none =>
      rw [Option.isSome_none, if_neg Bool.false_ne_true, stored]
      exact .absent rfl rfl rfl rfl
    | some link =>
      rw [Option.isSome_some, if_pos rfl]
      simp only [Std.ExtTreeMap.getElem?_insert, Std.compare_eq_iff_eq, if_true]
      cases link with
      | shut => exact .shutBefore rfl rfl rfl rfl rfl
      | writable waiting => exact .shut rfl rfl (decide_eq_true rfl) rfl rfl List.nil_prefix
  · have goesOn : (Action.fail d).shuts c = false := decide_eq_false same
    split
    · simp only [Std.ExtTreeMap.getElem?_insert, Std.compare_eq_iff_eq, if_neg same]
      exact .unchanged rfl rfl rfl goesOn rfl rfl rfl rfl
    · exact .unchanged rfl rfl rfl goesOn rfl rfl rfl rfl

theorem send_turn (endpoint : Endpoint) (c d : ConnectionId) (data : Bytes)
    (mode : DeliveryMode) :
    Turn c endpoint.links[c]? ⟨.send d data mode, [.sent d (endpoint.send d data mode).1]⟩
      (endpoint.send d data mode).2.links[c]? := by
  rw [send]
  split
  · exact .unchanged rfl rfl rfl rfl rfl rfl rfl rfl
  split
  · exact .unchanged rfl rfl rfl rfl rfl rfl rfl rfl
  · exact .unchanged rfl rfl rfl rfl rfl rfl rfl rfl
  next waiting stored =>
  split
  · exact .unchanged rfl rfl rfl rfl rfl rfl rfl rfl
  simp only [Std.ExtTreeMap.getElem?_insert, Std.compare_eq_iff_eq]
  split
  next same =>
    subst same
    have taken : Entry.accepted ⟨.send d data mode, [.sent d none]⟩ d = [data] := if_pos rfl
    rw [stored, ← taken]
    refine .kept rfl rfl rfl rfl rfl rfl ?_
    rw [taken, List.length_append, List.length_singleton]
    omega
  next other => exact .unchanged rfl rfl rfl rfl rfl rfl (if_neg other) rfl

theorem write_turn (endpoint : Endpoint) (c d : ConnectionId) (count : Nat) :
    Turn c endpoint.links[c]? ⟨.write d count, (endpoint.write d count).1⟩
      (endpoint.write d count).2.links[c]? := by
  rw [write]
  split
  · exact .unchanged rfl rfl rfl rfl rfl rfl rfl rfl
  · exact .unchanged rfl rfl rfl rfl rfl rfl rfl rfl
  next waiting stored =>
  have handed : Entry.delivered ⟨.write d count, [.delivered d (waiting.take count)]⟩ c =
      if d = c then waiting.take count else [] := List.append_nil _
  simp only [Std.ExtTreeMap.getElem?_insert, Std.compare_eq_iff_eq]
  split
  next same =>
    subst same
    rw [if_pos rfl] at handed
    rw [stored]
    refine .written rfl rfl rfl rfl rfl ?_ fun settles => Bool.noConfusion settles
    rw [handed, List.take_append_drop]
  next other =>
    rw [if_neg other] at handed
    exact .unchanged rfl rfl rfl rfl rfl rfl rfl handed

theorem settle_turn (endpoint : Endpoint) (c : ConnectionId) :
    Turn c endpoint.links[c]? ⟨.settle, endpoint.settle.1⟩ endpoint.settle.2.links[c]? := by
  have silent := endpoint.raised_outgoing
  rw [List.filterMap_append, List.append_eq_nil_iff] at silent
  have events : Entry.events ⟨.settle, endpoint.deliveries⟩ c = [] := by
    rw [Entry.events, Entry.raised, silent.1]
    rfl
  have delivered := endpoint.handed_deliveries c
  simp only [settle, Std.ExtTreeMap.getElem?_map]
  cases stored : endpoint.links[c]? with
  | none =>
    rw [stored] at delivered
    exact .absent rfl events rfl delivered
  | some link =>
    rw [stored] at delivered
    cases link with
    | shut => exact .shutBefore rfl rfl events rfl delivered
    | writable waiting =>
      refine .written rfl rfl rfl events rfl ?_ fun _ => rfl
      rw [Entry.delivered, delivered, List.append_nil]
      rfl

theorem poll_turn (endpoint : Endpoint) (c : ConnectionId) :
    Turn c endpoint.links[c]? ⟨.poll, [.polled endpoint.poll.1]⟩ endpoint.poll.2.links[c]? := by
  have links : endpoint.poll.2.links = endpoint.links := by
    rw [poll]
    split
    · rfl
    split <;> rfl
  rw [links]
  exact .unchanged rfl rfl rfl rfl rfl rfl rfl rfl

theorem delivered_stop (sound : endpoint.Sound) (c : ConnectionId) :
    Entry.delivered ⟨.stop, endpoint.stop.1⟩ c = waitingAt endpoint.links[c]? := by
  rw [stop]
  split
  next stopped =>
    cases stored : endpoint.links[c]? with
    | none => rfl
    | some link =>
      obtain rfl := sound stopped c link stored
      rfl
  next =>
    rw [Entry.delivered, List.flatMap_append, handed_deliveries, handed_farewells, List.append_nil]

theorem events_stop (endpoint : Endpoint) (c : ConnectionId) :
    Entry.events ⟨.stop, endpoint.stop.1⟩ c = [] := by
  rw [stop]
  split
  · rfl
  · rw [Entry.events, Entry.raised, raised_outgoing]
    rfl

theorem links_stop (sound : endpoint.Sound) (c : ConnectionId) :
    endpoint.stop.2.links[c]? = endpoint.links[c]?.map fun _ => .shut := by
  rw [stop]
  split
  next stopped =>
    cases stored : endpoint.links[c]? with
    | none => rfl
    | some link => rw [sound stopped c link stored, Option.map_some]
  next => exact Std.ExtTreeMap.getElem?_map

theorem stop_turn (sound : endpoint.Sound) (c : ConnectionId) :
    Turn c endpoint.links[c]? ⟨.stop, endpoint.stop.1⟩ endpoint.stop.2.links[c]? := by
  have delivered := delivered_stop sound c
  have events := endpoint.events_stop c
  rw [links_stop sound c]
  cases stored : endpoint.links[c]? with
  | none =>
    rw [stored] at delivered
    exact .absent rfl events rfl delivered
  | some link =>
    rw [stored] at delivered
    cases link with
    | shut => exact .shutBefore rfl rfl events rfl delivered
    | writable waiting => exact .shut rfl rfl rfl events rfl (delivered ▸ List.prefix_rfl)

theorem perform_turn (sound : endpoint.Sound) (c : ConnectionId) (action : Action) :
    Turn c endpoint.links[c]? ⟨action, (endpoint.perform action).1⟩
      (endpoint.perform action).2.links[c]? := by
  cases action with
  | dial peer request => exact endpoint.dial_turn c peer request
  | acceptFails cause => exact endpoint.acceptFails_turn c cause
  | frame d sent => exact endpoint.frame_turn c d sent
  | part d how => exact endpoint.part_turn c d how
  | fail d => exact endpoint.fail_turn c d
  | send d data mode => exact endpoint.send_turn c d data mode
  | write d count => exact endpoint.write_turn c d count
  | settle => exact endpoint.settle_turn c
  | poll => exact endpoint.poll_turn c
  | stop => exact stop_turn sound c

/-! ## What an endpoint knows of its past -/

/-- What an action does to an endpoint and to no link in particular. -/
inductive Effect (endpoint : Endpoint) : Action → List Observation → Endpoint → Prop
  | admitted {peer : String} {request : Admission.UpgradeRequest}
      {links : Std.ExtTreeMap ConnectionId Link} {event : Event} :
      event = .connected (number (endpoint.admitted + 1)) peer →
        Effect endpoint (.dial peer request)
          [.handshake (.admitted (number (endpoint.admitted + 1))), .event event]
          { endpoint with
            links, admitted := endpoint.admitted + 1, pending := endpoint.pending ++ [event] }
  | raised {action : Action} {links : Std.ExtTreeMap ConnectionId Link} {event : Event} :
      action ≠ .stop → Effect endpoint action [.event event]
        { endpoint with links, pending := endpoint.pending ++ [event] }
  | silent {action : Action} {seen : List Observation}
      {links : Std.ExtTreeMap ConnectionId Link} :
      action ≠ .stop → Entry.admission? ⟨action, seen⟩ = none → Entry.raised ⟨action, seen⟩ = [] →
        Entry.polled ⟨action, seen⟩ = [] → Effect endpoint action seen { endpoint with links }
  | polled {events : Option (List Event)} {pending : List Event} :
      endpoint.pending = events.getD [] ++ pending →
        (endpoint.stopped = true → events = some []) →
          Effect endpoint .poll [.polled events] { endpoint with pending }
  | stopped {seen : List Observation} {links : Std.ExtTreeMap ConnectionId Link} :
      Entry.raised ⟨.stop, seen⟩ = [] → Entry.polled ⟨.stop, seen⟩ = [] →
        Effect endpoint .stop seen { endpoint with links, stopped := true }

theorem perform_effect (endpoint : Endpoint) (action : Action) :
    Effect endpoint action (endpoint.perform action).1 (endpoint.perform action).2 := by
  have raised := endpoint.raised_outgoing
  have polled := endpoint.polled_outgoing
  cases action with
  | dial peer request =>
    rw [perform, dial]
    split
    · exact .silent nofun rfl rfl rfl
    split
    · exact .admitted rfl
    · exact .silent nofun rfl rfl rfl
  | acceptFails cause =>
    rw [perform, acceptFails]
    split
    · exact .silent nofun rfl rfl rfl
    · exact .raised nofun
  | frame d sent =>
    rw [perform, frame.eq_def]
    split
    · exact .silent nofun rfl rfl rfl
    · exact .silent nofun rfl rfl rfl
    · exact .raised nofun
    · exact .raised nofun
    · exact .silent nofun rfl rfl rfl
  | part d how =>
    rw [perform, part]
    split
    · exact .raised nofun
    · exact .silent nofun rfl rfl rfl
  | fail d =>
    rw [perform, fail]
    split <;> exact .silent nofun rfl rfl rfl
  | send d data mode =>
    rw [perform]
    dsimp only
    rw [send]
    split
    · exact .silent nofun rfl rfl rfl
    split
    · exact .silent nofun rfl rfl rfl
    · exact .silent nofun rfl rfl rfl
    · split <;> exact .silent nofun rfl rfl rfl
  | write d count =>
    rw [perform, write]
    split <;> exact .silent nofun rfl rfl rfl
  | settle =>
    rw [List.filterMap_append, List.append_eq_nil_iff] at raised
    rw [List.flatMap_append, List.append_eq_nil_iff] at polled
    exact .silent nofun rfl raised.1 polled.1
  | poll =>
    rw [perform]
    dsimp only
    rw [poll]
    split
    · exact .polled rfl fun _ => rfl
    next goesOn =>
    split
    · exact .polled rfl fun stopped => absurd stopped goesOn
    · exact .polled (List.take_append_drop ..).symm fun stopped => absurd stopped goesOn
  | stop =>
    rw [perform, stop]
    split
    next stopped =>
      have same : { endpoint with links := endpoint.links, stopped := true } = endpoint := by
        rw [← stopped]
      have effect : Effect endpoint .stop []
          { endpoint with links := endpoint.links, stopped := true } := .stopped rfl rfl
      rwa [same] at effect
    next => exact .stopped raised polled

section Effect

variable {action : Action} {seen : List Observation} {next : Endpoint}

theorem Effect.stopped_eq (effect : Effect endpoint action seen next) :
    next.stopped = (endpoint.stopped || action = .stop) := by
  cases effect with
  | admitted | polled => exact (Bool.or_false _).symm
  | raised other | silent other => rw [decide_eq_false other, Bool.or_false]
  | stopped => exact (Bool.or_true _).symm

theorem Effect.kept (effect : Effect endpoint action seen next) :
    next.key = endpoint.key ∧ next.reachable = endpoint.reachable := by
  cases effect <;> exact ⟨rfl, rfl⟩

theorem Effect.admission (effect : Effect endpoint action seen next) :
    (Entry.admission? ⟨action, seen⟩ = none ∧ next.admitted = endpoint.admitted) ∨
      ∃ peer, Entry.admission? ⟨action, seen⟩ = some (number (endpoint.admitted + 1), peer) ∧
        next.admitted = endpoint.admitted + 1 := by
  cases effect with
  | admitted => exact .inr ⟨_, rfl, rfl⟩
  | raised => cases action <;> exact .inl ⟨rfl, rfl⟩
  | silent _ other => exact .inl ⟨other, rfl⟩
  | polled | stopped => exact .inl ⟨rfl, rfl⟩

end Effect

theorem stopped_after (endpoint : Endpoint) (actions : List Action) :
    (endpoint.after actions).stopped = true ↔ endpoint.stopped = true ∨ .stop ∈ actions := by
  induction actions generalizing endpoint with
  | nil => simp [after]
  | cons action actions inductionHypothesis =>
    have later := inductionHypothesis (endpoint.perform action).2
    rw [(endpoint.perform_effect action).stopped_eq, Bool.or_eq_true, decide_eq_true_eq] at later
    rw [List.mem_cons, eq_comm (a := Action.stop), ← or_assoc, ← later]
    rfl

theorem kept_after (endpoint : Endpoint) (actions : List Action) :
    (endpoint.after actions).key = endpoint.key ∧
      (endpoint.after actions).reachable = endpoint.reachable := by
  refine List.foldlRecOn (motive := fun next : Endpoint => next.key = endpoint.key ∧
    next.reachable = endpoint.reachable) actions _ ⟨rfl, rfl⟩ fun next same action _ => ?_
  have kept := (next.perform_effect action).kept
  exact ⟨kept.1.trans same.1, kept.2.trans same.2⟩

/-- Peers that are admitted are numbered in order. -/
theorem admissions_log (endpoint : Endpoint) (actions : List Action) :
    (admissions (endpoint.log actions)).map Prod.fst =
        (List.range' (endpoint.admitted + 1) (admissions (endpoint.log actions)).length).map
          number ∧
      (endpoint.after actions).admitted =
        endpoint.admitted + (admissions (endpoint.log actions)).length := by
  induction actions generalizing endpoint with
  | nil => exact ⟨rfl, rfl⟩
  | cons action actions inductionHypothesis =>
    obtain ⟨numbered, counted⟩ := inductionHypothesis (endpoint.perform action).2
    have later : (endpoint.after (action :: actions)).admitted =
        ((endpoint.perform action).2.after actions).admitted := rfl
    rw [later, counted, admissions, log]
    obtain ⟨other, same⟩ | ⟨peer, admitted, one⟩ := (endpoint.perform_effect action).admission
    · rw [List.filterMap_cons_none other]
      rw [same] at numbered ⊢
      exact ⟨numbered, rfl⟩
    · rw [List.filterMap_cons_some admitted, List.length_cons, List.map_cons, List.range'_succ,
        List.map_cons]
      rw [one] at numbered ⊢
      exact ⟨congrArg _ numbered, by rw [admissions]; omega⟩

theorem peer?_of_stopped (stopped : endpoint.stopped = true) (c : ConnectionId)
    (action : Action) : Entry.peer? ⟨action, (endpoint.perform action).1⟩ c = none := by
  cases action with
  | dial peer request =>
    rw [perform, dial, if_pos (.inl stopped)]
    rfl
  | _ => rfl

theorem Sound.perform (sound : endpoint.Sound) (action : Action) :
    (endpoint.perform action).2.Sound := by
  intro stopped c
  rw [(endpoint.perform_effect action).stopped_eq, Bool.or_eq_true, decide_eq_true_eq] at stopped
  by_cases before : endpoint.stopped = true
  · exact (perform_turn sound c action).shut_after (peer?_of_stopped before c action)
      (sound before c)
  · obtain rfl := stopped.resolve_left before
    have links := links_stop sound c
    intro link stored
    rw [Option.mem_def, Endpoint.perform, links, Option.map_eq_some_iff] at stored
    obtain ⟨_, -, rfl⟩ := stored
    rfl

theorem Sound.after (sound : endpoint.Sound) (actions : List Action) :
    (endpoint.after actions).Sound :=
  List.foldlRecOn (motive := Sound) actions _ sound fun _ sound action _ => sound.perform action

end Endpoint

end Rendezvous.Session

import Rendezvous.Proofs.Session.Channel

/-! # Sessions

Everything that a peer or the server sees of an endpoint is settled by what was done
there before: who is admitted and under which number, what the server is told of each
peer, whether a packet is taken, and what a peer gets (`sessions_orderly`).

A log is a `Run` of turns for every connection at once, and of each run it is shown by
induction what was raised (`Run.events_eq`), what was handed over
(`Run.delivered_prefix`, `Run.delivered_eq`) and what is held in the end (`Run.after_eq`).
These speak of the entries up to the next admission, so that they can be put together
from stay to stay (`Run.of_mem_stays`).
-/

namespace Rendezvous.Session

open Rendezvous.Wire (Bytes)

/-! ## Many actions -/

/-- What a log means for one connection: what is held for its peer before and after. -/
inductive Run (c : ConnectionId) : Option Link → List Entry → Option Link → Prop
  | nil {link? : Option Link} : Run c link? [] link?
  | cons {before middle after : Option Link} {entry : Entry} {log : List Entry} :
      Turn c before entry middle → Run c middle log after → Run c before (entry :: log) after

theorem Endpoint.log_run {endpoint : Endpoint} (sound : endpoint.Sound) (c : ConnectionId)
    (actions : List Action) :
    Run c endpoint.links[c]? (endpoint.log actions) (endpoint.after actions).links[c]? := by
  induction actions generalizing endpoint with
  | nil => exact .nil
  | cons action actions inductionHypothesis =>
    exact .cons (perform_turn sound c action) (inductionHypothesis (sound.perform action))

theorem Entry.peer?_admitted (c : ConnectionId) (peer : String)
    (request : Admission.UpgradeRequest) :
    Entry.peer? ⟨.dial peer request, [.handshake (.admitted c), .event (.connected c peer)]⟩ c =
      some peer := by
  simp [peer?, admission?]

namespace Run

variable {c : ConnectionId} {before after : Option Link} {link : Link} {log : List Entry}

theorem absent (run : Run c before log after) (absent : before = none) :
    events c (opening c log) = [] ∧ accepted c (opening c log) = [] ∧
      delivered c (opening c log) = [] ∧ (stays c log = [] → after = none) := by
  induction run with
  | nil => exact ⟨rfl, rfl, rfl, fun _ => absent⟩
  | cons turn run inductionHypothesis =>
    cases turn with
    | admitted =>
      have admitted := Entry.peer?_admitted c
      rw [opening_admission (admitted _ _), stays_admission (admitted _ _)]
      exact ⟨rfl, rfl, rfl, fun none => by cases none⟩
    | absent other told taken handed =>
      rw [opening_cons other, stays_cons other, events_cons, accepted_cons, delivered_cons, told,
        taken, handed]
      exact inductionHypothesis rfl
    | kept | written | shut | shutBefore | parted => cases absent

/-- Nothing is taken or handed over once the link is shut. -/
theorem shut (run : Run c before log after) (shut : before = some .shut) :
    accepted c (opening c log) = [] ∧ delivered c (opening c log) = [] := by
  induction run with
  | nil => exact ⟨rfl, rfl⟩
  | cons turn run inductionHypothesis =>
    cases turn with
    | admitted =>
      rw [opening_admission (Entry.peer?_admitted ..)]
      exact ⟨rfl, rfl⟩
    | absent | kept | written | shut => cases shut
    | shutBefore other _ _ taken handed =>
      rw [opening_cons other, accepted_cons, delivered_cons, taken, handed]
      exact inductionHypothesis rfl
    | parted other _ _ taken handed =>
      obtain ⟨-, nothingTaken, nothingHanded, -⟩ := run.absent rfl
      rw [opening_cons other, accepted_cons, delivered_cons, taken, handed]
      exact ⟨nothingTaken, nothingHanded⟩

/-- It is raised what the peer does, until it goes away. -/
theorem events_eq (run : Run c before log after) (connected : before = some link) :
    events c (opening c log) = transcript c ((opening c log).map Entry.action) := by
  induction run generalizing link with
  | nil => rfl
  | cons turn run inductionHypothesis =>
    cases turn with
    | admitted => rw [opening_admission (Entry.peer?_admitted ..)]; rfl
    | absent => cases connected
    | kept other _ stays _ told | written other stays _ told | shut other stays _ told
    | shutBefore other stays told =>
      rw [opening_cons other, events_cons, List.map_cons, transcript, stays, told,
        inductionHypothesis rfl]
      rfl
    | parted other parts told =>
      rw [opening_cons other, events_cons, List.map_cons, transcript, parts, told,
        (run.absent rfl).1]
      rfl

/-- The peer gets what waits for it and what is taken for it, in this order, though perhaps
    not all. -/
theorem delivered_prefix (run : Run c before log after) (connected : before = some link) :
    delivered c (opening c log) <+: link.waiting ++ accepted c (opening c log) := by
  induction run generalizing link with
  | nil => exact List.nil_prefix
  | cons turn run inductionHypothesis =>
    cases turn with
    | admitted => rw [opening_admission (Entry.peer?_admitted ..)]; exact List.nil_prefix
    | absent => cases connected
    | kept other _ _ _ _ handed =>
      cases connected
      rw [opening_cons other, delivered_cons, accepted_cons, handed, List.nil_append,
        ← List.append_assoc]
      exact inductionHypothesis rfl
    | written other _ _ _ taken waited =>
      cases connected
      rw [opening_cons other, delivered_cons, accepted_cons, taken, waited, List.nil_append,
        Link.waiting, List.append_assoc]
      exact (List.prefix_append_right_inj _).mpr (inductionHypothesis rfl)
    | shut other _ _ _ taken handed =>
      cases connected
      obtain ⟨nothingTaken, nothingHanded⟩ := run.shut rfl
      rw [opening_cons other, delivered_cons, accepted_cons, taken, nothingTaken, nothingHanded,
        List.append_nil, List.append_nil, List.append_nil]
      exact handed
    | shutBefore other _ _ taken handed =>
      cases connected
      rw [opening_cons other, delivered_cons, accepted_cons, taken, handed]
      exact inductionHypothesis rfl
    | parted other _ _ taken handed =>
      obtain ⟨-, -, nothingHanded, -⟩ := run.absent rfl
      rw [opening_cons other, delivered_cons, handed, nothingHanded]
      exact List.nil_prefix

/-- What is held for a peer in the end, if nobody else is given its number. -/
theorem after_eq (run : Run c before log after) (connected : before = some link)
    (last : stays c log = []) :
    after = if log.any (·.action.parts c) then none
      else if link = .shut ∨ log.any (·.action.shuts c) then some .shut
      else some (.writable ((link.waiting ++ accepted c log).drop (delivered c log).length)) := by
  induction run generalizing link with
  | nil =>
    subst connected
    cases link with
    | shut => rfl
    | writable waiting => simp [accepted, delivered, Link.waiting]
  | cons turn run inductionHypothesis =>
    cases turn with
    | admitted => rw [stays_admission (Entry.peer?_admitted ..)] at last; cases last
    | absent => cases connected
    | kept other _ stays goesOn _ handed =>
      cases connected
      rw [stays_cons other] at last
      rw [inductionHypothesis rfl last, List.any_cons, List.any_cons, stays, goesOn,
        delivered_cons, accepted_cons, handed]
      simp [Link.waiting]
    | written other stays goesOn _ taken waited =>
      cases connected
      rw [stays_cons other] at last
      rw [inductionHypothesis rfl last, List.any_cons, List.any_cons, stays, goesOn,
        delivered_cons, accepted_cons, taken, waited]
      simp [Link.waiting, ← List.drop_drop]
    | shut other stays shuts =>
      rw [stays_cons other] at last
      rw [inductionHypothesis rfl last, List.any_cons, List.any_cons, stays, shuts]
      simp
    | shutBefore other stays =>
      cases connected
      rw [stays_cons other] at last
      rw [inductionHypothesis rfl last, List.any_cons, stays]
      simp
    | parted other parts =>
      rw [stays_cons other] at last
      rw [List.any_cons, parts, Bool.true_or, if_pos rfl]
      exact (run.absent rfl).2.2.2 last

theorem bounded (run : Run c before log after)
    (small : ∀ link ∈ before, link.waiting.length ≤ queueCapacity) :
    ∀ link ∈ after, link.waiting.length ≤ queueCapacity := by
  induction run with
  | nil => exact small
  | cons turn run inductionHypothesis =>
    apply inductionHypothesis
    intro link held
    cases turn with
    | admitted | shut | shutBefore => cases held; exact Nat.zero_le _
    | absent | parted => cases held
    | kept _ _ _ _ _ _ grows =>
      cases held
      exact grows.trans (Nat.max_le.mpr ⟨small _ rfl, Nat.le_refl _⟩)
    | written _ _ _ _ _ waited =>
      cases held
      have whole := small _ rfl
      rw [Link.waiting, waited, List.length_append] at whole
      exact (Nat.le_add_left ..).trans whole

theorem admitting (run : Run c before log after) :
    ∀ entry ∈ log, ∀ peer, entry.peer? c = some peer →
      entry.events c = [.connected c peer] ∧ entry.accepted c = [] ∧ entry.delivered c = [] := by
  induction run with
  | nil => exact List.forall_mem_nil _
  | cons turn run inductionHypothesis =>
    refine List.forall_mem_cons.mpr ⟨?_, inductionHypothesis⟩
    intro peer admitted
    obtain stranger | ⟨_, _, -, rfl⟩ := turn.stranger_or_admitted
    · rw [stranger] at admitted
      cases admitted
    · rw [Entry.peer?_admitted] at admitted
      cases admitted
      exact ⟨Entry.events_here rfl rfl, rfl, rfl⟩

theorem of_mem_stays (run : Run c before log after) {stay : Stay} (listed : stay ∈ stays c log) :
    ∃ late, late <:+ log ∧ Run c (some (.writable [])) late after ∧ stay.since = opening c late := by
  induction run with
  | nil => cases listed
  | @cons before middle after entry log turn run inductionHypothesis =>
    have others : stay ∈ stays c log → ∃ late, late <:+ entry :: log ∧
        Run c (some (.writable [])) late after ∧ stay.since = opening c late := by
      intro listed
      obtain ⟨late, ending, later, since⟩ := inductionHypothesis listed
      exact ⟨late, ending.trans (List.suffix_cons ..), later, since⟩
    obtain stranger | ⟨_, _, rfl, rfl⟩ := turn.stranger_or_admitted
    · rw [stays_cons stranger] at listed
      exact others listed
    · rw [stays_admission (Entry.peer?_admitted ..), List.mem_cons] at listed
      obtain same | listed := listed
      · exact ⟨log, List.suffix_cons .., run, by rw [same]⟩
      · exact others listed

theorem of_getLast?_stays (run : Run c before log after) {stay : Stay}
    (last : (stays c log).getLast? = some stay) :
    stay.since <:+ log ∧ Run c (some (.writable [])) stay.since after ∧ stays c stay.since = [] := by
  induction run with
  | nil => cases last
  | @cons before middle after entry log turn run inductionHypothesis =>
    have later : (stays c log).getLast? = some stay → stay.since <:+ entry :: log ∧
        Run c (some (.writable [])) stay.since after ∧ stays c stay.since = [] := by
      intro last
      obtain ⟨ending, later⟩ := inductionHypothesis last
      exact ⟨ending.trans (List.suffix_cons ..), later⟩
    obtain stranger | ⟨_, _, rfl, rfl⟩ := turn.stranger_or_admitted
    · rw [stays_cons stranger] at last
      exact later last
    rw [stays_admission (Entry.peer?_admitted ..), List.getLast?_cons] at last
    cases others : (stays c log).getLast? with
    | some other =>
      rw [others] at last
      exact later (others.trans last)
    | none =>
      rw [others] at last
      cases last
      have none := List.getLast?_eq_none_iff.mp others
      rw [opening_eq_self none]
      exact ⟨List.suffix_cons .., run, none⟩

/-- Whatever is gathered from a log of a connection on which nobody was admitted yet is
    gathered in the stays. -/
theorem gathered {α : Type} (gather : Entry → List α) (first : String → List α)
    (early : (opening c log).flatMap gather = [])
    (admitting : ∀ entry ∈ log, ∀ peer, entry.peer? c = some peer → gather entry = first peer) :
    log.flatMap gather = (stays c log).flatMap fun stay =>
      first stay.peer ++ stay.since.flatMap gather := by
  rw [flatMap_stays (c := c) gather first admitting, early, List.nil_append]

theorem events_stays (run : Run c none log after) :
    events c log = (stays c log).flatMap fun stay =>
      .connected c stay.peer :: transcript c (stay.since.map Entry.action) := by
  rw [events, gathered _ (fun peer => [.connected c peer]) (run.absent rfl).1
    fun entry listed peer admitted => (run.admitting entry listed peer admitted).1]
  refine List.flatMap_congr fun stay listed => ?_
  obtain ⟨late, -, later, since⟩ := run.of_mem_stays listed
  rw [since, ← later.events_eq rfl]
  rfl

theorem packets_stays (run : Run c none log after) :
    accepted c log = (stays c log).flatMap (fun stay => accepted c stay.since) ∧
      delivered c log = (stays c log).flatMap fun stay => delivered c stay.since := by
  obtain ⟨-, taken, handed, -⟩ := run.absent rfl
  constructor
  · exact gathered _ (fun _ => []) taken fun entry listed peer admitted =>
      (run.admitting entry listed peer admitted).2.1
  · exact gathered _ (fun _ => []) handed fun entry listed peer admitted =>
      (run.admitting entry listed peer admitted).2.2

theorem stay_in_order (run : Run c before log after) {stay : Stay}
    (listed : stay ∈ stays c log) : delivered c stay.since <+: accepted c stay.since := by
  obtain ⟨late, -, later, since⟩ := run.of_mem_stays listed
  rw [since]
  exact later.delivered_prefix rfl

end Run

/-! ## Quiet runs -/

/-- The writers run after every send, before anything else is done. -/
def Settled (log : List Entry) : Prop :=
  ∀ d data mode seen late, ⟨.send d data mode, seen⟩ :: late <:+ log →
    ∃ flushed rest, late = ⟨.settle, flushed⟩ :: rest

theorem Settled.of_suffix {late log : List Entry} (settled : Settled log)
    (ending : late <:+ log) : Settled late := fun _ _ _ _ _ sends =>
  settled _ _ _ _ _ (sends.trans ending)

theorem Action.settles_eq_false {action : Action} {c : ConnectionId}
    (ends : action.parts c = true ∨ action.shuts c = true) : action.settles = false := by
  cases action with
  | settle => obtain ends | ends := ends <;> cases ends
  | _ => rfl

theorem Entry.of_accepted {entry : Entry} {c : ConnectionId} (taken : entry.accepted c ≠ []) :
    ∃ d data mode, entry.action = .send d data mode := by
  rw [accepted] at taken
  split at taken
  next action seen d data mode other sends gone => exact ⟨d, data, mode, sends⟩
  next => exact absurd rfl taken

/-- A peer gets all that is taken for it, if the writers run after every send. -/
theorem Run.delivered_eq {c : ConnectionId} {before after : Option Link} {link : Link}
    {log : List Entry} (run : Run c before log after) (connected : before = some link)
    (settled : Settled log)
    (quiet : link.waiting = [] ∨ ∃ flushed rest, log = ⟨.settle, flushed⟩ :: rest) :
    delivered c (opening c log) = link.waiting ++ accepted c (opening c log) := by
  induction run generalizing link with
  | nil =>
    obtain empty | ⟨_, _, impossible⟩ := quiet
    · rw [empty]
      rfl
    · cases impossible
  | @cons before middle after entry log turn run inductionHypothesis =>
    have later := settled.of_suffix (List.suffix_cons entry log)
    have empty : entry.action.settles = false → link.waiting = [] := by
      intro other
      refine quiet.resolve_right ?_
      rintro ⟨flushed, rest, same⟩
      cases same
      cases other
    cases turn with
    | admitted =>
      rw [opening_admission (Entry.peer?_admitted ..), empty rfl]
      rfl
    | absent => cases connected
    | kept other waits _ _ _ handed =>
      cases connected
      obtain rfl := empty waits
      rw [opening_cons other, delivered_cons, accepted_cons, handed]
      refine inductionHypothesis rfl later ?_
      by_cases taken : entry.accepted c = []
      · exact .inl taken
      · -- the packet that was taken waits, but the writers run next
        obtain ⟨d, data, mode, sends⟩ := Entry.of_accepted taken
        obtain ⟨action, seen⟩ := entry
        cases sends
        exact .inr (settled d data mode seen log List.suffix_rfl)
    | @written _ _ rest other _ _ _ taken waited settles =>
      cases connected
      -- either the writers run until nothing waits, or nothing has waited
      have nothingLeft : rest = [] := by
        cases settle : entry.action.settles with
        | true => exact settles settle
        | false => exact (List.append_eq_nil_iff.mp (waited.symm.trans (empty settle))).2
      subst nothingLeft
      rw [opening_cons other, delivered_cons, accepted_cons, taken, waited,
        inductionHypothesis rfl later (.inl rfl), Link.waiting, Link.waiting, List.append_nil]
    | shut other _ shuts _ taken handed =>
      cases connected
      have waits := Action.settles_eq_false (.inr shuts)
      obtain ⟨nothingTaken, nothingHanded⟩ := run.shut rfl
      have nothing : entry.delivered c = [] := List.prefix_nil.mp (empty waits ▸ handed)
      rw [empty waits, opening_cons other, delivered_cons, accepted_cons, taken, nothingTaken,
        nothingHanded, nothing]
      rfl
    | shutBefore other _ _ taken handed =>
      cases connected
      rw [opening_cons other, delivered_cons, accepted_cons, taken, handed]
      exact inductionHypothesis rfl later (.inl rfl)
    | parted other parts _ taken handed =>
      cases connected
      have waits := Action.settles_eq_false (.inl parts)
      obtain ⟨-, nothingTaken, nothingHanded, -⟩ := run.absent rfl
      rw [empty waits, opening_cons other, delivered_cons, accepted_cons, taken, nothingTaken,
        nothingHanded, handed]
      rfl

theorem Run.stay_complete {c : ConnectionId} {before after : Option Link}
    {log : List Entry} (run : Run c before log after) (settled : Settled log) {stay : Stay}
    (listed : stay ∈ stays c log) : delivered c stay.since = accepted c stay.since := by
  obtain ⟨late, ending, later, since⟩ := run.of_mem_stays listed
  rw [since]
  exact later.delivered_eq rfl (settled.of_suffix ending) (.inl rfl)

theorem settled_quietly (endpoint : Endpoint) (actions : List Action) :
    Settled (endpoint.log (quietly actions)) := by
  intro d data mode seen late sends
  induction actions generalizing endpoint with
  | nil => cases List.suffix_nil.mp sends
  | cons action actions inductionHypothesis =>
    rw [quietly, List.flatMap_cons, List.cons_append, List.cons_append, List.cons_append,
      Endpoint.log, Endpoint.log, Endpoint.log, List.suffix_cons_iff, List.suffix_cons_iff,
      List.suffix_cons_iff] at sends
    obtain same | same | same | sends := sends
    · exact ⟨_, _, (List.cons.inj same).2⟩
    · cases (List.cons.inj same).1
    · cases (List.cons.inj same).1
    · exact inductionHypothesis _ sends

/-! ## Whole sessions -/

section Start

variable (key : String) (reachable : Bool) (actions : List Action) (c : ConnectionId)

theorem Endpoint.sound_start : Endpoint.Sound { key, reachable } := by
  intro _ c link held
  rw [Option.mem_def, Std.ExtTreeMap.getElem?_empty] at held
  cases held

theorem run_start :
    Run c none (Endpoint.log { key, reachable } actions)
      (Endpoint.after { key, reachable } actions).links[c]? := by
  have run := Endpoint.log_run (Endpoint.sound_start key reachable) c actions
  rwa [Std.ExtTreeMap.getElem?_empty] at run

theorem link_eq :
    (Endpoint.after { key, reachable } actions).links[c]? =
      link? c (Endpoint.log { key, reachable } actions) := by
  have run := run_start key reachable actions c
  generalize Endpoint.log { key, reachable } actions = log at run ⊢
  rw [link?]
  split
  next none => exact (run.absent rfl).2.2.2 (List.getLast?_eq_none_iff.mp none)
  next stay last =>
    obtain ⟨-, later, alone⟩ := run.of_getLast?_stays last
    have told := later.events_eq rfl
    rw [opening_eq_self alone] at told
    rw [later.after_eq rfl alone, told, tellsGone_transcript, List.any_map]
    simp [Link.waiting, Function.comp_def]

end Start

/-- What is seen of an endpoint after some actions, in whatever order they came. -/
structure Orderly (start : Endpoint) (actions : List Action) : Prop where
  /-- A peer is answered by the key alone, unless nobody listens.  It is raised which peers
      are admitted, and under which numbers; of others nothing is raised. -/
  answered : ∀ peer request, ((start.after actions).perform (.dial peer request)).1 =
    if .stop ∈ actions ∨ start.reachable = false then [.handshake .unanswered]
    else if Admission.admits start.key request = true then
      let c := number ((admissions (start.log actions)).length + 1)
      [.handshake (.admitted c), .event (.connected c peer)]
    else [.handshake .refused]
  /-- The numbers are 1, 2, 3 and so on. -/
  numbered : (admissions (start.log actions)).map Prod.fst =
    (List.range' 1 (admissions (start.log actions)).length).map number
  distinct : (admissions (start.log actions)).length < 2 ^ 64 →
    ((admissions (start.log actions)).map Prod.fst).Nodup
  /-- Of each stay it is raised that the peer is there, then what it sends, then that it is
      gone. -/
  told : ∀ c, about c (raised (start.log actions)) = (stays c (start.log actions)).flatMap
    fun stay => .connected c stay.peer :: transcript c (stay.since.map Entry.action)
  /-- Polls hand over what was raised, in the order in which it was raised. -/
  inTurn : polled (start.log actions) <+: raised (start.log actions)
  /-- A poll hands over all that waits, up to 256 events, or waits if there are none.  Once the
      server has stopped it hands over nothing, and does not wait. -/
  polls : ((start.after actions).perform .poll).1 = [.polled (
    if .stop ∈ actions then some []
    else match (raised (start.log actions)).drop (polled (start.log actions)).length with
      | [] => none
      | waiting => some (waiting.take 256))]
  /-- If the server polls after every action, it is told of each stay from its beginning, and
      all that is raised of it until the server stops. -/
  surfaced : ∀ c, about c (polled (start.log (quietly actions))) =
    (stays c (untilStop (start.log (quietly actions)))).flatMap fun stay =>
      .connected c stay.peer :: transcript c (stay.since.map Entry.action)
  /-- A packet is taken or refused by whether the server has stopped, whether the peer is
      there, whether its writer is, and how many packets wait for it. -/
  sent : ∀ c data mode, ((start.after actions).perform (.send c data mode)).1 =
    [.sent c (
      if .stop ∈ actions then some .shutdown
      else match link? c (start.log actions) with
        | none => some (.unknownConnection c)
        | some .shut => some (.connectionClosed c)
        | some (.writable waiting) =>
          if queueCapacity ≤ waiting.length then some (.queueFull c) else none)]
  bounded : ∀ c, (waitingAt (link? c (start.log actions))).length ≤ queueCapacity
  /-- Packets are taken and handed over in stays only. -/
  confined : ∀ c,
    accepted c (start.log actions) =
        (stays c (start.log actions)).flatMap (fun stay => accepted c stay.since) ∧
      delivered c (start.log actions) =
        (stays c (start.log actions)).flatMap fun stay => delivered c stay.since
  /-- A peer gets the packets that were taken for it, as they are and in order. -/
  inOrder : ∀ c, ∀ stay ∈ stays c (start.log actions),
    delivered c stay.since <+: accepted c stay.since
  /-- When the writer of a peer runs for some packets, these are the first that wait. -/
  written : ∀ c count, Entry.delivered ⟨.write c count,
      ((start.after actions).perform (.write c count)).1⟩ c =
    (waitingAt (link? c (start.log actions))).take count
  /-- When all writers run, and when the server stops, a peer gets all that waits. -/
  flushed : ∀ c, ∀ action ∈ [Action.settle, Action.stop],
    Entry.delivered ⟨action, ((start.after actions).perform action).1⟩ c =
      waitingAt (link? c (start.log actions))
  /-- If the writers run after every action, a peer gets all that was taken for it. -/
  complete : ∀ c, ∀ stay ∈ stays c (start.log (quietly actions)),
    delivered c stay.since = accepted c stay.since

theorem number_injective {m n : Nat} (small : m < 2 ^ 64) (smallToo : n < 2 ^ 64)
    (same : number m = number n) : m = n := by
  have vals : UInt64.ofNat m = UInt64.ofNat n := congrArg ConnectionId.val same
  rwa [← UInt64.toNat_inj, UInt64.toNat_ofNat_of_lt' small, UInt64.toNat_ofNat_of_lt' smallToo]
    at vals

theorem number_nodup {count : Nat} (few : count < 2 ^ 64) :
    ((List.range' 1 count).map number).Nodup := by
  refine List.Nodup.map_on ?_ List.nodup_range'
  intro m listed n listedToo same
  rw [List.mem_range'_1] at listed listedToo
  exact number_injective (by omega) (by omega) same

theorem Endpoint.delivered_write (endpoint : Endpoint) (c : ConnectionId) (count : Nat) :
    Entry.delivered ⟨.write c count, (endpoint.write c count).1⟩ c =
      (waitingAt endpoint.links[c]?).take count := by
  have here : ∀ packets, Entry.delivered ⟨.write c count, [.delivered c packets]⟩ c = packets :=
    fun packets => (List.append_nil _).trans (if_pos rfl)
  rw [write]
  cases endpoint.links[c]? with
  | none => exact List.take_nil.symm
  | some link =>
    cases link with
    | shut => exact List.take_nil.symm
    | writable waiting => exact here _

/-- Sessions are orderly, whatever the peers and the server do. -/
theorem sessions_orderly (key : String) (reachable : Bool) (actions : List Action) :
    Orderly { key, reachable } actions := by
  have runs := run_start key reachable actions
  have links := link_eq key reachable actions
  have stopped : (Endpoint.after { key, reachable } actions).stopped = true ↔ .stop ∈ actions := by
    rw [Endpoint.stopped_after]
    simp
  have sound := (Endpoint.sound_start key reachable).after actions
  obtain ⟨sameKey, sameNetwork⟩ := Endpoint.kept_after { key, reachable } actions
  obtain ⟨numbered, counted⟩ := Endpoint.admissions_log { key, reachable } actions
  rw [Nat.zero_add] at numbered counted
  have channel : raised (Endpoint.log { key, reachable } actions) =
      polled (Endpoint.log { key, reachable } actions) ++
        (Endpoint.after { key, reachable } actions).pending :=
    Endpoint.log_channel { key, reachable } actions
  constructor
  case answered =>
    intro peer request
    rw [Endpoint.perform, Endpoint.dial, sameKey, sameNetwork, counted]
    simp only [stopped, Bool.not_eq_true]
    split
    · rfl
    split <;> rfl
  case numbered => exact numbered
  case distinct =>
    intro few
    rw [numbered]
    exact number_nodup few
  case told =>
    intro c
    rw [about_raised]
    exact (runs c).events_stays
  case inTurn =>
    rw [channel]
    exact List.prefix_append ..
  case polls =>
    rw [channel, List.drop_left]
    simp only [Endpoint.perform, Endpoint.poll, stopped]
    split
    · rfl
    cases (Endpoint.after { key, reachable } actions).pending <;> rfl
  case surfaced =>
    intro c
    rw [Endpoint.polled_quietly rfl rfl, about_raised, Endpoint.untilStop_log]
    exact (run_start key reachable _ c).events_stays
  case sent =>
    intro c data mode
    simp only [Endpoint.perform, Endpoint.send, stopped, links]
    split
    · rfl
    cases link? c (Endpoint.log { key, reachable } actions) with
    | none => rfl
    | some link =>
      cases link with
      | shut => rfl
      | writable waiting => dsimp only; split <;> rfl
  case bounded =>
    intro c
    have small := (runs c).bounded fun link held => by cases held
    rw [links] at small
    cases held : link? c (Endpoint.log { key, reachable } actions) with
    | none => exact Nat.zero_le _
    | some link => exact small link held
  case confined => exact fun c => (runs c).packets_stays
  case inOrder => exact fun c stay listed => (runs c).stay_in_order listed
  case written =>
    intro c count
    rw [← links]
    exact Endpoint.delivered_write _ c count
  case flushed =>
    intro c action either
    rw [← links]
    simp only [List.mem_cons, List.not_mem_nil, or_false] at either
    obtain rfl | rfl := either
    · exact Endpoint.handed_deliveries _ c
    · exact Endpoint.delivered_stop sound c
  case complete =>
    intro c stay listed
    exact (run_start key reachable (quietly actions) c).stay_complete (settled_quietly _ _) listed

end Rendezvous.Session

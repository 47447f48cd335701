import Rendezvous.Proofs.Lobby.Frame
import Rendezvous.Proofs.Lobby.History
import Rendezvous.Proofs.Lobby.Numbering

/-! # Ids over a whole history

The k-th connection that is given a record in a history gets the id k, whoever has
gone away in between, and no id is ever used again (`ids_never_reused`).

The next id moves on exactly when a record is made, so it counts the arrivals
(`Consistent.numbered_after`).  That an id is not used again is read backwards: no
step gives an old id to anybody, so whoever has an old id has had it ever since it
was given (`Consistent.id?_before`).
-/

namespace Rendezvous.Lobby

/-- Something that a connection does, and the lobby that it meets. -/
structure Performed where
  before : Lobby
  connection : ConnectionId
  operation : Operation

namespace Performed

def outcome (step : Performed) : Outcome (Answer Reply) :=
  step.before.perform step.connection step.operation

def arrives (step : Performed) : Bool := step.before.enrolls step.connection step.operation

end Performed

/-- All that is done in a history, each with the lobby that it meets. -/
def course (lobby : Lobby) : List (ConnectionId × Operation) → List Performed
  | [] => []
  | (c, operation) :: history =>
    let step : Performed := ⟨lobby, c, operation⟩
    step :: step.outcome.lobby.course history

def arrivals (lobby : Lobby) (history : List (ConnectionId × Operation)) : List Performed :=
  (lobby.course history).filter Performed.arrives

section Histories

variable {lobby : Lobby} {c d : ConnectionId} {id : ClientId}
  {history : List (ConnectionId × Operation)}

theorem arrivals_cons (entry : ConnectionId × Operation) :
    lobby.arrivals (entry :: history) =
      if lobby.enrolls entry.1 entry.2 then
        ⟨lobby, entry.1, entry.2⟩ :: (lobby.perform entry.1 entry.2).lobby.arrivals history
      else (lobby.perform entry.1 entry.2).lobby.arrivals history :=
  List.filter_cons

theorem length_arrivals_cons (entry : ConnectionId × Operation) :
    (lobby.arrivals (entry :: history)).length =
      (lobby.enrolls entry.1 entry.2).toNat +
        ((lobby.perform entry.1 entry.2).lobby.arrivals history).length := by
  rw [arrivals_cons]
  cases lobby.enrolls entry.1 entry.2 with
  | true => exact List.length_cons.trans (Nat.add_comm ..)
  | false => exact (Nat.zero_add _).symm

theorem arrivals_append (early late : List (ConnectionId × Operation)) :
    lobby.arrivals (early ++ late) =
      lobby.arrivals early ++ (lobby.after early).arrivals late := by
  induction early generalizing lobby with
  | nil => rfl
  | cons entry early inductionHypothesis =>
    simp only [List.cons_append, arrivals_cons, inductionHypothesis]
    split <;> rfl

/-! ## Arrivals take the ids in order -/

/-- Ids stay distinct over a history, and the next id counts the arrivals, unless the
    ids run out. -/
theorem Consistent.numbered_after (consistent : lobby.Consistent) (numbered : lobby.Numbered)
    (spare : lobby.directory.nextId.toNat + (lobby.arrivals history).length < UInt64.size) :
    (lobby.after history).Numbered ∧ (lobby.after history).directory.nextId.toNat =
      lobby.directory.nextId.toNat + (lobby.arrivals history).length := by
  induction history generalizing lobby with
  | nil => exact ⟨numbered, rfl⟩
  | cons entry history inductionHypothesis =>
    rw [length_arrivals_cons] at spare ⊢
    obtain ⟨numberedNow, nextNow⟩ :=
      (perform_step consistent entry.1 entry.2).numbered numbered (by omega)
    obtain ⟨numberedAfter, nextAfter⟩ :=
      inductionHypothesis (consistent.perform entry.1 entry.2) numberedNow (by omega)
    refine ⟨numberedAfter, nextAfter.trans ?_⟩
    omega

/-- The arrival after k others meets a lobby that has given k ids. -/
theorem Consistent.arrival (consistent : lobby.Consistent) (numbered : lobby.Numbered)
    (spare : lobby.directory.nextId.toNat + (lobby.arrivals history).length < UInt64.size)
    {k : Nat} {arrival : Performed} (listed : (lobby.arrivals history)[k]? = some arrival) :
    arrival.before.Consistent ∧ arrival.arrives = true ∧
      arrival.before.directory.nextId.toNat = lobby.directory.nextId.toNat + k := by
  induction history generalizing lobby k with
  | nil => cases listed
  | cons entry history inductionHypothesis =>
    rw [length_arrivals_cons] at spare
    obtain ⟨numberedNow, nextNow⟩ :=
      (perform_step consistent entry.1 entry.2).numbered numbered (by omega)
    have later := fun {k} => inductionHypothesis (k := k) (consistent.perform entry.1 entry.2)
      numberedNow (by omega)
    rw [arrivals_cons] at listed
    split at listed
    next arrives =>
      rw [arrives, Bool.toNat_true] at nextNow
      cases k with
      | zero => cases listed; exact ⟨consistent, arrives, rfl⟩
      | succ k =>
        obtain ⟨met, isArrival, next⟩ := later listed
        exact ⟨met, isArrival, by omega⟩
    next stays =>
      rw [Bool.eq_false_of_not_eq_true stays, Bool.toNat_false] at nextNow
      obtain ⟨met, isArrival, next⟩ := later listed
      exact ⟨met, isArrival, by omega⟩

theorem Consistent.arrival_outcome (consistent : lobby.Consistent) (numbered : lobby.Numbered)
    (spare : lobby.directory.nextId.toNat + (lobby.arrivals history).length < UInt64.size)
    {k : Nat} {arrival : Performed} (listed : (lobby.arrivals history)[k]? = some arrival) :
    arrival.before.directory.nextId.toNat = lobby.directory.nextId.toNat + k ∧
      arrival.before.directory.get? arrival.connection = none ∧
        arrival.outcome = ⟨.ok (.connected ⟨arrival.before.directory.nextId⟩),
          arrival.before.enroll arrival.connection,
          [.notify arrival.connection (.clientId ⟨arrival.before.directory.nextId⟩)]⟩ := by
  obtain ⟨met, arrives, next⟩ := consistent.arrival numbered spare listed
  exact ⟨next, (connects_of_enrolls arrives).2, (perform_step met _ _).of_enrolls arrives⟩

theorem Consistent.arrivals_nodup (consistent : lobby.Consistent) (numbered : lobby.Numbered)
    (spare : lobby.directory.nextId.toNat + (lobby.arrivals history).length < UInt64.size) :
    ((lobby.arrivals history).map fun arrival => arrival.outcome.value).Nodup := by
  rw [List.nodup_iff_getElem?_ne_getElem?]
  intro i j before bound same
  rw [List.length_map] at bound
  rw [List.getElem?_map, List.getElem?_map, List.getElem?_eq_getElem (before.trans bound),
    List.getElem?_eq_getElem bound] at same
  obtain ⟨nextI, -, outcomeI⟩ :=
    consistent.arrival_outcome numbered spare (List.getElem?_eq_getElem (before.trans bound))
  obtain ⟨nextJ, -, outcomeJ⟩ :=
    consistent.arrival_outcome numbered spare (List.getElem?_eq_getElem bound)
  simp only [Option.map_some, outcomeI, outcomeJ, Option.some.injEq, Except.ok.injEq,
    Reply.connected.injEq, ClientId.mk.injEq] at same
  rw [same, nextJ] at nextI
  omega

/-! ## Ids last as long as records -/

theorem Step.id?_kept {operation : Operation} {outcome : Outcome (Answer Reply)}
    (step : Step lobby c operation outcome) (given : lobby.id? d = some id)
    (known : outcome.lobby.Knows d) : outcome.lobby.id? d = some id := by
  obtain ⟨client, record⟩ := known
  have now : outcome.lobby.id? d = some client.id := by rw [id?, record, Option.map_some]
  rcases step.ids with ⟨-, fresh, after⟩ | ⟨-, kept⟩
  · -- who has an id has a record, so it is not the one that is enrolled
    have other : d ≠ c := by
      rintro rfl
      rw [id?, fresh] at given
      cases given
    rw [after, id?_enroll _ _ _ fresh, if_neg other]
    exact given
  · rw [← given, kept d _ now]
    exact now

/-- An id stays with a connection for as long as it has a record. -/
theorem Consistent.id?_after (consistent : lobby.Consistent) (given : lobby.id? d = some id)
    (stays : ∀ part, part <+: history → (lobby.after part).Knows d) :
    (lobby.after history).id? d = some id := by
  induction history generalizing lobby with
  | nil => exact given
  | cons entry history inductionHypothesis =>
    have next := (perform_step consistent entry.1 entry.2).id?_kept given
      (stays [entry] (by simp))
    exact inductionHypothesis (consistent.perform entry.1 entry.2) next fun part leading =>
      stays (entry :: part) (List.cons_prefix_cons.mpr ⟨rfl, leading⟩)

/-- Whoever has an old id has had it ever since. -/
theorem Consistent.id?_before (consistent : lobby.Consistent) (numbered : lobby.Numbered)
    (spare : lobby.directory.nextId.toNat + (lobby.arrivals history).length < UInt64.size)
    (old : id.val < lobby.directory.nextId) (given : (lobby.after history).id? d = some id) :
    ∀ part, part <+: history → (lobby.after part).id? d = some id := by
  induction history generalizing lobby with
  | nil =>
    intro part leading
    rw [List.prefix_nil.mp leading]
    exact given
  | cons entry history inductionHypothesis =>
    rw [length_arrivals_cons] at spare
    have step := perform_step consistent entry.1 entry.2
    obtain ⟨numberedNow, nextNow⟩ := step.numbered numbered (by omega)
    have oldNow : id.val < (lobby.perform entry.1 entry.2).lobby.directory.nextId := by
      rw [UInt64.lt_iff_toNat_lt] at old ⊢
      omega
    have later := inductionHypothesis (consistent.perform entry.1 entry.2) numberedNow (by omega)
      oldNow given
    have now : lobby.id? d = some id := by
      have next : (lobby.perform entry.1 entry.2).lobby.id? d = some id :=
        later [] List.nil_prefix
      rcases step.ids with ⟨-, fresh, after⟩ | ⟨-, kept⟩
      · rw [after, id?_enroll _ _ _ fresh] at next
        split at next
        · -- the id that is given now is not old
          cases next
          exact absurd old (UInt64.lt_irrefl _)
        · exact next
      · exact kept d id next
    intro part leading
    cases part with
    | nil => exact now
    | cons first part =>
      obtain ⟨rfl, others⟩ := List.cons_prefix_cons.mp leading
      exact later part others

/-- An id that is given is never given to anybody else. -/
theorem Consistent.id?_after_iff (consistent : lobby.Consistent) (numbered : lobby.Numbered)
    (spare : lobby.directory.nextId.toNat + (lobby.arrivals history).length < UInt64.size)
    (given : lobby.id? c = some id) :
    (lobby.after history).id? d = some id ↔
      d = c ∧ ∀ part, part <+: history → (lobby.after part).Knows c := by
  constructor
  · intro givenLater
    -- the id is old, so it was d's already when it was c's
    have all := consistent.id?_before numbered spare (numbered.id_lt given) givenLater
    have same : d = c := numbered.unique (all [] List.nil_prefix) given
    subst same
    refine ⟨rfl, fun part leading => ?_⟩
    obtain ⟨client, record, -⟩ := Option.map_eq_some_iff.mp (all part leading)
    exact ⟨client, record⟩
  · rintro ⟨rfl, stays⟩
    exact consistent.id?_after given stays

end Histories

/-- Unless ids run out, the k-th connection that is given a record, counted over the
    whole history, is answered the id k and told nothing else, and these ids are
    distinct.  A connection that has a record is answered its id, and nothing happens.
    And of two clients that are there at any two times, the later has the id of the
    earlier exactly if it is the same client, which has not gone away in between. -/
theorem ids_never_reused (limits : Limits) (draws : Draws)
    (history : List (ConnectionId × Operation))
    (few : ((Lobby.empty limits draws).arrivals history).length < 2 ^ 64 - 1) :
    let lobby := Lobby.empty limits draws
    (∀ k arrival, (lobby.arrivals history)[k]? = some arrival →
      ∃ id : ClientId, id.val.toNat = k + 1 ∧
        arrival.outcome.value = .ok (.connected id) ∧
        arrival.outcome.messages = [.notify arrival.connection (.clientId id)] ∧
        arrival.outcome.lobby.id? arrival.connection = some id) ∧
      ((lobby.arrivals history).map fun arrival => arrival.outcome.value).Nodup ∧
      (∀ step ∈ lobby.course history, step.operation = .connect →
        ∀ client, step.before.directory.get? step.connection = some client →
          step.outcome = ⟨.ok (.connected client.id), step.before, []⟩) ∧
      ∀ early meanwhile late, history = early ++ meanwhile ++ late →
        ∀ c d id, (lobby.after early).id? c = some id →
          ((lobby.after (early ++ meanwhile)).id? d = some id ↔
            d = c ∧ ∀ part, part <+: meanwhile → (lobby.after (early ++ part)).Knows c) := by
  intro lobby
  have consistent : lobby.Consistent := .empty limits draws
  have numbered : lobby.Numbered := .empty limits draws
  have first : lobby.directory.nextId.toNat = 1 := rfl
  have spare : lobby.directory.nextId.toNat + (lobby.arrivals history).length < UInt64.size := by
    rw [first]
    exact Nat.add_lt_of_lt_sub' few
  refine ⟨?_, consistent.arrivals_nodup numbered spare, ?_, ?_⟩
  · intro k arrival listed
    obtain ⟨next, fresh, outcome⟩ := consistent.arrival_outcome numbered spare listed
    rw [first, Nat.add_comm] at next
    refine ⟨_, next, by rw [outcome], by rw [outcome], ?_⟩
    rw [outcome, id?_enroll _ _ _ fresh, if_pos rfl]
  · rintro ⟨before, c, operation⟩ - rfl client record
    simp [Performed.outcome, perform, Lobby.connect, record, Outcome.map]
  · rintro early meanwhile late rfl c d id given
    rw [arrivals_append, arrivals_append, List.length_append, List.length_append] at spare
    have spareEarly : lobby.directory.nextId.toNat + (lobby.arrivals early).length <
        UInt64.size := by omega
    obtain ⟨numberedThen, nextThen⟩ := consistent.numbered_after numbered spareEarly
    simp only [after_append]
    exact (consistent.after early).id?_after_iff numberedThen (by omega) given

/-- A connection goes away and comes back: it is another client then. -/
theorem returning_client_renumbered :
    let lobby := Lobby.empty {} (Draws.ofList [])
    let history : List (ConnectionId × Operation) :=
      [(⟨1⟩, .connect), (⟨2⟩, .connect), (⟨2⟩, .connect), (⟨1⟩, .disconnect), (⟨1⟩, .connect)]
    (lobby.arrivals history).length < 2 ^ 64 - 1 ∧
      ∃ arrival id, (lobby.arrivals history)[2]? = some arrival ∧ arrival.connection = ⟨1⟩ ∧
        id.val.toNat = 3 ∧ arrival.outcome.value = .ok (.connected id) ∧
        arrival.outcome.messages = [.notify ⟨1⟩ (.clientId id)] := by
  intro lobby history
  have few : (lobby.arrivals history).length < 2 ^ 64 - 1 := by decide +kernel
  have third : ((lobby.arrivals history)[2]?).map Performed.connection = some ⟨1⟩ := by
    decide +kernel
  obtain ⟨arrival, listed, returns⟩ := Option.map_eq_some_iff.mp third
  obtain ⟨id, number, answer, told, -⟩ :=
    (ids_never_reused {} (Draws.ofList []) history few).1 2 arrival listed
  exact ⟨few, arrival, id, listed, returns, number, answer, returns ▸ told⟩

end Rendezvous.Lobby

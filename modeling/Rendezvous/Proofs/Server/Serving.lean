import Rendezvous.Proofs.Server.Trace
import Rendezvous.Server.Run

/-! # Serving

A run of the server hands over, in order and once each, what the events cause
that were reported before the transport stopped
(`serve_hands_over_in_order`).  How the events were grouped into batches and
which packets the transport refused makes no difference.

The one list of events and the one outbox are what could go wrong: whatever were
left in them would be handled or sent again.  They are empty whenever the next
event or the next batch is taken (`handle_eq`, `handleBatches_spec`), since
handling an event empties the outbox and handling a batch empties the list.
-/

namespace Rendezvous

/-! ## Calls -/

def Call.attempt? : Call → Option (Delivery × Option TransportError)
  | .send delivery refused => some (delivery, refused)
  | .poll | .shutdown => none

/-- The packets that a run hands over and what comes of each, in order. -/
def Report.attempts (report : Report) : List (Delivery × Option TransportError) :=
  report.calls.filterMap Call.attempt?

namespace Script

variable (script : Script)

def taken (batches : List Batch) : List Batch := batches.takeWhile fun batch => batch.count ≠ 0

/-- The events that are reported before the transport stops. -/
def events : List Event := (taken script.batches).flatMap Batch.events

/-- Deliveries with what comes of each; `sent` were handed over before. -/
def outcomes (sent : Nat) (deliveries : List Delivery) :
    List (Delivery × Option TransportError) :=
  (deliveries.zipIdx sent).map fun entry => (entry.1, script.refuses entry.2 entry.1)

theorem outcomes_append (sent : Nat) (early late : List Delivery) :
    script.outcomes sent (early ++ late) =
      script.outcomes sent early ++ script.outcomes (sent + early.length) late := by
  rw [outcomes, List.zipIdx_append, List.map_append]
  rfl

theorem fst_outcomes (sent : Nat) (deliveries : List Delivery) :
    (script.outcomes sent deliveries).map Prod.fst = deliveries := by
  rw [outcomes, List.map_map]
  exact List.zipIdx_map_fst sent deliveries

theorem attempts_handOver (sent : Nat) (deliveries : List Delivery) :
    (script.handOver sent deliveries).filterMap Call.attempt? = script.outcomes sent deliveries := by
  induction deliveries generalizing sent with
  | nil => rfl
  | cons delivery deliveries inductionHypothesis =>
    rw [handOver, List.filterMap_cons, Call.attempt?, inductionHypothesis, outcomes, outcomes,
      List.zipIdx_cons, List.map_cons]

theorem shutdown_notMem_handOver (sent : Nat) (deliveries : List Delivery) :
    .shutdown ∉ script.handOver sent deliveries := by
  induction deliveries generalizing sent with
  | nil => exact List.not_mem_nil
  | cons delivery deliveries inductionHypothesis =>
    rw [handOver, List.mem_cons, not_or]
    exact ⟨nofun, inductionHypothesis (sent + 1)⟩

theorem handOver_append (sent : Nat) (early late : List Delivery) :
    script.handOver sent (early ++ late) =
      script.handOver sent early ++ script.handOver (sent + early.length) late := by
  induction early generalizing sent with
  | nil => rfl
  | cons delivery early inductionHypothesis =>
    have shift : sent + (early.length + 1) = sent + 1 + early.length := by omega
    rw [List.cons_append, handOver, handOver, inductionHypothesis, List.length_cons, shift,
      List.cons_append]

/-! ## Events and batches -/

variable (lobby : Lobby) (sent : Nat)

/-- With nothing waiting to be sent, handling an event hands over what it causes and
    leaves nothing waiting. -/
theorem handle_eq (event : Event) :
    let step : Handled := ⟨lobby, event⟩
    script.handle { lobby, sent } event =
      (script.handOver sent step.deliveries,
        { lobby := step.after, sent := sent + step.deliveries.length }) := rfl

theorem handleAll_eq (events : List Event) :
    let deliveries := (lobby.trace events).flatMap Handled.deliveries
    script.handleAll { lobby, sent } events =
      (script.handOver sent deliveries,
        { lobby := lobby.afterAll events, sent := sent + deliveries.length }) := by
  induction events generalizing lobby sent with
  | nil => rfl
  | cons event events inductionHypothesis =>
    have first := script.handle_eq lobby sent event
    -- the next event finds the outbox empty again
    simp only at first inductionHypothesis
    simp only [handleAll, first, inductionHypothesis, Lobby.trace, List.flatMap_cons,
      handOver_append, List.length_append, ← Nat.add_assoc]
    rfl

/-- With nothing waiting to be handled or sent, batches are handled as their events
    one after another, up to the batch with which the transport stops. -/
theorem handleBatches_spec (batches : List Batch) :
    let run := script.handleBatches { lobby, sent } batches
    let events := (taken batches).flatMap Batch.events
    run.1.filterMap Call.attempt? =
        script.outcomes sent ((lobby.trace events).flatMap Handled.deliveries) ∧
      .shutdown ∉ run.1 ∧ run.2.1.lobby = lobby.afterAll events := by
  induction batches generalizing lobby sent with
  | nil => exact ⟨rfl, List.not_mem_nil, rfl⟩
  | cons batch batches inductionHypothesis =>
    by_cases stops : batch.count = 0
    · have nothing : taken (batch :: batches) = [] :=
        List.takeWhile_cons_of_neg (by simpa using stops)
      simp only [handleBatches, if_pos stops, nothing]
      exact ⟨rfl, by simp, rfl⟩
    · have more : taken (batch :: batches) = batch :: taken batches :=
        List.takeWhile_cons_of_pos (by simpa using stops)
      -- the batch is used up, and what it causes has been sent
      have first := script.handleAll_eq lobby sent batch.events
      simp only at first
      obtain ⟨attempts, noShutdown, last⟩ := inductionHypothesis (lobby.afterAll batch.events)
        (sent + ((lobby.trace batch.events).flatMap Handled.deliveries).length)
      simp only [handleBatches, if_neg stops, List.nil_append, first, more, List.flatMap_cons,
        Lobby.trace_append, List.flatMap_append, outcomes_append]
      refine ⟨?_, ?_, ?_⟩
      · rw [List.cons_append, List.filterMap_cons, List.filterMap_append, attempts_handOver,
          attempts]
        rfl
      · simp only [List.cons_append, List.mem_cons, List.mem_append, not_or]
        exact ⟨nofun, script.shutdown_notMem_handOver sent _, noShutdown⟩
      · rw [last, Lobby.afterAll, Lobby.afterAll, Lobby.afterAll, List.foldl_append]

end Script

/-! ## A whole run -/

theorem Lobby.serve_eq (lobby : Lobby) (script : Script) :
    (lobby.serve script).attempts =
        script.outcomes 0 ((lobby.trace script.events).flatMap Handled.deliveries) ∧
      (lobby.serve script).lobby = lobby.afterAll script.events := by
  obtain ⟨attempts, -, last⟩ := script.handleBatches_spec lobby 0 script.batches
  refine ⟨?_, last⟩
  rw [Report.attempts, serve, List.filterMap_append, attempts]
  exact List.append_nil _

/-- A run hands over what the events before the transport stops cause, in order and
    once each, whatever the transport refuses, and ends in the lobby that these
    events lead to.  It shuts the transport down once, after everything else, and
    fails only if that fails.  So runs with the same events hand over the same
    packets, however the events come in batches. -/
theorem serve_hands_over_in_order (limits : Limits) (draws : Draws) (script : Script) :
    let lobby := Lobby.empty limits draws
    let report := lobby.serve script
    let deliveries := (lobby.trace script.events).flatMap Handled.deliveries
    report.attempts =
        deliveries.zipIdx.map (fun entry => (entry.1, script.refuses entry.2 entry.1)) ∧
      report.lobby = lobby.afterAll script.events ∧
      (∃ calls, report.calls = calls ++ [.shutdown] ∧ .shutdown ∉ calls) ∧
      (report.result = .ok () ↔ script.shutdownError = none) ∧
      (∀ cause, script.shutdownError = some cause → report.result = .error (.transport cause)) ∧
      ∀ other : Script, other.events = script.events →
        (lobby.serve other).attempts.map Prod.fst = report.attempts.map Prod.fst := by
  intro lobby report deliveries
  have served := lobby.serve_eq
  have succeeds : script.shutdownError = none → report.result = .ok () := by
    intro closed
    simp only [report, Lobby.serve, closed]
  have fails : ∀ cause, script.shutdownError = some cause →
      report.result = .error (.transport cause) := by
    intro cause failed
    simp only [report, Lobby.serve, failed]
  obtain ⟨-, noShutdown, -⟩ := script.handleBatches_spec lobby 0 script.batches
  refine ⟨(served script).1, (served script).2, ⟨_, rfl, noShutdown⟩, ⟨?_, succeeds⟩, fails, ?_⟩
  · intro succeeded
    cases failed : script.shutdownError with
    | none => rfl
    | some cause =>
      rw [fails cause failed] at succeeded
      cases succeeded
  · intro other same
    rw [(served other).1, (served script).1, same, Script.fst_outcomes, Script.fst_outcomes]

/-- A gathering that is reported at once, and one that is reported event by event with
    empty batches in between to a transport that refuses everything: the same
    packets are handed over. -/
theorem gathering_handed_over :
    let lobby := Lobby.empty {} (Draws.ofList [7])
    let together : Script := { batches := [⟨gathering, 8⟩] }
    let apart : Script := {
      batches := gathering.flatMap fun event => [⟨[], 1⟩, ⟨[event], 1⟩]
      ending := .asked
      refuses := fun _ delivery => some (.queueFull delivery.recipient)
      shutdownError := some .shutdown }
    apart.events = together.events ∧
      (lobby.serve apart).attempts.map Prod.fst = (lobby.serve together).attempts.map Prod.fst ∧
      (lobby.serve apart).result = .error (.transport .shutdown) ∧
      (lobby.serve together).attempts.length = 13 := by
  intro lobby together apart
  have same : apart.events = together.events := by decide
  obtain ⟨attempts, -, -, -, -, regrouped⟩ :=
    serve_hands_over_in_order {} (Draws.ofList [7]) together
  obtain ⟨-, -, -, -, failed, -⟩ := serve_hands_over_in_order {} (Draws.ofList [7]) apart
  refine ⟨same, regrouped apart same, failed .shutdown rfl, ?_⟩
  rw [attempts]
  decide +kernel

end Rendezvous

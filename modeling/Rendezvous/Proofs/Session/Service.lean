import Rendezvous.Proofs.Server.Serving
import Rendezvous.Proofs.Session.Channel
import Rendezvous.Session.Service

/-! # The service serves

A service does what the server does on a transport, with its endpoint for the transport
(`actAll_serves`): the lobby is led through the events that the endpoint's polls hand over, and
what it has to tell is sent through the endpoint, packet by packet and in order, whatever the
endpoint makes of it.

All that a service does is done at its endpoint, one action after another (`doings`), so what
holds of endpoints, whatever is done at them, holds of the endpoint of a service.
-/

namespace Rendezvous.Session

/-! ## What is sent -/

/-- Whether it is the server that does this. -/
def Action.byServer : Action → Bool
  | .send _ _ _ | .poll => true
  | _ => false

def Action.delivery? : Action → Option Delivery
  | .send c data mode => some ⟨c, data, mode⟩
  | _ => none

namespace Entry

def attempt? (entry : Entry) : Option (Delivery × Option TransportError) :=
  match entry.action, entry.seen with
  | .send c data mode, [.sent _ refused] => some (⟨c, data, mode⟩, refused)
  | _, _ => none

/-- The events that are taken, unless the poll waits for some. -/
def batch? (entry : Entry) : Option Batch :=
  match entry.action, entry.seen with
  | .poll, [.polled (some events)] => some ⟨events, events.length⟩
  | _, _ => none

end Entry

def attempts (log : List Entry) : List (Delivery × Option TransportError) :=
  log.filterMap Entry.attempt?

/-- What the endpoint with this log does for the server. -/
def script (log : List Entry) : Script where
  batches := log.filterMap Entry.batch?
  refuses := fun number _ => (attempts log)[number]?.bind Prod.snd

theorem outcomes_script (log : List Entry) :
    (script log).outcomes 0 ((attempts log).map Prod.fst) = attempts log := by
  refine List.ext_getElem (by simp [Script.outcomes]) fun number _ listed => ?_
  have found : (attempts log)[number]? = some (attempts log)[number] :=
    List.getElem?_eq_getElem listed
  simp [Script.outcomes, script, found]

namespace Endpoint

variable (endpoint : Endpoint)

theorem fst_attempts (actions : List Action) :
    (attempts (endpoint.log actions)).map Prod.fst = actions.filterMap Action.delivery? := by
  induction actions generalizing endpoint with
  | nil => rfl
  | cons action actions inductionHypothesis =>
    rw [log, attempts, List.filterMap_cons, List.filterMap_cons,
      ← inductionHypothesis (endpoint.perform action).2]
    cases action <;> rfl

theorem polled_of_unpolled {actions : List Action} (unpolled : .poll ∉ actions) :
    polled (endpoint.log actions) = [] := by
  induction actions generalizing endpoint with
  | nil => rfl
  | cons action actions inductionHypothesis =>
    obtain ⟨other, unpolled⟩ := not_or.mp (List.mem_cons.not.mp unpolled)
    have silent := (endpoint.perform_effect action).polled_eq_nil (.inl (Ne.symm other))
    rw [log, polled, List.flatMap_cons, silent]
    exact inductionHypothesis _ unpolled

theorem stopped_of_poll (ends : endpoint.poll.1 = some []) : endpoint.stopped = true := by
  rw [poll] at ends
  split at ends
  next stopped => exact stopped
  next =>
    split at ends
    next => cases ends
    next waits =>
      have taken := List.take_eq_nil_iff.mp (Option.some.inj ends)
      exact absurd (taken.resolve_left (by decide)) waits

/-- The batches up to the one with which the endpoint stops hold the events that are handed
    over. -/
theorem events_script (actions : List Action) :
    (script (endpoint.log actions)).events = polled (endpoint.log actions) := by
  suffices handed : (Script.taken ((endpoint.log actions).filterMap Entry.batch?)).flatMap
      Batch.events = polled (endpoint.log actions) from handed
  induction actions generalizing endpoint with
  | nil => rfl
  | cons action actions inductionHypothesis =>
    have later := inductionHypothesis (endpoint.perform action).2
    rw [log, polled, List.flatMap_cons]
    by_cases other : action ≠ .poll
    · have nothing : Entry.batch? ⟨action, (endpoint.perform action).1⟩ = none := by
        cases action with
        | poll => exact absurd rfl other
        | _ => rfl
      rw [List.filterMap_cons_none nothing,
        (endpoint.perform_effect action).polled_eq_nil (.inl other)]
      exact later
    obtain rfl := not_not.mp other
    have seen : (endpoint.perform .poll).1 = [.polled endpoint.poll.1] := rfl
    rw [seen, Entry.polled_poll]
    cases handed : endpoint.poll.1 with
    | none =>
      have nothing : Entry.batch? ⟨.poll, [.polled none]⟩ = none := rfl
      rw [List.filterMap_cons_none nothing]
      exact later
    | some events =>
      have batch : Entry.batch? ⟨.poll, [.polled (some events)]⟩ =
          some ⟨events, events.length⟩ := rfl
      rw [List.filterMap_cons_some batch, Script.taken]
      cases events with
      | nil =>
        -- the server has stopped, and no batch behind this one is taken
        have stopped : (endpoint.perform .poll).2.stopped = true := by
          rw [(endpoint.perform_effect .poll).stopped_eq, endpoint.stopped_of_poll handed,
            Bool.true_or]
        rw [List.takeWhile_cons_of_neg (by decide)]
        exact (polled_of_stopped stopped actions).symm
      | cons event events =>
        rw [List.takeWhile_cons_of_pos (by simp), List.flatMap_cons]
        exact congrArg _ later

end Endpoint

/-! ## What a service does -/

namespace Service

def replies (lobby : Lobby) (events : List Event) : List Action :=
  (lobby.trace events).flatMap fun step => sends step.messages

/-- The events that the next poll hands over. -/
def news (service : Service) : List Event := service.endpoint.poll.1.getD []

def turns (service : Service) : List Action := .poll :: replies service.lobby service.news

/-- The service when a peer has done this, before it polls. -/
def acted (service : Service) (action : Action) : Service :=
  { service with endpoint := (service.endpoint.perform action).2 }

def doing (service : Service) (action : Action) : List Action :=
  action :: ((service.acted action).turns ++ [.settle])

def doings (service : Service) : List Action → List Action
  | [] => []
  | action :: actions => service.doing action ++ (service.act action).2.doings actions

def actAll (service : Service) : List Action → List Observation × Service
  | [] => ([], service)
  | action :: actions =>
    let (seen, service) := service.act action
    let (others, service) := service.actAll actions
    (seen ++ others, service)

theorem answerAll_eq (service : Service) (events : List Event) :
    let actions := replies service.lobby events
    service.answerAll events = ((service.endpoint.log actions).flatMap Entry.seen,
      { endpoint := service.endpoint.after actions, lobby := service.lobby.afterAll events }) := by
  induction events generalizing service with
  | nil => rfl
  | cons event events inductionHypothesis =>
    have all : replies service.lobby (event :: events) =
        sends (service.lobby.handle event).2 ++ replies (service.lobby.handle event).1 events := rfl
    simp only at inductionHypothesis
    simp only [all, answerAll, answer, Endpoint.performAll_eq, inductionHypothesis,
      Endpoint.log_append, Endpoint.after_append, List.flatMap_append]
    rfl

theorem round_eq (service : Service) :
    service.round = ((service.endpoint.log service.turns).flatMap Entry.seen,
      { endpoint := service.endpoint.after service.turns
        lobby := service.lobby.afterAll service.news }) := by
  have answered := answerAll_eq { service with endpoint := service.endpoint.poll.2 } service.news
  simp only [news] at answered
  simp only [round, answered]
  rfl

theorem act_eq (service : Service) (action : Action) :
    service.act action = ((service.endpoint.log (service.doing action)).flatMap Entry.seen,
      { endpoint := service.endpoint.after (service.doing action)
        lobby := service.lobby.afterAll (service.acted action).news }) := by
  have round := (service.acted action).round_eq
  have after : service.endpoint.after (service.doing action) =
      ((service.acted action).endpoint.after (service.acted action).turns).settle.2 := by
    rw [doing, ← List.cons_append, Endpoint.after_append]
    rfl
  have seen : (service.endpoint.log (service.doing action)).flatMap Entry.seen =
      (service.endpoint.perform action).1 ++
        ((service.acted action).endpoint.log (service.acted action).turns).flatMap Entry.seen ++
          ((service.acted action).endpoint.after (service.acted action).turns).settle.1 := by
    rw [doing, Endpoint.log, List.flatMap_cons, Endpoint.log_append, List.flatMap_append,
      ← List.append_assoc]
    exact congrArg _ (List.append_nil _)
  rw [after, seen]
  rw [acted] at round ⊢
  simp only [act, round]

theorem unpolled_replies (lobby : Lobby) (events : List Event) : .poll ∉ replies lobby events := by
  intro listed
  obtain ⟨step, -, sent⟩ := List.mem_flatMap.mp listed
  obtain ⟨delivery, -, same⟩ := List.mem_map.mp sent
  cases same

theorem deliveries_replies (lobby : Lobby) (events : List Event) :
    (replies lobby events).filterMap Action.delivery? =
      (lobby.trace events).flatMap Handled.deliveries := by
  rw [replies, List.filterMap_flatMap]
  refine List.flatMap_congr fun step _ => ?_
  rw [sends, List.filterMap_map]
  exact List.filterMap_some

section Doing

variable {service : Service} {action : Action} (outside : action.byServer = false)
include outside

theorem polled_doing :
    polled (service.endpoint.log (service.doing action)) = (service.acted action).news := by
  let acted := service.acted action
  let rest := replies acted.lobby acted.news ++ [.settle]
  have other : action ≠ .poll := by
    rintro rfl
    cases outside
  have unpolled : .poll ∉ rest := by
    rw [List.mem_append, not_or]
    exact ⟨unpolled_replies _ _, by simp⟩
  have nothing := (service.endpoint.perform_effect action).polled_eq_nil (.inl other)
  calc polled (service.endpoint.log (service.doing action))
      = Entry.polled ⟨action, (service.endpoint.perform action).1⟩ ++
          (Entry.polled ⟨.poll, [.polled acted.endpoint.poll.1]⟩ ++
            polled (acted.endpoint.poll.2.log rest)) := rfl
    _ = acted.news := by
        rw [nothing, Entry.polled_poll, Endpoint.polled_of_unpolled _ unpolled]
        exact List.append_nil _

theorem deliveries_doing :
    (service.doing action).filterMap Action.delivery? =
      (service.lobby.trace (service.acted action).news).flatMap Handled.deliveries := by
  have nothing : action.delivery? = none := by
    cases action with
    | send => cases outside
    | _ => rfl
  rw [doing, turns, List.filterMap_cons_none nothing, List.cons_append,
    List.filterMap_cons_none rfl, List.filterMap_append, deliveries_replies]
  exact List.append_nil _

end Doing

def log (service : Service) (actions : List Action) : List Entry :=
  service.endpoint.log (service.doings actions)

theorem log_cons (service : Service) (action : Action) (actions : List Action) :
    service.log (action :: actions) = service.endpoint.log (service.doing action) ++
      (service.act action).2.log actions := by
  rw [log, doings, Endpoint.log_append, log, act_eq]

/-- Peers' actions lead the lobby through the events that are polled, and what these cause is
    sent, in order and once each. -/
theorem actAll_eq (service : Service) (actions : List Action)
    (outside : ∀ action ∈ actions, action.byServer = false) :
    service.actAll actions = ((service.log actions).flatMap Entry.seen,
        { endpoint := service.endpoint.after (service.doings actions)
          lobby := service.lobby.afterAll (polled (service.log actions)) }) ∧
      (service.doings actions).filterMap Action.delivery? =
        (service.lobby.trace (polled (service.log actions))).flatMap Handled.deliveries := by
  induction actions generalizing service with
  | nil => exact ⟨rfl, rfl⟩
  | cons action actions inductionHypothesis =>
    obtain ⟨first, others⟩ := List.forall_mem_cons.mp outside
    obtain ⟨later, sent⟩ := inductionHypothesis (service.act action).2 others
    have told : polled (service.log (action :: actions)) =
        (service.acted action).news ++ polled ((service.act action).2.log actions) := by
      rw [log_cons, polled, List.flatMap_append]
      exact congrArg (· ++ _) (polled_doing first)
    have lobby : (service.act action).2.lobby =
        service.lobby.afterAll (service.acted action).news := by rw [act_eq]
    constructor
    · have endpoint : service.endpoint.after (service.doings (action :: actions)) =
          (service.act action).2.endpoint.after ((service.act action).2.doings actions) := by
        rw [doings, Endpoint.after_append, act_eq]
      have handled : service.lobby.afterAll (polled (service.log (action :: actions))) =
          (service.act action).2.lobby.afterAll (polled ((service.act action).2.log actions)) := by
        rw [told, lobby]
        exact List.foldl_append
      have seen : (service.act action).1 =
          (service.endpoint.log (service.doing action)).flatMap Entry.seen := by rw [act_eq]
      rw [endpoint, handled, log_cons, List.flatMap_append, ← seen]
      simp only [actAll, later]
    · rw [told, doings, List.filterMap_append, deliveries_doing first, sent, Lobby.trace_append,
        List.flatMap_append, lobby]

/-- A service is the server on the transport that its endpoint is: it makes the same attempts,
    with the same outcomes, and ends with the same lobby.  What its peers see is what comes of
    all that is done at the endpoint, one action after the other. -/
theorem actAll_serves (service : Service) (actions : List Action)
    (outside : ∀ action ∈ actions, action.byServer = false) :
    let report := service.lobby.serve (script (service.log actions))
    service.actAll actions = ((service.log actions).flatMap Entry.seen,
        { endpoint := service.endpoint.after (service.doings actions), lobby := report.lobby }) ∧
      attempts (service.log actions) = report.attempts := by
  intro report
  obtain ⟨performed, sent⟩ := service.actAll_eq actions outside
  obtain ⟨handed, last⟩ := service.lobby.serve_eq (script (service.log actions))
  have events : (script (service.log actions)).events = polled (service.log actions) :=
    service.endpoint.events_script _
  rw [events] at handed last
  constructor
  · rw [performed, last]
  · rw [handed, ← sent, ← service.endpoint.fst_attempts]
    exact (outcomes_script _).symm

end Service

end Rendezvous.Session

import Rendezvous.Proofs.Session.Turn

/-! # Events on their way to the server

An event that is raised waits until a poll hands it over.  Nothing is lost on the way, nothing
comes twice and nothing overtakes anything: what polls have handed over, with what still waits
behind it, is what was raised (`log_channel`).

A server that polls after every action is told of each event before the next is raised, until
it stops; from then on it is told of nothing, whatever is still raised (`polled_quietly`).
-/

namespace Rendezvous.Session

theorem Entry.polled_poll (events : Option (List Event)) :
    Entry.polled ⟨.poll, [.polled events]⟩ = events.getD [] := by
  cases events with
  | none => rfl
  | some events => exact List.append_nil events

namespace Endpoint

variable {endpoint : Endpoint}

/-! ## One action -/

section Effect

variable {action : Action} {seen : List Observation} {next : Endpoint}

theorem Effect.channel (effect : Effect endpoint action seen next) :
    endpoint.pending ++ Entry.raised ⟨action, seen⟩ =
      Entry.polled ⟨action, seen⟩ ++ next.pending := by
  cases effect with
  | admitted | raised => rfl
  | silent _ _ raised polled | stopped raised polled =>
    rw [raised, polled, List.append_nil, List.nil_append]
  | polled waited =>
    rw [Entry.polled_poll, ← waited]
    exact List.append_nil _

/-- Only polls hand anything over, and only while the server has not stopped. -/
theorem Effect.polled_eq_nil (effect : Effect endpoint action seen next)
    (idle : action ≠ .poll ∨ next.stopped = true) : Entry.polled ⟨action, seen⟩ = [] := by
  cases effect with
  | admitted | raised => rfl
  | silent _ _ _ polled | stopped _ polled => exact polled
  | polled _ ends =>
    rw [ends (idle.resolve_left (absurd rfl))]
    rfl

theorem Effect.pending_le (effect : Effect endpoint action seen next) :
    next.pending.length ≤ endpoint.pending.length + 1 := by
  cases effect with
  | admitted | raised => exact List.length_append.le
  | silent | stopped => exact Nat.le_succ _
  | polled waited =>
    rw [waited, List.length_append]
    dsimp only
    omega

end Effect

/-! ## One action after another -/

theorem log_channel (endpoint : Endpoint) (actions : List Action) :
    endpoint.pending ++ raised (endpoint.log actions) =
      polled (endpoint.log actions) ++ (endpoint.after actions).pending := by
  induction actions generalizing endpoint with
  | nil => exact List.append_nil _
  | cons action actions inductionHypothesis =>
    rw [log, raised, polled, List.flatMap_cons, List.flatMap_cons, ← List.append_assoc,
      (endpoint.perform_effect action).channel, List.append_assoc, List.append_assoc]
    exact congrArg _ (inductionHypothesis (endpoint.perform action).2)

theorem polled_of_stopped (stopped : endpoint.stopped = true) (actions : List Action) :
    polled (endpoint.log actions) = [] := by
  induction actions generalizing endpoint with
  | nil => rfl
  | cons action actions inductionHypothesis =>
    have effect := endpoint.perform_effect action
    have still : (endpoint.perform action).2.stopped = true := by
      rw [effect.stopped_eq, stopped, Bool.true_or]
    rw [log, polled, List.flatMap_cons, effect.polled_eq_nil (.inr still)]
    exact inductionHypothesis still

/-! ## A poll after every action -/

theorem pending_poll (goesOn : endpoint.stopped = false)
    (few : endpoint.pending.length ≤ batchLimit) : endpoint.poll.2.pending = [] := by
  rw [poll, goesOn, if_neg Bool.false_ne_true]
  split
  next nothing => exact nothing
  next => exact List.drop_of_length_le few

end Endpoint

/-- Each action is followed by the writers' running until nothing waits, and by a poll. -/
def quietly (actions : List Action) : List Action :=
  actions.flatMap fun action => [action, .settle, .poll]

namespace Endpoint

theorem caughtUp_after {endpoint : Endpoint} {action : Action}
    (goesOn : endpoint.stopped = false) (caughtUp : endpoint.pending = [])
    (continues : action ≠ .stop) :
    let after := endpoint.after [action, .settle, .poll]
    after.stopped = false ∧ after.pending = [] := by
  have effect := endpoint.perform_effect action
  have few := effect.pending_le
  have still := effect.stopped_eq
  rw [caughtUp] at few
  rw [goesOn, decide_eq_false continues, Bool.or_false] at still
  -- an action raises one event at most, so the poll takes all that waits
  have settled : (endpoint.perform action).2.settle.2.stopped = false := still
  refine ⟨?_, pending_poll settled (few.trans (by decide))⟩
  exact (perform_effect _ .poll).stopped_eq.trans ((Bool.or_false _).trans settled)

/-- Whatever is raised is handed over at once, until the server stops. -/
theorem polled_quietly {endpoint : Endpoint} (goesOn : endpoint.stopped = false)
    (caughtUp : endpoint.pending = []) (actions : List Action) :
    polled (endpoint.log (quietly actions)) =
      raised (untilStop (endpoint.log (quietly actions))) := by
  induction actions generalizing endpoint with
  | nil => rfl
  | cons action actions inductionHypothesis =>
    by_cases stops : action = .stop
    · subst stops
      have effect := endpoint.perform_effect .stop
      have stopped : (endpoint.perform .stop).2.stopped = true := by
        rw [effect.stopped_eq, decide_eq_true rfl, Bool.or_true]
      have nothing : untilStop (endpoint.log (quietly (.stop :: actions))) = [] :=
        List.takeWhile_cons_of_neg (by simp)
      have told : polled (endpoint.log (quietly (.stop :: actions))) =
          Entry.polled ⟨.stop, (endpoint.perform .stop).1⟩ ++
            polled ((endpoint.perform .stop).2.log (.settle :: .poll :: quietly actions)) := rfl
      rw [nothing, told, effect.polled_eq_nil (.inr stopped), polled_of_stopped stopped]
      rfl
    · obtain ⟨still, caughtUpThen⟩ := caughtUp_after goesOn caughtUp stops
      have round := endpoint.log_channel [action, .settle, .poll]
      rw [caughtUp, caughtUpThen, List.nil_append, List.append_nil] at round
      have continues : ∀ step ∈ [action, .settle, .poll], decide (step ≠ .stop) = true := by
        simp [stops]
      have later := inductionHypothesis still caughtUpThen
      rw [untilStop_log] at later ⊢
      rw [quietly, List.flatMap_cons, List.takeWhile_append_of_pos continues, log_append, log_append,
        polled, raised, List.flatMap_append, List.flatMap_append]
      exact congrArg₂ _ round.symm later

end Endpoint

end Rendezvous.Session

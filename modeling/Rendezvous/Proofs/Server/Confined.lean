import Rendezvous.Proofs.Lobby.Frame
import Rendezvous.Proofs.Server.Trace

/-! # Events stay in the room of their connection

Whatever happens on a connection, and whatever bytes arrive on it, nobody outside
its room is told of it or changed by it.  `Handled.Confined` says what that means,
and `confined_to_room` that every event in every lobby that a history leads to is
confined.

The lobby's part is done by the frame of a step.  What is added here is the report
to the sender of a declined command: it is the only message then, and it goes to
somebody with a record, since an unknown connection is not told.
-/

namespace Rendezvous

/-! ## Connections of events -/

def Event.connection? : Event → Option ConnectionId
  | .connected c _ | .disconnected c _ | .received c _ _ => some c
  | .failed _ _ => none

theorem Event.connection?_of_operation? {event : Event} {c : ConnectionId}
    {operation : Operation} (asks : event.operation? = some (c, operation)) :
    event.connection? = some c := by
  cases event with
  | connected | disconnected => cases asks; rfl
  | failed => cases asks
  | received d data mode =>
    obtain ⟨read, -, same⟩ := Option.map_eq_some_iff.mp asks
    cases same
    rfl

/-- Whether an event makes a connection close the room that it hosts, if any. -/
def Event.ClosesRoomOf (event : Event) (c : ConnectionId) : Prop :=
  event.operation? = some (c, .close) ∨ event.operation? = some (c, .disconnect)

theorem Event.closesRoomOf_iff {event : Event} {c : ConnectionId} {operation : Operation}
    (asks : event.operation? = some (c, operation)) :
    event.ClosesRoomOf c ↔ operation.closesRoom = true := by
  rw [ClosesRoomOf, asks]
  cases operation <;> simp [Operation.closesRoom]

/-! ## Reports -/

/-- Either nobody is told the answer to a step, or its connection is told and nothing
    else is: it has a record then. -/
theorem Lobby.Step.report_cases {lobby : Lobby} {c : ConnectionId} {operation : Operation}
    {outcome : Outcome (Answer Reply)} (step : Step lobby c operation outcome) :
    operation.report c outcome.value = [] ∨
      outcome.messages = [] ∧ outcome.lobby.Knows c ∧
        (operation.report c outcome.value).map Message.recipient = [c] := by
  cases answer : outcome.value with
  | ok => exact .inl (by cases operation <;> rfl)
  | error refusal =>
    obtain ⟨declines, same, silent⟩ := step.of_error answer
    cases reportable : refusal.isReportable with
    | false =>
      exact .inl (by cases operation <;> simp [Operation.report, refusalNotice, reportable])
    | true =>
      rw [same]
      cases operation with
      | relay => exact .inl rfl
      | _ =>
        refine .inr ⟨silent, declines.known reportable, ?_⟩
        simp [Operation.report, refusalNotice, reportable, Message.notify]

/-! ## Confinement -/

namespace Handled

/-- An event changes nothing and tells nobody outside the room of a connection: the
    one that it is in before or the one that it is in afterwards. -/
structure Confined (c : ConnectionId) (step : Handled) : Prop where
  /-- Whoever is sent something is the connection itself or a member of its room. -/
  recipient : ∀ delivery ∈ step.deliveries, delivery.recipient = c ∨
    step.before.Shares c delivery.recipient ∨ step.after.Shares c delivery.recipient
  once : (step.deliveries.map Delivery.recipient).Nodup
  known : ∀ delivery ∈ step.deliveries,
    ∃ client, step.after.directory.get? delivery.recipient = some client
  /-- Who goes away has no record afterwards, and is sent nothing. -/
  gone : ∀ reason, step.event = .disconnected c reason →
    step.after.directory.get? c = none ∧ ∀ delivery ∈ step.deliveries, delivery.recipient ≠ c
  room_kept : ∀ code, step.before.place? c ≠ some code → step.after.place? c ≠ some code →
    step.after.rooms[code]? = step.before.rooms[code]?
  /-- A room is closed exactly when its host closes it or goes away. -/
  closed_iff : ∀ (code : RoomCode) (room : Room), step.before.rooms[code]? = some room →
    (step.after.rooms[code]? = none ↔ room.host = c ∧ step.event.ClosesRoomOf c)
  /-- Its members are in no room then, and nothing else about the others changes. -/
  released : ∀ (code : RoomCode) (room : Room), step.before.rooms[code]? = some room →
    step.after.rooms[code]? = none → ∀ d ∈ room.members, step.after.place? d = none ∧
      (d ≠ c → step.after.directory.get? d =
        (step.before.directory.get? d).map fun client => { client with room := none })
  record_kept : ∀ d, d ≠ c →
    (∀ (code : RoomCode) (room : Room), step.before.rooms[code]? = some room →
      step.after.rooms[code]? = none → d ∉ room.members) →
    step.after.directory.get? d = step.before.directory.get? d

variable {step : Handled} {c : ConnectionId}

theorem recipients_eq (step : Handled) :
    step.deliveries.map Delivery.recipient = step.messages.map Message.recipient := by
  rw [deliveries, List.map_map]
  exact List.map_congr_left fun message _ => message.recipient_delivery

theorem Confined.of_idle (idle : step.event.operation? = none)
    (same : step.after = step.before) (silent : step.messages = []) : step.Confined c := by
  have nothing : step.deliveries = [] := by rw [deliveries, silent]; rfl
  have closesNot : ¬step.event.ClosesRoomOf c := by simp [Event.ClosesRoomOf, idle]
  have open_after : ∀ (code : RoomCode) (room : Room), step.before.rooms[code]? = some room →
      step.after.rooms[code]? ≠ none := by
    intro code room stored
    rw [same, stored]
    exact Option.some_ne_none room
  refine
    { recipient := ?_, once := ?_, known := ?_, gone := ?_, room_kept := ?_, closed_iff := ?_
      released := ?_, record_kept := ?_ }
  · simp [nothing]
  · simp [nothing]
  · simp [nothing]
  · intro reason happened
    rw [happened] at idle
    cases idle
  · intro code _ _
    rw [same]
  · intro code room stored
    simp [open_after code room stored, closesNot]
  · exact fun code room stored closed => absurd closed (open_after code room stored)
  · intro d _ _
    rw [same]

/-- Whatever a step and its report tell, they tell members of the room, once each. -/
theorem told_of_step {operation : Operation} {outcome : Outcome (Answer Reply)}
    (consistent : step.before.Consistent)
    (done : Lobby.Step step.before c operation outcome) (after : step.after = outcome.lobby)
    (told : step.messages = outcome.messages ++ operation.report c outcome.value) :
    (∀ message ∈ step.messages, (message.recipient = c ∨
        step.before.Shares c message.recipient ∨ step.after.Shares c message.recipient) ∧
      step.after.Knows message.recipient) ∧
    (step.messages.map Message.recipient).Nodup := by
  rw [told, after]
  rcases done.report_cases with unreported | ⟨silent, known, toSender⟩
  · rw [unreported, List.append_nil]
    exact ⟨fun message listed => done.recipient consistent listed,
      done.recipients_nodup consistent⟩
  · rw [silent, List.nil_append, toSender]
    refine ⟨fun message listed => ?_, List.nodup_singleton c⟩
    have own : message.recipient = c :=
      List.mem_singleton.mp (toSender ▸ List.mem_map_of_mem listed)
    exact ⟨.inl own, own.symm ▸ known⟩

/-- An event that is a step of a connection is confined to its room. -/
theorem Confined.of_step {operation : Operation} {outcome : Outcome (Answer Reply)}
    (consistent : step.before.Consistent)
    (asks : step.event.operation? = some (c, operation))
    (done : Lobby.Step step.before c operation outcome) (after : step.after = outcome.lobby)
    (told : step.messages = outcome.messages ++ operation.report c outcome.value) :
    step.Confined c := by
  obtain ⟨members, nodup⟩ := told_of_step consistent done after told
  have sent : ∀ delivery ∈ step.deliveries,
      ∃ message ∈ step.messages, message.recipient = delivery.recipient := by
    intro delivery queued
    obtain ⟨message, listed, rfl⟩ := List.mem_map.mp queued
    exact ⟨message, listed, message.recipient_delivery.symm⟩
  have known : ∀ delivery ∈ step.deliveries, step.after.Knows delivery.recipient := by
    intro delivery queued
    obtain ⟨message, listed, same⟩ := sent delivery queued
    exact same ▸ (members message listed).2
  have closed_iff : ∀ (code : RoomCode) (room : Room), step.before.rooms[code]? = some room →
      (step.after.rooms[code]? = none ↔ room.host = c ∧ operation.closesRoom = true) := by
    intro code room stored
    rw [after]
    exact done.closed_iff consistent stored
  refine
    { recipient := ?_, once := ?_, known := known, gone := ?_, room_kept := ?_, closed_iff := ?_
      released := ?_, record_kept := ?_ }
  · intro delivery queued
    obtain ⟨message, listed, same⟩ := sent delivery queued
    exact same ▸ (members message listed).1
  · rw [recipients_eq]
    exact nodup
  · intro reason happened
    rw [happened] at asks
    cases asks
    have forgotten : step.after.directory.get? c = none := by
      rw [after]
      exact done.forgotten
    -- whoever is sent something has a record, and this one has none any more
    refine ⟨forgotten, fun delivery queued same => ?_⟩
    obtain ⟨client, record⟩ := known delivery queued
    rw [same, forgotten] at record
    cases record
  · intro code notBefore notAfter
    rw [after] at notAfter ⊢
    exact done.room_kept consistent notBefore notAfter
  · intro code room stored
    rw [closed_iff code room stored, Event.closesRoomOf_iff asks]
  · intro code room stored closed d member
    obtain ⟨host, closes⟩ := (closed_iff code room stored).mp closed
    rw [after]
    exact done.released consistent stored host closes member
  · intro d other stays
    rw [after]
    refine done.record_kept other fun code room stored host closes => ?_
    exact stays code room stored ((closed_iff code room stored).mpr ⟨host, closes⟩)

end Handled

/-- In every lobby that a history leads to, everything that happens on a connection,
    whatever bytes arrive on it, is confined to the room of that connection. -/
theorem confined_to_room (limits : Limits) (draws : Draws)
    (history : List (ConnectionId × Operation)) (event : Event) (c : ConnectionId)
    (happens : event.connection? = some c) :
    Handled.Confined c ⟨(Lobby.empty limits draws).after history, event⟩ := by
  have consistent := Lobby.consistent_after limits draws history
  rcases Handled.cases ⟨_, event⟩ consistent with
    ⟨idle, same, silent⟩ | ⟨a, operation, outcome, asks, done, after, told⟩
  · exact .of_idle idle same silent
  · -- the operation is one of this connection
    have here : a = c :=
      Option.some.inj ((Event.connection?_of_operation? asks).symm.trans happens)
    subst here
    exact .of_step consistent asks done after told

/-- A host goes away: its guest is told, and a client in another room is not. -/
theorem departure_confined :
    let history : List (ConnectionId × Operation) :=
      [(⟨1⟩, .connect), (⟨2⟩, .connect), (⟨3⟩, .connect), (⟨1⟩, .create), (⟨3⟩, .create),
        (⟨2⟩, .join ⟨7⟩)]
    let step : Handled :=
      ⟨(Lobby.empty {} (Draws.ofList [7, 8])).after history, .disconnected ⟨1⟩ "gone"⟩
    step.event.connection? = some ⟨1⟩ ∧ step.Confined ⟨1⟩ ∧
      step.deliveries.map Delivery.recipient = [⟨2⟩] := by
  refine ⟨rfl, ?_, ?_⟩
  · exact confined_to_room {} (Draws.ofList [7, 8]) _ (.disconnected ⟨1⟩ "gone") ⟨1⟩ rfl
  · decide +kernel

end Rendezvous

import Rendezvous.Server.Handling
import Rendezvous.Proofs.Lobby.History

/-! # Traces

An event asks for at most one operation (`Event.operation?`), and handling it is
performing that operation and reporting to its sender (`handle_eq`).  So what
every step keeps, every event keeps.

A `trace` lists the events of a run, each with the lobby that it met.  Everything
that is said about a run is said about its trace.
-/

namespace Rendezvous

open Rendezvous.Wire (Bytes Command Packet)

/-! ## Relay packets -/

/-- Whether the first byte of a packet is there and is not zero. -/
def Wire.Packet.isRelayed : Bytes → Bool
  | [] => false
  | first :: _ => first ≠ controlByte

theorem Wire.Packet.split_of_isRelayed {data : Bytes} (relayed : Packet.isRelayed data = true) :
    Packet.split data = .ok (.relayed data) := by
  cases data with
  | nil => cases relayed
  | cons first rest =>
    simp only [isRelayed, decide_eq_true_eq] at relayed
    simp only [split, if_neg relayed]

theorem Wire.Packet.of_split_relayed {packet data : Bytes}
    (split : Packet.split packet = .ok (.relayed data)) :
    data = packet ∧ Packet.isRelayed packet = true := by
  cases packet with
  | nil => cases split
  | cons first rest =>
    simp only [Packet.split] at split
    split at split
    next control => cases rest <;> cases split
    next relayed =>
      cases split
      exact ⟨rfl, by simpa [isRelayed] using relayed⟩

/-! ## Events as operations -/

def Operation.ofPacket? (data : Bytes) (mode : DeliveryMode) : Option Operation :=
  match Packet.split data with
  | .error _ => none
  | .ok (.relayed data) => some (.relay data mode)
  | .ok (.control code fields) =>
    match Command.ofFields code fields with
    | .error _ => none
    | .ok command => some (.ofCommand command)

def Event.operation? : Event → Option (ConnectionId × Operation)
  | .connected c _ => some (c, .connect)
  | .disconnected c _ => some (c, .disconnect)
  | .received c data mode => (Operation.ofPacket? data mode).map fun operation => (c, operation)
  | .failed _ _ => none

/-- A packet that can be read is passed on as it is, or it carries a command. -/
theorem Operation.ofPacket?_cases {data : Bytes} {mode : DeliveryMode} {operation : Operation}
    (asks : Operation.ofPacket? data mode = some operation) :
    (operation = .relay data mode ∧ Packet.isRelayed data = true) ∨
      ∃ command, operation = .ofCommand command := by
  simp only [ofPacket?] at asks
  split at asks
  next => cases asks
  next relayed split =>
    cases asks
    obtain ⟨rfl, isRelayed⟩ := Packet.of_split_relayed split
    exact .inl ⟨rfl, isRelayed⟩
  next =>
    split at asks
    next => cases asks
    next command _ =>
      cases asks
      exact .inr ⟨command, rfl⟩

theorem Event.operation?_eq_relay_iff {event : Event} {c : ConnectionId} {data : Bytes}
    {mode : DeliveryMode} :
    event.operation? = some (c, .relay data mode) ↔
      event = .received c data mode ∧ Packet.isRelayed data = true := by
  constructor
  · intro asks
    cases event with
    | connected => simp [operation?] at asks
    | disconnected => simp [operation?] at asks
    | failed => simp [operation?] at asks
    | received d packet packetMode =>
      simp only [operation?, Option.map_eq_some_iff, Prod.mk.injEq] at asks
      obtain ⟨operation, ofPacket, rfl, rfl⟩ := asks
      rcases Operation.ofPacket?_cases ofPacket with ⟨same, isRelayed⟩ | ⟨command, same⟩
      · cases same
        exact ⟨rfl, isRelayed⟩
      · cases command <;> cases same
  · rintro ⟨rfl, isRelayed⟩
    simp [operation?, Operation.ofPacket?, Packet.split_of_isRelayed isRelayed]

theorem Event.of_operation?_connect {event : Event} {c : ConnectionId}
    (asks : event.operation? = some (c, .connect)) : ∃ peer, event = .connected c peer := by
  cases event with
  | connected d peer =>
    cases asks
    exact ⟨peer, rfl⟩
  | disconnected => simp [operation?] at asks
  | failed => simp [operation?] at asks
  | received d packet mode =>
    simp only [operation?, Option.map_eq_some_iff, Prod.mk.injEq] at asks
    obtain ⟨operation, ofPacket, -, rfl⟩ := asks
    rcases Operation.ofPacket?_cases ofPacket with ⟨same, -⟩ | ⟨command, same⟩
    · cases same
    · cases command <;> cases same

/-! ## Handling -/

/-- What the sender is told about the answer to an operation: why its command is
    declined, and nothing about a packet that is not passed on. -/
def Operation.report (operation : Operation) (c : ConnectionId) (answer : Answer Reply) :
    List Message :=
  match operation, answer with
  | .relay .., _ | _, .ok _ => []
  | _, .error refusal => Lobby.refusalNotice c refusal

theorem Operation.report_invalid (operation : Operation) (c : ConnectionId)
    (answer : Answer Reply) :
    ∀ message ∈ operation.report c answer, ∃ reason, message = .notify c (.invalid reason) := by
  have refused : ∀ refusal, ∀ message ∈ Lobby.refusalNotice c refusal,
      ∃ reason, message = .notify c (.invalid reason) := by
    intro refusal message listed
    rw [Lobby.refusalNotice] at listed
    split at listed
    · exact ⟨refusal.message, List.mem_singleton.mp listed⟩
    · cases listed
  cases answer with
  | ok => cases operation <;> simp [report]
  | error refusal =>
    cases operation with
    | relay => simp [report]
    | _ => exact refused refusal

/-- Handling an event is performing what it asks for and reporting the answer. -/
theorem Lobby.handle_eq (lobby : Lobby) (event : Event) :
    lobby.handle event =
      match event.operation? with
      | none => (lobby, [])
      | some (c, operation) =>
        let outcome := lobby.perform c operation
        (outcome.lobby, outcome.messages ++ operation.report c outcome.value) := by
  cases event with
  | connected c peer => simp [handle, Event.operation?, perform, Outcome.map, Operation.report]
  | disconnected c reason => simp [handle, Event.operation?, perform, Outcome.map, Operation.report]
  | failed peer error => rfl
  | received c data mode =>
    -- both sides read the packet the same way: what kind it is, then which command
    cases kind : Packet.split data with
    | error => simp [handle, receive, Event.operation?, Operation.ofPacket?, kind]
    | ok packet =>
      cases packet with
      | relayed =>
        simp [handle, receive, Event.operation?, Operation.ofPacket?, kind, perform, Outcome.map,
          Operation.report]
      | control code fields =>
        cases read : Command.ofFields code fields with
        | error => simp [handle, receive, Event.operation?, Operation.ofPacket?, kind, read]
        | ok command =>
          simp only [handle, receive, Event.operation?, Operation.ofPacket?, kind, read, execute,
            Option.map_some]
          cases (lobby.perform c (.ofCommand command)).value <;> cases command <;>
            simp [Operation.report, Operation.ofCommand]

/-! ## Traces -/

theorem Message.recipient_delivery (message : Message) :
    message.delivery.recipient = message.recipient := by
  rw [delivery]
  split <;> rfl

structure Handled where
  before : Lobby
  event : Event

namespace Handled

def after (step : Handled) : Lobby := (step.before.handle step.event).1

def messages (step : Handled) : List Message := (step.before.handle step.event).2

def deliveries (step : Handled) : List Delivery := step.messages.map Message.delivery

def registers (step : Handled) : Bool :=
  match step.event with
  | .connected c _ => (step.before.directory.get? c).isNone
  | _ => false

/-- What an event does to a consistent lobby: nothing, or one step and a report. -/
theorem cases (step : Handled) (consistent : step.before.Consistent) :
    step.event.operation? = none ∧ step.after = step.before ∧ step.messages = [] ∨
      ∃ c operation outcome, step.event.operation? = some (c, operation) ∧
        Lobby.Step step.before c operation outcome ∧ step.after = outcome.lobby ∧
          step.messages = outcome.messages ++ operation.report c outcome.value := by
  have handled := step.before.handle_eq step.event
  cases asks : step.event.operation? with
  | none =>
    rw [asks] at handled
    exact .inl ⟨rfl, by rw [after, handled], by rw [messages, handled]⟩
  | some asked =>
    obtain ⟨c, operation⟩ := asked
    rw [asks] at handled
    exact .inr ⟨c, operation, _, rfl, Lobby.perform_step consistent c operation,
      by rw [after, handled], by rw [messages, handled]⟩

theorem after_consistent (step : Handled) (consistent : step.before.Consistent) :
    step.after.Consistent := by
  rcases step.cases consistent with ⟨-, same, -⟩ | ⟨c, operation, outcome, -, done, same, -⟩
  · rw [same]; exact consistent
  · rw [same]; exact done.consistent consistent

end Handled

namespace Lobby

/-- The events of a run, each with the lobby that it meets. -/
def trace (lobby : Lobby) : List Event → List Handled
  | [] => []
  | event :: events =>
    let step : Handled := ⟨lobby, event⟩
    step :: step.after.trace events

def afterAll (lobby : Lobby) (events : List Event) : Lobby :=
  events.foldl (fun lobby event => (lobby.handle event).1) lobby

theorem trace_append (lobby : Lobby) (early late : List Event) :
    lobby.trace (early ++ late) = lobby.trace early ++ (lobby.afterAll early).trace late := by
  induction early generalizing lobby with
  | nil => rfl
  | cons event early inductionHypothesis =>
    rw [List.cons_append, trace, trace, inductionHypothesis, List.cons_append]
    rfl

theorem Consistent.trace {lobby : Lobby} (consistent : lobby.Consistent) (events : List Event) :
    ∀ step ∈ lobby.trace events, step.before.Consistent := by
  induction events generalizing lobby with
  | nil => intro step member; cases member
  | cons event events inductionHypothesis =>
    intro step member
    rcases List.mem_cons.mp member with rfl | later
    · exact consistent
    · exact inductionHypothesis (Handled.after_consistent ⟨lobby, event⟩ consistent) step later

end Lobby

/-- Two guests join a room, its host passes a packet on, and the first guest goes. -/
def gathering : List Event :=
  [.connected ⟨1⟩ "host", .connected ⟨2⟩ "first", .connected ⟨3⟩ "second",
    .received ⟨1⟩ [0, 0] .reliableOrdered,
    .received ⟨2⟩ [0, 1, 7, 0, 0, 0] .reliableOrdered,
    .received ⟨3⟩ [0, 1, 7, 0, 0, 0] .reliableOrdered,
    .received ⟨1⟩ [1, 2, 3] .unreliable,
    .disconnected ⟨2⟩ "gone"]

end Rendezvous

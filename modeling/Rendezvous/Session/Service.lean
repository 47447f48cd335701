import Rendezvous.Server.Handling
import Rendezvous.Session.Endpoint

/-! # The service

The whole server: an endpoint and the lobby behind it.  The server polls the
endpoint, and each event is handled by the lobby, whose messages are sent through
the endpoint before the next event is looked at.
-/

namespace Rendezvous.Session

structure Service where
  endpoint : Endpoint
  lobby : Lobby

namespace Service

def sends (messages : List Message) : List Action :=
  (Outbox.post {} messages).drain.1.map fun delivery =>
    .send delivery.recipient delivery.data delivery.mode

/-- Handles an event and sends what it causes.  A packet that cannot be sent is
    given up. -/
def answer (service : Service) (event : Event) : List Observation × Service :=
  let (lobby, messages) := service.lobby.handle event
  let (seen, endpoint) := service.endpoint.performAll (sends messages)
  (seen, { endpoint, lobby })

def answerAll (service : Service) : List Event → List Observation × Service
  | [] => ([], service)
  | event :: events =>
    let (seen, service) := service.answer event
    let (others, service) := service.answerAll events
    (seen ++ others, service)

/-- Polls once, and answers the events that this hands over. -/
def round (service : Service) : List Observation × Service :=
  let (polled, endpoint) := service.endpoint.poll
  let (seen, service) := { service with endpoint }.answerAll (polled.getD [])
  (.polled polled :: seen, service)

/-- Carries out an action of a peer and everything that follows from it. -/
def act (service : Service) (action : Action) : List Observation × Service :=
  let (seen, endpoint) := service.endpoint.perform action
  let (answers, service) := { service with endpoint }.round
  let (delivered, endpoint) := service.endpoint.settle
  (seen ++ answers ++ delivered, { service with endpoint })

end Service

end Rendezvous.Session

import Rendezvous.Wire.Notice

/-! # Messages and deliveries

A `Message` says what a connection is to be told: a notice, or a packet passed
on from the other side of its room.  A `Delivery` is the packet that carries it.
Messages keep their notice unencoded until they are delivered, so what was meant
stays visible.

An `Outbox` holds messages in order until they are drained as deliveries.
-/

namespace Rendezvous

open Rendezvous.Wire (Bytes Notice)

inductive DeliveryMode where
  | reliableOrdered
  | reliableUnordered
  | unreliable
  deriving DecidableEq, Repr

structure Delivery where
  recipient : ConnectionId
  data : Bytes
  mode : DeliveryMode
  deriving DecidableEq, Repr

inductive Content where
  | notice (notice : Notice)
  /-- A packet passed on untouched, with the guarantee that it came with. -/
  | relayed (data : Bytes) (mode : DeliveryMode)
  deriving DecidableEq, Repr

structure Message where
  recipient : ConnectionId
  content : Content
  deriving DecidableEq, Repr

namespace Message

def notify (recipient : ConnectionId) (notice : Notice) : Message :=
  ⟨recipient, .notice notice⟩

/-- The same notice for each connection of a list, in order. -/
def broadcast (recipients : List ConnectionId) (notice : Notice) : List Message :=
  recipients.map (notify · notice)

def forward (recipient : ConnectionId) (data : Bytes) (mode : DeliveryMode) : Message :=
  ⟨recipient, .relayed data mode⟩

/-- The packet that carries a message.  Notices are always reliable and ordered. -/
def delivery (message : Message) : Delivery :=
  match message.content with
  | .notice notice => ⟨message.recipient, notice.encode, .reliableOrdered⟩
  | .relayed data mode => ⟨message.recipient, data, mode⟩

end Message

/-- Messages that wait to be sent, oldest first. -/
structure Outbox where
  waiting : List Message := []
  deriving DecidableEq, Repr

namespace Outbox

/-- Adds messages behind those that wait. -/
def post (outbox : Outbox) (messages : List Message) : Outbox :=
  ⟨outbox.waiting ++ messages⟩

def drain (outbox : Outbox) : List Delivery × Outbox :=
  (outbox.waiting.map Message.delivery, {})

/-- Takes at most `count` deliveries and discards the rest. -/
def drainFirst (outbox : Outbox) (count : Nat) : List Delivery × Outbox :=
  (outbox.drain.1.take count, outbox.drain.2)

def isEmpty (outbox : Outbox) : Bool := outbox.waiting.isEmpty

end Outbox

end Rendezvous

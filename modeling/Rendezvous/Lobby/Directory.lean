import Rendezvous.Wire.Notice

/-! # The directory of clients

One record per connection: the client's id, its display name and the room it is
in.  Ids are handed out in order from 1 and never again, whatever is removed.
-/

namespace Rendezvous

open Rendezvous.Wire (Member)

structure Client where
  id : ClientId
  connection : ConnectionId
  /-- The display name; empty until the client takes one. -/
  name : String := ""
  room : Option RoomCode := none
  deriving DecidableEq, Repr

/-- The client as the other members of a room see it. -/
def Client.member (client : Client) : Member := ⟨client.id, client.name⟩

/-- The connected clients, each under its connection, and the next id to give. -/
structure Directory where
  clients : Std.ExtTreeMap ConnectionId Client := ∅
  nextId : UInt64 := 1

namespace Directory

def get? (directory : Directory) (c : ConnectionId) : Option Client := directory.clients[c]?

def size (directory : Directory) : Nat := directory.clients.size

/-- Gives a connection a record, with a fresh id.  A connection that has a record
    keeps it. -/
def register (directory : Directory) (c : ConnectionId) : Client × Directory :=
  match directory.get? c with
  | some client => (client, directory)
  | none =>
    let client : Client := { id := ⟨directory.nextId⟩, connection := c }
    (client, ⟨directory.clients.insert c client, directory.nextId + 1⟩)

def erase (directory : Directory) (c : ConnectionId) : Directory :=
  { directory with clients := directory.clients.erase c }

def update (directory : Directory) (c : ConnectionId) (change : Client → Client) : Directory :=
  { directory with clients := directory.clients.modify c change }

def place (directory : Directory) (c : ConnectionId) (room : Option RoomCode) : Directory :=
  directory.update c fun client => { client with room }

def rename (directory : Directory) (c : ConnectionId) (name : String) : Directory :=
  directory.update c fun client => { client with name }

end Directory

end Rendezvous

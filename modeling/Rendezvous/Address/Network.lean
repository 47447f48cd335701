import Rendezvous.Address.Ip

/-! # The network of a machine

What a machine's network lets a program do: at which addresses and ports it may
listen, and whether packets get through to it.
-/

namespace Rendezvous

/-- The network as a program on a machine sees it. -/
structure Network where
  interfaces : List (String × UInt32)
  owns : IpAddress → Bool
  /-- The lowest port at which every program may listen. -/
  firstOpenPort : UInt16
  carries : Bool

namespace Network

/-- The network of a machine whose one interface is down.  With no route that says
    otherwise, every address of octets passes for its own; it has no address of
    groups, and no packet gets through. -/
def isolated : Network where
  interfaces := [("lo", 1)]
  owns
    | .v4 .. => true
    | .v6 _ => false
  firstOpenPort := 1024
  carries := false

/-- Whether a program may listen at a port.  Port zero asks for any that is free. -/
def opens (network : Network) (port : UInt16) : Bool :=
  port = 0 ∨ network.firstOpenPort ≤ port

def takes (network : Network) (ip : IpAddress) : Bool :=
  ip.isUnspecified || network.owns ip.unmapped

def hasInterface (network : Network) (number : UInt32) : Bool :=
  network.interfaces.any fun interface => interface.2 = number

def interface? (network : Network) (name : String) : Option UInt32 :=
  (network.interfaces.find? fun interface => interface.1 = name).map Prod.snd

end Network

end Rendezvous

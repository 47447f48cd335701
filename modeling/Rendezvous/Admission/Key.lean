import Rendezvous.Admission.FormData

/-! # Admission

A peer is admitted when the upgrade request that it sends presents the server's
key, byte for byte.  It presents a key in a header or, where it cannot set
headers, as a parameter of the query.  The header wins, unless its value is not
plain text.
-/

namespace Rendezvous.Admission

open Rendezvous.Wire (Bytes)

/-- What a peer sends to be admitted: the target that it asks for, and its headers in
    order.  The value of a header may be any bytes. -/
structure UpgradeRequest where
  target : String
  headers : List (String × Bytes) := []
  deriving DecidableEq, Repr

def headerName : String := "x-connection-key"

def parameterName : String := "key"

/-- Whether a header value with this byte can be read as text: printable ASCII,
    space and tab can. -/
def isReadable (b : UInt8) : Bool := (0x20 ≤ b ∧ b < 0x7F) ∨ b = 0x09

namespace UpgradeRequest

/-- The value of the first header of this name, in any case, with whatever blanks are
    around it. -/
def header? (request : UpgradeRequest) (name : String) : Option Bytes :=
  (request.headers.find? fun header => header.1.toLower = name).map Prod.snd

/-- What stands between the first question mark of the target and its fragment. -/
def query? (request : UpgradeRequest) : Option Bytes :=
  match (request.target.toList.takeWhile (· ≠ '#')).dropWhile (· ≠ '?') with
  | [] => none
  | _ :: query => some (Wire.Utf8.encode (String.ofList query))

def headerKey? (request : UpgradeRequest) : Option Bytes :=
  (request.header? headerName).filter (·.all isReadable)

def queryKey? (request : UpgradeRequest) : Option Bytes := do
  let query ← request.query?
  let parameter ← (FormData.parse query).find? fun parameter => parameter.1 = parameterName
  some (Wire.Utf8.encode parameter.2)

def key? (request : UpgradeRequest) : Option Bytes :=
  request.headerKey?.or request.queryKey?

end UpgradeRequest

/-- Compares two keys in a number of steps that depends on their lengths alone. -/
def sameBytes (presented expected : Bytes) : Bool :=
  presented.length == expected.length &&
    (presented.zip expected).foldl (fun difference (a, b) => difference ||| (a ^^^ b)) 0 == 0

def admits (key : String) (request : UpgradeRequest) : Bool :=
  request.key?.any fun presented => sameBytes presented (Wire.Utf8.encode key)

end Rendezvous.Admission

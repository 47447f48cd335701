/-! # Why a packet cannot be read

`WireError` lists the causes, and `WireError.message` puts each into words.
-/

namespace Rendezvous.Wire

/-- Why a packet cannot be read. -/
inductive WireError where
  /-- The packet ends before its header does. -/
  | tooShort (length : Nat)
  | unknownCommand (code : UInt8)
  | unknownNotice (code : UInt8)
  /-- A field needs more bytes than are left. -/
  | truncated (needed remaining : Nat)
  | invalidUtf8
  /-- A notice was expected where a relayed packet stands. -/
  | notControl
  deriving DecidableEq, Repr

def WireError.message : WireError → String
  | .tooShort length => s!"packet too short: {length} bytes"
  | .unknownCommand code => s!"unknown command code {code}"
  | .unknownNotice code => s!"unknown send code {code}"
  | .truncated needed remaining =>
    s!"truncated field: needed {needed} bytes, {remaining} remaining"
  | .invalidUtf8 => "string field is not valid UTF-8"
  | .notControl => "expected a control packet"

end Rendezvous.Wire

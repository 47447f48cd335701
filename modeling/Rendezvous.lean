import Rendezvous.Main
import Rendezvous.Session.Service
import Rendezvous.Server.Run
import Rendezvous.Proofs.Wire.LittleEndian
import Rendezvous.Proofs.Wire.Utf8
import Rendezvous.Proofs.Wire.Field
import Rendezvous.Proofs.Wire.FieldSequence
import Rendezvous.Proofs.Wire.Accounting
import Rendezvous.Proofs.Wire.Notice
import Rendezvous.Proofs.Wire.Incomplete
import Rendezvous.Proofs.Wire.MemberCount
import Rendezvous.Proofs.Wire.Cutting
import Rendezvous.Proofs.Lobby.Lookup
import Rendezvous.Proofs.Lobby.Allocation
import Rendezvous.Proofs.Lobby.Change
import Rendezvous.Proofs.Lobby.Consistent
import Rendezvous.Proofs.Lobby.Standing
import Rendezvous.Proofs.Lobby.Step
import Rendezvous.Proofs.Lobby.History
import Rendezvous.Proofs.Lobby.Codes
import Rendezvous.Proofs.Lobby.Roles
import Rendezvous.Proofs.Lobby.Numbering
import Rendezvous.Proofs.Lobby.Roster
import Rendezvous.Proofs.Server.Trace
import Rendezvous.Proofs.Server.Relaying
import Rendezvous.Proofs.Server.Inbox
import Rendezvous.Proofs.Server.Commands
import Rendezvous.Proofs.Server.Serving
import Rendezvous.Proofs.Lobby.Frame
import Rendezvous.Proofs.Lobby.Departure
import Rendezvous.Proofs.Server.Confined
import Rendezvous.Proofs.Lobby.Names
import Rendezvous.Proofs.Server.Genuine
import Rendezvous.Proofs.Lobby.Lifetime
import Rendezvous.Proofs.Lobby.Joining
import Rendezvous.Proofs.Lobby.Strict
import Rendezvous.Proofs.Lobby.Visit
import Rendezvous.Proofs.Lobby.Commute
import Rendezvous.Proofs.Lobby.Enrolment
import Rendezvous.Proofs.Admission.FormData
import Rendezvous.Proofs.Server.Refusals
import Rendezvous.Proofs.Admission.Key
import Rendezvous.Proofs.Session.Log
import Rendezvous.Proofs.Session.Sessions
import Rendezvous.Proofs.Session.Channel
import Rendezvous.Proofs.Session.Service

import Reflash.Board
import Reflash.Exchange
import Reflash.LinkScript
import Reflash.Link.Breakable
import Reflash.Link.Ring
import Reflash.Main
import Reflash.Workspace.Runner
import Reflash.Proofs.Flash.Contents
import Reflash.Proofs.Flash.Trace
import Reflash.Proofs.Checksum
import Reflash.Proofs.Flash.Pages
import Reflash.Proofs.Install.Layout
import Reflash.Proofs.Install.Record
import Reflash.Proofs.Install.Steps
import Reflash.Proofs.Install.Process
import Reflash.Proofs.Install.Trial
import Reflash.Proofs.Install.Update
import Reflash.Proofs.Reassembly
import Reflash.Proofs.Link
import Reflash.Proofs.Node
import Reflash.Proofs.Session
import Reflash.Proofs.Exchange
import Reflash.Proofs.Delivery
import Reflash.Proofs.Recovery
import Reflash.Proofs.Flash.Footprint
import Reflash.Proofs.Install.Footprint
import Reflash.Proofs.Install.Receiving
import Reflash.Proofs.Install.Untouched
import Reflash.Proofs.Stream
import Reflash.Proofs.Custody
import Reflash.Proofs.Feeding
import Reflash.Proofs.Course
import Reflash.Proofs.Flash.Order
import Reflash.Proofs.Install.Access
import Reflash.Proofs.Install.Resumption
import Reflash.Proofs.Install.Inspection
import Reflash.Proofs.Polling
import Reflash.Proofs.Watch
import Reflash.Proofs.Bystander
import Reflash.Proofs.Install.Completion
import Reflash.Proofs.Readiness
import Reflash.Proofs.Install.Rejection
import Reflash.Proofs.Silence
import Reflash.Proofs.TimeOut
import Reflash.Proofs.Retransmission
import Reflash.Datagram.Store
import Reflash.Proofs.Frame
import Reflash.Proofs.Formats
import Reflash.Proofs.Patience
import Reflash.Proofs.Store
import Reflash.Proofs.Checksum.Remainder
import Reflash.Proofs.Checksum.Agreement
import Reflash.Proofs.Checksum.Burst
import Reflash.Proofs.Tally
import Reflash.Proofs.Backlog
import Reflash.Proofs.Passage
import Reflash.Proofs.Gating
import Reflash.Proofs.Outbound
import Reflash.Proofs.Install.Usability
import Reflash.Proofs.Loader.CommandLine
import Reflash.Proofs.Flash.Copying
import Reflash.Proofs.Flash.Ledger
import Reflash.Proofs.Loader.Port
import Reflash.Proofs.Loader.Conversation

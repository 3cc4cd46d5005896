import RemoteCall.Config.Endpoint
import RemoteCall.Directory
import RemoteCall.Frame.Lookahead
import RemoteCall.Json.Name
import RemoteCall.Payload.Codec
import RemoteCall.Pool.Turn
import RemoteCall.Proofs.Pool.Numbering
import RemoteCall.Proofs.Pool.Run
import RemoteCall.Server.Endpoint
import RemoteCall.Simulation.Script
import RemoteCall.Proofs.Pool.Holding
import RemoteCall.Proofs.Pool.Losing
import RemoteCall.Proofs.Pool.Keeping
import RemoteCall.Proofs.Pool.Looking
import RemoteCall.Proofs.Pool.Conservation
import RemoteCall.Proofs.Pool.Sending
import RemoteCall.Proofs.Pool.OnePlace
import RemoteCall.Proofs.Payload.Errors
import RemoteCall.Proofs.Pool.Charging
import RemoteCall.Proofs.Pool.Verdicts
import RemoteCall.Proofs.Pool.Meter
import RemoteCall.Proofs.Pool.Frames
import RemoteCall.Proofs.Pool.RetryBudget
import RemoteCall.Proofs.PartOf
import RemoteCall.Proofs.Frame.Stream
import RemoteCall.Proofs.Server.Run
import RemoteCall.Proofs.Server.Books
import RemoteCall.Proofs.Server.Pumping
import RemoteCall.Proofs.Server.Standing
import RemoteCall.Proofs.Server.Answers
import RemoteCall.Proofs.Link.Dealing
import RemoteCall.Proofs.Link.Exchange
import RemoteCall.Proofs.Link.Delivery
import RemoteCall.Proofs.Link.Onward
import RemoteCall.Proofs.Link.Verbatim
import RemoteCall.Call.Observing
import RemoteCall.Proofs.Call.Agreement
import RemoteCall.Proofs.Server.Trail
import RemoteCall.Proofs.Server.Attribution
import RemoteCall.Proofs.Server.Intake
import RemoteCall.Proofs.Server.Admission
import RemoteCall.Proofs.Server.Backlog
import RemoteCall.Proofs.Server.Transparency
import RemoteCall.Proofs.Pool.Succession
import RemoteCall.Proofs.Pool.Superseded
import RemoteCall.Proofs.Pool.Acting
import RemoteCall.Proofs.Pool.Correlation
import RemoteCall.Proofs.Pool.Stepping
import RemoteCall.Proofs.Server.Progress
import RemoteCall.Proofs.Pool.Faults
import RemoteCall.Proofs.Pool.Draining
import RemoteCall.Pool.Closing
import RemoteCall.Proofs.Pool.Closing
import RemoteCall.Proofs.Pool.Teardown
import RemoteCall.Proofs.Payload.WrittenForm
import RemoteCall.Proofs.Frame.Format
import RemoteCall.Proofs.Frame.Chunks
import RemoteCall.Proofs.Frame.Grammar
import RemoteCall.Proofs.Pool.Usage
import RemoteCall.Proofs.Pool.Reaping
import RemoteCall.Proofs.Server.Taking
import RemoteCall.Proofs.Link.Conformance
import RemoteCall.Proofs.Frame.Boundary
import RemoteCall.Proofs.Server.Attention
import RemoteCall.Proofs.Pool.Handing
import RemoteCall.Proofs.Pool.Telling
import RemoteCall.Proofs.Pool.Cancelling
import RemoteCall.Pool.Lookout
import RemoteCall.Proofs.Pool.Lookout
import RemoteCall.Proofs.Pool.Marking
import RemoteCall.Proofs.Pool.Finding
import RemoteCall.Proofs.Server.Balance
import RemoteCall.Proofs.Server.Lifecycle
import RemoteCall.Proofs.Pool.Timers
import RemoteCall.Proofs.Pool.Following
import RemoteCall.Proofs.Pool.Ordering
import RemoteCall.Proofs.Pool.IssueOrder
import RemoteCall.Proofs.Frame.SizeField
import RemoteCall.Proofs.Frame.Failures
import RemoteCall.Proofs.Server.Replies
import RemoteCall.Proofs.Server.Handshake
import RemoteCall.Proofs.Frame.Lookahead
import RemoteCall.Proofs.Pool.Handles
import RemoteCall.Proofs.Pool.Pending
import RemoteCall.Proofs.Address.Digits
import RemoteCall.Proofs.Pool.Backoff
import RemoteCall.Proofs.Address.Ip
import RemoteCall.Proofs.Address.Socket
import RemoteCall.Proofs.Json.Strings
import RemoteCall.Proofs.PeerName

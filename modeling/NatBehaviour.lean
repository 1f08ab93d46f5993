import NatBehaviour.CommandLine.Invocation
import NatBehaviour.CommandLine.Options
import NatBehaviour.CommandLine.Task
import NatBehaviour.Decimal.Binary64
import NatBehaviour.Decimal.Shortest
import NatBehaviour.Discovery.Classification
import NatBehaviour.Discovery.Client
import NatBehaviour.Discovery.Report
import NatBehaviour.Discovery.Session
import NatBehaviour.Failure
import NatBehaviour.Files.Pathname
import NatBehaviour.Files.Tree
import NatBehaviour.Json.Error
import NatBehaviour.Json.Number
import NatBehaviour.Json.Reader
import NatBehaviour.Json.Record
import NatBehaviour.Json.Scalar
import NatBehaviour.Json.Skip
import NatBehaviour.Json.Text
import NatBehaviour.Json.Value
import NatBehaviour.Main
import NatBehaviour.Net.Endpoint
import NatBehaviour.Net.Ip
import NatBehaviour.Net.IpReader
import NatBehaviour.Network.Host
import NatBehaviour.Network.Program
import NatBehaviour.Network.World
import NatBehaviour.OsError
import NatBehaviour.Probe.Batch
import NatBehaviour.Probe.Filter
import NatBehaviour.Probe.Outcome
import NatBehaviour.Proofs.CommandLine.Arguments
import NatBehaviour.Proofs.CommandLine.Precedence
import NatBehaviour.Proofs.Discovery.Batches
import NatBehaviour.Proofs.Discovery.Deadline
import NatBehaviour.Proofs.Discovery.Evidence
import NatBehaviour.Proofs.Discovery.Explanation
import NatBehaviour.Proofs.Discovery.Listeners
import NatBehaviour.Proofs.Discovery.Lossless
import NatBehaviour.Proofs.Discovery.Mappings
import NatBehaviour.Proofs.Discovery.Noise
import NatBehaviour.Proofs.Discovery.PartialLoss
import NatBehaviour.Proofs.Discovery.Replies
import NatBehaviour.Proofs.Discovery.ReportText
import NatBehaviour.Proofs.Discovery.Requests
import NatBehaviour.Proofs.Discovery.Sockets
import NatBehaviour.Proofs.Discovery.Steps
import NatBehaviour.Proofs.Discovery.Timing
import NatBehaviour.Proofs.Discovery.Translators
import NatBehaviour.Proofs.Files.Tree
import NatBehaviour.Proofs.Json.Codec
import NatBehaviour.Proofs.Json.Grammar
import NatBehaviour.Proofs.Json.Layout
import NatBehaviour.Proofs.Json.ListGrammar
import NatBehaviour.Proofs.Json.Loop
import NatBehaviour.Proofs.Json.NumberGrammar
import NatBehaviour.Proofs.Json.Overlay
import NatBehaviour.Proofs.Json.Record
import NatBehaviour.Proofs.Json.RecordGrammar
import NatBehaviour.Proofs.Json.SkipGrammar
import NatBehaviour.Proofs.Json.Text
import NatBehaviour.Proofs.Json.TextGrammar
import NatBehaviour.Proofs.Json.Unambiguous
import NatBehaviour.Proofs.Json.VariantGrammar
import NatBehaviour.Proofs.Net.AddressText
import NatBehaviour.Proofs.Net.EndpointText
import NatBehaviour.Proofs.Net.Numeral
import NatBehaviour.Proofs.Network.Backlog
import NatBehaviour.Proofs.Network.Clock
import NatBehaviour.Proofs.Network.Deadline
import NatBehaviour.Proofs.Network.Delivery
import NatBehaviour.Proofs.Network.Noise
import NatBehaviour.Proofs.Network.Pairs
import NatBehaviour.Proofs.Network.Queue
import NatBehaviour.Proofs.Network.Runs
import NatBehaviour.Proofs.Network.Sockets
import NatBehaviour.Proofs.Network.Transmissions
import NatBehaviour.Proofs.Network.Unbound
import NatBehaviour.Proofs.Probe.Accounting
import NatBehaviour.Proofs.Probe.Attempts
import NatBehaviour.Proofs.Probe.Taking
import NatBehaviour.Proofs.Probe.Tally
import NatBehaviour.Proofs.Probe.Timing
import NatBehaviour.Proofs.Probe.Usable
import NatBehaviour.Proofs.Responder.Attribution
import NatBehaviour.Proofs.Responder.Binding
import NatBehaviour.Proofs.Responder.Exchange
import NatBehaviour.Proofs.Responder.Interleaving
import NatBehaviour.Proofs.Responder.Permits
import NatBehaviour.Proofs.Responder.Relay
import NatBehaviour.Proofs.Responder.Service
import NatBehaviour.Proofs.Settings.Duration
import NatBehaviour.Proofs.Settings.Fields
import NatBehaviour.Proofs.Settings.Overlay
import NatBehaviour.Proofs.Settings.Storage
import NatBehaviour.Proofs.Settings.Validity
import NatBehaviour.Proofs.Text.Utf8
import NatBehaviour.Proofs.Text.Uuid
import NatBehaviour.Proofs.Wire.MessageGrammar
import NatBehaviour.Proofs.Wire.RoundTrip
import NatBehaviour.Responder.Binding
import NatBehaviour.Responder.Reply
import NatBehaviour.Responder.Service
import NatBehaviour.Settings.Duration
import NatBehaviour.Settings.Ports
import NatBehaviour.Settings.Probe
import NatBehaviour.Settings.Responder
import NatBehaviour.Settings.Storage
import NatBehaviour.Text.Blank
import NatBehaviour.Text.Printable
import NatBehaviour.Text.Quoted
import NatBehaviour.Text.Utf8
import NatBehaviour.Text.Uuid
import NatBehaviour.Wire.Listeners
import NatBehaviour.Wire.Message

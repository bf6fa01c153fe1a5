import TrackServer.Address
import TrackServer.Bytes
import TrackServer.Catalog
import TrackServer.Catalog.Scan
import TrackServer.Config
import TrackServer.Connection
import TrackServer.Fault
import TrackServer.Files
import TrackServer.Files.Path
import TrackServer.Main
import TrackServer.Network
import TrackServer.Report
import TrackServer.Request
import TrackServer.Request.Parser
import TrackServer.Response
import TrackServer.Response.Resolve
import TrackServer.Sender
import TrackServer.Server
import TrackServer.Socket
import TrackServer.Startup
import TrackServer.Table
import TrackServer.Text.Ascii
import TrackServer.Text.Decimal
import TrackServer.Text.Space
import TrackServer.Text.Utf8
import TrackServer.Track
import TrackServer.Tuning
import TrackServer.Tuning.Reader
import TrackServer.Yaml.Cursor
import TrackServer.Yaml.Document
import TrackServer.Yaml.Integer
import TrackServer.Yaml.Scalar
import TrackServer.Yaml.Token
import TrackServer.Yaml.Token.Lexer
import TrackServer.Proofs.Delivery
import TrackServer.Proofs.Segmentation
import TrackServer.Proofs.Locality
import TrackServer.Proofs.Alone
import TrackServer.Proofs.Interleaving
import TrackServer.Proofs.Grammar
import TrackServer.Proofs.Resuming
import TrackServer.Proofs.Poised
import TrackServer.Proofs.WellFormed
import TrackServer.Proofs.Networking
import TrackServer.Proofs.Wakeup
import TrackServer.Proofs.Closed
import TrackServer.Proofs.Display
import TrackServer.Proofs.Lifecycle
import TrackServer.Proofs.Scanning
import TrackServer.Proofs.Descriptions
import TrackServer.Proofs.Listing
import TrackServer.Proofs.Entries
import TrackServer.Proofs.Selection
import TrackServer.Proofs.Numbering
import TrackServer.Proofs.Refusals
import TrackServer.Proofs.SingleLine
import TrackServer.Proofs.Endless
import TrackServer.Proofs.Restraint
import TrackServer.Proofs.Draining
import TrackServer.Proofs.BackPressure
import TrackServer.Proofs.Pipelining
import TrackServer.Proofs.Clamping
import TrackServer.Proofs.Ownership
import TrackServer.Proofs.ScanFaults
import TrackServer.Proofs.Starting

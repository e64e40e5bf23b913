import Rlldpctl.Lib.Accounts
import Rlldpctl.Lib.Async
import Rlldpctl.Lib.ByteReader
import Rlldpctl.Lib.CLayout
import Rlldpctl.Lib.Chains
import Rlldpctl.Lib.Connections
import Rlldpctl.Lib.Effects
import Rlldpctl.Lib.Exchange
import Rlldpctl.Lib.Fairness
import Rlldpctl.Lib.Liveness
import Rlldpctl.Lib.Mirror
import Rlldpctl.Lib.NativeBytes
import Rlldpctl.Lib.Nesting
import Rlldpctl.Lib.Polling
import Rlldpctl.Lib.Prefixes
import Rlldpctl.Lib.Progress
import Rlldpctl.Lib.Scripts
import Rlldpctl.Lib.Transitions
import Rlldpctl.Lib.Utf8
import Rlldpctl.Wire.Acceptance
import Rlldpctl.Wire.Calls
import Rlldpctl.Wire.Consumption
import Rlldpctl.Wire.Cursor
import Rlldpctl.Wire.CursorSpec
import Rlldpctl.Wire.Decode
import Rlldpctl.Wire.Encode
import Rlldpctl.Wire.Fallback
import Rlldpctl.Wire.Grammar
import Rlldpctl.Wire.Marshal
import Rlldpctl.Wire.Ports
import Rlldpctl.Wire.Raw
import Rlldpctl.Wire.Readdress
import Rlldpctl.Wire.Reads
import Rlldpctl.Wire.ReadsTree
import Rlldpctl.Wire.Requests
import Rlldpctl.Wire.RoundTrip
import Rlldpctl.Wire.Rules
import Rlldpctl.Wire.Sharing
import Rlldpctl.Wire.Tree
import Rlldpctl.Wire.Truncation
import Rlldpctl.AsyncClient
import Rlldpctl.Client
import Rlldpctl.Clients
import Rlldpctl.Daemon
import Rlldpctl.Frames
import Rlldpctl.Linearization
import Rlldpctl.Listing
import Rlldpctl.Methods
import Rlldpctl.Model
import Rlldpctl.Names
import Rlldpctl.Notifications
import Rlldpctl.Polling
import Rlldpctl.Queries
import Rlldpctl.Replies
import Rlldpctl.Safety
import Rlldpctl.Segments
import Rlldpctl.Sessions
import Rlldpctl.Snapshots
import Rlldpctl.Target
import Rlldpctl.Transport
import Rlldpctl.Waiting

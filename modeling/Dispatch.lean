import Dispatch.Http.Uri
import Dispatch.Router.Group
import Dispatch.Router.Serve
import Dispatch.Proofs.RouteTable.Precedence
import Dispatch.Proofs.Trie.Captured
import Dispatch.Proofs.RouteTable.Allowed
import Dispatch.Proofs.RouteTable.Captured
import Dispatch.Proofs.Chain
import Dispatch.Proofs.Registry
import Dispatch.Proofs.RouteTable.Values
import Dispatch.Proofs.Router.Serving
import Dispatch.Proofs.Router.Session
import Dispatch.Proofs.Router.Chains
import Dispatch.Proofs.Router.Journal
import Dispatch.Proofs.Program
import Dispatch.Proofs.Router.Isolation
import Dispatch.Proofs.RouteTable.Ranking
import Dispatch.Proofs.Captures.Refinement
import Dispatch.Proofs.Chain.Watched
import Dispatch.Proofs.Chain.Course
import Dispatch.Proofs.Chain.Order
import Dispatch.Proofs.Chain.ShortCircuit
import Dispatch.Proofs.RouteTable.Stability
import Dispatch.Proofs.RouteTable.Conflicts
import Dispatch.Proofs.RouteTable.Ties
import Dispatch.Proofs.Router.Twins
import Dispatch.Proofs.Router.Refused
import Dispatch.Proofs.RouteTable.Respelled
import Dispatch.Proofs.Router.Resolving
import Dispatch.Proofs.Lending
import Dispatch.Proofs.RouteTable.Texts
import Dispatch.Proofs.Router.Groups
import Dispatch.Proofs.Program.Related
import Dispatch.Proofs.Program.Rules
import Dispatch.Proofs.Chain.Closed
import Dispatch.Proofs.Router.Finishing
import Dispatch.Proofs.Router.Mirroring
import Dispatch.Proofs.Router.ErrorHandling
import Dispatch.Proofs.Json.Written
import Dispatch.Proofs.Envelope
import Dispatch.Proofs.Text.Split
import Dispatch.Proofs.AllowList.Canonical
import Dispatch.Proofs.Chain.Plain
import Dispatch.Proofs.Chain.Ledger
import Dispatch.Proofs.Router.Ledger
import Dispatch.Proofs.Captures.StaleMarks
import Dispatch.Proofs.RouteTable.Slots
import Dispatch.Proofs.Registry.Numbering

import TeamAccess.Build
import TeamAccess.Cache
import TeamAccess.Cache.Form
import TeamAccess.CacheMode
import TeamAccess.Command
import TeamAccess.Command.Arguments
import TeamAccess.Command.Run
import TeamAccess.Disk
import TeamAccess.Expansion
import TeamAccess.Fault
import TeamAccess.Hierarchy
import TeamAccess.Hierarchy.Form
import TeamAccess.Http.Admin
import TeamAccess.Http.Handler
import TeamAccess.Http.Message
import TeamAccess.Http.Route
import TeamAccess.Http.Router
import TeamAccess.Http.Teams
import TeamAccess.Ids.Basic
import TeamAccess.Ids.Check
import TeamAccess.Ids.Filter
import TeamAccess.Index
import TeamAccess.Index.Lemmas
import TeamAccess.Json.Basic
import TeamAccess.Json.Decode
import TeamAccess.Json.Draft
import TeamAccess.Json.Numeral
import TeamAccess.Locator
import TeamAccess.Path
import TeamAccess.Privilege
import TeamAccess.Proofs.Contents
import TeamAccess.Proofs.Contribution
import TeamAccess.Proofs.Demand
import TeamAccess.Proofs.Fallible
import TeamAccess.Proofs.Holding
import TeamAccess.Proofs.Integrity
import TeamAccess.Proofs.Memory
import TeamAccess.Proofs.Outcome
import TeamAccess.Proofs.Run
import TeamAccess.Proofs.Writes
import TeamAccess.Registry
import TeamAccess.Resolver
import TeamAccess.Resource
import TeamAccess.Service.Basic
import TeamAccess.Service.Hierarchy
import TeamAccess.Service.Ownerships
import TeamAccess.Settings
import TeamAccess.Settings.Form
import TeamAccess.Settings.Reader
import TeamAccess.SocketAddress
import TeamAccess.Store.Basic
import TeamAccess.Store.Cell
import TeamAccess.Store.Closure
import TeamAccess.Store.Edit
import TeamAccess.Store.Hierarchy
import TeamAccess.Store.Ownerships
import TeamAccess.Store.Removal
import TeamAccess.Store.Row
import TeamAccess.Store.Snapshot
import TeamAccess.Store.Teams
import TeamAccess.Team
import TeamAccess.Team.Form
import TeamAccess.Text.Blank
import TeamAccess.Text.Decimal
import TeamAccess.Text.Double
import TeamAccess.Text.DoublePair
import TeamAccess.Text.Percent
import TeamAccess.Text.Piece
import TeamAccess.Text.Split
import TeamAccess.Timestamp.Basic
import TeamAccess.Timestamp.Reader
import TeamAccess.Toml.Basic
import TeamAccess.Toml.Document
import TeamAccess.Toml.Quoted
import TeamAccess.Toml.Scalar
import TeamAccess.Workspace
import TeamAccess.Main
import TeamAccess.Proofs.Coherence
import TeamAccess.Proofs.Atomicity
import TeamAccess.Proofs.Needs
import TeamAccess.Proofs.Totality
import TeamAccess.Proofs.Cover
import TeamAccess.Proofs.Listing
import TeamAccess.Proofs.Serving
import TeamAccess.Proofs.Answers
import TeamAccess.Proofs.Lineage
import TeamAccess.Proofs.Upkeep
import TeamAccess.Proofs.Roles
import TeamAccess.Proofs.Additions
import TeamAccess.Proofs.Descent
import TeamAccess.Proofs.Applications
import TeamAccess.Proofs.Posting
import TeamAccess.Proofs.Checks
import TeamAccess.Proofs.Growth
import TeamAccess.Proofs.Scopes
import TeamAccess.Proofs.References
import TeamAccess.Proofs.Refusals
import TeamAccess.Proofs.Replies
import TeamAccess.Proofs.Denials
import TeamAccess.Proofs.Keeping
import TeamAccess.Proofs.Isolation
import TeamAccess.Proofs.Navigation
import TeamAccess.Proofs.Digits
import TeamAccess.Proofs.Drafts
import TeamAccess.Proofs.Records
import TeamAccess.Proofs.Moments
import TeamAccess.Proofs.RoundTrip
import TeamAccess.Proofs.Climbing
import TeamAccess.Proofs.Replacement
import TeamAccess.Proofs.Passing
import TeamAccess.Proofs.Dominance
import TeamAccess.Proofs.Merging
import TeamAccess.Proofs.Calls
import TeamAccess.Proofs.Naming
import TeamAccess.Proofs.Counting
import TeamAccess.Proofs.Placement
import TeamAccess.Proofs.Gates
import TeamAccess.Proofs.NormalForm
import TeamAccess.Proofs.Lossless

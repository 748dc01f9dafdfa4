import StakeLedger.Engine.Catalogue
import StakeLedger.Main
import StakeLedger.Rehearsal.Serving
import StakeLedger.Rehearsal.Stage
import StakeLedger.Proofs.Platform.Feed
import StakeLedger.Proofs.Platform.Subscriptions
import StakeLedger.Proofs.Staking.History
import StakeLedger.Proofs.Staking.Ingest
import StakeLedger.Proofs.Staking.Conservation
import StakeLedger.Proofs.Staking.Redelivery
import StakeLedger.Proofs.Staking.Draining
import StakeLedger.Proofs.Staking.Progress
import StakeLedger.Proofs.Staking.Shutdown
import StakeLedger.Proofs.Staking.Share
import StakeLedger.Proofs.Validator.Roster
import StakeLedger.Proofs.Validator.Deltas
import StakeLedger.Proofs.Validator.Stake
import StakeLedger.Proofs.Validator.Power
import StakeLedger.Proofs.Keyed
import StakeLedger.Proofs.Engine.Updates
import StakeLedger.Proofs.Application.Block
import StakeLedger.Proofs.Application.Powers
import StakeLedger.Proofs.Application.Fallback
import StakeLedger.Proofs.Application.Reporting
import StakeLedger.Proofs.Application.Chain
import StakeLedger.Proofs.Bytes.Groups
import StakeLedger.Proofs.Bytes.Hex
import StakeLedger.Proofs.Text.Blank
import StakeLedger.Proofs.Bytes.Base64
import StakeLedger.Proofs.Bytes.Utf8
import StakeLedger.Proofs.Bytes.Word
import StakeLedger.Proofs.Digest.Framed
import StakeLedger.Proofs.Json.Lexing
import StakeLedger.Proofs.Json.Tree
import StakeLedger.Proofs.Json.Codec
import StakeLedger.Proofs.Json.Record
import StakeLedger.Proofs.Staking.Params
import StakeLedger.Proofs.State.Snapshot
import StakeLedger.Proofs.State.Store
import StakeLedger.Proofs.State.Root
import StakeLedger.Proofs.State.Delta
import StakeLedger.Proofs.Disk.Path
import StakeLedger.Proofs.Disk.Place
import StakeLedger.Proofs.Disk.Attempt
import StakeLedger.Proofs.State.Save
import StakeLedger.Proofs.Application.Callback
import StakeLedger.Proofs.Application.Site
import StakeLedger.Proofs.Application.Replica
import StakeLedger.Proofs.Application.Joining
import StakeLedger.Proofs.Application.Durability
import StakeLedger.Proofs.Application.Reload
import StakeLedger.Proofs.Platform.Traffic
import StakeLedger.Proofs.Json.Lookup
import StakeLedger.Proofs.Json.Agreement
import StakeLedger.Proofs.Genesis.Sources
import StakeLedger.Proofs.Genesis.Defaults
import StakeLedger.Proofs.Staking.Notification
import StakeLedger.Proofs.Json.Spelling
import StakeLedger.Proofs.Engine.Contract
import StakeLedger.Proofs.Session
import StakeLedger.Proofs.Network.Address
import StakeLedger.Proofs.Node
import StakeLedger.Proofs.Launch
import StakeLedger.Proofs.Staking.Section
import StakeLedger.Proofs.Application.Loading
import StakeLedger.Proofs.Query.Routes
import StakeLedger.Proofs.Application.Entropy
import StakeLedger.Proofs.Number.Decimal
import StakeLedger.Proofs.Json.Building
import StakeLedger.Proofs.Json.Splicing
import StakeLedger.Proofs.Json.Hole
import StakeLedger.Proofs.Json.Literal
import StakeLedger.Proofs.Genesis.Integers
import StakeLedger.Proofs.Genesis.Document
import StakeLedger.Proofs.Genesis.Requoting
import StakeLedger.Proofs.Query.Pattern
import StakeLedger.Proofs.Query.Dispatch
import StakeLedger.Proofs.Query.Defaults
import StakeLedger.Proofs.Staking.Target
import StakeLedger.Proofs.Staking.Bootstrap
import StakeLedger.Proofs.Http.Bridge
import StakeLedger.Proofs.Node.Stopping
import StakeLedger.Proofs.Bytes.Canonical
import StakeLedger.Proofs.Config.Environment

import MaskGateway.Lib.Except
import MaskGateway.Lib.Walk
import MaskGateway.Lib.Base64
import MaskGateway.Lib.Bytes
import MaskGateway.Lib.Decimal
import MaskGateway.Lib.Utf8
import MaskGateway.Lib.Lock
import MaskGateway.Lib.Machine
import MaskGateway.Lib.Count
import MaskGateway.Lib.Effect
import MaskGateway.Lib.Sha256
import MaskGateway.Runtime.Budget
import MaskGateway.Runtime.Registry
import MaskGateway.Runtime.Datasources
import MaskGateway.Runtime.DatasourceThreads
import MaskGateway.Masking.Engine
import MaskGateway.Sql.Ast
import MaskGateway.Sql.Sensitivity
import MaskGateway.Sql.Scope
import MaskGateway.Db.Columns
import MaskGateway.Db.Result
import MaskGateway.Pgwire.ResultFrame
import MaskGateway.Pgwire.ResultReceiver
import MaskGateway.Pgwire.ResultEncoder
import MaskGateway.Datasource.Json
import MaskGateway.Datasource.Models
import MaskGateway.Datasource.Destination
import MaskGateway.Datasource.Catalog
import MaskGateway.Datasource.Store
import MaskGateway.Datasource.Operations
import MaskGateway.Datasource.Processes
import MaskGateway.Runtime.Candidate
import MaskGateway.Runtime.DatasourceService
import MaskGateway.Runtime.DatasourceTests
import MaskGateway.Runtime.AdminWork
import MaskGateway.Proofs.Runtime.BudgetChange
import MaskGateway.Proofs.Runtime.BudgetInvariant
import MaskGateway.Proofs.Runtime.BudgetTokens
import MaskGateway.Proofs.Runtime.BudgetShutdown
import MaskGateway.Proofs.Runtime.BudgetPins
import MaskGateway.Proofs.Masking.Engine
import MaskGateway.Proofs.Sql.Sensitivity
import MaskGateway.Proofs.Sql.Lineage
import MaskGateway.Proofs.Sql.WholeRow
import MaskGateway.Proofs.Db.Columns
import MaskGateway.Proofs.Db.Aliases
import MaskGateway.Proofs.Datasource.Models
import MaskGateway.Proofs.Datasource.Documents
import MaskGateway.Proofs.Datasource.Steps
import MaskGateway.Proofs.Datasource.Planning
import MaskGateway.Proofs.Datasource.Changes
import MaskGateway.Proofs.Datasource.Outcomes
import MaskGateway.Proofs.Datasource.CrashSafety
import MaskGateway.Proofs.Datasource.Reopening
import MaskGateway.Proofs.Datasource.Secrets
import MaskGateway.Proofs.Datasource.Rotation
import MaskGateway.Proofs.Datasource.Processes
import MaskGateway.Proofs.Datasource.Backups
import MaskGateway.Proofs.Datasource.SecretBinding
import MaskGateway.Proofs.Pgwire.Values
import MaskGateway.Proofs.Pgwire.Wire
import MaskGateway.Proofs.Pgwire.Validation
import MaskGateway.Proofs.Pgwire.Encoding
import MaskGateway.Proofs.Pgwire.Codec
import MaskGateway.Proofs.Runtime.Registry
import MaskGateway.Proofs.Runtime.DatasourceCounts
import MaskGateway.Proofs.Runtime.DatasourceAccounting
import MaskGateway.Proofs.Runtime.DatasourceMoves
import MaskGateway.Proofs.Runtime.DatasourceSafety
import MaskGateway.Proofs.Runtime.DatasourceLifecycle
import MaskGateway.Proofs.Runtime.PublishedSet
import MaskGateway.Proofs.Runtime.StoreChanges
import MaskGateway.Proofs.Runtime.DatasourceWrites
import MaskGateway.Proofs.Runtime.DatasourceCalls
import MaskGateway.Proofs.Runtime.DatasourceOff
import MaskGateway.Proofs.Runtime.DatasourcePinned
import MaskGateway.Proofs.Runtime.DatasourceService
import MaskGateway.Proofs.Runtime.DatasourceTests
import MaskGateway.Proofs.Runtime.AdminWorkMoves
import MaskGateway.Proofs.Runtime.AdminWorkContainment
import MaskGateway.Proofs.Runtime.AdminWorkCompletion
import MaskGateway.Proofs.Pgwire.ReceiverThreads
import MaskGateway.Proofs.Pgwire.ResultReceiver
import MaskGateway.Runtime.WorkerProtocol
import MaskGateway.Proofs.Runtime.WorkerProtocol
import MaskGateway.Runtime.WorkerJob
import MaskGateway.Runtime.WorkerLink
import MaskGateway.Proofs.Runtime.WorkerJob
import MaskGateway.Proofs.Runtime.WorkerLink
import MaskGateway.Proofs.Runtime.WorkerAgreement
import MaskGateway.Pgwire.Scram
import MaskGateway.Pgwire.ScramClient
import MaskGateway.Proofs.Pgwire.Scram
import MaskGateway.Proofs.Pgwire.ScramExchange
import MaskGateway.Pgwire.Listener
import MaskGateway.Proofs.Pgwire.ListenerMoves
import MaskGateway.Proofs.Pgwire.ListenerThreads
import MaskGateway.Proofs.Pgwire.ListenerSlots
import MaskGateway.Proofs.Pgwire.ListenerStop
import MaskGateway.Masking.Values
import MaskGateway.Db.Reader
import MaskGateway.Proofs.Masking.Values
import MaskGateway.Proofs.Db.Reader
import MaskGateway.Proofs.Sql.Ambiguity
import MaskGateway.Proofs.Sql.Rearranged
import MaskGateway.Proofs.Sql.Order
import MaskGateway.Lib.Fields
import MaskGateway.Pgwire.Framing
import MaskGateway.Proofs.Pgwire.Framing
import MaskGateway.Runtime.Domain
import MaskGateway.Proofs.Runtime.BudgetCharges
import MaskGateway.Proofs.Runtime.BudgetMixes
import MaskGateway.Proofs.Runtime.Domain
import MaskGateway.Lib.Keyed
import MaskGateway.Config.Models
import MaskGateway.Admin.Mutations
import MaskGateway.Proofs.Admin.Mutations
import MaskGateway.Datasource.JsonText
import MaskGateway.Proofs.Datasource.JsonText
import MaskGateway.Proofs.Datasource.Exact
import MaskGateway.Proofs.Datasource.Canonical
import MaskGateway.Pgwire.Transport
import MaskGateway.Pgwire.Driver
import MaskGateway.Proofs.Pgwire.Conversation
import MaskGateway.Proofs.Pgwire.Driver
import MaskGateway.Frontend.Commands
import MaskGateway.Frontend.Coordinator
import MaskGateway.Proofs.Frontend.History
import MaskGateway.Proofs.Frontend.Requests
import MaskGateway.Proofs.Frontend.Editing
import MaskGateway.Proofs.Frontend.Entries
import MaskGateway.Proofs.Frontend.Continuations
import MaskGateway.Proofs.Frontend.Coordinator
import MaskGateway.Datasource.Child
import MaskGateway.Datasource.Ledger
import MaskGateway.Proofs.Datasource.Child
import MaskGateway.Proofs.Datasource.Ledger
import MaskGateway.Proofs.Datasource.Supervisor
import MaskGateway.Proofs.Datasource.LedgerRuns
import MaskGateway.Datasource.Answer
import MaskGateway.Proofs.Datasource.AnswerMoves
import MaskGateway.Proofs.Datasource.Answer
import MaskGateway.Proofs.Datasource.AnswerEnd
import MaskGateway.Proofs.Datasource.AnswerRuns
import MaskGateway.Proofs.Datasource.AnswerLedger
import MaskGateway.Lib.IpAddress
import MaskGateway.Datasource.Addresses
import MaskGateway.Proofs.Runtime.Resolution
import MaskGateway.Lib.Supply
import MaskGateway.Pgwire.Channels
import MaskGateway.Proofs.Pgwire.Channels
import MaskGateway.Lib.Height
import MaskGateway.Admin.Presentation
import MaskGateway.Proofs.Admin.PresentationGraph
import MaskGateway.Proofs.Admin.Presentation
import MaskGateway.Masking.Transformers
import MaskGateway.Config.Loader
import MaskGateway.Runtime.Snapshot
import MaskGateway.Proofs.Masking.Transformers
import MaskGateway.Proofs.Runtime.SnapshotText
import MaskGateway.Proofs.Runtime.SnapshotBytes
import MaskGateway.Proofs.Runtime.SnapshotSecrets
import MaskGateway.Proofs.Runtime.SnapshotPolicy
import MaskGateway.Proofs.Runtime.Snapshot
import MaskGateway.Runtime.WorkerSession
import MaskGateway.Proofs.Runtime.SessionParts
import MaskGateway.Proofs.Runtime.SessionCleanup
import MaskGateway.Proofs.Runtime.SessionTalk
import MaskGateway.Proofs.Runtime.SessionBodies
import MaskGateway.Proofs.Runtime.WorkerSession

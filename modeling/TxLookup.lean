import TxLookup.Library.SqlLogic
import TxLookup.Library.Settle
import TxLookup.Library.KeyedTable
import TxLookup.Library.Runs
import TxLookup.Library.Transaction
import TxLookup.Library.OrmInstance
import TxLookup.Library.Fold
import TxLookup.Library.Assoc
import TxLookup.Library.FirstMatch
import TxLookup.Library.PyText
import TxLookup.Library.PyFile
import TxLookup.Library.FormUrl
import TxLookup.Library.PyValue
import TxLookup.Library.PyEq
import TxLookup.Library.PyNumeral
import TxLookup.Library.PyJson
import TxLookup.Library.JsonText
import TxLookup.Library.JsonScan
import TxLookup.Library.JsonPieces
import TxLookup.Library.JsonRoundTrip
import TxLookup.Library.IsoTime
import TxLookup.Db.Models
import TxLookup.Db.Upsert
import TxLookup.Db.LatestWins
import TxLookup.Db.StampHistory
import TxLookup.Db.Columns
import TxLookup.Db.Audit
import TxLookup.Db.AdminTx
import TxLookup.Consumer.Runtime
import TxLookup.Consumer.Events
import TxLookup.Common.Observability
import TxLookup.Consumer.Contract
import TxLookup.Common.EventProfiles
import TxLookup.Common.Config
import TxLookup.Consumer.ContractProfile
import TxLookup.Consumer.Startup
import TxLookup.Consumer.Freshness
import TxLookup.Consumer.Pairing
import TxLookup.Consumer.Processor
import TxLookup.Consumer.Dlq
import TxLookup.Consumer.Main
import TxLookup.Consumer.DeadLetters
import TxLookup.Consumer.Offsets
import TxLookup.Consumer.Normalization
import TxLookup.Consumer.Parsing
import TxLookup.Consumer.TimeChains
import TxLookup.Consumer.BlankFields
import TxLookup.Consumer.VersionMetadata
import TxLookup.Consumer.Storable
import TxLookup.Consumer.ContentErrors
import TxLookup.Consumer.Atomicity
import TxLookup.Consumer.Backfill
import TxLookup.Consumer.BackfillMetrics
import TxLookup.Consumer.DlqFile
import TxLookup.Consumer.Group
import TxLookup.Consumer.Tables
import TxLookup.Consumer.PairRow
import TxLookup.Consumer.PairHistory
import TxLookup.Consumer.PairView
import TxLookup.Consumer.PairBacking
import TxLookup.Consumer.PairOrder
import TxLookup.Consumer.PairReport
import TxLookup.Consumer.RowOrder
import TxLookup.Consumer.Arrival
import TxLookup.Consumer.KafkaLag
import TxLookup.Consumer.Metrics
import TxLookup.Consumer.Gauges
import TxLookup.Consumer.Redelivery
import TxLookup.Consumer.Jobs
import TxLookup.Consumer.Retention
import TxLookup.Consumer.Sessions
import TxLookup.Consumer.Interleaving
import TxLookup.Consumer.LostPairing
import TxLookup.Consumer.SessionLegs
import TxLookup.Api.Auth
import TxLookup.Api.Audit
import TxLookup.Api.QueryMask
import TxLookup.Api.Service
import TxLookup.Api.Main
import TxLookup.Api.Server
import TxLookup.Api.Endpoint
import TxLookup.Api.Views
import TxLookup.Api.RaceViews
import TxLookup.Api.ListViews
import TxLookup.Api.OtherTypes
import TxLookup.Api.Mutual
import TxLookup.Api.Convergence
import TxLookup.Scripts.ReplayDlq
import TxLookup.Scripts.DlqRoundTrip
import TxLookup.Scripts.Repair
import TxLookup.Scripts.ReplayDb
import TxLookup.Scripts.SyntheticEvents
import TxLookup.Scripts.ScenarioLaw
import TxLookup.Scripts.Scenarios

import PointLedger.Json.Printer
import PointLedger.Json.Reader
import PointLedger.Chain
import PointLedger.Replay
import PointLedger.Lookup
import PointLedger.Store.Program
import PointLedger.Store.Memory
import PointLedger.Engine.Log
import PointLedger.Engine.Mutation
import PointLedger.Engine.Inquiry
import PointLedger.Simulation.Schedule
import PointLedger.Simulation.Seed
import PointLedger.Config.Load
import PointLedger.Http.Service
import PointLedger.Sql.Printer
import PointLedger.Sql.Schema
import PointLedger.Sql.Rules
import PointLedger.Proofs.Conservation
import PointLedger.Proofs.ChainValidity
import PointLedger.Proofs.Linearizability
import PointLedger.Proofs.Reconciliation
import PointLedger.Proofs.Provenance
import PointLedger.Proofs.Commitment
import PointLedger.Proofs.Course
import PointLedger.Proofs.Trial
import PointLedger.Proofs.Agreement
import PointLedger.Proofs.NoTrace
import PointLedger.Proofs.Faults
import PointLedger.Proofs.Catalogue
import PointLedger.Proofs.Refusals
import PointLedger.Proofs.InterleavedChains
import PointLedger.Proofs.Reversals
import PointLedger.Proofs.Idempotency
import PointLedger.Proofs.SpendingOrder
import PointLedger.Proofs.Isolation
import PointLedger.Proofs.StoreUse
import PointLedger.Proofs.Discipline
import PointLedger.Proofs.UniqueRows
import PointLedger.Proofs.Locks
import PointLedger.Proofs.Invisibility
import PointLedger.Proofs.RowKeys
import PointLedger.Proofs.Origins
import PointLedger.Proofs.RowUpdates
import PointLedger.Proofs.Publication
import PointLedger.Proofs.Deadlock
import PointLedger.Proofs.DatabaseReads
import PointLedger.Proofs.LiveReconciliation
import PointLedger.Proofs.SchemaConformance
import PointLedger.Proofs.RowTimes
import PointLedger.Proofs.AuditTrail
import PointLedger.Proofs.ReadBack
import PointLedger.Proofs.Routing
import PointLedger.Proofs.TruthfulStatus
import PointLedger.Proofs.Discretion
import PointLedger.Proofs.Disclosure
import PointLedger.Proofs.Tampering
import PointLedger.Proofs.Verdicts
import PointLedger.Proofs.Paging
import PointLedger.Proofs.Drift
import PointLedger.Proofs.MetadataReading
import PointLedger.Proofs.WrittenValues
import PointLedger.Proofs.RoundTrips
import PointLedger.Proofs.ForwardTime
import PointLedger.Proofs.LockKeys
import PointLedger.Proofs.RefusedTexts
import PointLedger.Proofs.ShownTimes

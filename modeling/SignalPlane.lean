import SignalPlane.Lib.Clock
import SignalPlane.Lib.GoString
import SignalPlane.Lib.Table
import SignalPlane.Lib.Workflow
import SignalPlane.Dispatcher.Model
import SignalPlane.Dispatcher.Store
import SignalPlane.Dispatcher.ExternalWait
import SignalPlane.Dispatcher.Terminal
import SignalPlane.Dispatcher.CIAttempt
import SignalPlane.Dispatcher.Worker
import SignalPlane.Dispatcher.Process
import SignalPlane.Dispatcher.Recovery
import SignalPlane.Dispatcher.Run
import SignalPlane.Dispatcher.Lifecycle
import SignalPlane.Dispatcher.View
import SignalPlane.Dispatcher.Transaction
import SignalPlane.Dispatcher.Refinement
import SignalPlane.Dispatcher.CIWaitTheorems
import SignalPlane.Dispatcher.ReplayTheorems
import SignalPlane.Dispatcher.JobTheorems
import SignalPlane.Dispatcher.RestartTheorems
import SignalPlane.Dispatcher.ResumeTheorems
import SignalPlane.Lib.Settling
import SignalPlane.Dispatcher.Settled
import SignalPlane.Dispatcher.TickTheorems
import SignalPlane.Dispatcher.CIEvent
import SignalPlane.Dispatcher.CIWakeTheorems
import SignalPlane.Dispatcher.MarkerTheorems
import SignalPlane.Dispatcher.CheckpointTheorems
import SignalPlane.Dispatcher.RecoveryRunner
import SignalPlane.Dispatcher.ReconcileTheorems
import SignalPlane.Dispatcher.RerunTheorems
import SignalPlane.Dispatcher.RecoveryHistory
import SignalPlane.Dispatcher.CIAccount
import SignalPlane.Dispatcher.CITransactions
import SignalPlane.Dispatcher.CIAttemptTransactions
import SignalPlane.Dispatcher.CIJobTransactions
import SignalPlane.Dispatcher.CIAccountTheorems
import SignalPlane.Lib.GoPattern
import SignalPlane.Workledger.Model
import SignalPlane.Workledger.Store
import SignalPlane.Workledger.Work
import SignalPlane.Workledger.Run
import SignalPlane.Workledger.Transactions
import SignalPlane.Workledger.Refinement
import SignalPlane.Workledger.LeaseTheorems
import SignalPlane.Workledger.ItemTheorems
import SignalPlane.Workledger.RouteTheorems
import SignalPlane.Workledger.ClaimTheorems
import SignalPlane.Workledger.ScheduleTheorems
import SignalPlane.Workledger.RetryTheorems
import SignalPlane.Workledger.AdmissionTheorems
import SignalPlane.Workledger.SupersessionTheorems
import SignalPlane.Workitemlaunch.Launch
import SignalPlane.Workitemlaunch.LaunchTheorems
import SignalPlane.Dispatcher.PollTheorems
import SignalPlane.Dispatcher.Spares
import SignalPlane.Dispatcher.Report
import SignalPlane.Dispatcher.ReportTheorems
import SignalPlane.Dispatcher.BlockedTheorems
import SignalPlane.Dispatcher.PreOutboxTheorems
import SignalPlane.Dispatcher.EscalationTheorems
import SignalPlane.Envelope
import SignalPlane.Gateway.Server
import SignalPlane.Pushscan.Model
import SignalPlane.Gateway.IdentityTheorems
import SignalPlane.Resumeupload.Router
import SignalPlane.Resumeupload.IngressTheorems
import SignalPlane.Lib.Contract
import SignalPlane.Resumeupload.Executor
import SignalPlane.Resumeupload.UploadTheorems
import SignalPlane.Lib.Encoding
import SignalPlane.Lib.FindAll
import SignalPlane.Pushscan.Store
import SignalPlane.Pushscan.Scan
import SignalPlane.Pushscan.Scanner
import SignalPlane.Pushscan.DecodingTheorems
import SignalPlane.Pushscan.RegistryTheorems
import SignalPlane.Pushscan.LoopTheorems
import SignalPlane.Pushscan.Broker
import SignalPlane.Dispatcher.RecordTheorems
import SignalPlane.Lib.Json
import SignalPlane.Routeresolver.Resolver
import SignalPlane.Routeresolver.ResolverTheorems
import SignalPlane.Shadowingress.Envelope
import SignalPlane.Lib.BreadthFirst
import SignalPlane.Pushscan.SearchTheorems

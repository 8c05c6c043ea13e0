import UpsOrchestrator.Observers
import UpsOrchestrator.Roles
import UpsOrchestrator.Hold
import UpsOrchestrator.CriticalShutdown
import UpsOrchestrator.Race
import UpsOrchestrator.LowBattery
import UpsOrchestrator.Episodes
import UpsOrchestrator.Deadlines
import UpsOrchestrator.Lib.Intervals
import UpsOrchestrator.Record
import UpsOrchestrator.OutageHistory
import UpsOrchestrator.PhaseTimer
import UpsOrchestrator.Release
import UpsOrchestrator.HoldLowBattery
import UpsOrchestrator.Confirmation
import UpsOrchestrator.Reports
import UpsOrchestrator.ReportsSerial
import UpsOrchestrator.ReportsClash
import UpsOrchestrator.Agent
import UpsOrchestrator.Commands
import UpsOrchestrator.Network
import UpsOrchestrator.StaleCommands
import UpsOrchestrator.Restart
import UpsOrchestrator.Routes
import UpsOrchestrator.ShutdownWindow
import UpsOrchestrator.WolRetry
import UpsOrchestrator.Lib.Crash
import UpsOrchestrator.OutageCalls
import UpsOrchestrator.OutageFiles
import UpsOrchestrator.Lib.Traces
import UpsOrchestrator.Desktop
import UpsOrchestrator.DecisionLaw
import UpsOrchestrator.Fallbacks
import UpsOrchestrator.Wiring
import UpsOrchestrator.StateStore
import UpsOrchestrator.AtomicStore
import UpsOrchestrator.EventLog
import UpsOrchestrator.CommandContract
import UpsOrchestrator.Lib.Scanner
import UpsOrchestrator.Wol
import UpsOrchestrator.Relay
import UpsOrchestrator.PowerAgent
import UpsOrchestrator.Lib.Locks
import UpsOrchestrator.WorkerPrograms
import UpsOrchestrator.Deadlock
import UpsOrchestrator.Isolation
import UpsOrchestrator.ResponseTime
import UpsOrchestrator.Lib.Json
import UpsOrchestrator.OutageText
import UpsOrchestrator.Upssched
import UpsOrchestrator.Causes
import UpsOrchestrator.PollLoop
import UpsOrchestrator.PollRecovery
import UpsOrchestrator.OutageRestarts
import UpsOrchestrator.CommandText
import UpsOrchestrator.CommandTextRuns
import UpsOrchestrator.ContextServer
import UpsOrchestrator.RecordDuties

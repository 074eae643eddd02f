import A1Bsw.Slew
import A1Bsw.Stay
import A1Bsw.StateMachine
import A1Bsw.Protocol
import A1Bsw.Dbc
import A1Bsw.Plausibility
import A1Bsw.CommandPolicy
import A1Bsw.TxEncode
import A1Bsw.ControlFrames
import A1Bsw.GuardLoop
import A1Bsw.LastGate
import A1Bsw.Gating
import A1Bsw.UntrustedDriving
import A1Bsw.Freshness
import A1Bsw.Limiting
import A1Bsw.Steering
import A1Bsw.RateBound
import A1Bsw.GuardRestart
import A1Bsw.RealTime
import A1Bsw.NanContainment
import A1Bsw.RequestFields
import A1Bsw.AliveCounter
import A1Bsw.StatusDecoders
import A1Bsw.Socket
import A1Bsw.BusFaults
import A1Bsw.StateOrder
import A1Bsw.EntryTimes
import A1Bsw.Ramp
import A1Bsw.FailedWrite
import A1Bsw.BrakeStrength
import A1Bsw.StatusSignals
import A1Bsw.Diagnostics
import A1Bsw.Generator
import A1Bsw.Deadlines
import A1Bsw.Supervisor
import A1Bsw.GuardSupervisor
import A1Bsw.Periodic
import A1Bsw.Program
import A1Bsw.ServiceLog
import A1Bsw.Statistics
import A1Bsw.Schedule
import A1Bsw.SilTests
import A1Bsw.SeqlockProgress
import A1Bsw.TornReads
import A1Bsw.Provenance
import A1Bsw.Soak
import A1Bsw.Violations
import A1Bsw.Restarts
import A1Bsw.LossyQueues
import A1Bsw.Receivers
import A1Bsw.Settling
import A1Bsw.Pipeline

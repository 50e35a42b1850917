import FlsunT1.Library.Run
import FlsunT1.Library.Text
import FlsunT1.Library.ConfigParser
import FlsunT1.Library.ConfigReading
import FlsunT1.Library.ConfigFiles
import FlsunT1.Library.ConfigRoundTrip
import FlsunT1.Library.Word
import FlsunT1.Mcu.Timer
import FlsunT1.Mcu.Stepper
import FlsunT1.Mcu.StepperPosition
import FlsunT1.Mcu.DigitalOut
import FlsunT1.Mcu.DigitalWatchdog
import FlsunT1.Library.Fuel
import FlsunT1.Library.LinkedList
import FlsunT1.Mcu.Sched
import FlsunT1.Mcu.TimerList
import FlsunT1.Mcu.TimerSchedule
import FlsunT1.Chelper.StepCompress
import FlsunT1.Library.Quadratic
import FlsunT1.Chelper.StepSearch
import FlsunT1.Chelper.StepStream
import FlsunT1.Chelper.StepReplay
import FlsunT1.Library.MinHeap
import FlsunT1.Library.Slots
import FlsunT1.Library.Ensures
import FlsunT1.Chelper.StepperSync
import FlsunT1.Chelper.SerialQueue
import FlsunT1.Library.Tally
import FlsunT1.Chelper.CommandQueues
import FlsunT1.Library.GoBackN
import FlsunT1.Mcu.Command
import FlsunT1.Link.World
import FlsunT1.Link.Delivery
import FlsunT1.Link.QueueDelivery
import FlsunT1.Link.Notifications
import FlsunT1.Library.Scanner
import FlsunT1.Wire.MessageBlock
import FlsunT1.Wire.HostInput
import FlsunT1.Wire.ConsoleInput
import FlsunT1.Wire.Framing
import FlsunT1.Library.Vlq
import FlsunT1.Wire.Codec
import FlsunT1.Wire.Msgproto
import FlsunT1.Wire.Response
import FlsunT1.Wire.Dispatch
import FlsunT1.Wire.DispatchBounds
import FlsunT1.Library.LineStarts
import FlsunT1.Library.Lines
import FlsunT1.Klippy.VirtualSd
import FlsunT1.Library.Utf8
import FlsunT1.Klippy.SdPrint
import FlsunT1.Klippy.SdPause
import FlsunT1.Klippy.SdLoop
import FlsunT1.Klippy.SdExclude
import FlsunT1.Klippy.GcodeCommand
import FlsunT1.Klippy.GcodeMove
import FlsunT1.Klippy.GcodeMachine
import FlsunT1.Klippy.GcodePosition
import FlsunT1.Klippy.FeedRate
import FlsunT1.Klippy.VelocityLimits
import FlsunT1.Klippy.ExcludeObject
import FlsunT1.Klippy.DeltaKinematics
import FlsunT1.Klippy.LookAhead
import FlsunT1.Klippy.LookAheadPlan
import FlsunT1.Klippy.LookAheadSound
import FlsunT1.Klippy.LookAheadRuns
import FlsunT1.Klippy.ExcludeMoves
import FlsunT1.Klippy.ExcludeOver
import FlsunT1.Klippy.ExcludePosition
import FlsunT1.Mcu.Buttons
import FlsunT1.Klippy.Buttons
import FlsunT1.Link.ButtonReports
import FlsunT1.Link.ButtonConvergence
import FlsunT1.Library.Dict
import FlsunT1.Klippy.SaveVariables
import FlsunT1.Klippy.VariablesFile
import FlsunT1.Klippy.QueryStatus
import FlsunT1.Klippy.FilamentSensor
import FlsunT1.Klippy.HeatBreak
import FlsunT1.Klippy.CancelDetection
import FlsunT1.Klippy.GcodeInput
import FlsunT1.Klippy.GcodeLine
import FlsunT1.Klippy.PowerLoss
import FlsunT1.Klippy.PowerLossLines
import FlsunT1.Klippy.PowerLossRecover
import FlsunT1.Library.Rounding
import FlsunT1.Klippy.PrintTimes
import FlsunT1.Klippy.PrinterWorkmode
import FlsunT1.Klippy.WorkmodePaths
import FlsunT1.Moonraker.Database
import FlsunT1.Moonraker.DatabaseAlgebra
import FlsunT1.Moonraker.DatabaseJobs
import FlsunT1.Moonraker.Authorization
import FlsunT1.Moonraker.AuthorizationStore
import FlsunT1.Moonraker.AuthorizationRestart
import FlsunT1.Moonraker.KlippyRequests
import FlsunT1.Moonraker.KlippyReady
import FlsunT1.Moonraker.JobQueueSafety
import FlsunT1.Moonraker.ConfigSource
import FlsunT1.Moonraker.ConfigEdits
import FlsunT1.Moonraker.ConfigTransactions
import FlsunT1.Moonraker.JobQueuePops
import FlsunT1.Library.PosixPath
import FlsunT1.Library.Instances
import FlsunT1.Moonraker.FileRoots
import FlsunT1.Moonraker.FileInUse
import FlsunT1.Moonraker.HistoryIndex
import FlsunT1.Library.Renames
import FlsunT1.Moonraker.NamespaceView
import FlsunT1.Moonraker.MetadataStorage
import FlsunT1.Moonraker.MetadataMirror
import FlsunT1.Moonraker.StartPrint
import FlsunT1.Klippy.SavePoint
import FlsunT1.Klippy.RecoverPosition
import FlsunT1.Klippy.ResumePoint
import FlsunT1.Klippy.Rollback
import FlsunT1.Klippy.RollbackGravity
import FlsunT1.Klippy.PauseResume
import FlsunT1.Library.Monitor
import FlsunT1.Klippy.ToolHead
import FlsunT1.Klippy.ToolHeadTimes
import FlsunT1.Klippy.ReactorMutex
import FlsunT1.Mcu.Trsync
import FlsunT1.Chelper.Trdispatch
import FlsunT1.Klippy.DeltaCalibration
import FlsunT1.Klippy.DeltaCalibrate
import FlsunT1.Chelper.StepPosition
import FlsunT1.Library.QuadraticRoot
import FlsunT1.Chelper.PastPosition
import FlsunT1.Library.Spans
import FlsunT1.Chelper.TrapQ
import FlsunT1.Chelper.StepGeneration
import FlsunT1.Library.Segment
import FlsunT1.Klippy.DeltaSettings
import FlsunT1.Klippy.DeltaEnvelope
import FlsunT1.Library.Regex
import FlsunT1.Moonraker.Versions
import FlsunT1.Library.Window
import FlsunT1.Moonraker.HistoryList
import FlsunT1.Moonraker.NamespaceSync
import FlsunT1.Moonraker.JsonRpc
import FlsunT1.Klippy.HeaterOutput
import FlsunT1.Klippy.ExcludeCounts
import FlsunT1.Moonraker.MetadataProgress
import FlsunT1.Klippy.RunoutSensor
import FlsunT1.Moonraker.GcodeOffsets
import FlsunT1.Klippy.TmcUart
import FlsunT1.Moonraker.PanelDueOutput
import FlsunT1.Moonraker.PanelDueInput
import FlsunT1.Moonraker.GcodeNotifications
import FlsunT1.Klippy.MoveSplitter
import FlsunT1.Klippy.BedMesh
import FlsunT1.Mcu.Endstop
import FlsunT1.Klippy.MeshSurface
import FlsunT1.Mcu.Uptime
import FlsunT1.Klippy.HeaterCheck
import FlsunT1.Chelper.StepOverflow
import FlsunT1.Mcu.TmcUart
import FlsunT1.Mcu.TmcTransfer

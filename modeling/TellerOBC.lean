import TellerOBC.Cmd.Acknowledgments
import TellerOBC.Cmd.EchoReplies
import TellerOBC.Cmd.ForeignMessages
import TellerOBC.Cmd.InboundQueue
import TellerOBC.Cmd.MemorySafety
import TellerOBC.Cmd.Process
import TellerOBC.Cmd.Uplink
import TellerOBC.Core.BlockCache
import TellerOBC.Core.Crc
import TellerOBC.Core.CrcPolynomials
import TellerOBC.Core.Histogram
import TellerOBC.Core.HistogramBounds
import TellerOBC.Core.HistogramRoundTrip
import TellerOBC.Core.HistogramUnpack
import TellerOBC.Core.MajorityVoter
import TellerOBC.Core.MalformedHistograms
import TellerOBC.Core.Nmea.Parser
import TellerOBC.Core.Nmea.Sentences
import TellerOBC.Core.RunningMean
import TellerOBC.Core.SmartHandles
import TellerOBC.Core.Telem.BurstErrors
import TellerOBC.Core.Telem.CheckedFrames
import TellerOBC.Core.Telem.CommandFrames
import TellerOBC.Core.Telem.FixedLengthFrames
import TellerOBC.Core.Telem.Generic
import TellerOBC.Core.Telem.Parser
import TellerOBC.Core.Telem.ParserBounds
import TellerOBC.Core.Telem.Resync
import TellerOBC.Core.Telem.RoundTrip
import TellerOBC.Core.Telem.ScmFrames
import TellerOBC.Core.Telem.StaleRecords
import TellerOBC.Core.Telem.StorageFrames
import TellerOBC.Core.Telem.Streams
import TellerOBC.Core.Telem.VariableLengthFrames
import TellerOBC.Core.Time
import TellerOBC.Core.UtcTime
import TellerOBC.Core.Varuint
import TellerOBC.Core.VaruintDecode
import TellerOBC.Core.VaruintRoundTrip
import TellerOBC.Core.VaruintStream
import TellerOBC.Drivers.Detection
import TellerOBC.Drivers.FlashMem
import TellerOBC.Drivers.FlashMem.Chip
import TellerOBC.Drivers.FlashMem.Identify
import TellerOBC.Drivers.FlashMem.Operations
import TellerOBC.Drivers.FlashMem.PagePrograms
import TellerOBC.Drivers.Icm20649
import TellerOBC.Drivers.Mlx90393
import TellerOBC.Drivers.SdCard.Blocks
import TellerOBC.Drivers.SdCard.BusSharing
import TellerOBC.Drivers.SdCard.CacheCoherence
import TellerOBC.Drivers.SdCard.Card
import TellerOBC.Drivers.SdCard.Commands
import TellerOBC.Drivers.SdCard.DataPhase
import TellerOBC.Drivers.SdCard.ReadData
import TellerOBC.Drivers.SdCard.ReadRetries
import TellerOBC.Edr.DebugCommands
import TellerOBC.Edr.FailedWrites
import TellerOBC.Edr.LogIndex
import TellerOBC.Edr.Manage
import TellerOBC.Edr.PendingRequests
import TellerOBC.Edr.RecordedLog
import TellerOBC.Edr.Recorder
import TellerOBC.Edr.Recorders
import TellerOBC.Edr.Requests
import TellerOBC.Edr.StopRequests
import TellerOBC.Errors
import TellerOBC.Foundations.BlockMemory
import TellerOBC.Foundations.Calendar
import TellerOBC.Foundations.CheckedMemory
import TellerOBC.Foundations.CircularBuffer
import TellerOBC.Foundations.ConditionLoop
import TellerOBC.Foundations.ConditionVariable
import TellerOBC.Foundations.CutOff
import TellerOBC.Foundations.Decimal
import TellerOBC.Foundations.EarlyReturnLoop
import TellerOBC.Foundations.FallibleLoop
import TellerOBC.Foundations.HighestBit
import TellerOBC.Foundations.History
import TellerOBC.Foundations.MarkedProgram
import TellerOBC.Foundations.MaskedUpdate
import TellerOBC.Foundations.Moments
import TellerOBC.Foundations.NorMemory
import TellerOBC.Foundations.Observation
import TellerOBC.Foundations.Ownership
import TellerOBC.Foundations.Placement
import TellerOBC.Foundations.Program
import TellerOBC.Foundations.SharedBuffer
import TellerOBC.Foundations.ShiftRegister
import TellerOBC.Foundations.StepSystem
import TellerOBC.Foundations.Stopwatch
import TellerOBC.Foundations.Transfer
import TellerOBC.Gmm
import TellerOBC.Hal.BlockingQueue
import TellerOBC.Hal.EventFlagWaits
import TellerOBC.Hal.QueueCalls
import TellerOBC.Hal.QueueWakeups
import TellerOBC.Hal.Rtc
import TellerOBC.Hal.Rtc.Setting
import TellerOBC.Hal.Rtc.Ticks
import TellerOBC.Hal.Spi
import TellerOBC.Hal.SpiTransfer
import TellerOBC.Hal.TimedWaits
import TellerOBC.Hal.Uart
import TellerOBC.Hal.UartWrite
import TellerOBC.Hal.UsbRead
import TellerOBC.Imu.AccelCalibration
import TellerOBC.Imu.GyroCalibration
import TellerOBC.Lcl.AutoReset
import TellerOBC.Lcl.Recovery
import TellerOBC.Lcl.ResetLimits
import TellerOBC.Lib.LittleFS
import TellerOBC.Lib.Lwrb
import TellerOBC.Lib.SharedLwrb
import TellerOBC.Loggers
import TellerOBC.PeriodicTasks
import TellerOBC.Rxsm.Signals
import TellerOBC.Scheduler.Clock
import TellerOBC.Scheduler.Events
import TellerOBC.Scheduler.Execution
import TellerOBC.Scm.Logging
import TellerOBC.Scm.MemorySafety
import TellerOBC.Scm.Relay
import TellerOBC.Scm.Stamps
import TellerOBC.Scm.Update
import TellerOBC.Storage.AbsentDevices
import TellerOBC.Storage.DirectoryListing
import TellerOBC.Storage.DirectorySeek
import TellerOBC.Storage.Effects
import TellerOBC.Storage.FailedReads
import TellerOBC.Storage.FileDownload
import TellerOBC.Storage.Filesystems
import TellerOBC.Storage.Handover
import TellerOBC.Storage.Lifecycle
import TellerOBC.Storage.Manager
import TellerOBC.Storage.Medium
import TellerOBC.Storage.MountWaits
import TellerOBC.Storage.OnDevices
import TellerOBC.Storage.Operations
import TellerOBC.Storage.RawDownload
import TellerOBC.Storage.Sessions
import TellerOBC.Supervisor.Queues
import TellerOBC.Supervisor.Tasks
import TellerOBC.Telem.Downlink
import TellerOBC.Telem.OutboundQueue
import TellerOBC.UartRx

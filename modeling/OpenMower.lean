import OpenMower.Library.StateMachine
import OpenMower.Library.ModularClock
import OpenMower.Library.WordMask
import OpenMower.Library.Refcount
import OpenMower.Library.Chunks
import OpenMower.Library.Buffer
import OpenMower.Library.Cobs
import OpenMower.Library.Search
import OpenMower.Library.RingBuffer
import OpenMower.Portable.SystemTime
import OpenMower.Portable.Integers
import OpenMower.JsonStream
import OpenMower.Services.EmergencyReason
import OpenMower.Drivers.Input
import OpenMower.Services.InputService
import OpenMower.Services.InputCounting
import OpenMower.Services.InputConfig
import OpenMower.Services.EmergencyService
import OpenMower.Emergency.System
import OpenMower.Emergency.HighLevelTimeout
import OpenMower.Emergency.Ownership
import OpenMower.Emergency.LiveConditions
import OpenMower.Emergency.ConcurrentCheckInputs
import OpenMower.Emergency.InputDetection
import OpenMower.Emergency.DelayRace
import OpenMower.Emergency.WakeUp
import OpenMower.Motors.System
import OpenMower.Motors.Stop
import OpenMower.Motors.StaleCommand
import OpenMower.Motors.WholeCalls
import OpenMower.Motors.StoppedService
import OpenMower.Services.DiffDriveEscs
import OpenMower.Motors.EscStatus
import OpenMower.Drivers.Yfr4Esc
import OpenMower.Drivers.YfCoverUi
import OpenMower.Drivers.Vesc
import OpenMower.Drivers.Cobs
import OpenMower.Drivers.CobsReceiver
import OpenMower.Drivers.Nmea
import OpenMower.Drivers.Ubx
import OpenMower.Drivers.DoubleBuffer
import OpenMower.Drivers.DmaReceiver
import OpenMower.Reception.Handover
import OpenMower.Reception.RingDelivery
import OpenMower.Motors.Heartbeat
import OpenMower.Inputs.Configuration
import OpenMower.Inputs.Updates
import OpenMower.Inputs.LiftCounting
import OpenMower.Inputs.PanelMirror
import OpenMower.Parsers.VescRoundTrip
import OpenMower.Parsers.CobsCodecs
import OpenMower.Parsers.Yfr4Framing
import OpenMower.Parsers.PanelDecoder
import OpenMower.Parsers.NmeaDelivery
import OpenMower.Parsers.UbxFrames
import OpenMower.Parsers.UbxBounds
import OpenMower.Parsers.UbxFraming
import OpenMower.Parsers.UbxResync
import OpenMower.Parsers.VescProgress
import OpenMower.Inputs.CollisionCounting
import OpenMower.Inputs.ConcurrentConfiguration
import OpenMower.Inputs.ConcurrentDrivers
import OpenMower.Drivers.PanelDma
import OpenMower.Reception.PanelDelivery
import OpenMower.Debug.TcpInterface
import OpenMower.Debug.BrokenConnection
import OpenMower.Parsers.JsonAcceptance
import OpenMower.Filesystem.VersionedStruct
import OpenMower.Filesystem.Saving
import OpenMower.Filesystem.Loading
import OpenMower.Library.ExactFloat
import OpenMower.Library.StateProgram
import OpenMower.Drivers.Bq2576
import OpenMower.Services.PowerService
import OpenMower.Power.System
import OpenMower.Power.ChargeLimit
import OpenMower.Power.AdapterLimit
import OpenMower.Library.Distribution
import OpenMower.Portable.PacketIo
import OpenMower.Packets.Conservation
import OpenMower.Library.PartialSteps
import OpenMower.Drivers.InputTables
import OpenMower.Inputs.ConfigObject
import OpenMower.Inputs.ConfigParts
import OpenMower.Inputs.DriverKeys
import OpenMower.Inputs.KeyOrder
import OpenMower.Inputs.ValidKeys
import OpenMower.Inputs.KeyConflicts
import OpenMower.Inputs.ConflictOrders
import OpenMower.Library.LinkedList
import OpenMower.Inputs.DriverLists
import OpenMower.Inputs.InputLists
import OpenMower.Inputs.Presses
import OpenMower.Library.TruncatedKeys
import OpenMower.Inputs.ExactNames
import OpenMower.Parsers.VescBounds
import OpenMower.Drivers.VescValues
import OpenMower.Parsers.VescStatus
import OpenMower.Parsers.NmeaOverlong
import OpenMower.Parsers.JsonErrorPosition
import OpenMower.Library.JsonString
import OpenMower.JsonUtils
import OpenMower.Parsers.JsonEscapes
import OpenMower.Drivers.SaboBms
import OpenMower.Power.BlockTexts
import OpenMower.Filesystem.FilePaths
import OpenMower.Filesystem.ParentDirectories
import OpenMower.Library.Runs
import OpenMower.Drivers.CaboDriver
import OpenMower.CoverUi.Debouncing
import OpenMower.Library.BitStream
import OpenMower.Drivers.DisplayUc1698
import OpenMower.CoverUi.DisplayFlush
import OpenMower.Drivers.DisplayThread
import OpenMower.CoverUi.DisplayTransfers
import OpenMower.CoverUi.DisplayWaiting
import OpenMower.Library.NorFlash
import OpenMower.Drivers.FlashDevice
import OpenMower.Filesystem.FlashProgramming
import OpenMower.Filesystem.FlashCallbacks
import OpenMower.Library.Crc
import OpenMower.Parsers.VescDamage
import OpenMower.Library.LittleEndian
import OpenMower.Parsers.CobsStreams
import OpenMower.Drivers.Yfr4Packets
import OpenMower.Parsers.Yfr4Status
import OpenMower.Drivers.PanelComms
import OpenMower.CoverUi.PanelAvailability
import OpenMower.CoverUi.PanelMessages
import OpenMower.Power.LowBattery
import OpenMower.Motors.Odometry
import OpenMower.Library.PolledTimer
import OpenMower.Drivers.CoverUiPanel
import OpenMower.CoverUi.KeyScanning
import OpenMower.CoverUi.LedModes
import OpenMower.Library.Fletcher
import OpenMower.Drivers.NavPvt
import OpenMower.Parsers.GpsSolutions

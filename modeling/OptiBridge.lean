import OptiBridge.Lib.Bytes
import OptiBridge.Lib.Checked
import OptiBridge.Lib.Crc
import OptiBridge.Lib.Machine
import OptiBridge.Lib.Nor
import OptiBridge.Lib.Progress
import OptiBridge.Lib.Regions
import OptiBridge.Lib.Simulation
import OptiBridge.Lib.Slot
import OptiBridge.Crc32
import OptiBridge.Remainder
import OptiBridge.Protocol
import OptiBridge.Loader
import OptiBridge.LoaderSteps
import OptiBridge.Dispatch
import OptiBridge.Device
import OptiBridge.LoaderInvariant
import OptiBridge.Image
import OptiBridge.Flash
import OptiBridge.FlashSteps
import OptiBridge.LoadOrder
import OptiBridge.RunningLock
import OptiBridge.Recording
import OptiBridge.FlashFailures
import OptiBridge.BusyRetry
import OptiBridge.Boot
import OptiBridge.Burst
import OptiBridge.Commit
import OptiBridge.Metadata
import OptiBridge.Layouts
import OptiBridge.Maps
import OptiBridge.Effects
import OptiBridge.Loading
import OptiBridge.PowerCut
import OptiBridge.WriteDiscipline
import OptiBridge.Stream
import OptiBridge.Items
import OptiBridge.Bridge
import OptiBridge.Timer
import OptiBridge.Firmware
import OptiBridge.FirmwareSteps
import OptiBridge.Captures
import OptiBridge.Answers
import OptiBridge.Refinement
import OptiBridge.LoadSlot
import OptiBridge.TimerSafety
import OptiBridge.Replacement
import OptiBridge.Execution
import OptiBridge.Reboots
import OptiBridge.TimerProgress
import OptiBridge.BusIdle
import OptiBridge.FreshMaps
import OptiBridge.MapHelpers
import OptiBridge.HelperAccess
import OptiBridge.Invocations
import OptiBridge.ImageExecution
import OptiBridge.RawProtocol
import OptiBridge.RawLoader
import OptiBridge.RawFlash
import OptiBridge.RawDispatch
import OptiBridge.NoPanic
import OptiBridge.Lib.Script
import OptiBridge.Host
import OptiBridge.Target
import OptiBridge.HostPort
import OptiBridge.Requests
import OptiBridge.Polling
import OptiBridge.Submissions
import OptiBridge.Transfers
import OptiBridge.Completion
import OptiBridge.MapCalls
import OptiBridge.MapPages

import CoUsb.ErrorCode
import CoUsb.Ev.AnyEventHandler
import CoUsb.Ev.ContextLifetime
import CoUsb.Ev.CurrentHandler
import CoUsb.Ev.EventHandlerRef
import CoUsb.Ev.EventLoop
import CoUsb.Ev.HandlerService
import CoUsb.Ev.Parts
import CoUsb.Ev.References
import CoUsb.Ev.StopReturns
import CoUsb.Ev.Teardown
import CoUsb.Ev.TrivialEventHandler
import CoUsb.Hotplug.Departures
import CoUsb.Hotplug.DeviceAcceptor
import CoUsb.Hotplug.Devices
import CoUsb.Hotplug.NewestFirst
import CoUsb.Hotplug.OneshotHotplug
import CoUsb.Hotplug.OneshotResolution
import CoUsb.Hotplug.Outcomes
import CoUsb.Hotplug.Posting
import CoUsb.Hotplug.Referenced
import CoUsb.Hotplug.Registration
import CoUsb.Hotplug.ShutdownCalls
import CoUsb.Hotplug.StopRequest
import CoUsb.Hotplug.Waiting
import CoUsb.Lib.Account
import CoUsb.Lib.Blocks
import CoUsb.Lib.Countdown
import CoUsb.Lib.Custody
import CoUsb.Lib.Dispenser
import CoUsb.Lib.Fill
import CoUsb.Lib.Log
import CoUsb.Lib.Machine
import CoUsb.Lib.Ranking
import CoUsb.Lib.Service
import CoUsb.Lib.Slots
import CoUsb.Lib.Word
import CoUsb.Libusb
import CoUsb.Transfer.ByteCount
import CoUsb.Transfer.Calls
import CoUsb.Transfer.Cancellation
import CoUsb.Transfer.CompleteBuffers
import CoUsb.Transfer.CompleteSequenceAwaitable
import CoUsb.Transfer.ControlRequests
import CoUsb.Transfer.Delivery
import CoUsb.Transfer.Drain
import CoUsb.Transfer.Failure
import CoUsb.Transfer.FirstFailure
import CoUsb.Transfer.Handing
import CoUsb.Transfer.History
import CoUsb.Transfer.InFlight
import CoUsb.Transfer.Lengths
import CoUsb.Transfer.Lockstep
import CoUsb.Transfer.Operation
import CoUsb.Transfer.Operations
import CoUsb.Transfer.Ordinary
import CoUsb.Transfer.PacketCount
import CoUsb.Transfer.PartialBuffers
import CoUsb.Transfer.Prefill
import CoUsb.Transfer.Progress
import CoUsb.Transfer.ReadPrefix
import CoUsb.Transfer.Rest
import CoUsb.Transfer.Resumption
import CoUsb.Transfer.SequenceAwaitable
import CoUsb.Transfer.SequenceView
import CoUsb.Transfer.Shutdown
import CoUsb.Transfer.Steps
import CoUsb.Transfer.StreamOrder
import CoUsb.Transfer.Termination
import CoUsb.Transfer.Wakeup
import CoUsb.Transfer.Windows
import CoUsb.Wrapper.DeviceHandle
import CoUsb.Wrapper.DeviceRef
import CoUsb.Wrapper.DeviceRefRuns
import CoUsb.Wrapper.DeviceTriplet
import CoUsb.Wrapper.ErrorProtocol
import CoUsb.Wrapper.Interface
import CoUsb.Wrapper.Nesting
import CoUsb.Wrapper.OpenHandles
import CoUsb.Wrapper.Scope
import CoUsb.Wrapper.Settlement

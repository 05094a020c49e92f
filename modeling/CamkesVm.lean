import CamkesVm.ArmIrq.Acknowledge
import CamkesVm.ArmMemory.ExtraFrames
import CamkesVm.ArmMemory.MapPaddr
import CamkesVm.ArmMemory.OnDemand
import CamkesVm.ArmMemory.State
import CamkesVm.Connections.Keys
import CamkesVm.CrossVm.Table
import CamkesVm.Ethernet.Chain
import CamkesVm.Ethernet.Driver
import CamkesVm.Ethernet.Retry
import CamkesVm.Events.Callbacks
import CamkesVm.Events.Dispatch
import CamkesVm.Events.Registration
import CamkesVm.Fdt.Chosen
import CamkesVm.Hpet.Calls
import CamkesVm.Hpet.Counter
import CamkesVm.Hpet.Expiry
import CamkesVm.Hpet.Invariants
import CamkesVm.Hpet.Lines
import CamkesVm.Hpet.Machine
import CamkesVm.Hpet.Mmio
import CamkesVm.Hpet.Owner
import CamkesVm.Hpet.Phase
import CamkesVm.Hpet.Select
import CamkesVm.Hpet.State
import CamkesVm.Hpet.Timer
import CamkesVm.Hpet.Width
import CamkesVm.Lib.ByteWords
import CamkesVm.Lib.Coalesced
import CamkesVm.Lib.Cyclic
import CamkesVm.Lib.Edges
import CamkesVm.Lib.Extent
import CamkesVm.Lib.Flags
import CamkesVm.Lib.FuelLoop
import CamkesVm.Lib.Gregorian
import CamkesVm.Lib.Ledger
import CamkesVm.Lib.Linked
import CamkesVm.Lib.Log
import CamkesVm.Lib.LongDivision
import CamkesVm.Lib.Orbit
import CamkesVm.Lib.QueueHistory
import CamkesVm.Lib.Resample
import CamkesVm.Lib.SharedStore
import CamkesVm.Lib.Tiling
import CamkesVm.Lib.TimerService
import CamkesVm.Lib.Transition
import CamkesVm.Lib.Virtqueue
import CamkesVm.Lib.Wires
import CamkesVm.Lib.Words
import CamkesVm.Passthrough.GuestMaps
import CamkesVm.Passthrough.Once
import CamkesVm.Passthrough.Template
import CamkesVm.Pci.ConfigPorts
import CamkesVm.Pci.Mechanism
import CamkesVm.Pit.Channel
import CamkesVm.Pit.Checked
import CamkesVm.Pit.Latch
import CamkesVm.Pit.Load
import CamkesVm.Pit.Machine
import CamkesVm.Pit.Output
import CamkesVm.Pit.Periodic
import CamkesVm.Pit.Punctual
import CamkesVm.Pit.Runs
import CamkesVm.Pit.State
import CamkesVm.Pit.Ticks
import CamkesVm.Pit.Transitions
import CamkesVm.Platform.Legacy
import CamkesVm.Platform.Machine
import CamkesVm.Platform.Progress
import CamkesVm.Platform.Vmm
import CamkesVm.Rtc.Alarm
import CamkesVm.Rtc.Calendar
import CamkesVm.Rtc.Causes
import CamkesVm.Rtc.Chain
import CamkesVm.Rtc.Codec
import CamkesVm.Rtc.Cycle
import CamkesVm.Rtc.HostDate
import CamkesVm.Rtc.LegalTime
import CamkesVm.Rtc.Line
import CamkesVm.Rtc.Machine
import CamkesVm.Rtc.Muldiv
import CamkesVm.Rtc.Output
import CamkesVm.Rtc.Periodic
import CamkesVm.Rtc.Port
import CamkesVm.Rtc.SetMode
import CamkesVm.Rtc.State
import CamkesVm.Sataserver.Accept
import CamkesVm.Sataserver.Assignment
import CamkesVm.Sataserver.Chs
import CamkesVm.Sataserver.Isolation
import CamkesVm.Sataserver.Layout
import CamkesVm.Sataserver.Read
import CamkesVm.Sataserver.Request
import CamkesVm.Sataserver.State
import CamkesVm.Sataserver.Write
import CamkesVm.Serial.DataReady
import CamkesVm.Serial.Emits
import CamkesVm.Serial.Input
import CamkesVm.Serial.Interrupt
import CamkesVm.Serial.Loopback
import CamkesVm.Serial.Lossless
import CamkesVm.Serial.Machine
import CamkesVm.Serial.Order
import CamkesVm.Serial.Orderly
import CamkesVm.Serial.Port
import CamkesVm.Serial.Queues
import CamkesVm.Serial.Receiver
import CamkesVm.Serial.Ring
import CamkesVm.Serial.Stall
import CamkesVm.Serial.State
import CamkesVm.Serial.Transmitter
import CamkesVm.Udp.Echo
import CamkesVm.Udp.Length
import CamkesVm.Udp.Recv
import CamkesVm.Udp.Send
import CamkesVm.VirtioBlk.Guests
import CamkesVm.VirtioBlk.Transfer
import CamkesVm.VirtioCon.Bringup
import CamkesVm.VirtioCon.Fifo
import CamkesVm.VirtioCon.Partial
import CamkesVm.VirtioCon.System
import CamkesVm.VirtioCon.Wakeup
import CamkesVm.VirtioNet.Network
import CamkesVm.VirtioNet.Receive
import CamkesVm.VirtioNet.Settling
import CamkesVm.VirtioNet.Transmit
import CamkesVm.VirtioVsock.Forward
import CamkesVm.VirtioVsock.Lengths

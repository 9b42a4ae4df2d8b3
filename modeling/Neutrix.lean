import Neutrix.Lib.Run
import Neutrix.Lib.While
import Neutrix.Lib.Polling
import Neutrix.Lib.Interrupts
import Neutrix.Lib.Simulation
import Neutrix.Lib.Bitmap
import Neutrix.Lib.Pool
import Neutrix.Lib.WindowFile
import Neutrix.Lib.MaskedReg
import Neutrix.Lib.SizingMask
import Neutrix.Lib.ByteMemory
import Neutrix.Lib.Footprint
import Neutrix.Lib.FilterMap
import Neutrix.Lib.Reading
import Neutrix.Lib.Keyed
import Neutrix.Lib.Passes
import Neutrix.Lib.RadixTable
import Neutrix.Lib.AddMissing
import Neutrix.Lib.SaveUnder
import Neutrix.Lib.Trace
import Neutrix.Lib.FirstCome
import Neutrix.Lib.Painting
import Neutrix.Lib.LineWrap
import Neutrix.Rlib.Mem
import Neutrix.Rlib.Memcmp
import Neutrix.Rlib.Memmove
import Neutrix.Rlib.Memcpy
import Neutrix.Rlib.Memset
import Neutrix.Memory.Frame
import Neutrix.Memory.FrameInit
import Neutrix.Memory.FramePlacement
import Neutrix.Memory.FrameSafety
import Neutrix.Memory.FrameExhaustion
import Neutrix.Memory.Paging
import Neutrix.Memory.HeapInit
import Neutrix.Hal.Ioapic
import Neutrix.Hal.IoapicTable
import Neutrix.Hal.IsaRouting
import Neutrix.Hal.Redirection
import Neutrix.Hal.Delivery
import Neutrix.DriverFramework.Manager
import Neutrix.DriverFramework.Merge
import Neutrix.DriverFramework.Attach
import Neutrix.DriverFramework.DriverHistory
import Neutrix.DriverFramework.Growth
import Neutrix.Devices.Pci
import Neutrix.Devices.PciScan
import Neutrix.Devices.PciBars
import Neutrix.Devices.PciHeaders
import Neutrix.Devices.PciCaps
import Neutrix.Devices.PciMsix
import Neutrix.Devices.PciFields
import Neutrix.Devices.PciReserved
import Neutrix.Devices.PciRegistry
import Neutrix.Devices.PciRescan
import Neutrix.Devices.PciIndependence
import Neutrix.Devices.Acpi
import Neutrix.Devices.AcpiTables
import Neutrix.Devices.AcpiReads
import Neutrix.Devices.MadtCodec
import Neutrix.Devices.HpetTable
import Neutrix.Devices.AcpiImage
import Neutrix.Devices.AcpiBoot
import Neutrix.Arch.Executor
import Neutrix.Arch.WakeUps
import Neutrix.Arch.QueueBound
import Neutrix.Arch.TaskHistory
import Neutrix.Arch.Fairness
import Neutrix.Arch.Idt
import Neutrix.Drivers.VbeVga
import Neutrix.Drivers.Attachable
import Neutrix.Arch.TscTimer
import Neutrix.Drivers.GlobalPointers
import Neutrix.Drivers.IrqVectors
import Neutrix.Devices.BootRegistry
import Neutrix.Drivers.FramebufferMapping
import Neutrix.Drivers.FramebufferBox
import Neutrix.BootVga.VgaBuffer
import Neutrix.BootVga.Layout
import Neutrix.BootVga.HardwareCursor
import Neutrix.BootVga.Screen
import Neutrix.BootVga.Print
import Neutrix.Drivers.Console
import Neutrix.Drivers.ConsoleCursor
import Neutrix.Drivers.ConsoleScroll
import Neutrix.Drivers.TextScreen
import Neutrix.Drivers.TextGrid
import Neutrix.Drivers.ConsoleText
import Neutrix.Drivers.ConsoleGlyphs
import Neutrix.Drivers.LineEcho
import Neutrix.Drivers.Ps2Mouse
import Neutrix.Drivers.Ps2Controller
import Neutrix.Drivers.Ps2Protocol
import Neutrix.Drivers.BootPolling
import Neutrix.Drivers.MousePackets
import Neutrix.Drivers.MouseResync
import Neutrix.Drivers.MouseLine
import Neutrix.Drivers.MouseTravel
import Neutrix.Drivers.CursorBounds
import Neutrix.Drivers.MouseCursor
import Neutrix.Drivers.CursorOverlay

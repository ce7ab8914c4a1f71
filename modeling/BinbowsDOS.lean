import BinbowsDOS.Foundations.ByteMemory
import BinbowsDOS.Foundations.PackedRecord
import BinbowsDOS.Foundations.ByteBits
import BinbowsDOS.Foundations.MachineWord
import BinbowsDOS.Foundations.Arena
import BinbowsDOS.Foundations.Gaps
import BinbowsDOS.Foundations.Program
import BinbowsDOS.Foundations.WordStack
import BinbowsDOS.Foundations.Numerals
import BinbowsDOS.Foundations.DigitBuffer
import BinbowsDOS.Foundations.FormatString
import BinbowsDOS.Foundations.Trace
import BinbowsDOS.Foundations.Descriptors
import BinbowsDOS.Foundations.Queue
import BinbowsDOS.Heap.Allocator
import BinbowsDOS.Heap.FreeChain
import BinbowsDOS.Heap.Insertion
import BinbowsDOS.Heap.Invariant
import BinbowsDOS.Heap.Run
import BinbowsDOS.Heap.FirstFit
import BinbowsDOS.Heap.Placement
import BinbowsDOS.Heap.Canonical
import BinbowsDOS.Heap.LiveData
import BinbowsDOS.Heap.Clients
import BinbowsDOS.Heap.BlockCopy
import BinbowsDOS.Heap.Interrupted
import BinbowsDOS.Console.Vga
import BinbowsDOS.Console.Terminal
import BinbowsDOS.Console.Refinement
import BinbowsDOS.Console.Format
import BinbowsDOS.Console.Printf
import BinbowsDOS.Console.Lines
import BinbowsDOS.Console.Screen
import BinbowsDOS.Console.Colour
import BinbowsDOS.Boot.KernelImage
import BinbowsDOS.Boot.Loader
import BinbowsDOS.Boot.Delivery
import BinbowsDOS.Boot.Walk
import BinbowsDOS.Ide.Driver
import BinbowsDOS.Ide.Frame
import BinbowsDOS.Ide.Watch
import BinbowsDOS.Ide.AtaDevice
import BinbowsDOS.Ide.SectorTransfer
import BinbowsDOS.Ide.SectorArray
import BinbowsDOS.Ide.Addressing
import BinbowsDOS.Ide.Detection
import BinbowsDOS.Ide.WriteStatus
import BinbowsDOS.Ide.DataPhase
import BinbowsDOS.Ide.PortRange
import BinbowsDOS.Ide.RejectedWrite
import BinbowsDOS.Ide.Scripted
import BinbowsDOS.Ide.PrefixRead
import BinbowsDOS.Ide.UsedArea
import BinbowsDOS.Ide.IdentifyEnds
import BinbowsDOS.Ide.Drives
import BinbowsDOS.Ide.Identity
import BinbowsDOS.Timer.Wait
import BinbowsDOS.Serial.Uart
import BinbowsDOS.Serial.Isolation
import BinbowsDOS.Serial.Printf
import BinbowsDOS.Serial.Numbers
import BinbowsDOS.Serial.FifoUart
import BinbowsDOS.Serial.Line
import BinbowsDOS.Fs.Elixir
import BinbowsDOS.Fs.Create
import BinbowsDOS.Fs.Outcome
import BinbowsDOS.Fs.Ledger
import BinbowsDOS.Fs.Attached
import BinbowsDOS.Fs.RoundTrip
import BinbowsDOS.Fs.FormatMount
import BinbowsDOS.Fs.HalfFormatted
import BinbowsDOS.Fs.Residue
import BinbowsDOS.Fs.WriteReports
import BinbowsDOS.Fs.Geometry
import BinbowsDOS.Fs.BitmapBuffer
import BinbowsDOS.Fs.Volume
import BinbowsDOS.Interrupts.Pic
import BinbowsDOS.Interrupts.Idt
import BinbowsDOS.Interrupts.Delivery
import BinbowsDOS.Interrupts.Dispatch
import BinbowsDOS.Interrupts.InService
import BinbowsDOS.Interrupts.Stub
import BinbowsDOS.Interrupts.Transparent
import BinbowsDOS.Interrupts.Exceptions
import BinbowsDOS.Interrupts.Tables
import BinbowsDOS.Timer.TickCount
import BinbowsDOS.Timer.WaitLoop

import OS90.Boot.ExtAlloc
import OS90.Boot.Frame
import OS90.Boot.LoadErrors
import OS90.Boot.LoadKernel
import OS90.Boot.Loader
import OS90.Boot.PageSetup
import OS90.Boot.Program
import OS90.Boot.Start
import OS90.Device.Pic8259
import OS90.Device.Pit8254
import OS90.Drivers.Address
import OS90.Ia32.Bytes
import OS90.Ia32.Cpu
import OS90.Ia32.Interrupt
import OS90.Ia32.Memory
import OS90.Ia32.Paging
import OS90.Ia32.RealMode
import OS90.Ia32.Segment
import OS90.Kernel.Debug
import OS90.Kernel.DosServer
import OS90.Kernel.Dpmi
import OS90.Kernel.FatalError
import OS90.Kernel.GeneralProtect
import OS90.Kernel.Ia32
import OS90.Kernel.Ia32Struct
import OS90.Kernel.IntrTrap
import OS90.Kernel.Main
import OS90.Kernel.PFrameAlloc
import OS90.Kernel.PnpBios
import OS90.Kernel.PnpMgr
import OS90.Kernel.RealModeCall
import OS90.Kernel.Scheduler
import OS90.Kernel.StartK
import OS90.Kernel.System
import OS90.Kernel.Type
import OS90.Kernel.V86
import OS90.Kernel.V86Entry
import OS90.Kernel.Vm86
import OS90.Laws.Addresses
import OS90.Laws.Alignment
import OS90.Laws.BootBegin
import OS90.Laws.BootImage
import OS90.Laws.BootLoad
import OS90.Laws.BootOutcome
import OS90.Laws.CallingConvention
import OS90.Laws.Chips
import OS90.Laws.CriticalSection
import OS90.Laws.Dispatch
import OS90.Laws.DosServer
import OS90.Laws.Dpmi
import OS90.Laws.DriverIndices
import OS90.Laws.EndOfInterrupt
import OS90.Laws.Exceptions
import OS90.Laws.FarCalls
import OS90.Laws.FatalError
import OS90.Laws.InterruptTable
import OS90.Laws.IoResources
import OS90.Laws.KernelLog
import OS90.Laws.KernelMain
import OS90.Laws.LostInterrupts
import OS90.Laws.Monitor
import OS90.Laws.NullHandler
import OS90.Laws.PnpBios
import OS90.Laws.RealModeCall
import OS90.Laws.Reentrancy
import OS90.Laws.Tables
import OS90.Laws.TrapChain
import OS90.Laws.V86Fault
import OS90.Lib.Arith
import OS90.Lib.Fields
import OS90.Lib.Loop
import OS90.Lib.Run

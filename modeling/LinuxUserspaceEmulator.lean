import LinuxUserspaceEmulator.Library.StateExcept
import LinuxUserspaceEmulator.Library.SegmentList
import LinuxUserspaceEmulator.Library.LittleEndian
import LinuxUserspaceEmulator.Library.Ripple
import LinuxUserspaceEmulator.Library.LimbShift
import LinuxUserspaceEmulator.Library.InPlace
import LinuxUserspaceEmulator.Library.OrderedMap
import LinuxUserspaceEmulator.Library.Worklist
import LinuxUserspaceEmulator.Library.TruncatedDivision
import LinuxUserspaceEmulator.Library.BitStrings
import LinuxUserspaceEmulator.Library.TwoRuns
import LinuxUserspaceEmulator.Library.OverlappingCopy
import LinuxUserspaceEmulator.Library.Bisimulation
import LinuxUserspaceEmulator.Library.BitFields
import LinuxUserspaceEmulator.Library.CursorLoop
import LinuxUserspaceEmulator.Library.RelatedLists
import LinuxUserspaceEmulator.Library.WordRecord
import LinuxUserspaceEmulator.Library.PointwiseWrites
import LinuxUserspaceEmulator.Types
import LinuxUserspaceEmulator.SoftMMU.Region
import LinuxUserspaceEmulator.SoftMMU.Operations
import LinuxUserspaceEmulator.SoftMMU.WellFormed
import LinuxUserspaceEmulator.SoftMMU.AddressMap
import LinuxUserspaceEmulator.SoftMMU.Split
import LinuxUserspaceEmulator.SoftMMU.RangeChange
import LinuxUserspaceEmulator.SoftMMU.Mapping
import LinuxUserspaceEmulator.SoftMMU.Writing
import LinuxUserspaceEmulator.SoftMMU.Runs
import LinuxUserspaceEmulator.SoftMMU.FirstFit
import LinuxUserspaceEmulator.SoftMMU.GuestBytes
import LinuxUserspaceEmulator.SoftMMU.Words
import LinuxUserspaceEmulator.SoftMMU.TwoMemories
import LinuxUserspaceEmulator.SoftMMU.SameBytes
import LinuxUserspaceEmulator.SoftMMU.ShadowWords
import LinuxUserspaceEmulator.ELFSymbols
import LinuxUserspaceEmulator.ELFSymbols.Totality
import LinuxUserspaceEmulator.ELFLoader
import LinuxUserspaceEmulator.ELFLoader.Segments
import LinuxUserspaceEmulator.SoftCPU64.State
import LinuxUserspaceEmulator.SoftCPU64.Flags
import LinuxUserspaceEmulator.SoftCPU64.MultiPrecision
import LinuxUserspaceEmulator.SoftCPU64.Compare
import LinuxUserspaceEmulator.SoftCPU64.Decode
import LinuxUserspaceEmulator.SoftCPU64.RegisterLens
import LinuxUserspaceEmulator.SoftCPU64.PrefixLoop
import LinuxUserspaceEmulator.SoftCPU64.Integer
import LinuxUserspaceEmulator.SoftCPU64.HostFloat
import LinuxUserspaceEmulator.SoftCPU64.Sse
import LinuxUserspaceEmulator.SoftCPU64.SseFloat
import LinuxUserspaceEmulator.SoftCPU64.X87
import LinuxUserspaceEmulator.SoftCPU64.TwoByte
import LinuxUserspaceEmulator.SoftCPU64.Step
import LinuxUserspaceEmulator.SoftCPU64.Visible
import LinuxUserspaceEmulator.SoftCPU64.VisibleInteger
import LinuxUserspaceEmulator.SoftCPU64.VisibleFloat
import LinuxUserspaceEmulator.SoftCPU64.VisibleStep
import LinuxUserspaceEmulator.SoftCPU64.Disassembly
import LinuxUserspaceEmulator.SoftCPU64.OperandWidth
import LinuxUserspaceEmulator.SoftCPU64.Immediates
import LinuxUserspaceEmulator.SoftCPU64.DecodePosition
import LinuxUserspaceEmulator.SoftCPU64.AluEncodings
import LinuxUserspaceEmulator.SoftCPU64.Exchange
import LinuxUserspaceEmulator.SoftCPU64.OperandForms
import LinuxUserspaceEmulator.SoftCPU64.RestPositions
import LinuxUserspaceEmulator.SoftCPU64.OperandPosition
import LinuxUserspaceEmulator.SoftCPU64.RipRelative
import LinuxUserspaceEmulator.SoftCPU64.ReadLog
import LinuxUserspaceEmulator.SoftCPU64.DataLoads
import LinuxUserspaceEmulator.SoftCPU64.LoadAudit
import LinuxUserspaceEmulator.SoftCPU64.ShiftGroup
import LinuxUserspaceEmulator.SoftCPU64.ShiftResults
import LinuxUserspaceEmulator.SoftCPU64.ShiftFlags
import LinuxUserspaceEmulator.SoftCPU64.DoubleShift
import LinuxUserspaceEmulator.SoftCPU64.Reading
import LinuxUserspaceEmulator.SoftCPU64.InstructionLength
import LinuxUserspaceEmulator.SoftCPU64.ExecutedLength
import LinuxUserspaceEmulator.SoftCPU64.DescribedLength
import LinuxUserspaceEmulator.SoftCPU64.TraceLength
import LinuxUserspaceEmulator.SoftCPU64.Division
import LinuxUserspaceEmulator.SoftCPU64.Products
import LinuxUserspaceEmulator.SoftCPU64.BitStrings
import LinuxUserspaceEmulator.SoftCPU64.ZeroExtension
import LinuxUserspaceEmulator.SoftCPU64.PackedLoops
import LinuxUserspaceEmulator.SoftCPU64.PackedLanes
import LinuxUserspaceEmulator.SoftCPU64.Shuffles
import LinuxUserspaceEmulator.SoftCPU64.FloatSave
import LinuxUserspaceEmulator.SoftCPU64.SignExtension
import LinuxUserspaceEmulator.SoftCPU64.ResultFlags
import LinuxUserspaceEmulator.SoftCPU64.SameInitialized
import LinuxUserspaceEmulator.SoftCPU64.StringCopies
import LinuxUserspaceEmulator.SoftCPU64.ElementCopies
import LinuxUserspaceEmulator.SoftCPU64.TwoRuns
import LinuxUserspaceEmulator.SoftCPU64.TwoDecodes
import LinuxUserspaceEmulator.SoftCPU64.ExplicitTaint
import LinuxUserspaceEmulator.SoftCPU64.ImplicitTaint
import LinuxUserspaceEmulator.SoftCPU64.TaintedCounts
import LinuxUserspaceEmulator.SoftCPU64.TaintedProducts
import LinuxUserspaceEmulator.SoftCPU64.ImplicitOperands
import LinuxUserspaceEmulator.SoftCPU64.OperandEncoding
import LinuxUserspaceEmulator.SoftCPU64.DataMoves
import LinuxUserspaceEmulator.SoftCPU64.AssembledMoves
import LinuxUserspaceEmulator.SoftCPU64.FloatExpressions
import LinuxUserspaceEmulator.SoftCPU64.UninitializedRuns
import LinuxUserspaceEmulator.Emulator.State
import LinuxUserspaceEmulator.Emulator.Load
import LinuxUserspaceEmulator.Emulator.InitialStack
import LinuxUserspaceEmulator.Emulator.ImageBase
import LinuxUserspaceEmulator.Emulator.EntryAlignment
import LinuxUserspaceEmulator.Emulator.Signals
import LinuxUserspaceEmulator.Emulator.SignalMask
import LinuxUserspaceEmulator.Emulator.SignalFrame
import LinuxUserspaceEmulator.Emulator.Exec
import LinuxUserspaceEmulator.Emulator.SignalReturn
import LinuxUserspaceEmulator.Emulator.SignalRuns
import LinuxUserspaceEmulator.Emulator.UnblockableSignals
import LinuxUserspaceEmulator.LinuxSyscalls.MemoryMap
import LinuxUserspaceEmulator.LinuxSyscalls.Mmap
import LinuxUserspaceEmulator.LinuxSyscalls.MmapNoreplace
import LinuxUserspaceEmulator.LinuxSyscalls.GuestRange
import LinuxUserspaceEmulator.LinuxSyscalls.Dispatch
import LinuxUserspaceEmulator.Emulator.Backtrace
import LinuxUserspaceEmulator.LinuxSyscalls.Mremap
import LinuxUserspaceEmulator.LinuxSyscalls.MremapPermissions
import LinuxUserspaceEmulator.LinuxSyscalls.Brk
import LinuxUserspaceEmulator.LinuxSyscalls.BrkPages
import LinuxUserspaceEmulator.LinuxSyscalls.GuestStructs
import LinuxUserspaceEmulator.LinuxSyscalls.HostCalls
import LinuxUserspaceEmulator.LinuxSyscalls.FileCalls
import LinuxUserspaceEmulator.LinuxSyscalls.WaitCalls
import LinuxUserspaceEmulator.LinuxSyscalls.SocketCalls
import LinuxUserspaceEmulator.LinuxSyscalls.HostDispatch
import LinuxUserspaceEmulator.LinuxSyscalls.Vectors
import LinuxUserspaceEmulator.LinuxSyscalls.Polling
import LinuxUserspaceEmulator.LinuxSyscalls.FileStatus
import LinuxUserspaceEmulator.LinuxSyscalls.GuestView
import LinuxUserspaceEmulator.Emulator.GuestView
import LinuxUserspaceEmulator.Emulator.Transparency
import LinuxUserspaceEmulator.Emulator.MemoryInvariants
import LinuxUserspaceEmulator.Emulator.MapIntegrity
import LinuxUserspaceEmulator.Emulator.Confinement
import LinuxUserspaceEmulator.Emulator.Confidentiality
import LinuxUserspaceEmulator.MallocTracer.Tracer
import LinuxUserspaceEmulator.Emulator.Symbols
import LinuxUserspaceEmulator.MallocTracer.UseAfterFree
import LinuxUserspaceEmulator.MallocTracer.FreedLookup
import LinuxUserspaceEmulator.MallocTracer.RecordTable
import LinuxUserspaceEmulator.MallocTracer.HeapOverflow
import LinuxUserspaceEmulator.MallocTracer.Reallocation
import LinuxUserspaceEmulator.MallocTracer.Calls
import LinuxUserspaceEmulator.MallocTracer.Transparency
import LinuxUserspaceEmulator.MallocTracer.UninitializedReads
import LinuxUserspaceEmulator.MallocTracer.HeapScan
import LinuxUserspaceEmulator.MallocTracer.Reachability
import LinuxUserspaceEmulator.MallocTracer.LeakReport

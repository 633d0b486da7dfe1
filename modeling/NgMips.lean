import NgMips.Source.Run
import NgMips.Source.Machine
import NgMips.Proofs.Tlb
import NgMips.Proofs.Translation
import NgMips.Proofs.Exception
import NgMips.Proofs.Timer
import NgMips.Proofs.Lookup
import NgMips.Proofs.Invalidate
import NgMips.Proofs.Shape
import NgMips.Proofs.Step
import NgMips.Proofs.Atomic
import NgMips.Proofs.Branch
import NgMips.Proofs.DelaySlot
import NgMips.Proofs.Halt
import NgMips.Proofs.Interrupt
import NgMips.Proofs.TimerLine
import NgMips.Proofs.TwoPc
import NgMips.Proofs.Simulation
import NgMips.Proofs.ModifiedCode
import NgMips.Proofs.BlockRange
import NgMips.Proofs.Run32
import NgMips.Proofs.RunCycles
import NgMips.Proofs.Reset
import NgMips.Proofs.AlignedUnit
import NgMips.Proofs.Arithmetic
import NgMips.Proofs.Count
import NgMips.Proofs.TlbCommands
import NgMips.Proofs.Nested
import NgMips.Proofs.SetPc
import NgMips.Proofs.SavedPc
import NgMips.Proofs.WellFormedBlock
import NgMips.Proofs.Cop0Ports
import NgMips.Proofs.FpuLanes
import NgMips.Proofs.LowWords
import NgMips.Proofs.Timestamps
import NgMips.Proofs.SlotPanic
import NgMips.Proofs.Pointers
import NgMips.Proofs.BranchBehind
import NgMips.Proofs.ProgramRuns
import NgMips.Lib.Latch
import NgMips.Lib.Text
import NgMips.Proofs.Coprocessors
import NgMips.Proofs.Destination
import NgMips.Proofs.Disassemble
import NgMips.Proofs.FpuDestination
import NgMips.Proofs.InterruptGap
import NgMips.Proofs.InterruptLatency
import NgMips.Proofs.Isolated
import NgMips.Proofs.PlainMachine
import NgMips.Proofs.Slices
import NgMips.Proofs.Wired
import NgMips.Proofs.WithoutFpu

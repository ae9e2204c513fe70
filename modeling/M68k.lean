import M68k.Inspection
import M68k.Memory.Banked
import M68k.Memory.Flat
import M68k.Memory.Recorded
import M68k.Proofs.AlignedAccesses
import M68k.Proofs.DecimalChains
import M68k.Proofs.ExceptionFrames
import M68k.Proofs.FailedEntries
import M68k.Proofs.InstructionLimit
import M68k.Proofs.MachineInvariant
import M68k.Proofs.MemoryBanks
import M68k.Proofs.ModelEquivalence
import M68k.Proofs.MultiPrecision
import M68k.Proofs.NestedExceptions
import M68k.Proofs.PrefetchCoherence
import M68k.Proofs.RunConditions
import M68k.Proofs.ShiftExecution
import M68k.Proofs.StackFaults
import M68k.Proofs.StackPointerBanking
import M68k.Proofs.StatusIntegrity
import M68k.Proofs.UserConfinement
import M68k.Proofs.UserNoninterference
import M68k.Proofs.ProductForms
import M68k.Proofs.Quotients
import M68k.Proofs.Products
import M68k.Proofs.Comparisons
import M68k.Proofs.IndexedOperands
import M68k.Proofs.HandlerSuccession
import M68k.Proofs.RefusedWrites
import M68k.Proofs.RegisterLists
import M68k.Proofs.ExactSums
import M68k.Proofs.OperandFrames
import M68k.Proofs.OrdinaryFaults
import M68k.Proofs.OpcodeGates
import M68k.Proofs.BalancedStack
import M68k.Proofs.ControlTransfers
import M68k.Proofs.InterruptAcceptance
import M68k.Proofs.AlternateBytes
import M68k.Proofs.OperandLength
import M68k.Proofs.FetchOrder
import M68k.Proofs.InstructionLength
import M68k.Proofs.ComposedAccesses
import M68k.Proofs.QueryPaths
import M68k.Proofs.CountingLoops
import M68k.Proofs.BreakpointSubstitution

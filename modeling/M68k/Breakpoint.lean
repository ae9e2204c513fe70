import M68k.Registers

/-!
# Breakpoint handlers

A host can attach a handler to the machine.  When the machine meets a breakpoint
it asks the handler for the opcode that runs in its place.  While it is asked,
the handler may write registers, the program counter, the opcode and the status
word, and attach another handler or none.
-/

namespace M68k

/-- Something a handler does to the machine while it is asked. -/
inductive HostAction where
  | writeRegister (register : Register) (value : UInt32)
  | writeStatus (word : UInt16)
  | writePc (address : UInt32)
  | writeOpcode (opcode : UInt16)
  /-- Attaches the handler with the given replies and actions. -/
  | attach (replies : Vector UInt16 8) (actions : List HostAction)
  | detach

/-- A handler: its reply to each breakpoint number, and what it does first. -/
structure BreakpointHandler where
  replies : Vector UInt16 8
  actions : List HostAction
deriving Inhabited

/-- What a handler finds when it is asked. -/
structure BreakpointVisit where
  /-- The number of the breakpoint. -/
  vector : Fin 8
  pc : UInt32
  opcode : UInt16
  /-- Whether a handler is attached at that moment. -/
  attached : Bool
deriving DecidableEq, Repr

end M68k

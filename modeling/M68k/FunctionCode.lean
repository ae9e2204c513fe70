import M68k.Word

/-!
# Function codes

Every access to memory says in which of eight spaces it is made: user or
supervisor, program or data.
-/

namespace M68k

/-- The space of a memory access. -/
inductive FunctionCode where
  | userReserved
  | userData
  | userProgram
  | userDefined
  | supervisorReserved
  | supervisorData
  | supervisorProgram
  | cpuSpace
deriving DecidableEq, Repr, Inhabited

namespace FunctionCode

def data (supervisor : Bool) : FunctionCode :=
  if supervisor then supervisorData else userData

def program (supervisor : Bool) : FunctionCode :=
  if supervisor then supervisorProgram else userProgram

/-- The space named by the three low bits of a register. -/
def ofBits (bits : UInt32) : FunctionCode :=
  match bits.toNat % 8 with
  | 0 => userReserved
  | 1 => userData
  | 2 => userProgram
  | 3 => userDefined
  | 4 => supervisorReserved
  | 5 => supervisorData
  | 6 => supervisorProgram
  | _ => cpuSpace

def code : FunctionCode → Fin 8
  | userReserved => 0
  | userData => 1
  | userProgram => 2
  | userDefined => 3
  | supervisorReserved => 4
  | supervisorData => 5
  | supervisorProgram => 6
  | cpuSpace => 7

/-- Whether the highest bit of the code is set. -/
def isSupervisor (space : FunctionCode) : Bool :=
  4 ≤ space.code.val

end FunctionCode

end M68k

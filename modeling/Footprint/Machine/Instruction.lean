import Footprint.Code
import Footprint.Registers

/-!
# Instructions

The instructions of the 64-bit x86 processor that blocks are run with, apart from how they are
encoded. Operands are 8, 32 or 64 bits wide; a 32-bit result clears the upper half of its register,
an 8-bit result changes the low byte only.
-/

namespace Footprint.Machine

/-- The width of an operand. -/
inductive Width where
  | byte
  | dword
  | qword
deriving DecidableEq, Repr, Inhabited

namespace Width

def bytes : Width → Nat
  | byte => 1
  | dword => 4
  | qword => 8

def size : Width → Nat
  | byte => 256
  | dword => UInt32.size
  | qword => UInt64.size

def cut (w : Width) (v : UInt64) : UInt64 :=
  match w with
  | byte => v &&& 0xff
  | dword => v &&& 0xffffffff
  | qword => v

end Width

/-- A segment whose base is added to an address. -/
inductive Segment where
  | fs
  | gs
deriving DecidableEq, Repr

/-- A part of the register file that an operand names. -/
inductive RegPart where
  -- The register, or its low byte in byte operations.
  | low (g : Gpr)
  -- The second byte of the register.
  | second (g : Gpr)
deriving DecidableEq, Repr, Inhabited

/-- An operand in memory. -/
structure MemRef where
  base : Option Gpr
  -- An index register and the power of two that scales it.
  index : Option (Gpr × Nat)
  displacement : UInt64
  -- Whether the address counts from the next instruction.
  fromNext : Bool
  segment : Option Segment
deriving DecidableEq, Repr, Inhabited

/-- An operand that is a register or in memory. -/
inductive Operand where
  | reg (r : RegPart)
  | mem (m : MemRef)
deriving DecidableEq, Repr, Inhabited

/-- Where the second operand of an operation comes from. -/
inductive Source where
  | reg (r : RegPart)
  | imm (v : UInt64)
deriving DecidableEq, Repr, Inhabited

/-- An operation on two operands. -/
inductive Operation where
  | add
  | sub
  | xor
  -- A subtraction that keeps the flag only.
  | compare
deriving DecidableEq, Repr

/-- When a relative jump is taken. -/
inductive Condition where
  | always
  | ifZero
  | ifNotZero
  -- Counts `rcx` down and jumps unless it reached zero.
  | countDown
deriving DecidableEq, Repr

/-- An operation on strings in memory. -/
inductive StringOp where
  -- Stores the accumulator at `rdi`.
  | store
  -- Copies from `rsi` to `rdi`.
  | move
  -- Compares what is at `rsi` with what is at `rdi`.
  | compare
deriving DecidableEq, Repr

/-- An instruction. -/
inductive Instruction where
  | nop
  -- Moves into an operand.
  | move (dest : Operand) (width : Width) (source : Source)
  -- Moves an operand into a register.
  | load (dest : RegPart) (width : Width) (source : Operand)
  -- Exchanges two registers.
  | exchange (first second : Gpr) (width : Width)
  -- Puts the address of an operand into a register.
  | address (dest : Gpr) (width : Width) (source : MemRef)
  | operate (op : Operation) (dest : Operand) (width : Width) (source : Source)
  -- Divides by an operand, which must not be zero.
  | divide (divisor : Operand) (width : Width)
  | push (source : Gpr)
  | pop (dest : Gpr)
  | call (target : Operand)
  | callRelative (offset : UInt64)
  | ret
  | jump (target : Operand)
  | jumpRelative (condition : Condition) (offset : UInt64)
  | string (op : StringOp) (width : Width) (repeated : Bool) (segment : Option Segment)
  -- Makes string operations run downwards.
  | setDirection
  | breakpoint
  | systemCall
  -- An instruction that user code may not execute.
  | privileged
  | undefined
deriving Repr, Inhabited

end Footprint.Machine

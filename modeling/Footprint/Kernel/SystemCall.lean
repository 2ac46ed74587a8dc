import Footprint.Address
import Footprint.Errno

/-!
# System calls

The system calls that are made on behalf of a traced process: their numbers, the flags they take and
the values they return. A system call returns its result or the negation of an error number; the last
4095 values are error numbers.
-/

namespace Footprint.Kernel.SystemCall

/-- The number of the call that maps memory. -/
def map : UInt64 := 9

/-- The number of the call that changes permissions. -/
def protect : UInt64 := 10

/-- The number of the call that unmaps memory. -/
def unmap : UInt64 := 11

def rseq : UInt64 := 334

/-- The numbers of the calls that end a thread or all threads of a process; a traced process has one. -/
def exits : List UInt64 := [60, 231]

/-- The flags of private memory without a file at exactly the address, where nothing may be mapped
yet. -/
def exactMapping : UInt64 := 0x100022

/-- The descriptor of no file. -/
def noFile : UInt64 := Addr.top

/-- The flag that gives a restartable-sequence area up. -/
def unregister : UInt64 := 1

/-- The error number that a returned value negates. -/
def errnoOf (returned : UInt64) : Errno :=
  ⟨(UInt64.size - returned.toNat : Nat)⟩

/-- The outcome that a returned value stands for. -/
def outcome (returned : UInt64) : Except Errno UInt64 :=
  if 0xfffffffffffff001 ≤ returned then .error (errnoOf returned) else .ok returned

/-- The value that is returned for an outcome. -/
def returned : Except Errno UInt64 → UInt64
  | .ok value => value
  | .error errno => UInt64.ofInt (-errno.code)

end Footprint.Kernel.SystemCall

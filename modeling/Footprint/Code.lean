/-!
# Code images

The bytes that a sandbox executes: the block itself, a one-byte sentinel that marks its completion
and a stub through which system calls are run in the process.
-/

namespace Footprint

/-- The bytes of a code image. -/
abbrev Code := List UInt8

namespace Code

/-- A breakpoint; reaching it means that the block is complete. -/
def sentinel : Code := [0xcc]

/-- A system call and a breakpoint behind it. -/
def stub : Code := [0x0f, 0x05, 0xcc]

/-- The block with the sentinel and the stub behind it. -/
def image (code : Code) : Code :=
  code ++ sentinel ++ stub

end Code

end Footprint

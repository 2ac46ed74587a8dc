/-!
# Permissions

What a mapping permits, what an access needs, and the spelling of permissions in the kernel's listing
of mappings.
-/

namespace Footprint

/-- What an access needs from memory. -/
inductive Need where
  | read
  | write
  | exec
deriving DecidableEq, Repr, Inhabited

/-- What a mapping permits. -/
structure Perms where
  read : Bool
  write : Bool
  exec : Bool
deriving DecidableEq, Repr, Inhabited

namespace Perms

/-- Nothing is permitted. -/
def none : Perms := ⟨false, false, false⟩

def readWrite : Perms := ⟨true, true, false⟩

def readExec : Perms := ⟨true, false, true⟩

def grants (p : Perms) : Need → Bool
  | .read => p.read
  | .write => p.write
  | .exec => p.exec

/-- The permissions of the bits that a system call takes. -/
def ofBits (bits : UInt64) : Perms :=
  ⟨bits &&& 1 != 0, bits &&& 2 != 0, bits &&& 4 != 0⟩

/-- The bits that a system call takes for permissions. -/
def bits (p : Perms) : UInt64 :=
  (if p.read then 1 else 0) ||| (if p.write then 2 else 0) ||| (if p.exec then 4 else 0)

def text (p : Perms) : String :=
  String.ofList
    [if p.read then 'r' else '-', if p.write then 'w' else '-', if p.exec then 'x' else '-', 'p']

end Perms

end Footprint

import Footprint.Priming

/-!
# The register file

The registers of a stopped 64-bit x86 thread, the state that a block starts in and the state that
runs one system call. The sixteen general-purpose registers are named by `Gpr`, so that reading and
writing them by position is one lookup.
-/

namespace Footprint

/-- A general-purpose register; the constructors stand in priming order. -/
inductive Gpr where
  | rax | rbx | rcx | rdx | rsi | rdi | rbp | rsp
  | r8 | r9 | r10 | r11 | r12 | r13 | r14 | r15
deriving DecidableEq, Repr, Inhabited

namespace Gpr

/-- The registers in priming order. -/
def all : List Gpr :=
  [rax, rbx, rcx, rdx, rsi, rdi, rbp, rsp, r8, r9, r10, r11, r12, r13, r14, r15]

/-- The register at a position of the priming order; beyond the end the last one. -/
def atIndex (i : Nat) : Gpr :=
  all.getD i r15

def name : Gpr → String
  | rax => "rax" | rbx => "rbx" | rcx => "rcx" | rdx => "rdx"
  | rsi => "rsi" | rdi => "rdi" | rbp => "rbp" | rsp => "rsp"
  | r8 => "r8" | r9 => "r9" | r10 => "r10" | r11 => "r11"
  | r12 => "r12" | r13 => "r13" | r14 => "r14" | r15 => "r15"

end Gpr

/-- The register file of a thread. -/
structure Registers where
  r15 : UInt64
  r14 : UInt64
  r13 : UInt64
  r12 : UInt64
  rbp : UInt64
  rbx : UInt64
  r11 : UInt64
  r10 : UInt64
  r9 : UInt64
  r8 : UInt64
  rax : UInt64
  rcx : UInt64
  rdx : UInt64
  rsi : UInt64
  rdi : UInt64
  -- The number of the system call the thread is in; all ones if it is in none.
  origRax : UInt64
  rip : UInt64
  cs : UInt64
  eflags : UInt64
  rsp : UInt64
  ss : UInt64
  fsBase : UInt64
  gsBase : UInt64
  ds : UInt64
  es : UInt64
  fs : UInt64
  gs : UInt64
deriving DecidableEq, Repr, Inhabited

namespace Registers

def get (r : Registers) : Gpr → UInt64
  | .rax => r.rax | .rbx => r.rbx | .rcx => r.rcx | .rdx => r.rdx
  | .rsi => r.rsi | .rdi => r.rdi | .rbp => r.rbp | .rsp => r.rsp
  | .r8 => r.r8 | .r9 => r.r9 | .r10 => r.r10 | .r11 => r.r11
  | .r12 => r.r12 | .r13 => r.r13 | .r14 => r.r14 | .r15 => r.r15

/-- The register file with another value in a general-purpose register. -/
def set (r : Registers) (g : Gpr) (v : UInt64) : Registers :=
  match g with
  | .rax => { r with rax := v } | .rbx => { r with rbx := v }
  | .rcx => { r with rcx := v } | .rdx => { r with rdx := v }
  | .rsi => { r with rsi := v } | .rdi => { r with rdi := v }
  | .rbp => { r with rbp := v } | .rsp => { r with rsp := v }
  | .r8 => { r with r8 := v } | .r9 => { r with r9 := v }
  | .r10 => { r with r10 := v } | .r11 => { r with r11 := v }
  | .r12 => { r with r12 := v } | .r13 => { r with r13 := v }
  | .r14 => { r with r14 := v } | .r15 => { r with r15 := v }

/-- A register by its name: how it is read and how it is replaced. -/
structure Slot where
  name : String
  read : Registers → UInt64
  write : UInt64 → Registers → Registers

def slots : List Slot :=
  Gpr.all.map (fun g => ⟨g.name, (·.get g), fun v r => r.set g v⟩) ++
  [⟨"orig_rax", (·.origRax), fun v r => { r with origRax := v }⟩,
   ⟨"rip", (·.rip), fun v r => { r with rip := v }⟩,
   ⟨"cs", (·.cs), fun v r => { r with cs := v }⟩,
   ⟨"eflags", (·.eflags), fun v r => { r with eflags := v }⟩,
   ⟨"ss", (·.ss), fun v r => { r with ss := v }⟩,
   ⟨"fs_base", (·.fsBase), fun v r => { r with fsBase := v }⟩,
   ⟨"gs_base", (·.gsBase), fun v r => { r with gsBase := v }⟩,
   ⟨"ds", (·.ds), fun v r => { r with ds := v }⟩,
   ⟨"es", (·.es), fun v r => { r with es := v }⟩,
   ⟨"fs", (·.fs), fun v r => { r with fs := v }⟩,
   ⟨"gs", (·.gs), fun v r => { r with gs := v }⟩]

/-- Interrupts enabled, the reserved bit that is always one, and string operations upwards. -/
def primedFlags : UInt64 := 0x202

/-- The mark of a thread that is in no system call, so that nothing is restarted on its behalf. -/
def noSystemCall : UInt64 := Addr.top

/-- The state in which a block starts at `entry`: every general-purpose register holds its priming
value, and the segment bases hold the priming base, so that operands relative to a segment land
beside the guarded region. The segment selectors stay. -/
def prime (r : Registers) (priming : Priming) (entry : Addr) : Registers :=
  let filled := (List.range 16).foldl (fun r i => r.set (Gpr.atIndex i) (priming.valueAt i)) r
  { filled with
    fsBase := priming.base, gsBase := priming.base, rip := entry, eflags := primedFlags,
    origRax := noSystemCall }

/-- The arguments of a system call, in the order of the calling convention. -/
structure Arguments where
  first : UInt64
  second : UInt64
  third : UInt64
  fourth : UInt64
  fifth : UInt64
  sixth : UInt64
deriving DecidableEq, Repr, Inhabited

/-- The state that executes system call `number` when resumed at `stub`. -/
def forSystemCall (r : Registers) (stub : Addr) (number : UInt64) (args : Arguments) : Registers :=
  { r with
    rax := number, rdi := args.first, rsi := args.second, rdx := args.third, r10 := args.fourth,
    r8 := args.fifth, r9 := args.sixth, rip := stub, origRax := noSystemCall }

end Registers

end Footprint

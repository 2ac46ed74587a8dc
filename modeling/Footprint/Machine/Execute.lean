import Footprint.Machine.AddressSpace
import Footprint.Machine.Decode
import Footprint.Stop

/-!
# Executing instructions

One step of the processor on a register file and an address space. An instruction that faults has
changed nothing, so it can be run again once the cause is removed; a repeated string instruction is
run a few iterations a step, so its registers show how far it came. Of the flags only the zero flag and
the direction flag are kept.
-/

namespace Footprint.Machine

/-- Why the processor stopped at an instruction: the signal, its code and its address. -/
structure Trouble where
  signal : Signal
  code : Int
  addr : Addr
deriving DecidableEq, Repr, Inhabited

namespace Trouble

/-- An instruction that does not exist. -/
def undefined : Trouble := ⟨.illegal, 2, 0⟩

/-- A quotient that does not exist or does not fit. -/
def division : Trouble := ⟨.floatingPoint, 1, 0⟩

/-- What user code may not do. -/
def protection : Trouble := ⟨.segv, Stop.codeProcessor, 0⟩

/-- A stack access outside the canonical addresses. -/
def stack : Trouble := ⟨.bus, Stop.codeProcessor, 0⟩

end Trouble

/-- Whether the upper bits of an address all repeat bit 47. -/
def isCanonical (a : Addr) : Bool :=
  a < 0x800000000000 || 0xffff800000000000 ≤ a

namespace AddressSpace

/-- What denies a need at an address, if anything does. -/
def denial? (s : AddressSpace) (need : Need) (a : Addr) : Option Trouble :=
  match s.find? a with
  | some m => if m.perms.grants need then none else some ⟨.segv, Stop.codeForbidden, a⟩
  | none => some ⟨.segv, Stop.codeUnmapped, a⟩

/-- What denies a need for `count` bytes, at most a page: the first byte in a page that denies it. -/
def denialOf? (s : AddressSpace) (need : Need) (a : Addr) (count : Nat) : Option Trouble :=
  let last := a + UInt64.ofNat (count - 1)
  (s.denial? need a).or <|
    if pageOf last = pageOf a then none else s.denial? need (pageOf last)

/-- Checks an access of `count` bytes; `outside` is the trouble with addresses that are not
canonical. -/
def permits (s : AddressSpace) (need : Need) (a : Addr) (count : Nat) (outside : Trouble) :
    Except Trouble Unit :=
  if !isCanonical a || !isCanonical (a + UInt64.ofNat (count - 1)) then .error outside
  else
    match s.denialOf? need a count with
    | some trouble => .error trouble
    | none => .ok ()

/-- The number in `count` bytes, least significant byte first. -/
def number (s : AddressSpace) (a : Addr) (count : Nat) : UInt64 :=
  (s.getBytes a count).foldr (fun b high => b.toUInt64 ||| high <<< 8) 0

def bytesOf (v : UInt64) : Nat → List UInt8
  | 0 => []
  | count + 1 => v.toUInt8 :: bytesOf (v >>> 8) count

def load (s : AddressSpace) (a : Addr) (width : Width) (outside : Trouble) :
    Except Trouble UInt64 := do
  s.permits .read a width.bytes outside
  return s.number a width.bytes

def store (s : AddressSpace) (a : Addr) (width : Width) (v : UInt64) (outside : Trouble) :
    Except Trouble AddressSpace := do
  s.permits .write a width.bytes outside
  return s.setBytes a (bytesOf v width.bytes)

end AddressSpace

/-- What a program runs on. -/
structure State where
  registers : Registers
  memory : AddressSpace
deriving Inhabited

namespace Segment

def base (r : Registers) : Option Segment → Addr
  | some .fs => r.fsBase
  | some .gs => r.gsBase
  | none => 0

end Segment

namespace MemRef

/-- The address of an operand within its segment; `next` is the next instruction. -/
def offset (m : MemRef) (r : Registers) (next : Addr) : Addr :=
  let base := (m.base.map r.get).getD 0
  let index := match m.index with
    | some (g, scale) => r.get g <<< UInt64.ofNat scale
    | none => 0
  base + index + m.displacement + if m.fromNext then next else 0

def address (m : MemRef) (r : Registers) (next : Addr) : Addr :=
  m.offset r next + Segment.base r m.segment

/-- The trouble with an operand that is not canonical: bases that point at the stack count as
stack accesses. -/
def outside (m : MemRef) : Trouble :=
  if m.segment.isNone ∧ (m.base = some .rsp ∨ m.base = some .rbp) then .stack else .protection

end MemRef

/-- The bit of the flags that tells whether a result was zero. -/
def zeroFlag : UInt64 := 0x40

/-- The bit of the flags that makes string operations run downwards. -/
def directionFlag : UInt64 := 0x400

end Footprint.Machine

namespace Footprint.Registers

open Machine

/-- Whether the last result was zero. -/
def isZero (r : Registers) : Bool :=
  r.eflags &&& zeroFlag != 0

/-- The register file after a result. -/
def noteResult (r : Registers) (v : UInt64) : Registers :=
  { r with eflags := if v = 0 then r.eflags ||| zeroFlag else r.eflags &&& ~~~zeroFlag }

def getPart (r : Registers) (width : Width) : RegPart → UInt64
  | .low g => width.cut (r.get g)
  | .second g => (r.get g >>> 8) &&& 0xff

/-- The register file with another value in a part of it. -/
def setPart (r : Registers) (width : Width) (v : UInt64) : RegPart → Registers
  | .low g =>
    r.set g (if width = .byte then (r.get g &&& ~~~(0xff : UInt64)) ||| (v &&& 0xff) else width.cut v)
  | .second g => r.set g ((r.get g &&& ~~~(0xff00 : UInt64)) ||| ((v &&& 0xff) <<< 8))

end Footprint.Registers

namespace Footprint.Machine

/-- What one step came to. -/
inductive Step where
  -- The program goes on.
  | running (state : State)
  -- The instruction faulted and changed nothing.
  | faulted (trouble : Trouble)
  -- A breakpoint was executed.
  | trapped (state : State)
  -- A system call was executed and is to be carried out.
  | called (state : State)

namespace Operation

def result : Operation → UInt64 → UInt64 → UInt64
  | .add, a, b => a + b
  | .sub, a, b => a - b
  | .xor, a, b => a ^^^ b
  | .compare, a, b => a - b

end Operation

namespace State

def atPc (s : State) (pc : Addr) : State :=
  { s with registers := { s.registers with rip := pc } }

def withRegisters (s : State) (r : Registers) : State :=
  { s with registers := r }

def sourceValue (s : State) (width : Width) : Source → UInt64
  | .reg part => s.registers.getPart width part
  | .imm v => width.cut v

def readOperand (s : State) (width : Width) (next : Addr) : Operand → Except Trouble UInt64
  | .reg part => .ok (s.registers.getPart width part)
  | .mem m => s.memory.load (m.address s.registers next) width m.outside

def writeOperand (s : State) (width : Width) (next : Addr) (v : UInt64) :
    Operand → Except Trouble State
  | .reg part => .ok (s.withRegisters (s.registers.setPart width v part))
  | .mem m => do
    let memory ← s.memory.store (m.address s.registers next) width v m.outside
    return { s with memory }

/-- Carries out an operation. What is changed must be writable before it is read. -/
def operate (s : State) (op : Operation) (dest : Operand) (width : Width) (source : Source)
    (next : Addr) : Except Trouble State := do
  match op, dest with
  | .compare, _ => pure ()
  | _, .reg _ => pure ()
  | _, .mem m =>
    s.memory.permits .write (m.address s.registers next) width.bytes m.outside
  let old ← s.readOperand width next dest
  let v := width.cut (op.result old (s.sourceValue width source))
  let written ← if op = .compare then pure s else s.writeOperand width next v dest
  return written.withRegisters (written.registers.noteResult v)

/-- Divides what the accumulator and the data register hold together. -/
def divide (s : State) (width : Width) (divisor : UInt64) : Except Trouble State :=
  let r := s.registers
  let dividend := (width.cut r.rdx).toNat * width.size + (width.cut r.rax).toNat
  let quotient := dividend / divisor.toNat
  if divisor = 0 ∨ width.size ≤ quotient then .error .division
  else
    let remainder := UInt64.ofNat (dividend % divisor.toNat)
    .ok (s.withRegisters
      ((r.setPart width (UInt64.ofNat quotient) (.low .rax)).setPart width remainder (.low .rdx)))

def push (s : State) (v : UInt64) : Except Trouble State := do
  let top := s.registers.rsp - 8
  let memory ← s.memory.store top .qword v .stack
  return { memory, registers := { s.registers with rsp := top } }

def pop (s : State) : Except Trouble (UInt64 × State) := do
  let v ← s.memory.load s.registers.rsp .qword .stack
  return (v, s.withRegisters { s.registers with rsp := s.registers.rsp + 8 })

/-- Goes on at an address, which must be canonical. -/
def jump (s : State) (target : Addr) : Except Trouble State :=
  if isCanonical target then .ok (s.atPc target) else .error .protection

/-- Calls an address, which must be canonical. The return address is put on the stack before that is
found out. -/
def call (s : State) (target next : Addr) : Except Trouble State := do
  let pushed ← s.push next
  pushed.jump target

/-- Jumps if the condition holds. -/
def jumpIf (s : State) (condition : Condition) (target next : Addr) : Except Trouble State :=
  match condition with
  | .always => s.jump target
  | .ifZero => s.jump (if s.registers.isZero then target else next)
  | .ifNotZero => s.jump (if s.registers.isZero then next else target)
  | .countDown => do
    let count := s.registers.rcx - 1
    let landed ← s.jump (if count = 0 then next else target)
    return landed.withRegisters { landed.registers with rcx := count }

def runsDownwards (s : State) : Bool :=
  s.registers.eflags &&& directionFlag != 0

/-- How far a string operation moves on. -/
def stride (s : State) (width : Width) : UInt64 :=
  let count := UInt64.ofNat width.bytes
  if s.runsDownwards then 0 - count else count

/-- Where a string operation reads. -/
def stringSource (s : State) (segment : Option Segment) : Addr :=
  s.registers.rsi + Segment.base s.registers segment

/-- One string operation. The source is read before the destination. -/
def stringOnce (s : State) (op : StringOp) (width : Width) (segment : Option Segment) :
    Except Trouble State := do
  let r := s.registers
  let stride := s.stride width
  match op with
  | .store =>
    let memory ← s.memory.store r.rdi width (width.cut r.rax) .protection
    return { memory, registers := { r with rdi := r.rdi + stride } }
  | .move =>
    let v ← s.memory.load (s.stringSource segment) width .protection
    let memory ← s.memory.store r.rdi width v .protection
    return { memory, registers := { r with rsi := r.rsi + stride, rdi := r.rdi + stride } }
  | .compare =>
    let a ← s.memory.load (s.stringSource segment) width .protection
    let b ← s.memory.load r.rdi width .protection
    let moved := { r with rsi := r.rsi + stride, rdi := r.rdi + stride }
    return s.withRegisters (moved.noteResult (a - b))

/-- How many elements from an address on, in the direction of string operations, lie in its page. -/
def elementsAhead (s : State) (width : Width) (a : Addr) : Nat :=
  let place := placeInPage a
  if pageSize.toNat < place + width.bytes then 0
  else if s.runsDownwards then place / width.bytes + 1
  else (pageSize.toNat - place) / width.bytes

/-- As many store operations as are counted, all of them within one page. -/
def storeMany (s : State) (width : Width) (count : Nat) : Except Trouble State := do
  let r := s.registers
  s.memory.permits .write r.rdi width.bytes .protection
  let past := r.rdi + s.stride width * UInt64.ofNat count
  let lowest := if s.runsDownwards then past + UInt64.ofNat width.bytes else r.rdi
  let value (i : Nat) : UInt8 := (r.rax >>> UInt64.ofNat (8 * (i % width.bytes))).toUInt8
  let page := (s.memory.page lowest).fill value (placeInPage lowest) (count * width.bytes)
  return { memory := s.memory.setPage lowest page, registers := { r with rdi := past } }

/-- How many iterations of a repeated string operation are run as one step. -/
def iterationsAtOnce (s : State) (op : StringOp) (width : Width) : Nat :=
  match op with
  | .store => max 1 (min s.registers.rcx.toNat (s.elementsAhead width s.registers.rdi))
  | .move | .compare => 1

/-- A string instruction. A repeated one stays in place until its count is used up, or until what it
compares differs. -/
def string (s : State) (op : StringOp) (width : Width) (repeated : Bool)
    (segment : Option Segment) (next : Addr) : Except Trouble State := do
  if !repeated then
    let done ← s.stringOnce op width segment
    return done.atPc next
  else if s.registers.rcx = 0 then
    return s.atPc next
  else
    let iterations := s.iterationsAtOnce op width
    let done ← if iterations = 1 then s.stringOnce op width segment else s.storeMany width iterations
    let count := s.registers.rcx - UInt64.ofNat iterations
    let counted := done.withRegisters { done.registers with rcx := count }
    if count = 0 ∨ (op = .compare ∧ !counted.registers.isZero) then
      return counted.atPc next
    else
      return counted

/-- Executes an instruction that neither traps nor calls; `next` is the instruction behind it. -/
def perform (s : State) (next : Addr) : Instruction → Except Trouble State
  | .nop => .ok (s.atPc next)
  | .move dest width source => do
    let done ← s.writeOperand width next (s.sourceValue width source) dest
    return done.atPc next
  | .load dest width source => do
    let v ← s.readOperand width next source
    return (s.withRegisters (s.registers.setPart width v dest)).atPc next
  | .exchange first second width =>
    let r := s.registers
    let exchanged := (r.setPart width (r.get second) (.low first)).setPart width (r.get first)
      (.low second)
    .ok ((s.withRegisters exchanged).atPc next)
  | .address dest width source =>
    let v := source.offset s.registers next
    .ok ((s.withRegisters (s.registers.setPart width v (.low dest))).atPc next)
  | .operate op dest width source => do
    let done ← s.operate op dest width source next
    return done.atPc next
  | .divide divisor width => do
    let v ← s.readOperand width next divisor
    let done ← s.divide width v
    return done.atPc next
  | .push source => do
    let done ← s.push (s.registers.get source)
    return done.atPc next
  | .pop dest => do
    let (v, done) ← s.pop
    return (done.withRegisters (done.registers.set dest v)).atPc next
  | .call target => do
    let target ← s.readOperand .qword next target
    s.call target next
  | .callRelative offset => s.call (next + offset) next
  | .ret => do
    let (target, done) ← s.pop
    done.jump target
  | .jump target => do
    let target ← s.readOperand .qword next target
    s.jump target
  | .jumpRelative condition offset => s.jumpIf condition (next + offset) next
  | .string op width repeated segment => s.string op width repeated segment next
  | .setDirection =>
    .ok ((s.withRegisters { s.registers with eflags := s.registers.eflags ||| directionFlag }).atPc
      next)
  | .breakpoint | .systemCall => .ok (s.atPc next)
  | .privileged => .error .protection
  | .undefined => .error .undefined

/-- How many bytes at the program counter may be executed, at most as many as an instruction has. -/
def executable (s : State) : Nat :=
  let pc := s.registers.rip
  let untilPageEnd := (pageOf pc + pageSize - pc).toNat
  if (s.memory.denial? .exec pc).isSome then 0
  else if longestInstruction ≤ untilPageEnd then longestInstruction
  else if (s.memory.denial? .exec (pageOf pc + pageSize)).isSome then untilPageEnd
  else longestInstruction

/-- The bytes at the program counter, as far as they may be executed. -/
def fetch (s : State) (executable : Nat) : Fetch := fun i =>
  if i < executable then some (s.memory.byte (s.registers.rip + UInt64.ofNat i)) else none

/-- What denies the execution of the byte behind those that may be executed; an instruction that is
too long is denied as a whole. -/
def fetchTrouble (s : State) (executable : Nat) : Trouble :=
  if longestInstruction ≤ executable then .protection
  else (s.memory.denial? .exec (s.registers.rip + UInt64.ofNat executable)).getD .protection

/-- One step of the processor. -/
def step (s : State) : Step :=
  let executable := s.executable
  match decode (s.fetch executable) with
  | none => .faulted (s.fetchTrouble executable)
  | some (instruction, len) =>
    match s.perform (s.registers.rip + UInt64.ofNat len) instruction, instruction with
    | .error trouble, _ => .faulted trouble
    | .ok done, .breakpoint => .trapped done
    | .ok done, .systemCall => .called done
    | .ok done, _ => .running done

end State

end Footprint.Machine

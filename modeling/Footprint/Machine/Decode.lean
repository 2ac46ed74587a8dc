import Footprint.Machine.Instruction

/-!
# Decoding instructions

How instructions are encoded: prefixes, an opcode, and for some opcodes a byte that names operands,
followed by a displacement and an immediate value. Decoding fetches one byte after the other, no more
than the instruction has; it has no answer when a byte cannot be fetched. An opcode outside the table
decodes to the undefined instruction.
-/

namespace Footprint.Machine

/-- The bytes of an instruction by their places in it, as far as they can be fetched. -/
abbrev Fetch := Nat → Option UInt8

/-- A reader of the bytes of an instruction, which keeps the place of the next one. -/
abbrev Reader := ReaderT Fetch (StateT Nat Option)

namespace Reader

def byte : Reader UInt8 := fun fetch place =>
  (fetch place).map (·, place + 1)

/-- The next `count` bytes as a number, least significant byte first. -/
def littleEndian : Nat → Reader UInt64
  | 0 => pure 0
  | count + 1 => do
    let low ← byte
    let high ← littleEndian count
    return low.toUInt64 ||| high <<< 8

/-- A value of `bits` bits with its sign carried to the top. -/
def carrySign (bits v : UInt64) : UInt64 :=
  if v &&& (1 <<< (bits - 1)) = 0 then v else v ||| (Addr.top <<< bits)

def signedByte : Reader UInt64 := do
  let b ← byte
  return carrySign 8 b.toUInt64

def signedDword : Reader UInt64 := do
  let v ← littleEndian 4
  return carrySign 32 v

end Reader

/-- The prefixes of an instruction. -/
structure Prefixes where
  repeated : Bool
  segment : Option Segment
  -- The extension prefix, which counts only directly before the opcode.
  extension : Option UInt8

namespace Prefixes

/-- An instruction without prefixes. -/
def none : Prefixes := ⟨false, .none, .none⟩

/-- The prefixes with one more, if the byte is one. -/
def extendBy? (p : Prefixes) (b : UInt8) : Option Prefixes :=
  if b = 0xf3 then some { p with repeated := true, extension := .none }
  else if b = 0x64 then some { p with segment := some .fs, extension := .none }
  else if b = 0x65 then some { p with segment := some .gs, extension := .none }
  else if b &&& 0xf0 = 0x40 then some { p with extension := some b }
  else .none

/-- The prefixes at the front of an instruction, at most a number of them, and the opcode. -/
def read : Nat → Prefixes → Reader (Prefixes × UInt8)
  | 0, _ => failure
  | most + 1, p => do
    let b ← Reader.byte
    match p.extendBy? b with
    | some p => read most p
    | .none => return (p, b)

def hasBit (p : Prefixes) (bit : UInt8) : Bool :=
  p.extension.getD 0 &&& bit != 0

/-- The width of operands that are not bytes. -/
def width (p : Prefixes) : Width :=
  if p.hasBit 8 then .qword else .dword

/-- A three-bit register code extended by a bit of the extension prefix. -/
def extend (p : Prefixes) (bit : UInt8) (code : UInt8) : Nat :=
  code.toNat + if p.hasBit bit then 8 else 0

end Prefixes

/-- The general-purpose registers in the order of their codes. -/
def codedRegisters : List Gpr :=
  [.rax, .rcx, .rdx, .rbx, .rsp, .rbp, .rsi, .rdi,
   .r8, .r9, .r10, .r11, .r12, .r13, .r14, .r15]

def registerOf (code : Nat) : Gpr :=
  codedRegisters.getD code .r15

/-- The part of the register file that a code names. Without an extension prefix the byte codes four
to seven name the second bytes of the first four registers. -/
def partOf (p : Prefixes) (width : Width) (code : Nat) : RegPart :=
  if width = .byte ∧ p.extension.isNone ∧ 4 ≤ code then .second (registerOf (code - 4))
  else .low (registerOf code)

/-- What the byte that names operands says. -/
structure Operands where
  -- The middle field, which selects among operations that share an opcode.
  digit : UInt8
  -- The middle field as a register code.
  register : Nat
  -- The operand that may be in memory, or a register code.
  operand : Sum Nat MemRef

namespace Operands

/-- The displacement that a mode calls for. -/
def displacement (mode : UInt8) : Reader UInt64 :=
  if mode = 1 then Reader.signedByte
  else if mode = 2 then Reader.signedDword
  else pure 0

/-- A memory operand whose base and index stand in a byte of their own. -/
def readScaled (p : Prefixes) (mode : UInt8) : Reader MemRef := do
  let scaled ← Reader.byte
  let indexCode := p.extend 2 ((scaled >>> 3) &&& 7)
  let index := if indexCode = 4 then none else some (registerOf indexCode, (scaled >>> 6).toNat)
  if scaled &&& 7 = 5 ∧ mode = 0 then
    let displacement ← Reader.signedDword
    return { base := none, index, displacement, fromNext := false, segment := p.segment }
  else
    let displacement ← displacement mode
    return { base := some (registerOf (p.extend 1 (scaled &&& 7))), index, displacement,
             fromNext := false, segment := p.segment }

def readMemory (p : Prefixes) (mode low : UInt8) : Reader MemRef := do
  if low = 4 then
    readScaled p mode
  else if low = 5 ∧ mode = 0 then
    let displacement ← Reader.signedDword
    return { base := none, index := none, displacement, fromNext := true, segment := p.segment }
  else
    let displacement ← displacement mode
    return { base := some (registerOf (p.extend 1 low)), index := none, displacement,
             fromNext := false, segment := p.segment }

/-- The byte that names operands and what belongs to it. -/
def read (p : Prefixes) : Reader Operands := do
  let b ← Reader.byte
  let digit := (b >>> 3) &&& 7
  let register := p.extend 4 digit
  if b >>> 6 = 3 then
    return { digit, register, operand := .inl (p.extend 1 (b &&& 7)) }
  else
    let reference ← readMemory p (b >>> 6) (b &&& 7)
    return { digit, register, operand := .inr reference }

/-- The operand that may be in memory, at a width. -/
def place (o : Operands) (p : Prefixes) (width : Width) : Operand :=
  match o.operand with
  | .inl code => .reg (partOf p width code)
  | .inr reference => .mem reference

/-- The register of the middle field, at a width. -/
def part (o : Operands) (p : Prefixes) (width : Width) : RegPart :=
  partOf p width o.register

end Operands

/-- An instruction that has an operand byte, once that is read. -/
def Operands.reading (p : Prefixes) (build : Operands → Instruction) : Reader Instruction := do
  let operands ← Operands.read p
  return build operands

/-- The operation that the digit of an immediate form selects. -/
def operationOf (digit : UInt8) : Option Operation :=
  if digit = 0 then some .add
  else if digit = 5 then some .sub
  else if digit = 7 then some .compare
  else none

def immediateOperation (p : Prefixes) (immediate : Reader UInt64) : Reader Instruction := do
  let operands ← Operands.read p
  let v ← immediate
  match operationOf operands.digit with
  | some op => return .operate op (operands.place p p.width) p.width (.imm v)
  | none => return .undefined

/-- The one-operand instructions that share opcode `ff`. -/
def groupOf (p : Prefixes) (o : Operands) : Instruction :=
  if o.digit = 0 then .operate .add (o.place p p.width) p.width (.imm 1)
  else if o.digit = 1 then .operate .sub (o.place p p.width) p.width (.imm 1)
  else if o.digit = 2 then .call (o.place p .qword)
  else if o.digit = 4 then .jump (o.place p .qword)
  else .undefined

/-- The control registers that exist. -/
def controlRegisters : List Nat := [0, 2, 3, 4, 8]

/-- A move into a control register, which user code may not make. Both its operands are registers
whatever the mode of the byte that names them says. -/
def readControlMove (p : Prefixes) : Reader Instruction := do
  let b ← Reader.byte
  if controlRegisters.contains (p.extend 4 ((b >>> 3) &&& 7)) then
    return .privileged
  else
    return .undefined

/-- The instructions behind the escape byte `0f`. -/
def readEscaped (p : Prefixes) : Reader Instruction := do
  let opcode ← Reader.byte
  if opcode = 0x05 then
    return .systemCall
  else if opcode = 0x22 then
    readControlMove p
  else
    return .undefined

/-- A register move whose opcode holds the register. -/
def readRegisterMove (p : Prefixes) (code : UInt8) : Reader Instruction := do
  let v ← Reader.littleEndian p.width.bytes
  return .move (.reg (.low (registerOf (p.extend 1 code)))) p.width (.imm v)

def readJump (condition : Condition) : Reader Instruction := do
  let offset ← Reader.signedByte
  return .jumpRelative condition offset

def stringOf (p : Prefixes) (op : StringOp) (width : Width) : Instruction :=
  .string op width p.repeated p.segment

def readOpcode (p : Prefixes) (opcode : UInt8) : Reader Instruction :=
  match opcode with
  | 0x00 => Operands.reading p fun o =>
    .operate .add (o.place p .byte) .byte (.reg (o.part p .byte))
  | 0x01 => Operands.reading p fun o =>
    .operate .add (o.place p p.width) p.width (.reg (o.part p p.width))
  | 0x05 => do
    let v ← Reader.signedDword
    return .operate .add (.reg (.low .rax)) p.width (.imm v)
  | 0x0f => readEscaped p
  | 0x31 => Operands.reading p fun o =>
    .operate .xor (o.place p p.width) p.width (.reg (o.part p p.width))
  | 0x39 => Operands.reading p fun o =>
    .operate .compare (o.place p p.width) p.width (.reg (o.part p p.width))
  | 0x74 => readJump .ifZero
  | 0x75 => readJump .ifNotZero
  | 0x81 => immediateOperation p Reader.signedDword
  | 0x83 => immediateOperation p Reader.signedByte
  | 0x88 => Operands.reading p fun o => .move (o.place p .byte) .byte (.reg (o.part p .byte))
  | 0x89 => Operands.reading p fun o => .move (o.place p p.width) p.width (.reg (o.part p p.width))
  | 0x8a => Operands.reading p fun o => .load (o.part p .byte) .byte (o.place p .byte)
  | 0x8b => Operands.reading p fun o => .load (o.part p p.width) p.width (o.place p p.width)
  | 0x8d => Operands.reading p fun o =>
    match o.operand with
    | .inl _ => .undefined
    | .inr reference => .address (registerOf o.register) p.width reference
  | 0x90 =>
    pure (if p.hasBit 1 then .exchange (registerOf (p.extend 1 0)) .rax p.width else .nop)
  | 0xa4 => pure (stringOf p .move .byte)
  | 0xa5 => pure (stringOf p .move p.width)
  | 0xa6 => pure (stringOf p .compare .byte)
  | 0xaa => pure (stringOf p .store .byte)
  | 0xab => pure (stringOf p .store p.width)
  | 0xc3 => pure .ret
  | 0xc7 => do
    let operands ← Operands.read p
    let v ← Reader.signedDword
    if operands.digit = 0 then return .move (operands.place p p.width) p.width (.imm v)
    else return .undefined
  | 0xcc => pure .breakpoint
  | 0xcd => do
    let vector ← Reader.byte
    if vector = 3 then return .breakpoint else return .privileged
  | 0xe2 => readJump .countDown
  | 0xe8 => do
    let offset ← Reader.signedDword
    return .callRelative offset
  | 0xeb => readJump .always
  | 0xf1 => pure .breakpoint
  | 0xf4 => pure .privileged
  | 0xf7 => Operands.reading p fun o =>
    if o.digit = 6 then .divide (o.place p p.width) p.width else .undefined
  | 0xfa => pure .privileged
  | 0xfd => pure .setDirection
  | 0xff => Operands.reading p (groupOf p)
  | _ =>
    if opcode &&& 0xf8 = 0x50 then pure (.push (registerOf (p.extend 1 (opcode &&& 7))))
    else if opcode &&& 0xf8 = 0x58 then pure (.pop (registerOf (p.extend 1 (opcode &&& 7))))
    else if opcode &&& 0xf8 = 0xb8 then readRegisterMove p (opcode &&& 7)
    else pure .undefined

def longestInstruction : Nat := 15

def readInstruction : Reader Instruction := do
  let (p, opcode) ← Prefixes.none.read longestInstruction
  readOpcode p opcode

/-- The instruction whose bytes can be fetched and its length, unless they end inside it. -/
def decode (fetch : Fetch) : Option (Instruction × Nat) :=
  readInstruction fetch 0

end Footprint.Machine

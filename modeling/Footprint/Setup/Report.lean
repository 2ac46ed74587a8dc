import Footprint.Address

/-!
# The setup report

A fresh process tells its tracer in sixteen bytes how far it came: the step, an error number and the
address of its code, each least significant byte first.
-/

namespace Footprint.Setup

/-- The steps of setting up a process, and the two ends of it. -/
inductive Stage where
  | ready
  | parentDeathSignal
  | traceMe
  | mapCode
  | protectCode
  | mapGuard
  | resumed
deriving DecidableEq, Repr, Inhabited

namespace Stage

/-- The stages in the order of their numbers, which start at zero. -/
def all : List Stage :=
  [ready, parentDeathSignal, traceMe, mapCode, protectCode, mapGuard, resumed]

/-- The number of a stage, which is also the exit code after a failed step. -/
def number (s : Stage) : UInt32 :=
  UInt32.ofNat (all.idxOf s)

def ofNumber? (n : UInt32) : Option Stage :=
  all[n.toNat]?

def label : Stage → String
  | ready => "ready"
  | parentDeathSignal => "prctl(PR_SET_PDEATHSIG)"
  | traceMe => "ptrace(TRACEME)"
  | mapCode => "mmap(code region)"
  | protectCode => "mprotect(code region)"
  | mapGuard => "mmap(guarded region)"
  | resumed => "resumed without tracer"

def name : Stage → String
  | ready => "Ready"
  | parentDeathSignal => "ParentDeathSignal"
  | traceMe => "TraceMe"
  | mapCode => "MapCode"
  | protectCode => "ProtectCode"
  | mapGuard => "MapGuard"
  | resumed => "Resumed"

/-- The wording of a stage number, known or not. -/
def labelOf (n : UInt32) : String :=
  ((ofNumber? n).map label).getD "unknown step"

end Stage

/-- How far a fresh process came. -/
structure Report where
  -- The number of the stage that was reached or failed.
  stage : UInt32
  errno : Int32
  -- Where the code was mapped; zero if it was not.
  codeAddr : Addr
deriving DecidableEq, Repr, Inhabited

namespace Report

/-- The length of a report in bytes. -/
def len : Nat := 16

/-- The `width` low bytes of a number, least significant first. -/
def littleEndian : Nat → Nat → List UInt8
  | 0, _ => []
  | width + 1, n => UInt8.ofNat n :: littleEndian width (n / 256)

/-- The number that bytes write, least significant first. -/
def ofLittleEndian : List UInt8 → Nat
  | [] => 0
  | b :: rest => b.toNat + 256 * ofLittleEndian rest

def encode (r : Report) : List UInt8 :=
  littleEndian 4 r.stage.toNat ++ littleEndian 4 r.errno.toUInt32.toNat
    ++ littleEndian 8 r.codeAddr.toNat

/-- The report that sixteen bytes hold. -/
def decode (bytes : List UInt8) : Report where
  stage := UInt32.ofNat (ofLittleEndian (bytes.take 4))
  errno := (UInt32.ofNat (ofLittleEndian ((bytes.drop 4).take 4))).toInt32
  codeAddr := UInt64.ofNat (ofLittleEndian ((bytes.drop 8).take 8))

end Report

end Footprint.Setup

import Footprint.Code
import Footprint.Dialogue
import Footprint.Errno
import Footprint.Perms
import Footprint.Region
import Footprint.Setup.Report

/-!
# Setting up a process

What a fresh process does before its tracer takes over: it closes what it inherited, binds its life
to the tracer, asks to be traced, maps its code and the guarded region at exactly the planned
addresses, reports and stops. The first step that fails ends the setup with its number.
-/

namespace Footprint.Setup

/-- What a fresh process is to set up. -/
structure Plan where
  -- The block with sentinel and stub.
  image : Code
  -- Length of the code region.
  regionLen : Addr
  codeLocation : Addr
  guardRegion : Region
  -- The descriptor that the report is written to.
  reportTo : Int32
deriving DecidableEq, Repr, Inhabited

/-- A range of descriptors, both ends included. -/
structure DescriptorRange where
  first : UInt32
  last : UInt32
deriving DecidableEq, Repr, Inhabited

namespace DescriptorRange

/-- Whether the range has no descriptor. -/
def isEmpty (r : DescriptorRange) : Bool :=
  r.last < r.first

end DescriptorRange

/-- The descriptors below and above one that is kept open. -/
def closedRanges (keep : Int32) : Checked (DescriptorRange × DescriptorRange) :=
  let keep := keep.toUInt32
  if keep = 0 then .ok (⟨1, 0⟩, ⟨1, 0xffffffff⟩)
  else if keep = 0xffffffff then .error .addOverflow
  else .ok (⟨0, keep - 1⟩, ⟨keep + 1, 0xffffffff⟩)

/-- What a fresh process asks of the kernel. -/
inductive Call where
  | closeRange (range : DescriptorRange)
  | close (descriptor : Int)
  -- To be killed when the tracer ends.
  | dieWithParent
  -- To be traced by the parent.
  | traceMe
  -- Fresh memory at an address where nothing is mapped yet.
  | map (start len : Addr) (perms : Perms)
  | unmap (start len : Addr)
  -- A copy of the image into the process's memory.
  | copy (start : Addr) (image : Code)
  | protect (start len : Addr) (perms : Perms)
  -- The report, after which the descriptor is closed.
  | report (report : Report)
  -- A stop of the process itself.
  | stop
deriving DecidableEq, Repr

def Answer : Call → Type
  | .closeRange _ => Except Errno Unit
  | .close _ => Unit
  | .dieWithParent => Except Errno Unit
  | .traceMe => Except Errno Unit
  | .map .. => Except Errno Addr
  | .unmap .. => Unit
  | .copy .. => Unit
  | .protect .. => Except Errno Unit
  | .report _ => Unit
  | .stop => Unit

/-- A program of a fresh process. -/
abbrev Program := Dialogue Call Answer

def ask (c : Call) : Program (Answer c) :=
  Dialogue.call c

/-- A step of the setup, which may fail at a stage. -/
abbrev Step := ExceptT (Stage × Errno) Program

/-- A request whose refusal is a failure at a stage. -/
def attempt {α : Type} (stage : Stage) (request : Program (Except Errno α)) : Step α := do
  match ← request with
  | .ok a => return a
  | .error errno => throw (stage, errno)

/-- The greatest descriptor that is closed on its own where ranges cannot be closed. -/
def greatestClosedAlone : Int := 1024

/-- Closes `count` descriptors from one on. -/
def closeEach (first : Int) : Nat → Program Unit
  | 0 => pure ()
  | count + 1 => do
    ask (.close first)
    closeEach (first + 1) count

/-- Closes a range of descriptors, one by one if the kernel cannot close ranges. -/
def closeAll (range : DescriptorRange) : Program Unit := do
  if range.isEmpty then
    return ()
  let closed : Except Errno Unit ← ask (.closeRange range)
  match closed with
  | .ok () => return ()
  | .error _ =>
    let first := range.first.toInt32.toInt
    let last := min (range.last.toNat : Int) greatestClosedAlone
    closeEach first (last + 1 - first).toNat

/-- Closes every descriptor but one. No descriptor is negative, so the ranges exist. -/
def closeInherited (keep : Int32) : Program Unit :=
  match closedRanges keep with
  | .ok (below, above) => do
    closeAll below
    closeAll above
  | .error _ => pure ()

/-- Maps memory at exactly an address. A mapping that the kernel put elsewhere is undone. -/
def mapExactly (stage : Stage) (start len : Addr) (perms : Perms) : Step Unit := do
  let mapped ← attempt stage (ask (.map start len perms))
  if mapped = start then
    return ()
  else
    ask (.unmap mapped len)
    throw (stage, .alreadyExists)

/-- Maps the code region, fills it and makes it executable and no longer writable. -/
def mapCode (plan : Plan) : Step Unit := do
  mapExactly .mapCode plan.codeLocation plan.regionLen .readWrite
  ask (.copy plan.codeLocation plan.image)
  attempt .protectCode (ask (.protect plan.codeLocation plan.regionLen .readExec))

/-- All steps of the setup. -/
def build (plan : Plan) : Step Unit := do
  closeInherited plan.reportTo
  attempt .parentDeathSignal (ask .dieWithParent)
  attempt .traceMe (ask .traceMe)
  mapCode plan
  mapExactly .mapGuard plan.guardRegion.start plan.guardRegion.len .none

/-- The life of a fresh process up to its exit code: after a successful setup it stops, and it only
goes on from there if it is resumed as it is. -/
def program (plan : Plan) : Program UInt32 := do
  match ← (build plan).run with
  | .ok () =>
    ask (.report ⟨Stage.ready.number, 0, plan.codeLocation⟩)
    ask .stop
    return Stage.resumed.number
  | .error (stage, errno) =>
    ask (.report ⟨stage.number, Int32.ofInt errno.code, 0⟩)
    return stage.number

end Footprint.Setup

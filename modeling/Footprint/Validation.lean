import Footprint.Layout

/-!
# Validation of a configuration

Whether a configuration can be used on a host. All faults are found, not only the first; cautions do
not stand in the way of using the configuration.
-/

namespace Footprint

/-- Why a configuration cannot be used on a host. -/
inductive ConfigFault where
  | blockSizeNotPower (blockSize : Addr)
  | blockSizeBelowPage (blockSize pageSize : Addr)
  | zeroLimit (name : String)
  | windowEmpty (window : Window)
  | windowTooHigh (stop : Addr)
  | guardTooLow (guard mapMin : Addr)
  | guardOutside (guard : Addr)
  | codeTooLong (maxCodeLen : UInt64)
  | codeUnaligned (location : Addr)
  | codeTooLow (location mapMin : Addr)
  | codeOutside (region : Region)
  | codeOnGuard (code guard : Addr)
  | stated (text : String)
deriving DecidableEq, Repr

namespace ConfigFault

def text : ConfigFault → String
  | blockSizeNotPower size => "block_size " ++ Addr.hex size ++ " is not a power of two"
  | blockSizeBelowPage size page =>
    "block_size " ++ Addr.hex size ++ " is smaller than the host page size " ++ Addr.hex page
  | zeroLimit name => name ++ " cannot be zero"
  | windowEmpty window =>
    "access_window [" ++ Addr.hex window.start ++ ", " ++ Addr.hex window.stop ++ ") is empty"
  | windowTooHigh stop =>
    "access_window end " ++ Addr.hex stop ++ " is above the user address limit "
      ++ Addr.hex userAddressLimit
  | guardTooLow guard mapMin =>
    "guarded region " ++ Addr.hex guard ++ " is below vm.mmap_min_addr " ++ Addr.hex mapMin
      ++ "; choose a higher priming base"
  | guardOutside guard =>
    "guarded region " ++ Addr.hex guard ++ " is outside the user address space"
  | codeTooLong maxCodeLen => s!"max_code_len {maxCodeLen} does not fit in the address space"
  | codeUnaligned location =>
    "fixed code location " ++ Addr.hex location ++ " is not page aligned"
  | codeTooLow location mapMin =>
    "fixed code location " ++ Addr.hex location ++ " is below vm.mmap_min_addr "
      ++ Addr.hex mapMin
  | codeOutside region =>
    "fixed code region " ++ Addr.hex region.start ++ " (+" ++ Addr.hex region.len
      ++ ") is outside the user address space"
  | codeOnGuard code guard =>
    "fixed code region " ++ Addr.hex code ++ " overlaps the guarded region " ++ Addr.hex guard
  | stated text => text

end ConfigFault

/-- What a configuration should be looked at for. -/
inductive ConfigCaution where
  | moreBlocksThanIterations (maxBlocks : UInt64) (maxIterations : UInt32)
  | scrubDisabled
  | strideZero
  | guardOutsideWindow (guard : Addr)
  | stated (text : String)
deriving DecidableEq, Repr

namespace ConfigCaution

def text : ConfigCaution → String
  | moreBlocksThanIterations blocks iterations =>
    s!"max_granted_blocks {blocks} exceeds max_fault_iterations {iterations}"
      ++ "; the iteration limit is hit first"
  | scrubDisabled =>
    "scrub_address_space is disabled; accesses to inherited mappings go unreported"
  | strideZero => "Distinct priming with stride 0 behaves like Uniform"
  | guardOutsideWindow guard =>
    "guarded region " ++ Addr.hex guard ++ " lies outside the access window"
      ++ "; register-relative accesses will be unresolvable"
  | stated text => text

end ConfigCaution

/-- What validation found, in order. -/
structure Findings where
  faults : List ConfigFault
  cautions : List ConfigCaution
deriving DecidableEq, Repr

namespace Findings

/-- Nothing found. -/
def nothing : Findings := ⟨[], []⟩

instance : Inhabited Findings := ⟨nothing⟩

def append (f g : Findings) : Findings :=
  ⟨f.faults ++ g.faults, f.cautions ++ g.cautions⟩

instance : Append Findings := ⟨append⟩

/-- The fault, if the condition holds. -/
def faultIf (condition : Bool) (fault : ConfigFault) : Findings :=
  if condition then ⟨[fault], []⟩ else nothing

/-- The caution, if the condition holds. -/
def cautionIf (condition : Bool) (caution : ConfigCaution) : Findings :=
  if condition then ⟨[], [caution]⟩ else nothing

/-- Whether nothing stands in the way of using the configuration. -/
def isValid (f : Findings) : Bool :=
  f.faults.isEmpty

def logLines (f : Findings) : List String :=
  f.cautions.map fun caution => "Sandbox config: " ++ caution.text

end Findings

namespace Config

open Findings

def examineBlockSize (config : Config) (host : Host) : Findings :=
  let size := config.granule host
  if !Addr.isGranule size then faultIf true (.blockSizeNotPower size)
  else faultIf (size < host.pageSize) (.blockSizeBelowPage size host.pageSize)

def examineLimits (config : Config) : Findings :=
  faultIf (config.maxCodeLen == 0) (.zeroLimit "max_code_len")
    ++ faultIf (config.maxBlocks == 0) (.zeroLimit "max_granted_blocks")
    ++ faultIf (config.maxIterations == 0) (.zeroLimit "max_fault_iterations")
    ++ faultIf (config.wallLimitMs == 0) (.zeroLimit "wall_time_limit_ms")
    ++ cautionIf (config.maxIterations.toUInt64 < config.maxBlocks)
      (.moreBlocksThanIterations config.maxBlocks config.maxIterations)
    ++ cautionIf (!config.scrub) .scrubDisabled
    ++ cautionIf (match config.priming with | .distinct _ stride => stride == 0 | _ => false)
      .strideZero

def examineWindow (config : Config) : Findings :=
  faultIf (config.window.stop ≤ config.window.start) (.windowEmpty config.window)
    ++ faultIf (userAddressLimit < config.window.stop) (.windowTooHigh config.window.stop)

def endsInside (r : Region) : Bool :=
  match r.stop? with
  | some stop => stop ≤ taskSize
  | none => false

/-- The length of the code region for the longest block, unless that exceeds the address space. -/
def longestRegion? (config : Config) (host : Host) : Checked (Option Addr) :=
  match Addr.add? config.maxCodeLen (sentinelLen + stubLen) with
  | none => .ok none
  | some imageLen => do
    let slack ← Addr.sub host.pageSize 1
    match Addr.add? imageLen slack with
    | none => return none
    | some padded =>
      let len ← Addr.alignDown padded host.pageSize
      return some len

def examineCode (config : Config) (host : Host) (guard : Region) (location : Addr) :
    Checked Findings := do
  match ← config.longestRegion? host with
  | none => return faultIf true (.codeTooLong config.maxCodeLen)
  | some len =>
    let code : Region := ⟨location, len⟩
    return faultIf (location % host.pageSize != 0) (.codeUnaligned location)
      ++ faultIf (location < host.mapMin) (.codeTooLow location host.mapMin)
      ++ faultIf (!endsInside code) (.codeOutside code)
      ++ faultIf (code.overlaps guard) (.codeOnGuard code.start guard.start)

/-- Examines where the regions of the sandbox lie. Without a granule they lie nowhere. -/
def examineLayout (config : Config) (host : Host) : Checked Findings := do
  let size := config.granule host
  if !Addr.isGranule size then
    return nothing
  let start ← Addr.alignDown config.priming.base size
  let guard : Region := ⟨start, size⟩
  let onGuard :=
    faultIf (start < host.mapMin) (.guardTooLow start host.mapMin)
      ++ faultIf (!endsInside guard) (.guardOutside start)
      ++ cautionIf (!config.window.contains start) (.guardOutsideWindow start)
  match config.placement with
  | .fixed location =>
    let onCode ← config.examineCode host guard location
    return onGuard ++ onCode
  | .randomized => return onGuard

/-- Everything there is to say about a configuration on a host. -/
def validate (config : Config) (host : Host) : Checked Findings := do
  let onLayout ← config.examineLayout host
  return config.examineBlockSize host ++ config.examineLimits ++ config.examineWindow ++ onLayout

end Config

end Footprint

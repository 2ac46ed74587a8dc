import Std.Data.TreeMap
import Footprint.Config
import Footprint.Kernel.SystemCall
import Footprint.Machine.Page
import Footprint.Maps
import Footprint.Perms

/-!
# Address spaces

The mappings of a process and the bytes in them, and what mapping, unmapping and protecting do to
them, refusals included. Mappings are page aligned, disjoint and in address order, and neighbours that
are alike are one mapping; fresh memory reads as zeros.
-/

namespace Footprint.Machine

/-- The lowest address that may be mapped. -/
def lowestMappable : Addr := 0x10000

/-- A mapped range. -/
structure Mapping where
  start : Addr
  stop : Addr
  perms : Perms
deriving DecidableEq, Repr, Inhabited

namespace Mapping

def contains (m : Mapping) (a : Addr) : Bool :=
  m.start ≤ a && a < m.stop

/-- The parts of a mapping outside `[start, stop)`. -/
def without (m : Mapping) (start stop : Addr) : List Mapping :=
  if m.stop ≤ start ∨ stop ≤ m.start then [m]
  else
    (if m.start < start then [{ m with stop := start }] else [])
      ++ (if stop < m.stop then [{ m with start := stop }] else [])

/-- The part of a mapping inside `[start, stop)`, if there is any. -/
def within (m : Mapping) (start stop : Addr) : Option Mapping :=
  let low := max m.start start
  let high := min m.stop stop
  if low < high then some { m with start := low, stop := high } else none

end Mapping

/-- The memory of a process. -/
structure AddressSpace where
  mappings : List Mapping
  -- The pages that were written to, by their starts; all others are fresh.
  pages : Std.TreeMap Addr Page

namespace AddressSpace

/-- An address space with nothing in it. -/
def empty : AddressSpace := ⟨[], ∅⟩

instance : Inhabited AddressSpace := ⟨empty⟩

/-- The mapping that an address lies in. -/
def find? (s : AddressSpace) (a : Addr) : Option Mapping :=
  s.mappings.find? (·.contains a)

/-- The page that an address lies in. -/
def page (s : AddressSpace) (a : Addr) : Page :=
  s.pages.getD (pageOf a) .blank

/-- The address space with another page where an address lies. -/
def setPage (s : AddressSpace) (a : Addr) (p : Page) : AddressSpace :=
  { s with pages := s.pages.insert (pageOf a) p }

def byte (s : AddressSpace) (a : Addr) : UInt8 :=
  (s.page a).get (placeInPage a)

def setByte (s : AddressSpace) (a : Addr) (b : UInt8) : AddressSpace :=
  s.setPage a ((s.page a).set (placeInPage a) b)

def setBytes (s : AddressSpace) (a : Addr) : List UInt8 → AddressSpace
  | [] => s
  | b :: rest => setBytes (s.setByte a b) (a + 1) rest

/-- `count` bytes from an address on. -/
def getBytes (s : AddressSpace) (a : Addr) : Nat → List UInt8
  | 0 => []
  | count + 1 => s.byte a :: getBytes s (a + 1) count

/-- A mapping put before others, joined with the first of them if that goes on alike. -/
def attach (m : Mapping) : List Mapping → List Mapping
  | [] => [m]
  | n :: rest =>
    if m.stop = n.start ∧ m.perms = n.perms then { m with stop := n.stop } :: rest
    else m :: n :: rest

/-- A mapping put at its place among others. -/
def insertMapping (m : Mapping) : List Mapping → List Mapping
  | [] => [m]
  | n :: rest =>
    if m.start < n.start then attach m (n :: rest) else attach n (insertMapping m rest)

/-- A length rounded up to pages, modulo `2 ^ 64`. -/
def roundToPages (len : Addr) : Addr :=
  Addr.clearBelow (len + (pageSize - 1)) pageSize

def isPageStart (a : Addr) : Bool :=
  a % pageSize == 0

/-- The address space without the range. -/
def remove (s : AddressSpace) (start stop : Addr) : AddressSpace where
  mappings := s.mappings.flatMap (·.without start stop)
  pages := s.pages.filter fun a _ => a < start || stop ≤ a

/-- The address space with other permissions on what is mapped in the range. -/
def permit (s : AddressSpace) (start stop : Addr) (perms : Perms) : AddressSpace :=
  let changed := s.mappings.filterMap (·.within start stop)
  let kept := s.mappings.flatMap (·.without start stop)
  { s with mappings := changed.foldl (fun ms m => insertMapping { m with perms } ms) kept }

/-- Maps fresh memory at exactly the address, where nothing may be mapped yet. The last 4095 addresses
cannot be told from error numbers and are answered as such. -/
def map (s : AddressSpace) (start len : Addr) (perms : Perms) :
    Except Errno (Addr × AddressSpace) :=
  let rounded := roundToPages len
  if len = 0 then .error .invalidArgument
  else if rounded = 0 ∨ taskSize < rounded then .error .noMemory
  else
    match Kernel.SystemCall.outcome start with
    | .error errno => .error errno
    | .ok _ =>
      let stop := start + rounded
      if taskSize - rounded < start then .error .noMemory
      else if !isPageStart start then .error .invalidArgument
      else if start < lowestMappable then .error .notPermitted
      else if s.mappings.any fun m => (m.within start stop).isSome then .error .alreadyExists
      else .ok (start, { s with mappings := insertMapping ⟨start, stop, perms⟩ s.mappings })

/-- Unmaps a range, mapped or not. -/
def unmap (s : AddressSpace) (start len : Addr) : Except Errno AddressSpace :=
  if !isPageStart start ∨ len = 0 ∨ taskSize < start ∨ taskSize - start < len then
    .error .invalidArgument
  else .ok (s.remove start (start + roundToPages len))

/-- The end of what is mapped without a hole from an address up to `stop`. The mappings are in
address order, so each is looked at once. -/
def coveredFrom (start stop : Addr) : List Mapping → Addr
  | [] => start
  | m :: rest =>
    if stop ≤ start then start
    else if m.contains start then coveredFrom m.stop stop rest
    else coveredFrom start stop rest

/-- Changes the permissions of a range. What is mapped before a hole in it is changed even though
the hole makes the call fail. -/
def protect (s : AddressSpace) (start len : Addr) (perms : Perms) :
    Except Errno Unit × AddressSpace :=
  if !isPageStart start then (.error .invalidArgument, s)
  else if len = 0 then (.ok (), s)
  else
    let stop := start + roundToPages len
    if stop ≤ start then (.error .noMemory, s)
    else
      let covered := min stop (coveredFrom start stop s.mappings)
      let changed := s.permit start covered perms
      if covered < stop then (.error .noMemory, changed) else (.ok (), changed)

def boundText (a : Addr) : String :=
  String.ofList (Nat.toDigits 16 a.toNat)

/-- The listing of the mappings as the kernel writes it. -/
def listing (s : AddressSpace) : String :=
  String.join (s.mappings.map fun m =>
    boundText m.start ++ "-" ++ boundText m.stop ++ " " ++ m.perms.text
      ++ " 00000000 00:00 0 \n")

end AddressSpace

end Footprint.Machine

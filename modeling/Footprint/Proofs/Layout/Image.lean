import Footprint.Proofs.Injection.Course
import Footprint.Proofs.Layout
import Footprint.Proofs.Monitor.Course
import Footprint.Sandbox

/-!
# Images and layouts

A code image and a layout are made apart from each other, and so are the places where the sentinel and the
stub are looked for. This module says that they agree (`Layout.Carries`): at each address that a layout
names lies the byte that is expected there, the end of the image is where system calls end, and nobody
takes that for the end of the block (`Layout.carries_of_plan`).
-/

namespace Footprint

namespace Code

variable {code image : Code} {location a : Addr} {n : Nat}

/-- The byte at an address, when an image lies from a location on. -/
def byteAt (image : Code) (location a : Addr) : Option UInt8 :=
  if location ≤ a then image[(a - location).toNat]? else none

theorem byteAt_eq (h : a.toNat = location.toNat + n) : image.byteAt location a = image[n]? := by
  have hbehind : location ≤ a := UInt64.le_iff_toNat_le.2 (by omega)
  have hoffset : (a - location).toNat = n := by
    rw [UInt64.toNat_sub_of_le _ _ hbehind]
    omega
  rw [byteAt, if_pos hbehind, hoffset]

/-- An image takes up as many addresses from its location on as it has bytes. -/
theorem isSome_byteAt_iff :
    (image.byteAt location a).isSome = true ↔
      location.toNat ≤ a.toNat ∧ a.toNat < location.toNat + image.length := by
  unfold byteAt
  split
  next hbehind =>
    have hle := UInt64.le_iff_toNat_le.1 hbehind
    rw [isSome_getElem?, UInt64.toNat_sub_of_le _ _ hbehind]
    omega
  next hbefore =>
    rw [UInt64.le_iff_toNat_le] at hbefore
    simp [hbefore]

@[simp]
theorem length_image (code : Code) : code.image.length = code.length + 4 := by
  simp [image, sentinel, stub]

theorem getElem?_image_of_lt (h : n < code.length) : code.image[n]? = some code[n] := by
  simp [image, List.getElem?_append_left, h]

/-- Behind the block lie the sentinel and the stub. -/
theorem getElem?_image_add (code : Code) (n : Nat) :
    code.image[code.length + n]? = (sentinel ++ stub)[n]? := by
  rw [image, List.append_assoc, List.getElem?_append_right (Nat.le_add_right _ _), Nat.add_sub_cancel_left]

/-- The bytes of a code lie one behind the other. -/
theorem byteAt_image_of_lt (h : n < code.length) (hfits : location.toNat + code.length < UInt64.size) :
    code.image.byteAt location (location + UInt64.ofNat n) = some code[n] := by
  have hoffset : (UInt64.ofNat n).toNat = n := UInt64.toNat_ofNat_of_lt' (by omega)
  have hplace : (location + UInt64.ofNat n).toNat = location.toNat + n := by
    rw [Addr.toNat_add_of_fits (by omega), hoffset]
  rw [byteAt_eq hplace, getElem?_image_of_lt h]

/-- The stub lies behind the sentinel, a byte behind the code. -/
theorem map_byteAt_stub {first : Addr} (h : first.toNat = location.toNat + code.length + 1)
    (hfits : first.toNat + 2 < UInt64.size) :
    [first, first + 1, first + 2].map (code.image.byteAt location) = [some 0x0f, some 0x05, some 0xcc] := by
  have hbyte (n : Nat) (a : Addr) (ha : a.toNat = first.toNat + n) :
      code.image.byteAt location a = (sentinel ++ stub)[1 + n]? := by
    have hplace : a.toNat = location.toNat + (code.length + (1 + n)) := by omega
    rw [byteAt_eq hplace]
    exact getElem?_image_add code (1 + n)
  have hone : (first + 1).toNat = first.toNat + 1 :=
    Addr.toNat_add_of_fits (by change first.toNat + 1 < UInt64.size; omega)
  have htwo : (first + 2).toNat = first.toNat + 2 :=
    Addr.toNat_add_of_fits (by change first.toNat + 2 < UInt64.size; omega)
  simp only [List.map_cons, List.map_nil, hbyte 0 first rfl, hbyte 1 _ hone, hbyte 2 _ htwo]
  rfl

end Code

namespace Layout

/-- A layout in which an image lies as everybody expects it who uses a part of it. System calls are run at
`stub`, and `behind` is where they end. -/
structure Carries (l : Layout) (code : Code) (host : Host) (stub behind : Addr) : Prop where
  codeLen_eq : l.codeLen.toNat = code.length
  block : ∀ n (h : n < code.length),
    code.image.byteAt l.codeLocation (l.codeLocation + UInt64.ofNat n) = some code[n]
  sentinelByte : ∃ a, l.sentinelAddr = .ok a ∧ code.image.byteAt l.codeLocation a = some 0xcc
  stubBytes : [stub, stub + 1, stub + 2].map (code.image.byteAt l.codeLocation) =
    [some 0x0f, some 0x05, some 0xcc]
  behind_eq : behind.toNat = l.codeLocation.toNat + code.image.length
  extent : ∀ a, (code.image.byteAt l.codeLocation a).isSome = true ↔
    l.codeLocation.toNat ≤ a.toNat ∧ a.toNat < behind.toNat
  -- The code region is the least number of pages that hold the image.
  paged : host.pageSize.toNat ∣ l.codeRegion.len.toNat
  holds : code.image.length ≤ l.codeRegion.len.toNat
  least : ∀ len : Nat, host.pageSize.toNat ∣ len → code.image.length ≤ len →
    l.codeRegion.len.toNat ≤ len
  -- Whoever runs system calls in a sandbox with the layout does so at the stub.
  injector : ∀ (phase : SandboxPhase) (s : Sandbox phase), s.layout = l → ∀ pid patience,
    s.injector pid patience = pure { pid, stub, patience }
  -- A system call has ended at the end of the image; any other breakpoint is told apart from that one.
  awaited : ∀ (i : Injector), i.stub = stub → ∀ number t,
    Tracing.Ensures (fun _ after => after.rip = behind)
      (fun _ halt => ∀ n rip expected, halt = .failed (.setup (.stubStray n rip expected)) →
        expected = behind ∧ rip ≠ behind)
      (i.awaitStub number) t
  completion : ∃ pc, l.completionPc = .ok pc ∧ behind ≠ pc
  unfinished : ∀ m : Monitor, m.layout = l → ∀ elapsed,
    (m.react (.breakpoint behind) elapsed).1 ≠ .ok .finish

end Layout

namespace Injector

open Kernel Tracing

variable {i : Injector} {number : UInt64} {behind : Addr} {t : Transcript}

/-- The stub has run when the process stands behind it, and a breakpoint anywhere else is refused. -/
theorem ensures_awaitStub_behind (hbehind : Addr.add i.stub stubLen = .ok behind) :
    Ensures (fun _ after => after.rip = behind)
      (fun _ halt => ∀ n rip expected, halt = .failed (.setup (.stubStray n rip expected)) →
        expected = behind ∧ rip ≠ behind)
      (i.awaitStub number) t := by
  have hsum := Addr.add_eq_ok_iff.1 hbehind
  refine (ensures_awaitsStub i number t).mono ?_ ?_
  · rintro _ after ⟨u, rfl, hawaits⟩
    cases hawaits with
    | trapped _ hlook =>
      cases hlook with
      | reached hreached => exact UInt64.toNat_inj.1 (hreached.trans hsum.symm)
  · rintro _ _ ⟨u, rfl, hawaits⟩ n rip expected rfl
    cases hawaits with
    | trapped _ hlook =>
      cases hlook with
      | stray haway hstrays =>
        cases hstrays with
        | stray hexpected =>
          refine ⟨UInt64.toNat_inj.1 (hexpected.trans hsum.symm), ?_⟩
          rintro rfl
          exact haway hsum

end Injector

namespace Layout

variable {l : Layout} {code : Code} {config : Config} {host : Host} {draw stub behind : Addr}

/-- The code region is the least number of pages that hold the image. -/
theorem CodePages.len_le (h : CodePages host.pageSize l) {len : Nat} (hpages : host.pageSize.toNat ∣ len)
    (hholds : l.codeLen.toNat + 4 ≤ len) : l.codeRegion.len.toNat ≤ len := by
  have hshort := h.short
  by_contra hlonger
  have hpage : len + host.pageSize.toNat ≤ l.codeRegion.len.toNat :=
    Addr.add_le_of_multiples (Nat.mod_eq_zero_of_dvd hpages) h.aligned (Nat.lt_of_not_le hlonger)
  omega

/-- A breakpoint anywhere but behind the sentinel does not complete the block. -/
theorem react_ne_finish {m : Monitor} {pc completion : Addr} (hcompletion : m.layout.completionPc = .ok completion)
    (hpc : pc ≠ completion) (elapsed : Duration) : (m.react (.breakpoint pc) elapsed).1 ≠ .ok .finish := by
  by_cases hrunning : m.phase = .running
  · have hverdict : m.verdictOn (.breakpoint pc) elapsed =
        .ok (.abort (.fault (some (pc - breakpointLen)) .strayBreakpoint)) := by
      simp [Monitor.verdictOn, hcompletion, hpc, bind, Except.bind, pure, Except.pure]
    rw [Monitor.react_eq_ok hrunning hverdict]
    rintro ⟨⟩
  · rw [Monitor.react_of_not_running hrunning]
    rintro ⟨⟩

/-- Image and layout are made apart from each other, and agree wherever the layout has its addresses in
range. -/
theorem carries_of_plan (hlen : code.length < UInt64.size)
    (hplan : plan (UInt64.ofNat code.length) config host draw = .ok l) (hstub : l.stubAddr = .ok stub)
    (hbehind : Addr.add stub stubLen = .ok behind) : l.Carries code host stub behind := by
  rcases plan_eq_ok_iff.1 hplan with ⟨hplanned, hpages, hholds, -⟩
  have hcodeLen : l.codeLen.toNat = code.length := by
    rw [hplanned.codeLen_eq]
    exact UInt64.toNat_ofNat_of_lt' hlen
  have hstubAt := stubAddr_eq_ok_iff.1 hstub
  have hbehindAt := Addr.add_eq_ok_iff.1 hbehind
  have hstubLen : stubLen.toNat = 3 := rfl
  rw [hcodeLen] at hstubAt
  have hfits : l.codeLocation.toNat + code.length + 4 < UInt64.size := by
    have hlast : behind.toNat < UInt64.size := behind.toNat_lt
    omega
  have hend : behind.toNat = l.codeLocation.toNat + code.image.length := by
    rw [Code.length_image]
    omega
  constructor
  case codeLen_eq => exact hcodeLen
  case block => exact fun n hn => Code.byteAt_image_of_lt hn (by omega)
  case sentinelByte =>
    have hsum : l.codeLocation.toNat + l.codeLen.toNat < UInt64.size := by omega
    rcases Addr.add_isOk hsum with ⟨sentinel, hsentinel⟩
    refine ⟨sentinel, hsentinel, ?_⟩
    have hplace := Addr.add_eq_ok_iff.1 hsentinel
    rw [hcodeLen] at hplace
    rw [Code.byteAt_eq hplace]
    exact Code.getElem?_image_add code 0
  case stubBytes => exact Code.map_byteAt_stub (by omega) (by omega)
  case behind_eq => exact hend
  case extent =>
    intro a
    rw [hend]
    exact Code.isSome_byteAt_iff
  case paged => exact Nat.dvd_of_mod_eq_zero hpages.aligned
  case holds =>
    rw [← hplanned.codeLen_eq, hcodeLen] at hholds
    rwa [Code.length_image]
  case least =>
    intro len hdvd hlen
    rw [Code.length_image, ← hcodeLen] at hlen
    exact hpages.len_le hdvd hlen
  case injector =>
    intro phase s hs pid patience
    unfold Sandbox.injector
    rw [hs, hstub]
    rfl
  case awaited =>
    intro i hi number t
    exact Injector.ensures_awaitStub_behind (hi ▸ hbehind)
  case completion =>
    refine ⟨stub, by rwa [← stubAddr_eq_completionPc], ?_⟩
    rintro rfl
    omega
  case unfinished =>
    intro m hm elapsed
    rw [stubAddr_eq_completionPc] at hstub
    refine react_ne_finish (hm ▸ hstub) ?_ elapsed
    rintro rfl
    omega

/-- A block whose image fills a page up to its last byte. -/
theorem carries_of_plan_of_fullPage :
    let host : Host := ⟨"x86_64", 0x1000, 0x10000⟩
    let code : Code := List.replicate 4092 0x90
    let layout : Layout :=
      ⟨0x200000000000, 4092, ⟨0x200000000000, 0x1000⟩, ⟨0x10000, 0x1000⟩, 0x1000⟩
    plan (UInt64.ofNat code.length) Config.standard host 0 = .ok layout ∧
      layout.Carries code host 0x200000000ffd 0x200000001000 := by
  intro host code layout
  have hlength : code.length = 4092 := List.length_replicate
  have hplan : plan (UInt64.ofNat code.length) Config.standard host 0 = .ok layout := by
    rw [hlength]
    change plan 4092 Config.standard ⟨"x86_64", 0x1000, 0x10000⟩ 0 = .ok layout
    rfl
  have hstub : layout.stubAddr = .ok 0x200000000ffd := stubAddr_eq_ok_iff.2 rfl
  have hbehind : Addr.add 0x200000000ffd stubLen = .ok 0x200000001000 := Addr.add_eq_ok_iff.2 rfl
  have hlen : code.length < UInt64.size := by
    rw [hlength]
    decide
  exact ⟨hplan, carries_of_plan hlen hplan hstub hbehind⟩

end Layout

end Footprint

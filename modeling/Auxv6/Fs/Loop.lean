import Mathlib.Tactic
import Auxv6.Lib.Transition

/-!
# Loop devices under the buffer cache (kernel/driver/loop.c, kernel/fs/bio.c)

`cache` holds the valid buffers of the loop devices by minor and block number; neither
`loop_setup` nor `loop_teardown` touches it. A buffer leaves it when `bget` recycles it.
-/

namespace Auxv6.Fs.Loop
open Option Lib.Transition Function

def nloop : ℤ := 8
def bsize : ℕ := 512

/-- A backing inode; `valid` is the test on its type and major number. -/
structure Backing where
  valid : Bool
  size : UInt64
  byte : ℕ → UInt8

/-- A full block of the file; `loop_setup` keeps every block in range below `size`. -/
def Backing.read (ip : Backing) (off : ℕ) : List UInt8 := (List.range bsize).map fun i => ip.byte (off+i)

structure LoopDevice where
  backing : Backing
  offset : UInt32
  nblocks : UInt32

structure Buf where
  data : List UInt8
  error : Bool

structure State where
  loops : ℤ → Option LoopDevice
  cache : ℤ → UInt32 → Option Buf

def loopInit : State := ⟨fun _ => none,fun _ _ => none⟩
def loopRw (s : State) (minor : ℤ) (blockno : UInt32) : Option (List UInt8) :=
  if minor<0 ∨ nloop ≤ minor then none
  else (s.loops minor).bind fun ld =>
    if ld.nblocks≤blockno then none
    else some (ld.backing.read (ld.offset+blockno*512).toNat)

/-- The buffer that `bread` fills: zeros marked `B_ERROR` when the driver fails. -/
def fill (s : State) (minor : ℤ) (blockno : UInt32) : Buf :=
  match loopRw s minor blockno with
  | some data => ⟨data,false⟩
  | none => ⟨List.replicate bsize 0,true⟩

def bread (s : State) (minor : ℤ) (blockno : UInt32) : Buf × State :=
  match s.cache minor blockno with
  | some b => (b,s)
  | none =>
    let b:=fill s minor blockno
    (b,{s with cache := fun m n => if m=minor ∧ n=blockno then some b else s.cache m n})

def loopSetup (s : State) (loopnum : ℤ) (ip : Backing) (offset nblocks : UInt32) : Option State :=
  if loopnum<0 ∨ nloop≤loopnum then none
  else if offset%512≠0 then none
  else if !ip.valid then none
  else if ip.size≤offset.toUInt64 then none
  else
    let maxBlocks:=((ip.size-offset.toUInt64)/512).toUInt32
    if maxBlocks=0 then none
    else if nblocks≠0 ∧ (offset+nblocks*512<offset ∨ maxBlocks<nblocks) then none
    else if (s.loops loopnum).isSome then none
    else
      let ld:=⟨ip,offset,if nblocks=0 then maxBlocks else nblocks⟩
      some {s with loops := update s.loops loopnum (some ld)}

def loopTeardown (s : State) (loopnum : ℤ) (mounted : Bool) : Option State :=
  if loopnum<0 ∨ nloop≤loopnum then none
  else if mounted then none
  else if (s.loops loopnum).isNone then none
  else some {s with loops := update s.loops loopnum none}

inductive Action
  | setup (loopnum : ℤ) (ip : Backing) (offset nblocks : UInt32)
  | teardown (loopnum : ℤ) (mounted : Bool)
  | bread (minor : ℤ) (blockno : UInt32)
  | recycle (minor : ℤ) (blockno : UInt32)

/-- A call that fails leaves the state as it is. -/
def step (s : State) : Action → Option State
  | .setup l ip offset nblocks => some ((loopSetup s l ip offset nblocks).getD s)
  | .teardown l mounted => some ((loopTeardown s l mounted).getD s)
  | .bread m n => some (bread s m n).2
  | .recycle m n => some {s with cache := fun m' n' => if m'=m ∧ n'=n then none else s.cache m' n'}

/-- What a buffer of block `b` should hold, in unbounded arithmetic. -/
def LoopDevice.Shows (ld : LoopDevice) (b : UInt32) (buf : Buf) : Prop :=
  if b<ld.nblocks then buf=⟨ld.backing.read (ld.offset.toNat+512*b.toNat),false⟩
  else buf.error=true

def ShowsBacking (s : State) : Prop := ∀ l ld b,s.loops l=some ld → ld.Shows b (bread s l b).1

abbrev LoopDevice.Fits (ld : LoopDevice) : Prop := ld.offset.toNat+512*ld.nblocks.toNat≤2^32

def region (ip : Backing) (offset nblocks : UInt32) : UInt32 :=
  if nblocks=0 then ((ip.size-offset.toUInt64)/512).toUInt32 else nblocks

/-- A device is attached only when no buffer of its number is cached, and within 4 GiB of its file. -/
def CleanSetup (s : State) : Action → Prop
  | .setup l ip offset nblocks => (loopSetup s l ip offset nblocks).isSome →
      (∀ b,s.cache l b=none) ∧ offset.toNat+512*(region ip offset nblocks).toNat≤2^32
  | _ => True

structure Coherent (s : State) : Prop where
  minor : ∀ l,(s.loops l).isSome → ¬ (l<0 ∨ nloop≤l)
  fits : ∀ l ld,s.loops l=some ld → ld.Fits
  cached : ∀ l ld b buf,s.loops l=some ld → s.cache l b=some buf → ld.Shows b buf

variable {s t : State} {l : ℤ}

lemma file_off {ld : LoopDevice} {b : UInt32} (h : ld.Fits) (hb : b<ld.nblocks) :
    (ld.offset+b*512).toNat=ld.offset.toNat+512*b.toNat := by
  rw [UInt32.lt_iff_toNat_lt] at hb
  rw [UInt32.toNat_add,UInt32.toNat_mul,show (512 : UInt32).toNat=512 from rfl]
  omega

section
variable (h : Coherent s)
include h

lemma Coherent.fill {ld : LoopDevice} (hl : s.loops l=some ld) (b : UInt32) : ld.Shows b (fill s l b) := by
  have hm:=h.minor l (by rw [hl]; rfl)
  simp only [LoopDevice.Shows,Loop.fill,loopRw,if_neg hm,hl,bind_some]
  by_cases hb : b<ld.nblocks
  · rw [if_pos hb,if_neg (UInt32.not_le.mpr hb),file_off (h.fits l ld hl) hb]
  · rw [if_neg hb,if_pos (UInt32.not_lt.mp hb)]

lemma Coherent.shows : ShowsBacking s := by
  intro l ld b hl
  rw [Loop.bread]
  split
  case h_1 buf hc => exact h.cached l ld b buf hl hc
  case h_2 => exact h.fill hl b

lemma Coherent.attach {ld : LoopDevice} (hl : ¬ (l<0 ∨ nloop≤l))
    (hempty : ∀ b,s.cache l b=none) (hfits : ld.Fits) : Coherent {s with loops := update s.loops l (some ld)} := by
  refine ⟨fun m hm => ?_,fun m ld' hm => ?_,fun m ld' b buf hm hc => ?_⟩ <;>
    simp only [update_apply] at hm <;> split at hm
  · rwa [‹m=l›]
  · exact h.minor m hm
  · exact some.inj hm ▸ hfits
  · exact h.fits m ld' hm
  · rw [‹m=l›,hempty] at hc
    cases hc
  · exact h.cached m ld' b buf hm hc

lemma Coherent.detach : Coherent {s with loops := update s.loops l none} := by
  refine ⟨fun m hm => ?_,fun m ld hm => ?_,fun m ld b buf hm hc => ?_⟩ <;>
    simp only [update_apply] at hm <;> split at hm <;> try cases hm
  · exact h.minor m hm
  · exact h.fits m ld hm
  · exact h.cached m ld b buf hm hc

lemma Coherent.setup {ip : Backing} {offset nblocks : UInt32}
    (hok : CleanSetup s (.setup l ip offset nblocks)) (ht : loopSetup s l ip offset nblocks=some t) : Coherent t := by
  obtain ⟨hempty,hfits⟩:=hok (by rw [ht]; rfl)
  simp only [loopSetup] at ht
  unfold region at hfits
  split_ifs at ht hfits with hl <;> cases ht <;> exact h.attach hl hempty hfits

lemma Coherent.teardown {mounted : Bool} (ht : loopTeardown s l mounted=some t) : Coherent t := by
  simp only [loopTeardown] at ht
  split_ifs at ht
  cases ht
  exact h.detach

/-- A new set of buffers is coherent when each was cached before or shows its block. -/
lemma Coherent.recache {cache : ℤ → UInt32 → Option Buf} (hc : ∀ l ld b buf,s.loops l=some ld → cache l b=some buf →
      s.cache l b=some buf ∨ ld.Shows b buf) : Coherent {s with cache := cache} where
  minor := h.minor
  fits := h.fits
  cached l ld b buf hl hbuf := (hc l ld b buf hl hbuf).elim (h.cached l ld b buf hl) id

lemma Coherent.bread (m : ℤ) (n : UInt32) : Coherent (bread s m n).2 := by
  rw [Loop.bread]
  split
  case h_1 => exact h
  case h_2 =>
    refine h.recache fun l ld b buf hl hbuf => ?_
    split at hbuf
    case isTrue heq =>
      obtain ⟨rfl,rfl⟩:=heq
      exact .inr (some.inj hbuf ▸ h.fill hl _)
    case isFalse => exact .inl hbuf

lemma Coherent.step {a : Action} (hok : CleanSetup s a) (ht : step s a=some t) : Coherent t := by
  cases a with
  | setup l ip offset nblocks =>
    cases ht
    cases hs : loopSetup s l ip offset nblocks with
    | none => exact h
    | some u => exact h.setup hok hs
  | teardown l mounted =>
    cases ht
    cases hs : loopTeardown s l mounted with
    | none => exact h
    | some u => exact h.teardown hs
  | bread m n =>
    cases ht
    exact h.bread m n
  | recycle m n =>
    cases ht
    refine h.recache fun l ld b buf _ hbuf => ?_
    split at hbuf
    case isTrue => cases hbuf
    case isFalse => exact .inl hbuf

end

def imageA : Backing := ⟨true,512,fun _ => 65⟩
def imageB : Backing := ⟨true,512,fun _ => 66⟩

end Auxv6.Fs.Loop

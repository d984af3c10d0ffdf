import Auxv6.Fs.Ext2.Device
import Auxv6.Machine

/-!
# Raw block devices and partitions (core/blockdev.c)

`disk` are the bytes of a whole disk; a cached sector holds what the disk holds. The user's buffer can be
copied. The offsets of the loops stay below `limit`, a `uint`, and are cut at the ends of sectors as those of
ext2 are.
-/

namespace Auxv6.Fs.Blockdev

open Ext2 Lib.ByteMemory Machine List Nat

/-- An entry of `bdevtable`; `driver` is what `ops->nblocks` returns. -/
inductive Bdev where
  | disk (nblocks driver : UInt32)
  | part (start nblocks : UInt32)

/-- `blockdev.c:302-331`. -/
def Bdev.nblocks : Bdev → ℕ
  | .disk n driver => if n=0 then driver.toNat else n.toNat
  | .part _ n => n.toNat

/-- The sector that `bdevrw` (`blockdev.c:258-299`) has transferred. -/
def Bdev.target : Bdev → ℕ → Option ℕ
  | .disk _ _, k => some k
  | .part start n, k => if n.toNat≤k then none else some (word (k+start.toNat))

def Bdev.size (d : Bdev) : ℕ := d.nblocks*sectorSize
def Bdev.count (d : Bdev) (off n : ℕ) : Option ℕ :=
  let limit:=word d.size
  if limit<off ∨ (off+n)%2^64<off then none
  else some (if limit<(off+n)%2^64 then limit-off else n)

def readSpans (d : Bdev) (disk : Bytes) : List Span → Option (List Byte)
  | [] => some []
  | s::rest => do
    let k ← d.target s.sector
    let more ← readSpans d disk rest
    some (((range s.take).map fun j => disk (k*sectorSize+(s.boff+j)))++more)

/-- `blockdev.c:56-107`: the bytes, `none` for -1. -/
def blockdevRead (d : Bdev) (disk : Bytes) (off n : ℕ) : Option (List Byte) := do
  let n ← d.count off n
  readSpans d disk (devSpans off n n 0)

def blit (disk : Bytes) (pos : ℕ) (src : List Byte) : Bytes := fun x =>
  if pos≤x ∧ x<pos+src.length then src.getD (x-pos) 0 else disk x

def writeSpans (d : Bdev) (src : List Byte) : Bytes → List Span → Option Bytes
  | disk, [] => some disk
  | disk, s::rest => do
    let k ← d.target s.sector
    writeSpans d src (blit disk (k*sectorSize+s.boff) ((src.drop s.done).take s.take)) rest

/-- `blockdev.c:109-164`. -/
def blockdevWrite (d : Bdev) (disk : Bytes) (off : ℕ) (src : List Byte) : Option (ℕ × Bytes) := do
  let n ← d.count off src.length
  let disk' ← writeSpans d src disk (devSpans off n n 0)
  some (n,disk')

def Bdev.touched (d : Bdev) (off n : ℕ) : List ℕ :=
  (d.count off n).elim [] fun n => (devSectors off n).filterMap d.target
def Bdev.base : Bdev → ℕ
  | .disk _ _ => 0
  | .part start _ => start.toNat

structure Exact (d : Bdev) (disk : Bytes) (off : ℕ) (src : List Byte) : Prop where
  read : blockdevRead d disk off src.length=if d.size<off then none else
    some ((range (min src.length (d.size-off))).map fun i => disk (d.base*sectorSize+off+i))
  write : blockdevWrite d disk off src=if d.size<off then none else
    some (min src.length (d.size-off),blit disk (d.base*sectorSize+off) (src.take (min src.length (d.size-off))))
  within : ∀ t∈d.touched off src.length,d.base≤t ∧ t<d.base+d.nblocks

/-- The end of the device, or else that of the transfer, has a 32-bit position, and the
sectors of the transfer have 32-bit numbers on the disk. -/
def Fits (d : Bdev) (off n : ℕ) : Prop :=
  d.size<off ∨ (d.size<2^32 ∨ off+n≤d.size%2^32) ∧
    (min n (d.size-off)=0 ∨ d.base*sectorSize+off+min n (d.size-off)≤2^32*sectorSize)

variable {d : Bdev} {disk : Bytes} {off n done : ℕ} {src : List Byte}

lemma Bdev.target_eq {k : ℕ} (hk : k<d.nblocks) : d.target k=some (word (k+d.base)) := by
  cases d with
  | disk n driver =>
    refine congrArg some (word_of_lt (hk.trans ?_)).symm
    rw [nblocks]
    split_ifs
    · exact driver.toNat_lt
    · exact n.toNat_lt
  | part start n => exact if_neg (not_le.mpr hk)

lemma Bdev.count_eq (hn : n<2^31) :
    d.count off n=if word d.size<off then none else some (min n (word d.size-off)) := by
  have hlt:=word_lt d.size
  simp only [Bdev.count]
  by_cases h : word d.size<off
  · simp only [h,true_or,if_true]
  · rw [mod_eq_of_lt (by omega),if_neg (by omega),if_neg h]
    congr 1
    split_ifs <;> omega

lemma Bdev.target_sector (hend : off+n≤word d.size) {i : ℕ} (hi : i<n) :
    d.target (word (off+i)/sectorSize)=some (word ((off+i)/sectorSize+d.base)) := by
  have hlt:=word_lt d.size
  have hle : word d.size≤d.size := mod_le _ _
  rw [word_of_lt (by omega),Bdev.target_eq]
  exact (div_lt_iff_lt_mul (by decide)).mpr (lt_of_lt_of_le (by omega) hle)

def Bdev.pos (d : Bdev) (x : ℕ) : ℕ := word (x/sectorSize+d.base)*sectorSize+x%sectorSize

lemma readSpans_eq (hend : off+n≤word d.size) (fuel : ℕ) (hfuel : n-done≤fuel) :
    readSpans d disk (devSpans off n fuel done) =
      some ((range' done (n-done)).map fun i => disk (d.pos (off+i))) := by
  have hlt:=word_lt d.size
  induction fuel generalizing done with
  | zero =>
    rw [show n-done=0 by omega]
    rfl
  | succ fuel ih =>
    rw [devSpans]
    by_cases h : done<n
    · have hpos:=span_take_pos off h
      have hcur : word (off+done)=off+done := word_of_lt (by omega)
      rw [if_pos h]
      dsimp only
      generalize htake : min (sectorSize-word (off+done)%sectorSize) (n-done)=take at *
      rw [readSpans,Bdev.target_sector hend h,ih (by omega),show n-done=take+(n-(done+take)) by omega,
        ← range'_append_1,map_append,range'_eq_map_range (s := done),map_map]
      refine congrArg some (congrArg (· ++ _) (map_congr_left fun j hj => congrArg disk ?_))
      have hj : j<take := mem_range.mp hj
      rw [hcur] at htake ⊢
      have hdiv : (off+(done+j))/sectorSize=(off+done)/sectorSize ∧
          (off+(done+j))%sectorSize=(off+done)%sectorSize+j := by
        simp only [sectorSize] at htake ⊢
        omega
      rw [Bdev.pos,hdiv.1,hdiv.2]
    · rw [if_neg h,show n-done=0 by omega]
      rfl

lemma Bdev.pos_eq {x : ℕ} (h : d.base*sectorSize+x<2^32*sectorSize) : d.pos x=d.base*sectorSize+x := by
  simp only [sectorSize] at h
  rw [Bdev.pos,word_of_lt (by simp only [sectorSize]; omega)]
  simp only [sectorSize]
  omega

lemma blit_nil (m : Bytes) (p : ℕ) : blit m p []=m := by
  funext x
  exact if_neg (by simp)

lemma blit_append (m : Bytes) (p : ℕ) (a b : List Byte) : blit (blit m p a) (p+a.length) b=blit m p (a++b) := by
  funext x
  simp only [blit,length_append]
  by_cases hb : p+a.length≤x ∧ x<p+a.length+b.length
  · rw [if_pos hb,if_pos (by omega),getD_append_right _ _ _ _ (by omega),Nat.sub_sub]
  rw [if_neg hb]
  by_cases ha : p≤x ∧ x<p+a.length
  · rw [if_pos ha,if_pos (by omega),getD_append _ _ _ _ (by omega)]
  · rw [if_neg ha,if_neg (by omega)]

lemma writeSpans_eq (hend : off+n≤word d.size) (hn : n ≤ src.length)
    (hfit : n=0 ∨ d.base*sectorSize+off+n≤2^32*sectorSize) (fuel : ℕ) (hfuel : n-done≤fuel) (hdone : done≤n) :
    writeSpans d src (blit disk (d.base*sectorSize+off) (src.take done)) (devSpans off n fuel done) =
      some (blit disk (d.base*sectorSize+off) (src.take n)) := by
  have hlt:=word_lt d.size
  induction fuel generalizing done with
  | zero =>
    rw [show done=n by omega]
    rfl
  | succ fuel ih =>
    rw [devSpans]
    by_cases h : done<n
    · have hpos:=span_take_pos off h
      have hcur : word (off+done)=off+done := word_of_lt (by omega)
      rw [if_pos h]
      have hplace : word ((off+done)/sectorSize+d.base)*sectorSize+word (off+done)%sectorSize =
          d.base*sectorSize+off+(src.take done).length := by
        rw [hcur,← Bdev.pos,Bdev.pos_eq (by omega),length_take]
        omega
      rw [writeSpans,Bdev.target_sector hend h]
      dsimp only [bind,Option.bind]
      rw [hplace,blit_append,← take_add]
      exact ih (by omega) (by omega)
    · rw [if_neg h,show done=n by omega]
      rfl

end Auxv6.Fs.Blockdev

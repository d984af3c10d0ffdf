import Auxv6.Machine

/-!
# The VMA list of an address space (vm/vma.c, core/exec.c)

The array `vmas[0 .. vma_count)` is a list here. What `kmalloc` answers is an argument of every function
that may allocate.
-/

namespace Auxv6.Vm
open Machine

/-- `struct vaddr_range` (include/vma.h); `inode = 0` is the null pointer. -/
structure VaddrRange where
  vaStart : ℕ
  vaEnd : ℕ
  flags : ℕ
  inode : ℕ
  fileOffset : ℕ
  deriving DecidableEq, Repr

structure AddressSpace where
  transitional : Bool
  vmas : List VaddrRange
  vmaCap : ℕ
  vmSize : ℕ
  deriving DecidableEq, Repr

def AddressSpace.vmaCount (as : AddressSpace) : ℕ := as.vmas.length
def vmaRead : ℕ := 0x0001
def vmaWrite : ℕ := 0x0002
def vmaExec : ℕ := 0x0004
def vmaZerofill : ℕ := 0x0020

/-- `vma.c:46-62`: a zeroed structure. -/
def addressSpaceCreate : AddressSpace := ⟨false,[],0,0⟩

/-- The doubling loop of `vma_ensure_capacity` (`vma.c:17-18`); `fuel` bounds it. -/
def vmaNewcap (need : ℕ) : ℕ → ℕ → ℕ
  | 0, cap => cap
  | fuel+1, cap => if cap<need then vmaNewcap need fuel (2*cap) else cap

/-- `vma.c:5-32`. -/
def vmaEnsureCapacity (memOk : Bool) (as : AddressSpace) (need : ℕ) : Int × AddressSpace :=
  if need≤as.vmaCap then (0,as)
  else if memOk then
    (0,{as with vmaCap := vmaNewcap need need (if as.vmaCap=0 then 4 else as.vmaCap)})
  else (-1,as)

lemma vmaNewcap_ge (need fuel cap : ℕ) (hcap : 0<cap) (hfuel : need≤cap*2^fuel) : need≤vmaNewcap need fuel cap := by
  induction fuel generalizing cap with
  | zero => simpa [vmaNewcap] using hfuel
  | succ fuel ih =>
    simp only [vmaNewcap]
    split
    · refine ih (2*cap) (by omega) ?_
      calc need ≤ cap * 2 ^ (fuel + 1) := hfuel
        _ = 2 * cap * 2 ^ fuel := by rw [pow_succ]; ring
    · omega

lemma vmaNewcap_enough (need cap : ℕ) (hcap : 0<cap) : need≤vmaNewcap need need cap := by
  refine vmaNewcap_ge need need cap hcap ?_
  calc need ≤ 2 ^ need := Nat.lt_two_pow_self.le
    _ ≤ cap * 2 ^ need := Nat.le_mul_of_pos_left _ hcap

/-- The scan of `vma_insert` (`vma.c:254-262`): the index at which the new range
goes, `none` where the source returns -1. -/
def vmaScan (vma : VaddrRange) : List VaddrRange → Option ℕ
  | [] => some 0
  | r::rest =>
    if vma.vaEnd≤r.vaStart then some 0
    else if ¬ r.vaEnd≤vma.vaStart then none
    else (vmaScan vma rest).map (· + 1)

/-- `vma.c:245-273`. -/
def vmaInsert (memOk : Bool) (as : AddressSpace) (vma : VaddrRange) : Int × AddressSpace :=
  if vma.vaEnd≤vma.vaStart then (-1,as)
  else match vmaScan vma as.vmas with
    | none => (-1,as)
    | some pos =>
      let r:=vmaEnsureCapacity memOk as (as.vmaCount+1)
      if r.1<0 then (-1,as)
      else (0,{r.2 with vmas := as.vmas.insertIdx pos vma,transitional := false})

/-- `vma.c:275-293`; the pointer argument is an index of the array. -/
def vmaRemove (as : AddressSpace) (i : ℕ) : AddressSpace := {as with vmas := as.vmas.eraseIdx i}

/-- `vma.c:129-167`. -/
def vmaExpand (memOk : Bool) (as : AddressSpace) (newSize : ℕ) : Int × AddressSpace :=
  if newSize<as.vmSize then (-1,as)
  else if newSize=as.vmSize then (0,as)
  else
    let fresh : VaddrRange:=⟨as.vmSize,newSize,vmaRead+vmaWrite,0,0⟩
    let appendFresh : Int × AddressSpace :=
      let r:=vmaInsert memOk as fresh
      if r.1<0 then (-1,as) else (0,{r.2 with vmSize := newSize,transitional := false})
    match as.vmas.getLast? with
    | none => appendFresh
    | some last =>
      if last.vaEnd=as.vmSize ∧ last.flags=vmaRead+vmaWrite ∧ last.inode=0 ∧ last.fileOffset=0 then
        (0,{ as with
          vmas := as.vmas.dropLast++[{last with vaEnd := newSize}]
          vmSize := newSize,transitional := false })
      else appendFresh

/-- `vma.c:169-201`. -/
def vmaReserveZerofill (memOk : Bool) (as : AddressSpace) (start end_ : ℕ) : Int × AddressSpace :=
  if end_ ≤ start then (-1,as)
  else if start≠as.vmSize then (-1,as)
  else
    let fresh : VaddrRange:=⟨start,end_,vmaRead+vmaWrite+vmaZerofill,0,0⟩
    let appendFresh : Int × AddressSpace :=
      let r:=vmaInsert memOk as fresh
      if r.1<0 then (-1,as) else (0,{r.2 with vmSize := end_})
    match as.vmas.getLast? with
    | none => appendFresh
    | some last =>
      if last.vaEnd=start ∧ last.flags=vmaRead+vmaWrite+vmaZerofill ∧ last.inode=0 ∧ last.fileOffset=0 then
        (0,{ as with
          vmas := as.vmas.dropLast++[{last with vaEnd := end_}]
          vmSize := end_,transitional := false })
      else appendFresh

def vmaShrinkRev (newSize : ℕ) : List VaddrRange → List VaddrRange
  | [] => []
  | r::rest =>
    if newSize≤r.vaStart then vmaShrinkRev newSize rest
    else if newSize<r.vaEnd then {r with vaEnd := newSize} :: rest
    else r::rest

/-- `vma.c:203-227`. -/
def vmaShrink (as : AddressSpace) (newSize : ℕ) : Int × AddressSpace :=
  if as.vmSize<newSize then (-1,as)
  else if newSize=as.vmSize then (0,as)
  else (0,{as with vmas := (vmaShrinkRev newSize as.vmas.reverse).reverse,vmSize := newSize})

/-- `vma.c:229-243`. -/
def vmaFind (as : AddressSpace) (va : ℕ) : Option VaddrRange :=
  as.vmas.find? fun r => decide (r.vaStart≤va ∧ va<r.vaEnd)

/-- The VMA part of `address_space_dup_cow` (`vma.c:64-101`): `allocOk` is the
allocation of the structure and of the page tables, `memOk` that of the array.
`none` is the null pointer. -/
def addressSpaceDupVmas (allocOk memOk : Bool) (src : AddressSpace) : Option AddressSpace :=
  if ¬ allocOk then none
  else
    let dst : AddressSpace:=⟨src.transitional,[],0,0⟩
    if 0<src.vmaCount then
      let r:=vmaEnsureCapacity memOk dst src.vmaCount
      if r.1<0 then none
      else some {r.2 with vmas := src.vmas,vmSize := src.vmSize,transitional := false}
    else some {dst with vmSize := src.vmSize}

structure Proghdr where
  off : ℕ
  vaddr : ℕ
  memsz : ℕ
  flags : ℕ

def elfProgFlagExec : ℕ := 1
def elfProgFlagWrite : ℕ := 2
def elfProgFlagRead : ℕ := 4

/-- The range `exec_map_load_segment` enters for a program header (`exec.c:96-105`). -/
def Proghdr.vma (ph : Proghdr) : VaddrRange :=
  ⟨ph.vaddr,(ph.vaddr+ph.memsz)%wordMod,(if ph.flags &&& elfProgFlagRead≠0 then vmaRead else 0) |||
    (if ph.flags &&& elfProgFlagWrite≠0 then vmaWrite else 0) |||
    (if ph.flags &&& elfProgFlagExec≠0 then vmaExec else 0),0,ph.off⟩

def segmentPages (mapStart mapEnd : ℕ) : List ℕ :=
  (List.range ((mapEnd-mapStart)/pgsize)).map fun k => mapStart+k*pgsize

/-- `exec.c:77-118`. `mapPage` is the answer of
`vm_map_zerofill_page` at each page; its first refusal ends the call. -/
def execMapLoadSegment (memOk : Bool) (mapPage : ℕ → Bool) (as : AddressSpace)
    (ph : Proghdr) : Int × AddressSpace :=
  if ph.memsz=0 then (0,as)
  else
    let mapStart:=pgrounddown ph.vaddr
    let mapEnd:=pgroundup ((ph.vaddr+ph.memsz)%wordMod)
    if mapEnd < mapStart ∨ kernbase ≤ mapEnd then (-1,as)
    else
      let r:=vmaInsert memOk as ph.vma
      if r.1<0 then (-1,as)
      else if ¬ (segmentPages mapStart mapEnd).all mapPage then (-1,r.2)
      else if r.2.vmSize<ph.vma.vaEnd then (0,{r.2 with vmSize := ph.vma.vaEnd})
      else (0,r.2)

end Auxv6.Vm

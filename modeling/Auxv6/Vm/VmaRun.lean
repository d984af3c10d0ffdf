import Auxv6.Lib.Transition
import Auxv6.Vm.VmaInvariant

/-!
# Sequences of VMA calls over any number of address spaces

The world is the list of live address spaces. A step creates one, duplicates one
as `fork` does, or makes one of the calls of `vma.c` and `exec.c` on one.
-/

namespace Auxv6.Vm
open Lib.Transition List Option

inductive VmaCall where
  | insert (memOk : Bool) (vma : VaddrRange)
  | expand (memOk : Bool) (newSize : ℕ)
  | reserveZerofill (memOk : Bool) (start end_ : ℕ)
  | shrink (newSize : ℕ)
  | remove (i : ℕ)
  | loadSegment (memOk : Bool) (mapPage : ℕ → Bool) (ph : Proghdr)

def VmaCall.exec (as : AddressSpace) : VmaCall → Int × AddressSpace
  | .insert ok vma => vmaInsert ok as vma
  | .expand ok newSize => vmaExpand ok as newSize
  | .reserveZerofill ok start end_ => vmaReserveZerofill ok as start end_
  | .shrink newSize => vmaShrink as newSize
  | .remove i => (0,vmaRemove as i)
  | .loadSegment ok mapPage ph => execMapLoadSegment ok mapPage as ph

inductive VmaOp where
  | create
  | call (i : ℕ) (c : VmaCall)
  | dup (i : ℕ) (allocOk memOk : Bool)

def vmaStep (w : List AddressSpace) : VmaOp → Option (List AddressSpace)
  | .create => some (w++[addressSpaceCreate])
  | .call i c => w[i]?.map fun as => w.set i (c.exec as).2
  | .dup i allocOk memOk =>
    w[i]?.map fun src => w++(addressSpaceDupVmas allocOk memOk src).toList

/-- The two calls that do not bring `vm_size` up to the range they enter: a bare
`vma_insert` beyond it, and a segment refused one of its pages. -/
def VmaCall.KeepsVmSize (as : AddressSpace) : VmaCall → Prop
  | .insert _ vma => vma.vaEnd≤as.vmSize
  | .loadSegment _ mapPage ph => ph.pages.all mapPage=true ∨ ph.vma.vaEnd≤as.vmSize
  | _ => True

def VmaOp.KeepsVmSize (w : List AddressSpace) : VmaOp → Prop
  | .call i c => ∀ as,w[i]? = some as → c.KeepsVmSize as
  | _ => True
def VmaCall.PageRefused : VmaCall → Prop
  | .loadSegment _ mapPage ph => ¬ ph.pages.all mapPage=true
  | _ => False

lemma VmaCall.exec_rep (as : AddressSpace) (c : VmaCall) (h : as.Rep) : (c.exec as).2.Rep := by
  cases c with
  | insert ok vma => exact vmaInsert_rep ok as vma h
  | expand ok newSize => exact (vmaExpand_grows ok as newSize).rep h
  | reserveZerofill ok start end_ => exact (vmaReserveZerofill_grows ok as start end_).rep h
  | shrink newSize => exact vmaShrink_rep as newSize h
  | remove i => have hs:=List.eraseIdx_sublist as.vmas i
                exact ⟨h.tiled.sublist hs,hs.length_le.trans h.cap⟩
  | loadSegment ok mapPage ph => exact execMapLoadSegment_rep ok mapPage as ph h

variable {as : AddressSpace}

lemma vmaInsert_insideVmSize {ok : Bool} {v : VaddrRange}
    (hi : as.InsideVmSize) (hv : v.vaEnd≤as.vmSize) : (vmaInsert ok as v).2.InsideVmSize := by
  intro r hr
  rw [vmaInsert_vmSize]
  rcases mem_vmaInsert hr with rfl | hr
  · exact hv
  · exact hi r hr

lemma execMapLoadSegment_insideVmSize {ok : Bool} {mapPage : ℕ → Bool} {ph : Proghdr} (hi : as.InsideVmSize)
    (hk : ph.pages.all mapPage=true ∨ ph.vma.vaEnd≤as.vmSize) :
    (execMapLoadSegment ok mapPage as ph).2.InsideVmSize := by
  rcases execMapLoadSegment_cases ok mapPage as ph with he | he | ⟨he,hpages⟩
  · rw [he]
    exact hi
  · rw [he]
    intro r hr
    rcases mem_vmaInsert hr with rfl | hr
    · exact le_max_right _ _
    · exact (hi r hr).trans (le_max_left _ _)
  · rw [he]
    exact vmaInsert_insideVmSize hi (hk.resolve_left hpages)

lemma VmaCall.exec_insideVmSize (as : AddressSpace) (c : VmaCall) (h : as.Rep)
    (hi : as.InsideVmSize) (hk : c.KeepsVmSize as) : (c.exec as).2.InsideVmSize := by
  cases c with
  | insert ok vma => exact vmaInsert_insideVmSize hi hk
  | expand ok newSize => exact (vmaExpand_grows ok as newSize).insideVmSize hi
  | reserveZerofill ok start end_ =>
    exact (vmaReserveZerofill_grows ok as start end_).insideVmSize hi
  | shrink newSize => exact vmaShrink_insideVmSize as newSize h hi
  | remove i => exact fun r hr => hi r (mem_of_mem_eraseIdx hr)
  | loadSegment ok mapPage ph => exact execMapLoadSegment_insideVmSize hi hk

lemma VmaCall.exec_fail (as : AddressSpace) (c : VmaCall) (hf : (c.exec as).1<0) :
    (c.exec as).2=as ∨ c.PageRefused := by
  cases c with
  | insert ok vma =>
    rcases vmaInsert_cases ok as vma with ⟨he,_⟩ | ⟨pos,_,_,hz,_⟩
    · exact .inl (congrArg Prod.snd he)
    · simp [VmaCall.exec,hz] at hf
  | expand ok newSize => exact .inl ((vmaExpand_grows ok as newSize).unchanged_of_fail hf)
  | reserveZerofill ok start end_ =>
    exact .inl ((vmaReserveZerofill_grows ok as start end_).unchanged_of_fail hf)
  | shrink newSize =>
    simp only [VmaCall.exec,vmaShrink] at hf ⊢
    split_ifs at hf ⊢ <;> simp_all
  | remove i => exact absurd hf (by simp [VmaCall.exec])
  | loadSegment ok mapPage ph =>
    rcases execMapLoadSegment_cases ok mapPage as ph with he | he | ⟨_,hpages⟩
    · exact .inl he
    · simp [VmaCall.exec,he] at hf
    · exact .inr hpages

lemma vmaStep_mem {w w' : List AddressSpace} {op : VmaOp} {as' : AddressSpace}
    (h : vmaStep w op=some w') (hmem : as'∈w') : as'∈w ∨ as'=addressSpaceCreate ∨
    (∃ i c as,op=.call i c ∧ w[i]? = some as ∧ as'=(c.exec as).2) ∨
    ∃ src∈w,∃ allocOk ok,addressSpaceDupVmas allocOk ok src=some as' := by
  cases op with
  | create =>
    cases h
    simp only [mem_append,mem_singleton] at hmem
    rcases hmem with hmem | hmem
    · exact .inl hmem
    · exact .inr (.inl hmem)
  | call i c =>
    simp only [vmaStep,map_eq_some_iff] at h
    obtain ⟨as,has,rfl⟩:=h
    rcases mem_or_eq_of_mem_set hmem with hmem | hmem
    · exact .inl hmem
    · exact .inr (.inr (.inl ⟨i,c,as,rfl,has,hmem⟩))
  | dup i allocOk ok =>
    simp only [vmaStep,map_eq_some_iff] at h
    obtain ⟨src,hsrc,rfl⟩:=h
    simp only [mem_append,mem_toList] at hmem
    rcases hmem with hmem | hmem
    · exact .inl hmem
    · exact .inr (.inr (.inr ⟨src,mem_of_getElem? hsrc,allocOk,ok,hmem⟩))

lemma addressSpaceCreate_rep : addressSpaceCreate.Rep := ⟨⟨.nil,by simp [addressSpaceCreate]⟩,le_rfl⟩

lemma vmaStep_rep (w : List AddressSpace) (op : VmaOp) (w' : List AddressSpace)
    (hw : ∀ as∈w,as.Rep) (h : vmaStep w op=some w') : ∀ as∈w',as.Rep := by
  intro as' hmem
  rcases vmaStep_mem h hmem with
    hmem | rfl | ⟨i,c,as,rfl,has,rfl⟩ | ⟨src,hsrc,allocOk,ok,hdup⟩
  · exact hw as' hmem
  · exact addressSpaceCreate_rep
  · exact c.exec_rep as (hw as (mem_of_getElem? has))
  · obtain ⟨hl,_,hcap⟩:=addressSpaceDupVmas_spec hdup
    refine ⟨hl ▸ (hw src hsrc).tiled,?_⟩
    simpa only [AddressSpace.vmaCount,hl] using hcap

lemma vmaStep_insideVmSize (w : List AddressSpace) (op : VmaOp) (w' : List AddressSpace)
    (hw : ∀ as∈w,as.Rep ∧ as.InsideVmSize) (hk : op.KeepsVmSize w)
    (h : vmaStep w op=some w') : ∀ as∈w',as.Rep ∧ as.InsideVmSize := by
  intro as' hmem
  refine ⟨vmaStep_rep w op w' (fun as has => (hw as has).1) h as' hmem,?_⟩
  rcases vmaStep_mem h hmem with
    hmem | rfl | ⟨i,c,as,rfl,has,rfl⟩ | ⟨src,hsrc,allocOk,ok,hdup⟩
  · exact (hw as' hmem).2
  · simp [AddressSpace.InsideVmSize,addressSpaceCreate]
  · obtain ⟨hrep,hin⟩:=hw as (mem_of_getElem? has)
    exact c.exec_insideVmSize as hrep hin (hk as has)
  obtain ⟨hl,hsz,_⟩:=addressSpaceDupVmas_spec hdup
  intro r hr
  rw [hl] at hr
  rw [hsz]
  exact (hw src hsrc).2 r hr

/-- The VMA list of every address space, after any sequence of calls. -/
theorem vma_representation (ops : List VmaOp) (w : List AddressSpace) (h : run vmaStep [] ops=some w) :
    (∀ as∈w,as.StrictlySorted ∧ as.NonEmpty ∧ as.PairwiseDisjoint ∧ as.vmaCount≤as.vmaCap) ∧
    (Guarded vmaStep VmaOp.KeepsVmSize [] ops → ∀ as∈w,as.InsideVmSize) ∧
    (∀ as∈w,∀ v : VaddrRange,(vmaInsert true as v).1=0 ↔ v.vaStart<v.vaEnd ∧ ∀ r∈as.vmas,¬ v.Overlaps r) ∧
    (∀ as∈w,∀ c : VmaCall,(c.exec as).1<0 → (c.exec as).2=as ∨ c.PageRefused) := by
  have hrep : ∀ as∈w,as.Rep := run_invariant vmaStep_rep (by simp) h
  refine ⟨?_,?_,?_,?_⟩
  · intro as has
    have hr:=hrep as has
    exact ⟨hr.tiled.1.imp_of_mem fun ha _ hab => (hr.tiled.2 _ ha).trans_le hab,hr.tiled.2,hr.tiled.disjoint,hr.cap⟩
  · intro hg as has
    exact (run_guarded vmaStep_insideVmSize (by simp) hg h as has).2
  · intro as has v
    by_cases hv : v.vaStart<v.vaEnd
    · simp only [hv,true_and]
      exact vmaInsert_succeeds_iff as v (hrep as has) hv
    · have hle : v.vaEnd≤v.vaStart := by omega
      simp [vmaInsert,hle]
  · intro as _ c
    exact c.exec_fail as

def twoRanges : AddressSpace :=
  ⟨false,[⟨0,4096,vmaRead+vmaWrite,0,0⟩,⟨4096,8192,vmaRead+vmaWrite+vmaZerofill,0,0⟩],4,8192⟩
def reserveAndDup : List VmaOp :=
  [.create,.call 0 (.expand true 4096),.call 0 (.reserveZerofill true 4096 8192),.dup 0 true true]

theorem vma_representation_two_ranges : run vmaStep [] reserveAndDup=some [twoRanges,twoRanges] ∧
    Guarded vmaStep VmaOp.KeepsVmSize [] reserveAndDup ∧
    ∀ as∈[twoRanges,twoRanges],as.StrictlySorted ∧ as.InsideVmSize := by
  have hrun : run vmaStep [] reserveAndDup=some [twoRanges,twoRanges] := by
    decide
  have hguard : Guarded vmaStep VmaOp.KeepsVmSize [] reserveAndDup := by
    refine guarded_of_forall fun op hop w => ?_
    fin_cases hop <;> first | trivial | exact fun _ _ => trivial
  obtain ⟨hrep,hin,_⟩:=vma_representation _ _ hrun
  exact ⟨hrun,hguard,fun as has => ⟨(hrep as has).1,hin hguard as has⟩⟩

theorem vma_insert_above_vm_size : (∃ w,run vmaStep [] [.create,.call 0 (.insert true ⟨0,4096,3,0,0⟩)]=some w ∧
      ¬ ∀ as∈w,as.InsideVmSize) ∧ (VmaCall.loadSegment true (fun _ => false) ⟨0,0,4096,5⟩).exec addressSpaceCreate =
      (-1,⟨false,[⟨0,4096,5,0,0⟩],4,0⟩) := by
  refine ⟨⟨_,rfl,?_⟩,by decide⟩
  intro hall
  have h:=hall ⟨false,[⟨0,4096,3,0,0⟩],4,0⟩ (by decide) ⟨0,4096,3,0,0⟩ (by decide)
  simp at h

end Auxv6.Vm

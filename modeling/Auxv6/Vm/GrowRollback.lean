import Auxv6.Vm.CowRun
import Auxv6.Vm.UvmBalance

/-! # A growth that fails -/

namespace Auxv6.Vm
open Machine Lib Lib.Transition Option Finset Mem

def mapping (s : Uvm) (d va : ℕ) : Option Pte := if (pteAt s d va).p then some (pteAt s d va) else none
def gainedTables (s s' : Uvm) (d : ℕ) : Finset ℕ :=
  (Finset.range userPdes).filter fun k => s.dir d k=none ∧ s'.dir d k≠none

section

variable {L : Layout} {D : Set ℕ} {s s' : Uvm} {d va : ℕ}

lemma mapping_eq_none : mapping s d va=none ↔ (pteAt s d va).p=false := by
  unfold mapping
  cases (pteAt s d va).p <;> simp
lemma mapping_congr (h : pteAt s' d va=pteAt s d va) : mapping s' d va=mapping s d va := by
  rw [mapping,mapping,h]
lemma frame_eq_mapping : (pteAt s d va).frame=(mapping s d va).map Pte.pa := by
  unfold mapping Pte.frame
  cases (pteAt s d va).p <;> rfl
lemma view_of_mapping_none (h : mapping s d va=none) : view s d va=none := by
  rw [view,frame_eq_mapping,h]
  rfl

lemma card_gainedTables (h' : UvmInv L D [] s') (hd : d∈D) :
    ((gainedTables s s' d).image fun k => (s'.dir d k).getD 0).card=(gainedTables s s' d).card := by
  refine card_image_of_injOn fun k hk k' hk' he => ?_
  obtain ⟨hlt,-,hne⟩:=mem_filter.mp hk
  obtain ⟨hlt',-,hne'⟩:=mem_filter.mp hk'
  obtain ⟨f,hf⟩:=ne_none_iff_exists'.mp hne
  obtain ⟨f',hf'⟩:=ne_none_iff_exists'.mp hne'
  have he' : f=f' := by simpa [hf,hf'] using he
  subst he'
  exact (h'.inj d hd k (mem_range.mp hlt) d hd k' (mem_range.mp hlt') f hf hf').2

lemma mem_gained_iff (hd : d∈D) {f : ℕ} :
    f∈(gainedTables s s' d).image (fun k => (s'.dir d k).getD 0) ↔ IsTable D s' f ∧ ∃ k<userPdes,
      s.dir d k=none ∧ s'.dir d k=some f := by
  constructor
  · intro hf
    obtain ⟨k,hk,rfl⟩:=mem_image.mp hf
    obtain ⟨hlt,hnone,hne⟩:=mem_filter.mp hk
    obtain ⟨f,hf⟩:=ne_none_iff_exists'.mp hne
    rw [hf,getD_some]
    exact ⟨⟨d,hd,k,mem_range.mp hlt,hf⟩,k,mem_range.mp hlt,hnone,hf⟩
  · rintro ⟨-,k,hlt,hnone,hf⟩
    refine mem_image.mpr ⟨k,mem_filter.mpr ⟨mem_range.mpr hlt,hnone,?_⟩,?_⟩
    · rw [hf]
      exact some_ne_none f
    · rw [hf,getD_some]

lemma Gains.isTable (hgain : Gains d s s') {f : ℕ} (hf : IsTable D s' f) (hn : ¬ IsTable D s f) :
    ∃ k<userPdes,s.dir d k=none ∧ s'.dir d k=some f := by
  obtain ⟨d',hd',k,hk,hdir⟩:=hf
  have he : d'=d := by
    by_contra hne
    rw [hgain.other d' hne] at hdir
    exact hn ⟨d',hd',k,hk,hdir⟩
  subst he
  refine ⟨k,hk,?_,hdir⟩
  cases hold : s.dir d' k with
  | none => rfl
  | some g =>
    rw [hgain.old d' k g hold,some.injEq] at hdir
    exact absurd ⟨d',hd',k,hk,hdir ▸ hold⟩ hn

section
variable (h : UvmInv L D [] s) (h' : UvmInv L D [] s') (hd : d∈D) (hbal : Balanced D [] s [] s')
  (hgain : Gains d s s') (hmapped : ∀ f,mapped D s' f=mapped D s f)
include h h' hd hbal hgain hmapped

lemma freeFrames_gained :
    freeFrames s.mem=freeFrames s'.mem ∪ (gainedTables s s' d).image (fun k => (s'.dir d k).getD 0) := by
  have hrc : ∀ f,s'.rc f+tableRef D s f=s.rc f+tableRef D s' f := by
    intro f
    have hb:=hbal.rc f
    have hm:=hmapped f
    unfold refsTo at hb
    omega
  have hone : ∀ f,IsTable D s' f → s'.rc f=1 ∧ s'.managed f := fun f hf =>
    ⟨(h'.table f hf).2.1,(h'.table f hf).1⟩
  ext f
  rw [mem_union,mem_gained_iff hd,freeFrames,freeFrames,mem_filter,mem_filter]
  have hfree : kpageRefcount s.mem f=s.rc f := rfl
  have hfree' : kpageRefcount s'.mem f=s'.rc f := rfl
  have hman : (s'.mem.kmeta f).managed=true ↔ (s.mem.kmeta f).managed=true := hbal.managed f
  rw [hfree,hfree',hman]
  have hf:=hrc f
  unfold tableRef at hf
  constructor
  · rintro ⟨hlt,hm,hz⟩
    have hnt : ¬ IsTable D s f := fun ht => by
      have := (h.table f ht).2.1
      omega
    by_cases ht : IsTable D s' f
    · exact .inr ⟨ht,hgain.isTable ht hnt⟩
    · rw [if_neg ht] at hf
      exact .inl ⟨hlt,hm,by omega⟩
  rintro (⟨hlt,hm,hz⟩ | ⟨ht,k,hk,hnone,hdir⟩)
  · have hnt : ¬ IsTable D s' f := fun ht => by
      have := (hone f ht).1
      omega
    have hnt' : ¬ IsTable D s f := by
      rintro ⟨d',hd',k,hk,hdir⟩
      exact hnt ⟨d',hd',k,hk,hgain.old d' k f hdir⟩
    rw [if_neg hnt,if_neg hnt'] at hf
    exact ⟨hlt,hm,by omega⟩
  obtain ⟨hrc',hm'⟩:=hone f ht
  refine ⟨mem_range.mpr (h'.good.inv.lt_npages hm'),hman.mp hm',?_⟩
  split at hf
  next hold =>
    -- an old table is still in its old place
    obtain ⟨d',hd',k',hk',hdir'⟩:=hold
    obtain ⟨rfl,rfl⟩:=h'.inj d' hd' k' hk' d hd k hk f (hgain.old d' k' f hdir') hdir
    rw [hnone] at hdir'
    cases hdir'
  · omega

lemma freePages_gained : s'.mem.freePages+(gainedTables s s' d).card=s.mem.freePages := by
  have hdisj : Disjoint (freeFrames s'.mem) ((gainedTables s s' d).image fun k => (s'.dir d k).getD 0) := by
    refine disjoint_left.mpr fun f hf hg => ?_
    obtain ⟨-,-,hz⟩:=mem_filter.mp hf
    have hrc:=(h'.table f ((mem_gained_iff hd).mp hg).1).2.1
    have hz' : s'.rc f=0 := hz
    omega
  rw [h.good.freePages_eq,h'.good.freePages_eq,freeFrames_gained h h' hd hbal hgain hmapped,
    card_union_of_disjoint hdisj,card_gainedTables h' hd]

end

end

section

variable {L : Layout} {p : Paired} {a : ℕ} {sp : Space} {oldsz newsz n : ℕ} {s : Uvm} {c : Fin ncpu}

lemma vmaShrink_of_le {vma : AddressSpace} (h : vma.vmSize≤oldsz) : (vmaShrink vma oldsz).2=vma := by
  unfold vmaShrink
  split_ifs
  · rfl
  · rfl
  · omega

lemma mappings_set_same (hsp : p.sys.space a=some sp) (vma : AddressSpace)
    (hmap : ∀ d∈p.sys.dirs,∀ va<kernbase,mapping s d va=mapping p.sys.uvm d va) (g : ℕ) :
    (p.sys.set a s (some {sp with vma := vma})).mappings g=p.sys.mappings g := by
  have hframe : ∀ sp' : Space,sp'.pgdir∈p.sys.dirs → ∀ k<kernbase/pgsize,
      (pteAt s sp'.pgdir (k*pgsize)).frame=(pteAt p.sys.uvm sp'.pgdir (k*pgsize)).frame := by
    intro sp' hd k hk
    rw [frame_eq_mapping,frame_eq_mapping,hmap _ hd _ (page_lt hk)]
  ext x
  constructor
  · rintro ⟨sp',hx,hk,hf⟩
    rw [set_space] at hx
    split at hx
    next he =>
      cases hx
      exact ⟨sp,he ▸ hsp,hk,(hframe sp (mem_dirs hsp) _ hk).symm.trans hf⟩
    · exact ⟨sp',hx,hk,(hframe sp' (mem_dirs hx) _ hk).symm.trans hf⟩
  rintro ⟨sp',hx,hk,hf⟩
  have hf':=(hframe sp' (mem_dirs hx) _ hk).trans hf
  by_cases he : x.1=a
  · rw [he,hsp] at hx
    cases hx
    exact ⟨{sp with vma := vma},by rw [set_space,if_pos he],hk,hf'⟩
  · exact ⟨sp',by rw [set_space,if_neg he]; exact hx,hk,hf'⟩

lemma rollback_mapping (h : PairedInv L p) (hsp : p.sys.space a=some sp)
    (hfree : ∀ va<kernbase,grown oldsz newsz va → mapping p.sys.uvm sp.pgdir va=none)
    (hr : allocuvm L c p.sys.uvm sp.pgdir oldsz newsz=some (n,s)) (hn : n≠newsz)
    {d va : ℕ} (hd : d∈p.sys.dirs) (hva : va<kernbase) :
    mapping s d va=mapping p.sys.uvm d va ∧ view s d va=view p.sys.uvm d va := by
  obtain ⟨-,hcase⟩:=h.inv.allocuvm h.excl (mem_dirs hsp) hr
  rcases hcase with ⟨rfl,-⟩ | ⟨-,-,hg⟩
  · exact ⟨rfl,rfl⟩
  by_cases hin : d=sp.pgdir ∧ grown oldsz newsz va
  · obtain ⟨rfl,hin⟩:=hin
    have hold:=hfree va hva hin
    rcases hg.range with ⟨rfl,-⟩ | ⟨-,hgone⟩
    · exact absurd rfl hn
    have hnone:=hgone va hva hin
    rw [view,frame_eq_mapping,Option.map_map,Option.map_eq_none_iff] at hnone
    rw [hnone,hold,view_of_mapping_none hnone,view_of_mapping_none hold]
    exact ⟨rfl,rfl⟩
  · exact ⟨mapping_congr ((allocuvm_balances h.inv (mem_dirs hsp) hr).other d hd va hva hin),hg.other d hd va hva hin⟩

end

/-- In every run a failed growth over unmapped pages leaves every mapping as it was, and the free pages but for
the page tables gained. Where the address space does not extend beyond `oldsz`, its VMA list and size stay
too. -/
theorem failed_growth (L : Layout) (m : State) (hm : Good L m) (acts : List CowAction)
    (p : Paired) (hrun : run (pairedStep L) (Paired.start m) acts=some p) (a oldsz newsz : ℕ)
    (sp : Space) (hsp : p.sys.space a=some sp) (memOk : Bool) (c : Fin ncpu)
    (hfree : ∀ va<kernbase,grown oldsz newsz va → mapping p.sys.uvm sp.pgdir va=none)
    (σ : Sys) (hfail : exec L p.sys (.allocuvm a oldsz newsz memOk c)=some (.fail,σ)) :
    (∀ b sp',p.sys.space b=some sp' → ∀ va<kernbase, mapping σ.uvm sp'.pgdir va=mapping p.sys.uvm sp'.pgdir va ∧
        view σ.uvm sp'.pgdir va=view p.sys.uvm sp'.pgdir va) ∧
    σ.uvm.mem.freePages+(gainedTables p.sys.uvm σ.uvm sp.pgdir).card=p.sys.uvm.mem.freePages ∧
    (sp.vma.vmSize≤oldsz → σ.space=p.sys.space) := by
  have h : PairedInv L p := run_invariant pairedStep_inv (start_inv hm) hrun
  have hpair : pairedStep L p (.allocuvm a oldsz newsz memOk c) =
      some ⟨σ,refStep p.memory (.allocuvm a oldsz newsz memOk c) .fail⟩ := by
    rw [pairedStep,hfail]
    rfl
  have h':=pairedStep_inv p _ _ h hpair
  simp only [exec,hsp,some_bind] at hfail
  obtain ⟨⟨n,s⟩,hr,hout⟩:=bind_eq_some_iff.mp hfail
  simp only [some.injEq,Prod.mk.injEq,ite_eq_right_iff,reduceCtorEq,imp_false] at hout
  obtain ⟨hn,rfl⟩:=hout
  have hdirs : (p.sys.set a s (some {sp with vma := allocVmas sp.vma oldsz newsz n memOk})).dirs =
      p.sys.dirs := dirs_set_same hsp s _
  have hi : UvmInv L p.sys.dirs [] s := hdirs ▸ h'.inv
  have hbal:=allocuvm_balances h.inv (mem_dirs hsp) hr
  have hmap : ∀ d∈p.sys.dirs,∀ va<kernbase,mapping s d va=mapping p.sys.uvm d va ∧ view s d va=view p.sys.uvm d va :=
    fun d hd va hva => rollback_mapping h hsp hfree hr hn hd hva
  refine ⟨fun b sp' hb va hva => hmap _ (mem_dirs hb) va hva,
    freePages_gained h.inv hi (mem_dirs hsp) hbal.balanced hbal.gains fun f => ?_,fun hsize => ?_⟩
  · have hsame:=mappings_set_same hsp (allocVmas sp.vma oldsz newsz n memOk)
      (fun d hd va hva => (hmap d hd va hva).1) f
    rw [← h.ncard_mappings,← hsame,h'.ncard_mappings]
    exact congrArg (fun D => mapped D s f) hdirs.symm
  have hvma : allocVmas sp.vma oldsz newsz n memOk=sp.vma := by
    rw [allocVmas,if_neg hn,vmaShrink_of_le hsize,ite_self]
  show Function.update p.sys.space a _ = p.sys.space
  rw [hvma,← hsp,Function.update_eq_self]

def growthFails (acts : List CowAction) (a oldsz newsz : ℕ) : Option (Paired × Space × Sys) := do
  let p ← run (pairedStep layout) (Paired.start smallMem) acts
  let sp ← p.sys.space a
  match exec layout p.sys (.allocuvm a oldsz newsz true bootCpu) with
  | some (.fail,σ) => some (p,sp,σ)
  | _ => none

theorem failed_growth_fresh :
    ∃ p sp σ,run (pairedStep layout) (Paired.start smallMem) [.create 0 true bootCpu]=some p ∧
      p.sys.space 0=some sp ∧ exec layout p.sys (.allocuvm 0 0 0x14000 true bootCpu)=some (.fail,σ) ∧
      σ.uvm.mem.freePages+(gainedTables p.sys.uvm σ.uvm sp.pgdir).card=p.sys.uvm.mem.freePages ∧
      σ.space=p.sys.space := by
  have hcheck : ((growthFails [.create 0 true bootCpu] 0 0 0x14000).map fun r =>
      decide (∀ k<userPdes,r.1.sys.uvm.dir r.2.1.pgdir k=none) && decide (r.2.1.vma.vmSize=0)) = some true := by
    decide +kernel
  obtain ⟨⟨p,sp,σ⟩,heq,hok⟩:=map_eq_some_iff.mp hcheck
  unfold growthFails at heq
  obtain ⟨p',hrun,heq⟩:=bind_eq_some_iff.mp heq
  obtain ⟨sp',hsp,heq⟩:=bind_eq_some_iff.mp heq
  split at heq
  swap
  · cases heq
  rename_i hexec
  cases heq
  simp only [Bool.and_eq_true,decide_eq_true_eq] at hok
  have hfree : ∀ va<kernbase,grown 0 0x14000 va → mapping p.sys.uvm sp.pgdir va=none := by
    intro va hva _
    rw [mapping_eq_none,pteAt_of_dir_none (hok.1 _ (pdx_lt hva))]
    rfl
  have h:=failed_growth layout smallMem smallMem_good _ p hrun 0 0 0x14000 sp hsp true bootCpu
    hfree σ hexec
  exact ⟨p,sp,σ,hrun,hsp,hexec,h.2.1,h.2.2 (by rw [hok.2])⟩

/-- Two address spaces that use up the memory. The first has its last pages reserved as
`sys_vmreserve` does, so that a stack page may be missing below its size. -/
def reservedTrace : List CowAction :=
  [.create 0 true bootCpu,.allocuvm 0 0 0x2000 true bootCpu,
    .setVmas 0 (vmaReserveZerofill true ⟨false,[⟨0,0x2000,3,0,0⟩],4,0x2000⟩ 0x2000 0x8000).2,
    .create 1 true bootCpu,.allocuvm 1 0 0xA000 true bootCpu]

def strayTrace : List CowAction :=
  [.create 0 true bootCpu,.allocuvm 0 0 0x1000 true bootCpu,.allocuvm 0 0x2000 0x3000 true bootCpu,
    .create 1 true bootCpu,.allocuvm 1 0 0xA000 true bootCpu]

/-- The page table of a failed growth is not given back; a stack page that cannot be
allocated takes the VMAs above it along; and a page mapped above the old size is unmapped. -/
theorem failed_growth_leaves_traces : (∃ p sp σ,growthFails [.create 0 true bootCpu] 0 0 0x14000=some (p,sp,σ) ∧
      p.sys.uvm.mem.freePages=15 ∧ σ.uvm.mem.freePages=14) ∧
    (∃ p sp σ,growthFails reservedTrace 0 0x4000 0x5000=some (p,sp,σ) ∧ sp.vma.vmSize=0x8000 ∧
      (σ.space 0).map (fun sp' => (sp'.vma.vmSize,sp'.vma.vmas)) =
        some (0x4000,[⟨0,0x2000,3,0,0⟩,⟨0x2000,0x4000,35,0,0⟩])) ∧
    ∃ p sp σ,growthFails strayTrace 0 0x1000 0x3000=some (p,sp,σ) ∧
      mapping p.sys.uvm sp.pgdir 0x2000≠none ∧ mapping σ.uvm sp.pgdir 0x2000=none := by
  obtain ⟨⟨r1,h1⟩,⟨r2,h2⟩,r3,h3⟩ : (∃ r,growthFails [.create 0 true bootCpu] 0 0 0x14000=some r ∧
        r.1.sys.uvm.mem.freePages=15 ∧ r.2.2.uvm.mem.freePages=14) ∧
      (∃ r,growthFails reservedTrace 0 0x4000 0x5000=some r ∧ r.2.1.vma.vmSize=0x8000 ∧
        (r.2.2.space 0).map (fun sp' => (sp'.vma.vmSize,sp'.vma.vmas)) =
          some (0x4000,[⟨0,0x2000,3,0,0⟩,⟨0x2000,0x4000,35,0,0⟩])) ∧
      ∃ r,growthFails strayTrace 0 0x1000 0x3000=some r ∧
        mapping r.1.sys.uvm r.2.1.pgdir 0x2000≠none ∧ mapping r.2.2.uvm r.2.1.pgdir 0x2000=none := by
    decide +kernel
  exact ⟨⟨_,_,_,h1⟩,⟨_,_,_,h2⟩,_,_,_,h3⟩

end Auxv6.Vm

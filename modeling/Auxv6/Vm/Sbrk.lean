import Auxv6.Vm.GrowRollback
import Auxv6.Vm.ImageExec

/-! # sbrk -/

namespace Auxv6.Vm
open Machine Lib Lib.Transition Option Nat Mem

def Resized (s s' : Uvm) (d oldsz newsz : ℕ) : Prop :=
  ∀ va<kernbase,(pgroundup newsz≤va → mapping s' d va=none) ∧ (va<pgroundup newsz → va<pgroundup oldsz →
      mapping s' d va=mapping s d va ∧ view s' d va=view s d va) ∧
    (va<pgroundup newsz → pgroundup oldsz≤va → view s' d va=some 0)

def SbrkLaw (σ σ' : Images) (q : ℕ) (n r : ℤ) : Prop :=
  ∃ pr sp pr' sp',σ.proc q=some pr ∧ σ.sys.space pr.addrsp=some sp ∧ σ'.proc q=some pr' ∧
    σ'.sys.space pr'.addrsp=some sp' ∧ sp'.pgdir=sp.pgdir ∧ ((r=pr.sz ∧ (pr'.sz : ℤ)=pr.sz+n ∧ pr'.sz<kernbase ∧
        Resized σ.sys.uvm σ'.sys.uvm sp.pgdir pr.sz pr'.sz) ∨ (r = -1 ∧ pr'=pr ∧ sp'=sp ∧ ∀ va<kernbase,
        mapping σ'.sys.uvm sp.pgdir va=mapping σ.sys.uvm sp.pgdir va ∧
          view σ'.sys.uvm sp.pgdir va=view σ.sys.uvm sp.pgdir va))

section

variable {L : Layout} {σ σ' : Images} {q d sz va : ℕ} {pr : ProcImage} {sp : Space} {c : Fin ncpu} {n : ℤ}

lemma imageStep_inv (σ : Images) (act : ImageAction) (σ' : Images) (h : ImagesInv L σ)
    (hsane : act.Sane σ) (hr : imageStep L σ act=some σ') : ImagesInv L σ' := by
  cases act with
  | userinit q a k k' c => exact userinit_inv h hr
  | fork q child a allocOk k c => exact fork_inv h hr
  | exit q c => exact exit_images h hr
  | execCreate e k c => exact execCreate_images h hr
  | execSegment e ph filesz file k c => exact segment_inv h hsane hr
  | execStack e k c => exact stack_inv h hr
  | execCopyout e va buf c => exact copyArg_inv h hr
  | execBad e c =>
    obtain ⟨ld,he,hr⟩:=bind_eq_some_iff.mp hr
    obtain ⟨⟨sp,hsp,-⟩,-⟩:=h.loading e ld he
    exact dropImage_inv h he h.sys ((Touches.refl h.sys hsp fun _ => False).keepsOthers h.sys) hr
  | execCommit q e c => exact commit_inv h hr
  | sbrk q n k c =>
    obtain ⟨r,hs,rfl⟩:=map_eq_some_iff.mp hr
    obtain ⟨pr,_,hs⟩:=bind_eq_some_iff.mp hs
    obtain ⟨g,hg,hs⟩:=bind_eq_some_iff.mp hs
    cases hs
    exact growproc_inv h hsane hg
  | vmreserve q n k k' =>
    obtain ⟨r,hs,rfl⟩:=map_eq_some_iff.mp hr
    exact sysVmreserve_inv h hsane hs
  | fault q va p w k c =>
    obtain ⟨r,hs,rfl⟩:=map_eq_some_iff.mp hr
    exact vmHandleFault_inv h hsane hs
  | store q va b c => exact store_images h hr
  | copyout q va buf c => exact copyout_images h hr

variable {s : Uvm} {k : Bool}

lemma allocLoop_total {D : Set ℕ} {oldsz newsz : ℕ} (hd : d∈D) (hlt : newsz<kernbase) (fuel a : ℕ)
    (h : UvmInv L D [] s) (hx : Excl D D s) (ha : a%pgsize=0)
    (hfree : ∀ va<kernbase,a≤va → pgrounddown va<newsz → view s d va=none) :
    ∃ r,allocLoop L c d oldsz newsz fuel a s=some r := by
  induction fuel generalizing a s with
  | zero => exact ⟨_,rfl⟩
  | succ fuel ih =>
    rw [allocLoop]
    by_cases hlast : a<newsz
    · rw [if_pos hlast]
      have hva : a<kernbase := by omega
      obtain ⟨q,m,heq,hq⟩:=h.kalloc c
      rw [heq,some_bind]
      rcases hq with ⟨rfl,hi⟩ | ⟨f,rfl,hi,hf⟩
      · obtain ⟨r,s',heq',-⟩:=hi.deallocuvm hd newsz oldsz hlt.le c
        exact ⟨(0,s'),by dsimp only; rw [heq',map_some]⟩
      have hdown : pgrounddown a<newsz := (div_mul_le_self ..).trans_lt hlast
      have hp:=view_eq_none.mp (hfree a hva le_rfl hdown)
      obtain ⟨ok,s1,heq1,hr⟩:=h.mapFresh (e := ⟨f,true,true,true,false⟩) hi hf
        (fun _ => 0) hd hva hp rfl (fun _ => rfl) c
      simp only [heq1,some_bind]
      rcases hr with ⟨rfl,hi1,hk⟩ | ⟨rfl,hi1,hm⟩
      · obtain ⟨r,s2,heq2,hi2,-⟩:=hi1.deallocuvm hd newsz oldsz hlt.le c
        obtain ⟨m',hkf,-⟩:=UvmInv.kfree (f := f) hi2 c
        exact ⟨(0,_),by dsimp only; rw [heq2,some_bind,hkf,map_some]⟩
      refine ih (a+pgsize) hi1 (hm.excl D subset_rfl D subset_rfl hx) (by rw [add_mod_right,ha])
        fun va hva' hle hlow => ?_
      rw [hm.view d hd va hva',if_neg]
      · exact hfree va hva' (by omega) hlow
      · simp only [pgsize] at *
        omega
    · rw [if_neg hlast]
      exact ⟨_,rfl⟩

lemma allocuvm_total {D : Set ℕ} {oldsz newsz : ℕ} (h : UvmInv L D [] s) (hx : Excl D D s)
    (hd : d∈D) (hfree : ∀ va<kernbase,grown oldsz newsz va → view s d va=none) :
    ∃ r,allocuvm L c s d oldsz newsz=some r := by
  unfold allocuvm
  split_ifs with hbig hsmall
  · exact ⟨_,rfl⟩
  · exact ⟨_,rfl⟩
  · exact allocLoop_total hd (not_le.mp hbig) _ _ h hx (mul_mod_left ..)
      fun va hva hle hlow => hfree va hva ⟨hle,hlow⟩

lemma pgroundup_le_iff (hsz : sz<kernbase) : pgroundup sz≤va ↔ sz≤pgrounddown va := by
  simp only [pgroundup,pgrounddown,pgsize,wordMod,kernbase] at *
  omega
lemma lt_pgroundup_iff (hsz : sz<kernbase) : va<pgroundup sz ↔ pgrounddown va<sz := by
  have := @pgroundup_le_iff sz va hsz
  omega
lemma mapping_of_view_none (h : view s d va=none) : mapping s d va=none := mapping_eq_none.mpr (view_eq_none.mp h)
lemma ImageInv.mapping_none (hi : ImageInv s sp sz) (hva : va<kernbase)
    (hab : sz≤pgrounddown va) : mapping s sp.pgdir va=none :=
  mapping_of_view_none (hi.absent va hva hab)

lemma sbrk_grow (newsz : ℕ) (k : Bool) (h : ImagesInv L σ) (hsp : σ.sys.space pr.addrsp=some sp)
    (hi : ImageInv σ.sys.uvm sp pr.sz) (hsz : pr.sz<kernbase) (hle : pr.sz<newsz) :
    ∃ r s,allocuvm L c σ.sys.uvm sp.pgdir pr.sz newsz=some (r,s) ∧
      ((r=0 ∧ allocVmas sp.vma pr.sz newsz r k=sp.vma ∧ ∀ va<kernbase,
          mapping s sp.pgdir va=mapping σ.sys.uvm sp.pgdir va ∧ view s sp.pgdir va=view σ.sys.uvm sp.pgdir va) ∨
        (r=newsz ∧ newsz<kernbase ∧ Resized σ.sys.uvm s sp.pgdir pr.sz newsz)) := by
  have hd:=mem_dirs hsp
  have habs : ∀ va<kernbase,grown pr.sz newsz va → view σ.sys.uvm sp.pgdir va=none :=
    fun va hva hg => hi.absent va hva ((pgroundup_le_iff hsz).mp hg.1)
  obtain ⟨⟨r,s⟩,hr⟩:=allocuvm_total (c := c) h.sys.inv h.sys.excl hd habs
  refine ⟨r,s,hr,?_⟩
  have hfail : r≠newsz → allocVmas sp.vma pr.sz newsz r k=sp.vma ∧ ∀ va<kernbase,
      mapping s sp.pgdir va=mapping σ.sys.uvm sp.pgdir va ∧ view s sp.pgdir va=view σ.sys.uvm sp.pgdir va := by
    intro hn
    refine ⟨?_,fun va hva => rollback_mapping h.sys.paired hsp
      (fun va hva hg => mapping_of_view_none (habs va hva hg)) hr hn hd hva⟩
    rw [allocVmas,if_neg hn,vmaShrink_of_le hi.size,ite_self]
  rcases allocuvm_result h.sys.inv h.sys.excl hd hr with hz | ⟨hn,hlt,-⟩ | ⟨-,hlt,-⟩
  · exact .inl ⟨hz,hfail (by omega)⟩
  · refine .inr ⟨hn,hlt,fun va hva => ?_⟩
    obtain ⟨-,hcase⟩:=h.sys.inv.allocuvm h.sys.excl hd hr
    have hbal:=allocuvm_balances h.sys.inv hd hr
    rcases hcase with ⟨-,hno⟩ | ⟨-,-,hg⟩
    · omega
    rw [pgroundup_le_iff hlt,pgroundup_le_iff hsz,lt_pgroundup_iff hlt,lt_pgroundup_iff hsz]
    have hin : grown pr.sz newsz va ↔ pr.sz≤pgrounddown va ∧ pgrounddown va<newsz := by
      rw [grown,pgroundup_le_iff hsz]
    have hsame : ¬ grown pr.sz newsz va → mapping s sp.pgdir va=mapping σ.sys.uvm sp.pgdir va ∧
        view s sp.pgdir va=view σ.sys.uvm sp.pgdir va := fun hno =>
      ⟨mapping_congr (hbal.other _ hd va hva fun hc => hno hc.2),hg.other _ hd va hva fun hc => hno hc.2⟩
    refine ⟨fun habove => ?_,fun _ hbelow => ?_,fun hbelow habove => ?_⟩
    · rw [(hsame (by rw [hin]; omega)).1]
      exact hi.mapping_none hva (by omega)
    · exact hsame (by rw [hin]; omega)
    · rcases hg.range with ⟨-,hzero⟩ | ⟨hz,-⟩
      · rw [hzero va hva (hin.mpr ⟨habove,hbelow⟩),if_pos ((pgroundup_le_iff hsz).mpr habove)]
      · omega
  · omega

lemma sbrk_shrink (newsz : ℕ) (h : ImagesInv L σ) (hsp : σ.sys.space pr.addrsp=some sp)
    (hi : ImageInv σ.sys.uvm sp pr.sz) (hsz : pr.sz<kernbase) (hlt : newsz<pr.sz) :
    ∃ s,deallocuvm L c σ.sys.uvm sp.pgdir pr.sz newsz=some (newsz,s) ∧ Resized σ.sys.uvm s sp.pgdir pr.sz newsz := by
  have hd:=mem_dirs hsp
  obtain ⟨r,s,hr,-,hu⟩:=h.sys.inv.deallocuvm hd pr.sz newsz hsz.le c
  have hval : r=newsz := by
    unfold deallocuvm at hr
    split_ifs at hr with hbad hle
    · exact absurd hlt (not_lt.mpr hle)
    · obtain ⟨_,_,he⟩:=map_eq_some_iff.mp hr
      simp only [Prod.mk.injEq] at he
      exact he.1.symm
  rw [hval] at hr
  refine ⟨s,hr,fun va hva => ?_⟩
  have hnew : newsz<kernbase := by omega
  rw [pgroundup_le_iff hnew,pgroundup_le_iff hsz,lt_pgroundup_iff hnew,lt_pgroundup_iff hsz]
  refine ⟨fun habove => ?_,fun hbelow _ => ?_,fun hbelow habove => by omega⟩
  · by_cases hin : pgrounddown va<pr.sz
    · exact mapping_eq_none.mpr (hu.gone _ hd va hva ⟨rfl,hlt,(pgroundup_le_iff hnew).mpr habove,hin⟩)
    · rw [mapping_congr (hu.kept _ hd va hva fun hc => hin hc.2.2.2)]
      exact hi.mapping_none hva (by omega)
  have hno : ¬ pgroundup newsz≤va := by
    rw [pgroundup_le_iff hnew]
    omega
  exact ⟨mapping_congr (hu.kept _ hd va hva fun hc => hno hc.2.2.1),(hu.view hd hva).2 fun hc => hno hc.2.2.1⟩

lemma uintAddInt_image (hsz : sz<kernbase) (hn : n<2^31) (h0 : 0≤(sz : ℤ)+n) : (uintAddInt sz n : ℤ)=sz+n := by
  refine uintAddInt_eq sz n h0 ?_
  simp only [wordMod,kernbase] at *
  omega

lemma growproc_of_neg {r : ℕ} (hq : σ.proc q=some pr) (hsp : σ.sys.space pr.addrsp=some sp) (hn : n<0)
    (hs : deallocuvm L c σ.sys.uvm sp.pgdir pr.sz (uintAddInt pr.sz n)=some (r,s)) (hr : r≠0) :
    ∃ vma,growproc L σ q n k c=some (0,σ.setProc q (σ.sys.set pr.addrsp s (some {sp with vma := vma}))
      (some {pr with sz := r})) := by
  have hde : deallocuvmAs L σ.sys pr.addrsp pr.sz (uintAddInt pr.sz n) c=some (r,σ.sys.set pr.addrsp s
      (some {sp with vma := (vmaShrink sp.vma (min pr.sz (uintAddInt pr.sz n))).2})) := by
    rw [deallocuvmAs,hsp,some_bind,hs]
    rfl
  refine ⟨(vmaShrink sp.vma (min pr.sz (uintAddInt pr.sz n))).2,?_⟩
  rw [growproc,hq,some_bind,if_neg (not_lt.mpr hn.le),if_pos hn,hde]
  exact if_neg hr

lemma growproc_of_pos {r : ℕ} (hq : σ.proc q=some pr) (hsp : σ.sys.space pr.addrsp=some sp) (hn : 0<n)
    (hs : allocuvm L c σ.sys.uvm sp.pgdir pr.sz (uintAddInt pr.sz n)=some (r,s)) : growproc L σ q n k c =
      let sys:=σ.sys.set pr.addrsp s (some {sp with vma := allocVmas sp.vma pr.sz (uintAddInt pr.sz n) r k})
      if r=0 then some (-1,{σ with sys := sys}) else some (0,σ.setProc q sys (some {pr with sz := r})) := by
  have hal : allocuvmAs L σ.sys pr.addrsp pr.sz (uintAddInt pr.sz n) k c=some (r,σ.sys.set pr.addrsp s
      (some {sp with vma := allocVmas sp.vma pr.sz (uintAddInt pr.sz n) r k})) := by
    rw [allocuvmAs,hsp,some_bind,hs]
    rfl
  rw [growproc,hq,some_bind,if_pos hn,hal]
  rfl

lemma sysSbrk_of_growproc {r : ℤ} (hq : σ.proc q=some pr) (hg : growproc L σ q n k c=some (r,σ')) :
    sysSbrk L σ q n k c=some (if r<0 then -1 else uintToInt pr.sz,σ') := by
  rw [sysSbrk,hq,some_bind,hg]
  rfl

lemma sysSbrk_law (h : ImagesInv L σ) (hq : σ.proc q=some pr) (hn : n<2^31)
    (hsane : n<0 → 0<(pr.sz : ℤ)+n) (k : Bool) (c : Fin ncpu) :
    ∃ r σ',sysSbrk L σ q n k c=some (r,σ') ∧ SbrkLaw σ σ' q n r := by
  obtain ⟨⟨sp,hsp,hi⟩,hsz,-⟩:=h.proc q pr hq
  have hret : (if (0 : ℤ)<0 then -1 else uintToInt pr.sz)=pr.sz := by
    rw [if_neg (lt_irrefl _),uintToInt_of_lt hsz]
  have hset : ∀ vma s,(σ.sys.set pr.addrsp s (some {sp with vma := vma})).space pr.addrsp =
      some {sp with vma := vma} := fun vma s => by rw [set_space,if_pos rfl]
  rcases lt_trichotomy n 0 with hneg | rfl | hpos
  · -- the image shrinks
    have hval:=uintAddInt_image hsz hn (hsane hneg).le
    have hnew : uintAddInt pr.sz n<pr.sz ∧ uintAddInt pr.sz n≠0 := by
      omega
    obtain ⟨s,hs,hres⟩:=sbrk_shrink (c := c) _ h hsp hi hsz hnew.1
    obtain ⟨vma,hg⟩:=growproc_of_neg (k := k) hq hsp hneg hs hnew.2
    exact ⟨_,_,sysSbrk_of_growproc hq hg,pr,sp,_,_,hq,hsp,Function.update_self ..,hset _ s,rfl,
      .inl ⟨hret,hval,hnew.1.trans hsz,hres⟩⟩
  · -- nothing changes
    have hg : growproc L σ q 0 k c=some (0,σ) := by
      rw [growproc,hq]
      rfl
    refine ⟨_,_,sysSbrk_of_growproc hq hg,pr,sp,pr,sp,hq,hsp,hq,hsp,rfl,.inl ⟨hret,by omega,hsz,fun va hva => ?_⟩⟩
    rw [pgroundup_le_iff hsz,lt_pgroundup_iff hsz]
    exact ⟨hi.mapping_none hva,fun _ _ => ⟨rfl,rfl⟩,fun h1 h2 => by omega⟩
  · -- the image grows, or the growth is refused
    have hval:=uintAddInt_image hsz hn (by omega)
    obtain ⟨r,s,hs,hres⟩:=sbrk_grow (c := c) (uintAddInt pr.sz n) k h hsp hi hsz (by omega)
    have hg:=growproc_of_pos (k := k) hq hsp hpos hs
    rcases hres with ⟨rfl,hvma,hmap⟩ | ⟨rfl,hlt,hmap⟩
    · rw [hvma] at hg
      exact ⟨_,_,sysSbrk_of_growproc hq hg,pr,sp,pr,_,hq,hsp,hq,hset _ s,rfl, .inr ⟨rfl,rfl,rfl,hmap⟩⟩
    have hnz : uintAddInt pr.sz n≠0 := by omega
    rw [if_neg hnz] at hg
    exact ⟨_,_,sysSbrk_of_growproc hq hg,pr,sp,_,_,hq,hsp,Function.update_self ..,hset _ s,rfl,
      .inl ⟨hret,hval,hlt,hmap⟩⟩

end

/-- In every run whose calls are sane, every sane `sbrk` of every process obeys the law. -/
theorem sbrk_law (L : Layout) (m : State) (hm : Good L m) (acts : List ImageAction) (σ : Images)
    (hrun : run (imageStep L) (Images.start m) acts=some σ)
    (hsane : Guarded (imageStep L) (fun σ act => act.Sane σ) (Images.start m) acts) (q : ℕ) (n : ℤ)
    (hn : -2^31≤n ∧ n<2^31) (hq : (σ.proc q).isSome) (k : Bool) (c : Fin ncpu)
    (hcall : (ImageAction.sbrk q n k c).Sane σ) : ∃ r σ',sysSbrk L σ q n k c=some (r,σ') ∧ SbrkLaw σ σ' q n r := by
  have h : ImagesInv L σ := run_guarded imageStep_inv ⟨(start_inv hm).sysInv,(fun _ _ h => by cases h),
    (fun _ _ h => by cases h),(fun _ _ _ _ h => by cases h),fun _ _ _ _ h => by cases h⟩ hsane hrun
  obtain ⟨pr,hpr⟩:=isSome_iff_exists.mp hq
  exact sysSbrk_law h hpr hn.2 (fun hneg => hcall hneg pr hpr) k c

def growTwice : List ImageAction := [.userinit 0 0 true true bootCpu,.sbrk 0 8192 true bootCpu]

theorem sbrk_law_grow_shrink : ∃ σ r σ',run (imageStep layout) (Images.start (freeMem 16)) growTwice=some σ ∧
      sysSbrk layout σ 0 (-4096) true bootCpu=some (r,σ') ∧ r=12288 ∧ SbrkLaw σ σ' 0 (-4096) r := by
  have hcheck : ((run (imageStep layout) (Images.start (freeMem 16)) growTwice).bind fun σ =>
        (sysSbrk layout σ 0 (-4096) true bootCpu).map fun r => (r.1,(σ.proc 0).map (·.sz))) =
      some (12288,some 12288) := by
    decide +kernel
  obtain ⟨σ,hrun,hcheck⟩:=bind_eq_some_iff.mp hcheck
  obtain ⟨⟨r,σ'⟩,hcall,hval⟩:=map_eq_some_iff.mp hcheck
  simp only [Prod.mk.injEq] at hval
  obtain ⟨pr,hpr,hsz⟩:=map_eq_some_iff.mp hval.2
  have hsane : Guarded (imageStep layout) (fun σ act => act.Sane σ) (Images.start (freeMem 16)) growTwice :=
    ⟨trivial,fun _ _ => ⟨fun hneg => absurd hneg (by decide),fun _ _ => trivial⟩⟩
  have hnow : (ImageAction.sbrk 0 (-4096) true bootCpu).Sane σ := by
    intro _ pr' hpr'
    rw [hpr,some.injEq] at hpr'
    rw [← hpr',hsz]
    decide
  obtain ⟨r',σ1,hcall',hlaw⟩:=sbrk_law layout (freeMem 16) (freeMem_good (by decide)) _ σ hrun hsane 0
    (-4096) (by decide) (by rw [hpr]; rfl) true bootCpu hnow
  cases hcall.symm.trans hcall'
  exact ⟨σ,r,σ',hrun,hcall,hval.1,hlaw⟩

def sbrkReport (acts : List ImageAction) (n : ℤ) (va : ℕ) :
    Option (ℤ × (ℕ × ℕ) × (AddressSpace × AddressSpace) × (Option Pte × Option Pte)) := do
  let σ ← run (imageStep layout) (Images.start (freeMem 80)) acts
  let r ← sysSbrk layout σ 0 n true bootCpu
  let pr ← σ.proc 0
  let pr' ← r.2.proc 0
  let sp ← σ.sys.space pr.addrsp
  let sp' ← r.2.sys.space pr'.addrsp
  some (r.1,(pr.sz,pr'.sz),(sp.vma,sp'.vma),(mapping σ.sys.uvm sp.pgdir va,mapping r.2.sys.uvm sp.pgdir va))

def reportBroken (n : ℤ) (va : ℕ) (x : ℤ × (ℕ × ℕ) × (AddressSpace × AddressSpace) × (Option Pte × Option Pte)) :
    Bool :=
  decide ((x.1≠x.2.1.1 ∨ (x.2.1.2 : ℤ)≠x.2.1.1+n ∨ kernbase≤x.2.1.2 ∨
      (pgroundup x.2.1.2≤va ∧ va<kernbase ∧ x.2.2.2.2≠none)) ∧
    (x.1 ≠ -1 ∨ x.2.2.1.1≠x.2.2.1.2 ∨ (va<kernbase ∧ x.2.2.2.2≠x.2.2.2.1)))
def SbrkBreaks (acts : List ImageAction) (n : ℤ) : Prop :=
  ∃ σ r σ',run (imageStep layout) (Images.start (freeMem 80)) acts=some σ ∧
    sysSbrk layout σ 0 n true bootCpu=some (r,σ') ∧ ¬ SbrkLaw σ σ' 0 n r

lemma sbrkBreaks_of_report {acts : List ImageAction} {n : ℤ} {va : ℕ}
    (h : (sbrkReport acts n va).any (reportBroken n va)=true) : SbrkBreaks acts n := by
  obtain ⟨x,hx,hb⟩:=(any_eq_true _ _).mp h
  obtain ⟨σ,hrun,hx⟩:=bind_eq_some_iff.mp hx
  obtain ⟨⟨r,σ'⟩,hcall,hx⟩:=bind_eq_some_iff.mp hx
  obtain ⟨pr,hpr,hx⟩:=bind_eq_some_iff.mp hx
  obtain ⟨pr',hpr',hx⟩:=bind_eq_some_iff.mp hx
  obtain ⟨sp,hsp,hx⟩:=bind_eq_some_iff.mp hx
  obtain ⟨sp',hsp',hx⟩:=bind_eq_some_iff.mp hx
  cases hx
  simp only [reportBroken,decide_eq_true_eq] at hb
  refine ⟨σ,r,σ',hrun,hcall,?_⟩
  rintro ⟨p1,s1,p2,s2,h1,h2,h3,h4,-,hlaw⟩
  cases hpr.symm.trans h1
  cases hsp.symm.trans h2
  cases hpr'.symm.trans h3
  cases hsp'.symm.trans h4
  rcases hlaw with ⟨hr,hsz,hlt,hmap⟩ | ⟨hr,-,hvma,hmap⟩
  · rcases hb.1 with hc | hc | hc | ⟨hle,hva,hc⟩
    · exact hc hr
    · exact hc hsz
    · omega
    · exact hc ((hmap va hva).1 hle)
  · rcases hb.2 with hc | hc | ⟨hva,hc⟩
    · exact hc hr
    · exact hc (by rw [hvma])
    · exact hc (hmap va hva).1

def emptyFile : Reads := ⟨fun _ _ => some [],fun _ _ _ h => by cases h; exact zero_le _⟩

def execTrace (segments : List ImageAction) : List ImageAction :=
  [.userinit 0 0 true true bootCpu,.execCreate 1 true bootCpu]++segments ++
    [.execStack 1 true bootCpu,.execCommit 0 1 bootCpu]

/-- `sbrk(-sz)` fails and drops the image; `sbrk` below 0 succeeds and does nothing; a stack fault above `sz`
maps a page; `sys_vmreserve` may take the image up to `KERNBASE`; and a segment whose end wraps leaves
`vm_size` above `sz`, so that a growth that fails cuts the VMAs. -/
theorem sbrk_law_fails : SbrkBreaks [.userinit 0 0 true true bootCpu] (-4096) ∧
    SbrkBreaks [.userinit 0 0 true true bootCpu] (-5000) ∧ SbrkBreaks (execTrace []++[.sbrk 0 (-0x40000) true bootCpu,
      .fault 0 0x3CFFC false true (fun _ => true) bootCpu]) 0 ∧
    SbrkBreaks [.userinit 0 0 true true bootCpu,.vmreserve 0 0x7FFFF000 true true] 0 ∧
    SbrkBreaks (execTrace [.execSegment 1 ⟨0,0,0xFFFFF001,6⟩ 0 emptyFile true bootCpu]) 0x100000 := by
  refine ⟨?_,?_,?_,?_,?_⟩
  · exact @sbrkBreaks_of_report _ _ 0 (by decide +kernel)
  · exact @sbrkBreaks_of_report _ _ 0 (by decide +kernel)
  · exact @sbrkBreaks_of_report _ _ 0x3C000 (by decide +kernel)
  · exact @sbrkBreaks_of_report _ _ 0 (by decide +kernel)
  · exact @sbrkBreaks_of_report _ _ 0 (by decide +kernel)

end Auxv6.Vm

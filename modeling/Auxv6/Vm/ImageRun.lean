import Auxv6.Vm.ImageInvariant

/-!
# Images over whole runs

`Sane` excludes the four calls that leave pages above the size or a size that `sbrk` cannot express.
-/

namespace Auxv6.Vm
open Machine Lib Lib.Transition Function Option Nat

def ProcOk (σ : Sys) (pr : ProcImage) : Prop :=
  (∃ sp,σ.space pr.addrsp=some sp ∧ ImageInv σ.uvm sp pr.sz) ∧ pr.sz<kernbase ∧
    pr.stackBot≤pr.stackTop ∧ pr.stackTop<kernbase ∧ pr.stackBot%pgsize=0
def LoadingOk (σ : Sys) (e : ℕ) (ld : Loading) : Prop :=
  (∃ sp,σ.space e=some sp ∧ ImageInv σ.uvm sp ld.sz) ∧ ld.sz≤kernbase ∧
    (ld.stacked=true → stackTotal≤ld.sz ∧ ld.sz<kernbase ∧ ld.sz%pgsize=0)

structure ImagesInv (L : Mem.Layout) (σ : Images) : Prop where
  sys : SysInv L σ.sys
  proc : ∀ q pr,σ.proc q=some pr → ProcOk σ.sys pr
  loading : ∀ e ld,σ.loading e=some ld → LoadingOk σ.sys e ld
  own : ∀ q q' pr pr',σ.proc q=some pr → σ.proc q'=some pr' → pr.addrsp=pr'.addrsp → q=q'
  apart : ∀ q pr e ld,σ.proc q=some pr → σ.loading e=some ld → pr.addrsp≠e

def Proghdr.Sane (ph : Proghdr) : Prop :=
  uintAdd ph.vaddr ph.memsz≤kernbase ∨ (ph.memsz≠0 ∧ uintAdd ph.vaddr ph.memsz+pgsize≤wordMod)

def ImageAction.Sane (σ : Images) : ImageAction → Prop
  | .sbrk q n _ _ => n<0 → ∀ pr,σ.proc q=some pr → 0<(pr.sz : ℤ)+n
  | .vmreserve q n _ _ => ∀ pr,σ.proc q=some pr → pgroundup pr.sz+pgroundup (uintAddInt 0 n)<kernbase
  | .fault q va _ _ _ _ => ∀ pr,σ.proc q=some pr → va<pr.stackBot → pr.stackTop≤pr.sz
  | .execSegment _ ph _ _ _ _ => ph.Sane
  | _ => True

section

variable {L : Mem.Layout} {σ σ' : Images} {sys : Sys} {q a e : ℕ} {pr : ProcImage} {ld : Loading} {c : Fin ncpu}

variable {τ τ' : Sys} {fault va : ℕ} {ok : Bool}

lemma KeepsOthers.procOk (hk : KeepsOthers τ τ' a) (hne : pr.addrsp≠a) (h : ProcOk τ pr) : ProcOk τ' pr := by
  obtain ⟨⟨sp,hsp,hi⟩,hrest⟩:=h
  obtain ⟨hsp',hview⟩:=hk _ sp hne hsp
  exact ⟨⟨sp,hsp',hi.vmas,hi.size,fun va hva hab => hview va hva (hi.absent va hva hab)⟩,hrest⟩
lemma KeepsOthers.loadingOk (hk : KeepsOthers τ τ' a) (hne : e≠a) (h : LoadingOk τ e ld) : LoadingOk τ' e ld := by
  obtain ⟨⟨sp,hsp,hi⟩,hrest⟩:=h
  obtain ⟨hsp',hview⟩:=hk _ sp hne hsp
  exact ⟨⟨sp,hsp',hi.vmas,hi.size,fun va hva hab => hview va hva (hi.absent va hva hab)⟩,hrest⟩

lemma update_eq_some {α : Type} {f : ℕ → Option α} {q q' : ℕ} {o : Option α} {x : α}
    (h : update f q o q'=some x) : (q'=q ∧ o=some x) ∨ (q'≠q ∧ f q'=some x) := by
  by_cases he : q'=q
  · subst he
    rw [update_self] at h
    exact .inl ⟨rfl,h⟩
  · rw [update_of_ne he] at h
    exact .inr ⟨he,h⟩

lemma ImagesInv.setProc (h : ImagesInv L σ) (hsys : SysInv L sys) (hk : KeepsOthers σ.sys sys a)
    (hown : ∀ q' pr',q'≠q → σ.proc q'=some pr' → pr'.addrsp≠a)
    (hapart : ∀ e ld,σ.loading e=some ld → e≠a) (hpr : pr.addrsp=a) (hok : ProcOk sys pr) :
    ImagesInv L (σ.setProc q sys (some pr)) := by
  refine ⟨hsys,fun q' pr' hq' => ?_,fun e' ld' he' => hk.loadingOk (hapart e' ld' he') (h.loading e' ld' he'),
    fun q1 q2 pr1 pr2 h1 h2 he => ?_,fun q' pr' e' ld' hq' he' => ?_⟩
  · rcases update_eq_some hq' with ⟨_,hx⟩ | ⟨hne,hx⟩
    · cases hx
      exact hok
    · exact hk.procOk (hown q' pr' hne hx) (h.proc q' pr' hx)
  · rcases update_eq_some h1 with ⟨e1,hx1⟩ | ⟨n1,hx1⟩ <;>
      rcases update_eq_some h2 with ⟨e2,hx2⟩ | ⟨n2,hx2⟩
    · rw [e1,e2]
    · cases hx1
      exact absurd (he.symm.trans hpr) (hown q2 pr2 n2 hx2)
    · cases hx2
      exact absurd (he.trans hpr) (hown q1 pr1 n1 hx1)
    · exact h.own q1 q2 pr1 pr2 hx1 hx2 he
  · rcases update_eq_some hq' with ⟨_,hx⟩ | ⟨_,hx⟩
    · cases hx
      rw [hpr]
      exact (hapart e' ld' he').symm
    · exact h.apart q' pr' e' ld' hx he'

variable {pr' : ProcImage}

lemma ImagesInv.update (h : ImagesInv L σ) (hq : σ.proc q=some pr) (hsys : SysInv L sys)
    (hk : KeepsOthers σ.sys sys pr.addrsp) (hsame : pr'.addrsp=pr.addrsp)
    (hok : ProcOk sys pr') : ImagesInv L (σ.setProc q sys (some pr')) :=
  h.setProc hsys hk (fun q' pr2 hne h2 he => hne (h.own q' q pr2 pr h2 hq he))
    (fun e ld he hc => h.apart q pr e ld hq he hc.symm) hsame hok
lemma setProc_same (hq : σ.proc q=some pr) (sys : Sys) : {σ with sys := sys} = σ.setProc q sys (some pr) := by
  rw [Images.setProc,← hq,update_eq_self]
lemma ImagesInv.updateSys (h : ImagesInv L σ) (hq : σ.proc q=some pr) (hsys : SysInv L sys)
    (hk : KeepsOthers σ.sys sys pr.addrsp) (hok : ProcOk sys pr) : ImagesInv L {σ with sys := sys} := by
  rw [setProc_same hq]
  exact h.update hq hsys hk rfl hok

variable {o : Option Loading}

lemma ImagesInv.setLoading (h : ImagesInv L σ) (hsys : SysInv L sys) (hk : KeepsOthers σ.sys sys e)
    (hapart : ∀ q pr,σ.proc q=some pr → pr.addrsp≠e)
    (hok : ∀ ld,o=some ld → LoadingOk sys e ld) : ImagesInv L (σ.setLoading e sys o) := by
  refine ⟨hsys,fun q pr hq => hk.procOk (hapart q pr hq) (h.proc q pr hq),fun e' ld' he' => ?_,h.own,
    fun q' pr' e' ld' hq' he' => ?_⟩
  · rcases update_eq_some he' with ⟨he,hx⟩ | ⟨hne,hx⟩
    · subst he
      exact hok ld' hx
    · exact hk.loadingOk hne (h.loading e' ld' hx)
  rcases update_eq_some he' with ⟨he,_⟩ | ⟨_,hx⟩
  · subst he
    exact hapart q' pr' hq'
  · exact h.apart q' pr' e' ld' hq' hx

lemma ImagesInv.updateLoading (h : ImagesInv L σ) (he : σ.loading e=some ld) (hsys : SysInv L sys)
    (hk : KeepsOthers σ.sys sys e) (hok : ∀ ld,o=some ld → LoadingOk sys e ld) : ImagesInv L (σ.setLoading e sys o) :=
  h.setLoading hsys hk (fun q pr hq => h.apart q pr e ld hq he) hok

lemma KeepsOthers.trans {τ'' : Sys} (h : KeepsOthers τ τ' a) (h' : KeepsOthers τ' τ'' a) : KeepsOthers τ τ'' a := by
  intro b sp hb hsp
  obtain ⟨h1,hv1⟩:=h b sp hb hsp
  obtain ⟨h2,hv2⟩:=h' b sp hb h1
  exact ⟨h2,fun va hva hn => hv2 va hva (hv1 va hva hn)⟩

lemma uintAddInt_eq (sz : ℕ) (n : ℤ) (h0 : 0≤(sz : ℤ)+n) (h1 : (sz : ℤ)+n<wordMod) : (uintAddInt sz n : ℤ)=sz+n := by
  rw [uintAddInt,Int.emod_eq_of_lt h0 h1,Int.toNat_of_nonneg h0]

variable {sp : Space}

lemma deallocuvmAs_spec {oldsz newsz r : ℕ} (h : SysInv L τ)
    (hsp : τ.space a=some sp) (hi : ImageInv τ.uvm sp oldsz) (hold : oldsz<kernbase)
    (hr : deallocuvmAs L τ a oldsz newsz c=some (r,τ')) :
    r=min oldsz newsz ∧ Touches L τ τ' a sp (vmaShrink sp.vma (min oldsz newsz)).2 (fun _ => False) ∧
      ImageInv τ'.uvm {sp with vma := (vmaShrink sp.vma (min oldsz newsz)).2} (min oldsz newsz) := by
  obtain ⟨sp',hsp',hr⟩:=bind_eq_some_iff.mp hr
  cases hsp.symm.trans hsp'
  obtain ⟨⟨n,s⟩,hs,hr⟩:=bind_eq_some_iff.mp hr
  cases hr
  have hd:=mem_dirs hsp
  obtain ⟨n',s',heq,hi',hu⟩:=h.inv.deallocuvm hd oldsz newsz hold.le c
  cases hs.symm.trans heq
  have hval : n=min oldsz newsz := by
    unfold deallocuvm at hs
    split_ifs at hs with hbad hle
    · simp only [some.injEq,Prod.mk.injEq] at hs
      omega
    · obtain ⟨_,_,he⟩:=map_eq_some_iff.mp hs
      simp only [Prod.mk.injEq] at he
      omega
  have ht:=h.touches hsp ((vmaShrink_size sp.vma (min oldsz newsz)).trans (h.size a sp hsp)) hi'
    (hu.excl subset_rfl subset_rfl h.excl)
    (hu.mapsWithin (fun d va => d=sp.pgdir ∧ False))
  refine ⟨hval,ht,vmaShrink_ok _ hi.vmas,vmaShrink_size_le _,fun va hva habove => ?_⟩
  by_cases hin : oldsz≤pgrounddown va
  · exact ht.maps _ hd va hva (·.2) (hi.absent va hva hin)
  · refine (hu.view hd hva).1 ⟨rfl,by omega,?_,by omega⟩
    simp only [pgroundup,pgrounddown,pgsize,wordMod,kernbase] at *
    omega

lemma growproc_inv {n r : ℤ} {k : Bool} (h : ImagesInv L σ) (hsane : n<0 → ∀ pr,σ.proc q=some pr → 0<(pr.sz : ℤ)+n)
    (hr : growproc L σ q n k c=some (r,σ')) : ImagesInv L σ' := by
  obtain ⟨pr,hq,hr⟩:=bind_eq_some_iff.mp hr
  obtain ⟨⟨sp,hsp,hi⟩,hsz,hstack⟩:=h.proc q pr hq
  split at hr
  · obtain ⟨⟨m,sys⟩,hs,hr⟩:=bind_eq_some_iff.mp hr
    obtain ⟨sp',ht,hres⟩:=allocuvmAs_touches h.sys hs
    have he:=ht.old
    cases hsp.symm.trans he
    have hk:=ht.keepsOthers h.sys
    split at hr
    next hz =>
      cases hr
      refine h.updateSys hq ht.inv hk ⟨⟨_,ht.space,?_⟩,hsz,hstack⟩
      by_cases hn : m=uintAddInt pr.sz n
      · exact image_of_grown _ hi ht le_rfl (by omega)
      · exact ht.image hi (allocVmas_ok _ _ _ _ hi.vmas) ((allocVmas_size_of_fail hn).trans hi.size) le_rfl
          fun _ hc => absurd hc.1 hn
    rename_i hz
    cases hr
    rcases hres with hz' | ⟨hm,hlt,hle⟩ | ⟨hm,hlt⟩
    · exact absurd hz' hz
    · have hgrow : pr.sz ≤ m ∧ m<kernbase := by omega
      exact h.update hq ht.inv hk rfl ⟨⟨_,ht.space,image_of_grown _ hi ht hgrow.1 hm.ge⟩,hgrow.2,hstack⟩
    · have hnew : uintAddInt pr.sz n ≤ m ∧ m<kernbase := by omega
      exact h.update hq ht.inv hk rfl ⟨⟨_,ht.space,image_of_grown _ hi ht hm.ge hnew.1⟩,hnew.2,hstack⟩
  · split at hr
    next hneg =>
      have hpos:=hsane hneg pr hq
      have hval:=uintAddInt_eq pr.sz n hpos.le (by
        simp only [wordMod,kernbase] at *
        omega)
      obtain ⟨⟨m,sys⟩,hs,hr⟩:=bind_eq_some_iff.mp hr
      obtain ⟨hm,ht,hi'⟩:=deallocuvmAs_spec h.sys hsp hi hsz hs
      have hk:=ht.keepsOthers h.sys
      rw [if_neg (by omega)] at hr
      cases hr
      have hlt : m<kernbase := by omega
      exact h.update hq ht.inv hk rfl ⟨⟨_,ht.space,hm ▸ hi'⟩,hlt,hstack⟩
    · cases hr
      exact h

variable {vma : AddressSpace}

lemma reserveVmas_spec {oldsz base end_ : ℕ} (k k' : Bool) (hok : VmaOk vma)
    (hsize : vma.vmSize≤oldsz) (hbase : oldsz≤base) (hend : base≤end_) :
    VmaOk (reserveVmas vma oldsz base end_ k k').2 ∧ (reserveVmas vma oldsz base end_ k k').2.vmSize ≤
        if (reserveVmas vma oldsz base end_ k k').1 then end_ else oldsz := by
  have hexp : ∀ e : ℤ × AddressSpace,e=(if oldsz<base then vmaExpand k vma base else (0,vma)) →
      VmaOk e.2 ∧ e.2.vmSize≤base ∧ (e.1<0 → e.2=vma) ∧ (¬ oldsz<base → e.2=vma) := by
    rintro e rfl
    split
    · have hg:=vmaExpand_grows k vma base
      have := hg.size
      exact ⟨vmaExpand_ok k base hok,by omega,hg.unchanged_of_fail,fun hc => absurd ‹_› hc⟩
    · exact ⟨hok,by simp only; omega,fun _ => rfl,fun _ => rfl⟩
  unfold reserveVmas
  dsimp only
  generalize he : (if oldsz<base then vmaExpand k vma base else (0,vma))=e
  obtain ⟨heok,hesize,hefail,hesame⟩:=hexp e he.symm
  split
  next hlt =>
    rw [hefail hlt]
    exact ⟨hok,by simpa using hsize⟩
  have hg:=vmaReserveZerofill_grows k' e.2 base end_
  have hgsize:=hg.size
  have hgok : VmaOk _ := ⟨hg.rep heok.1,hg.insideVmSize heok.2⟩
  split
  next hfail =>
    rw [hg.unchanged_of_fail hfail]
    split
    · exact ⟨vmaShrink_ok oldsz heok,by simpa using vmaShrink_size_le oldsz⟩
    next hno =>
      rw [hesame hno]
      exact ⟨hok,by simpa using hsize⟩
  · refine ⟨hgok,?_⟩
    simp only [if_true]
    omega

lemma pgroundup_bounds {a : ℕ} (h : a≤kernbase) : a≤pgroundup a ∧ pgroundup a<a+pgsize ∧ pgroundup a%pgsize=0 := by
  simp only [pgroundup,pgrounddown,pgsize,wordMod,kernbase] at *
  omega

lemma sysVmreserve_inv {n r : ℤ} {k k' : Bool} (h : ImagesInv L σ)
    (hsane : ∀ pr,σ.proc q=some pr → pgroundup pr.sz+pgroundup (uintAddInt 0 n)<kernbase)
    (hr : sysVmreserve σ q n k k'=some (r,σ')) : ImagesInv L σ' := by
  obtain ⟨pr,hq,hr⟩:=bind_eq_some_iff.mp hr
  obtain ⟨⟨sp,hsp,hi⟩,hsz,hstack⟩:=h.proc q pr hq
  rw [hsp,some_bind] at hr
  dsimp only at hr
  split at hr
  · cases hr
    exact h
  have hend:=hsane pr hq
  generalize pgroundup (uintAddInt 0 n)=len at hr hend
  obtain ⟨hbase,-,-⟩:=pgroundup_bounds hsz.le
  generalize pgroundup pr.sz=base at hr hend hbase
  obtain ⟨hok,hsize⟩:=reserveVmas_spec k k' hi.vmas hi.size hbase (le_add_right base len)
  generalize reserveVmas sp.vma pr.sz base (base+len) k k'=v at hr hok hsize
  have hle : v.2.vmSize≤kernbase := by
    split at hsize <;> omega
  have ht : Touches L σ.sys (σ.sys.set pr.addrsp σ.sys.uvm (some {sp with vma := v.2})) pr.addrsp sp
      v.2 (fun _ => False) := h.sys.touches hsp hle h.sys.inv h.sys.excl (MapsWithin.refl _ _ _)
  have hk:=ht.keepsOthers h.sys
  split at hr
  next hv =>
    cases hr
    rw [if_pos hv] at hsize
    have hgrow : pr.sz≤base+len := by omega
    exact h.update hq ht.inv hk rfl ⟨⟨_,ht.space,ht.image hi hok hsize hgrow (fun _ hc => hc.elim)⟩,hend,hstack⟩
  rename_i hv
  cases hr
  rw [if_neg hv] at hsize
  exact h.updateSys hq ht.inv hk ⟨⟨_,ht.space,ht.image hi hok hsize le_rfl (fun _ hc => hc.elim)⟩,hsz,hstack⟩

def StackGrown (L : Mem.Layout) (τ τ' : Sys) (sp : Space) (pr pr' : ProcImage) : Prop :=
  ∃ vma b,Touches L τ τ' pr.addrsp sp vma (fun va => pgrounddown va<pr.stackBot) ∧ VmaOk vma ∧
    vma.vmSize ≤ max sp.vma.vmSize pr.stackBot ∧ pr' = {pr with stackBot := b} ∧ b≤pr.stackBot ∧ b%pgsize=0

lemma StackGrown.refl (h : SysInv L τ) (hsp : τ.space pr.addrsp=some sp)
    (hvma : VmaOk sp.vma) (hal : pr.stackBot%pgsize=0) : StackGrown L τ τ sp pr pr :=
  ⟨sp.vma,pr.stackBot,Touches.refl h hsp _,hvma,le_max_left _ _,rfl,le_rfl,hal⟩

lemma StackGrown.step {τ1 : Sys} {b : ℕ} (ht : Touches L τ τ1 pr.addrsp sp vma (fun va => pgrounddown va<pr.stackBot))
    (hsize : vma.vmSize ≤ max sp.vma.vmSize pr.stackBot) (hb : b≤pr.stackBot)
    (hg : StackGrown L τ1 τ' {sp with vma := vma} {pr with stackBot := b} pr') : StackGrown L τ τ' sp pr pr' := by
  obtain ⟨vma',b',ht',hok,hsize',hpr,hle,hal⟩:=hg
  dsimp only at ht' hsize' hle
  have hbelow : ∀ va,pgrounddown va<b → pgrounddown va<pr.stackBot := fun va hva => hva.trans_le hb
  exact ⟨vma',b',ht.trans (ht'.mono _ hbelow),hok,by omega,hpr,hle.trans hb,hal⟩

variable {k : ℕ → Bool}

lemma growStackLoop_grown (fuel : ℕ) {pr : ProcImage} (h : SysInv L τ) (hsp : τ.space pr.addrsp=some sp)
    (hvma : VmaOk sp.vma) (htop : pr.stackBot<kernbase) (hal : pr.stackBot%pgsize=0)
    (hr : growStackLoop L fault k c fuel τ pr=some (ok,τ',pr')) : StackGrown L τ τ' sp pr pr' := by
  induction fuel generalizing τ sp pr with
  | zero =>
    cases hr
    exact .refl h hsp hvma hal
  | succ fuel ih =>
    rw [growStackLoop] at hr
    split at hr
    · cases hr
      exact .refl h hsp hvma hal
    rename_i hmore
    split at hr
    · cases hr
      exact .refl h hsp hvma hal
    -- `stack_bot` is a positive multiple of the page size
    have hpos : pgsize≤pr.stackBot := by
      simp only [pgsize] at *
      omega
    have hguard : uintSub pr.stackBot pgsize=pr.stackBot-pgsize :=
      uintSub_of_le hpos (by simp only [wordMod,kernbase] at *; omega)
    have hnext : uintAdd (pr.stackBot-pgsize) pgsize=pr.stackBot := by
      rw [uintAdd_of_lt (by simp only [wordMod,kernbase] at *; omega)]
      omega
    have hal' : (pr.stackBot-pgsize)%pgsize=0 := by
      simp only [pgsize] at *
      omega
    have htop' : pr.stackBot-pgsize<kernbase := by omega
    rw [hsp,some_bind,hguard] at hr
    obtain ⟨n,-,hr⟩:=bind_eq_some_iff.mp hr
    split at hr
    · -- the page is missing and is allocated
      rw [hnext] at hr
      obtain ⟨⟨m,τ1⟩,hs,hr⟩:=bind_eq_some_iff.mp hr
      obtain ⟨sp',ht,-⟩:=allocuvmAs_touches h hs
      have he:=ht.old
      cases hsp.symm.trans he
      have ht1:=ht.mono (fun va => pgrounddown va<pr.stackBot) fun va hc => hc.2.2.2
      have hok1:=allocVmas_ok (pr.stackBot-pgsize) pr.stackBot m (k fuel) hvma
      split at hr
      · simp only [some.injEq,Prod.mk.injEq] at hr
        obtain ⟨-,rfl,rfl⟩:=hr
        exact ⟨_,pr.stackBot,ht1,hok1,allocVmas_size_le,rfl,le_rfl,hal⟩
      · exact .step ht1 allocVmas_size_le (sub_le ..) (ih ht1.inv ht1.space hok1 htop' hal' hr)
    · -- the guard page becomes accessible
      obtain ⟨s,hs,hr⟩:=bind_eq_some_iff.mp hr
      have ht1:=markPteu_touches h hsp htop' hs fun va => pgrounddown va<pr.stackBot
      exact .step ht1 (le_max_left _ _) (sub_le ..) (ih ht1.inv ht1.space hvma htop' hal' hr)
    · cases hr
      exact .refl h hsp hvma hal

lemma procTryGrowStack_grown {pr : ProcImage} (h : SysInv L τ) (hsp : τ.space pr.addrsp=some sp)
    (hvma : VmaOk sp.vma) (htop : pr.stackBot<kernbase) (hal : pr.stackBot%pgsize=0)
    (hr : procTryGrowStack L τ pr fault k c=some (ok,τ',pr')) :
    StackGrown L τ τ' sp pr pr' ∧ (¬ fault<pr.stackBot → τ'=τ ∧ pr'=pr) := by
  unfold procTryGrowStack at hr
  split_ifs at hr with h1 h2 h3
  · cases hr
    exact ⟨.refl h hsp hvma hal,fun _ => ⟨rfl,rfl⟩⟩
  · cases hr
    exact ⟨.refl h hsp hvma hal,fun _ => ⟨rfl,rfl⟩⟩
  · cases hr
    exact ⟨.refl h hsp hvma hal,fun _ => ⟨rfl,rfl⟩⟩
  · exact ⟨growStackLoop_grown _ h hsp hvma htop hal hr,fun hc => absurd (not_le.mp h2) hc⟩

lemma pgrounddown_of_page (h : va/pgsize=pgrounddown fault/pgsize) : pgrounddown va=pgrounddown fault := by
  rw [pgrounddown,h,pgrounddown,Nat.mul_div_cancel _ (by decide)]

lemma faultDemandZero_touches {s : Uvm} (h : SysInv L τ)
    (hsp : τ.space a=some sp) (hr : faultDemandZero L τ.uvm sp.vma sp.pgdir fault c=some (ok,s)) :
    Touches L τ {τ with uvm := s} a sp sp.vma (fun va => ∃ r∈sp.vma.vmas,pgrounddown va<r.vaEnd) := by
  have hstop : Touches L τ {τ with uvm := τ.uvm} a sp sp.vma
    (fun va => ∃ r∈sp.vma.vmas,pgrounddown va<r.vaEnd) := Touches.refl h hsp _
  unfold faultDemandZero at hr
  dsimp only at hr
  split at hr
  · cases hr
    exact hstop
  rename_i r hfind
  obtain ⟨hmem,-,hlt⟩:=mem_of_vmaFind hfind
  have hmap : ∀ w,vmMapZerofillPage L c τ.uvm sp.pgdir (pgrounddown fault) w=some (ok,s) →
      Touches L τ {τ with uvm := s} a sp sp.vma (fun va => ∃ r∈sp.vma.vmas,pgrounddown va<r.vaEnd) := by
    intro w hw
    refine (vmMapZerofillPage_touches h hsp hw).mono _ fun va hsame => ⟨r,hmem,?_⟩
    rw [pgrounddown_of_page hsame]
    exact hlt
  split at hr
  · cases hr
    exact hstop
  obtain ⟨o,-,hr⟩:=bind_eq_some_iff.mp hr
  split at hr
  · split at hr
    · cases hr
      exact hstop
    · exact hmap _ hr
  · exact hmap _ hr

lemma faultCowResolve_touches {s : Uvm} {p w : Bool} (h : SysInv L τ)
    (hsp : τ.space a=some sp) (hr : faultCowResolve L τ.uvm sp.pgdir fault p w c=some (ok,s))
    (R : ℕ → Prop) : Touches L τ {τ with uvm := s} a sp sp.vma R := by
  unfold faultCowResolve at hr
  split at hr
  next hcow => exact cowFault_touches h hsp hcow.2.2 hr R
  · cases hr
    exact Touches.refl h hsp R

section
variable (h : ImagesInv L σ)
include h

lemma vmHandleFault_inv {p w : Bool} (hsane : ∀ pr,σ.proc q=some pr → fault<pr.stackBot → pr.stackTop≤pr.sz)
    (hr : vmHandleFault L σ q fault p w k c=some (ok,σ')) : ImagesInv L σ' := by
  obtain ⟨pr,hq,hr⟩:=bind_eq_some_iff.mp hr
  obtain ⟨⟨sp,hsp,hi⟩,hsz,hbot,htop,hal⟩:=h.proc q pr hq
  rw [hsp,some_bind] at hr
  obtain ⟨⟨ok1,s1⟩,hcow,hr⟩:=bind_eq_some_iff.mp hr
  have ht1:=faultCowResolve_touches h.sys hsp hcow fun _ => False
  have hi1:=ht1.image hi hi.vmas hi.size le_rfl fun _ hc => hc.elim
  dsimp only at hr
  split at hr
  · cases hr
    exact h.updateSys hq ht1.inv (ht1.keepsOthers h.sys) ⟨⟨_,ht1.space,hi1⟩,hsz,hbot,htop,hal⟩
  obtain ⟨⟨ok2,τ2,pr2⟩,hgrow,hr⟩:=bind_eq_some_iff.mp hr
  obtain ⟨hg,hsame⟩:=procTryGrowStack_grown ht1.inv ht1.space hi.vmas (by omega) hal hgrow
  obtain ⟨vma,b,ht2,hok2,hsize2,rfl,hble,hbal⟩:=hg
  have hi2 : ImageInv τ2.uvm {sp with vma := vma} pr.sz := by
    by_cases hf : fault<pr.stackBot
    · have hlim:=hsane pr hq hf
      have hold:=hi.size
      exact ht2.image hi1 hok2 (by dsimp only at hsize2; omega) le_rfl fun va hva => by omega
    obtain ⟨rfl,-⟩:=hsame hf
    have he:=ht2.space
    rw [ht1.space,some.injEq,Space.mk.injEq] at he
    rw [← he.2]
    exact hi1
  have hk2:=(ht1.keepsOthers h.sys).trans (ht2.keepsOthers ht1.inv)
  have hinv2 : ImagesInv L (σ.setProc q τ2 (some {pr with stackBot := b})) :=
    h.update hq ht2.inv hk2 rfl ⟨⟨_,ht2.space,hi2⟩,hsz,hble.trans hbot,htop,hbal⟩
  split at hr
  · cases hr
    exact hinv2
  split at hr
  · cases hr
    exact hinv2
  -- the page is mapped on demand, inside a VMA
  have hspace : (σ.setProc q τ2 (some {pr with stackBot := b})).sys.space pr.addrsp =
    some {sp with vma := vma} := ht2.space
  rw [hspace,some_bind] at hr
  obtain ⟨⟨ok3,s3⟩,hz,hr⟩:=bind_eq_some_iff.mp hr
  cases hr
  have ht3:=faultDemandZero_touches ht2.inv ht2.space hz
  have hq2 : (σ.setProc q τ2 (some {pr with stackBot := b})).proc q=some {pr with stackBot := b} := update_self ..
  refine hinv2.updateSys hq2 ht3.inv (ht3.keepsOthers ht2.inv) ⟨⟨_,ht3.space,?_⟩,hsz,hble.trans hbot,htop,hbal⟩
  refine ht3.image hi2 hi2.vmas hi2.size le_rfl fun va hc => ?_
  obtain ⟨r,hmem,hlt⟩:=hc
  exact hlt.trans_le ((hi2.vmas.2 r hmem).trans hi2.size)

lemma store_images {b : UInt8} (hr : imageStep L σ (.store q va b c)=some σ') : ImagesInv L σ' := by
  obtain ⟨pr,hq,hr⟩:=bind_eq_some_iff.mp hr
  obtain ⟨⟨sp,hsp,hi⟩,hrest⟩:=h.proc q pr hq
  rw [hsp,some_bind] at hr
  obtain ⟨⟨ok,s⟩,hs,hr⟩:=bind_eq_some_iff.mp hr
  cases hr
  have ht:=userStore_touches h.sys hsp hs fun _ => False
  exact h.updateSys hq ht.inv (ht.keepsOthers h.sys)
    ⟨⟨_,ht.space,ht.image hi hi.vmas hi.size le_rfl fun _ hc => hc.elim⟩,hrest⟩

lemma copyout_images {buf : List UInt8} (hr : imageStep L σ (.copyout q va buf c)=some σ') : ImagesInv L σ' := by
  obtain ⟨pr,hq,hr⟩:=bind_eq_some_iff.mp hr
  obtain ⟨⟨sp,hsp,hi⟩,hrest⟩:=h.proc q pr hq
  rw [hsp,some_bind] at hr
  obtain ⟨⟨ok,s⟩,hs,hr⟩:=bind_eq_some_iff.mp hr
  cases hr
  have ht:=copyout_touches h.sys hsp hs
  refine h.updateSys hq ht.inv (ht.keepsOthers h.sys)
    ⟨⟨_,ht.space,ht.image hi hi.vmas hi.size le_rfl fun va' hc => ?_⟩,hrest⟩
  obtain ⟨as,v,has,hmem,hlt⟩:=hc
  cases has
  exact hlt.trans_le ((hi.vmas.2 v hmem).trans hi.size)

lemma exit_images (hr : imageStep L σ (.exit q c)=some σ') : ImagesInv L σ' := by
  obtain ⟨pr,hq,hr⟩:=bind_eq_some_iff.mp hr
  obtain ⟨sys,hs,hr⟩:=bind_eq_some_iff.mp hr
  cases hr
  obtain ⟨hsys,hk⟩:=addressSpaceDestroy_spec h.sys hs
  have hold : ∀ q' pr',(σ.setProc q sys none).proc q'=some pr' → q'≠q ∧ σ.proc q'=some pr' := by
    intro q' pr' hq'
    rcases update_eq_some hq' with ⟨_,hx⟩ | hx
    · cases hx
    · exact hx
  refine ⟨hsys,fun q' pr' hq' => ?_,fun e ld he => ?_,fun q1 q2 pr1 pr2 h1 h2 => ?_,fun q' pr' e ld hq' he => ?_⟩
  · obtain ⟨hne,hx⟩:=hold q' pr' hq'
    exact hk.procOk (fun he => hne (h.own q' q pr' pr hx hq he)) (h.proc q' pr' hx)
  · exact hk.loadingOk (fun hc => h.apart q pr e ld hq he hc.symm) (h.loading e ld he)
  · exact h.own q1 q2 pr1 pr2 (hold q1 pr1 h1).2 (hold q2 pr2 h2).2
  · exact h.apart q' pr' e ld (hold q' pr' hq').2 he

end

end

end Auxv6.Vm

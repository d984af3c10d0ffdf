import Auxv6.Vm.ImageRun

/-! # New images: exec, fork and the first process -/

namespace Auxv6.Vm
open Machine Lib Lib.Transition List Option

section

variable {L : Mem.Layout} {σ σ' : Images} {sys τ τ' : Sys} {sp : Space} {q a e : ℕ} {pr : ProcImage}
  {ld : Loading} {c : Fin ncpu} {s : Uvm}

lemma mapSegmentPages_touches {w ok : Bool} (pages : List ℕ) (h : SysInv L τ) (hsp : τ.space a=some sp)
    (hr : mapSegmentPages L sp.pgdir w c pages τ.uvm=some (ok,s)) :
    Touches L τ {τ with uvm := s} a sp sp.vma (fun va => ∃ p∈pages,va/pgsize=p/pgsize) := by
  induction pages generalizing τ with
  | nil =>
    cases hr
    exact Touches.refl h hsp _
  | cons p rest ih =>
    obtain ⟨⟨ok1,s1⟩,hs,hr⟩:=bind_eq_some_iff.mp hr
    have ht1:=(vmMapZerofillPage_touches h hsp hs).mono (fun va => ∃ p'∈p::rest,va/pgsize=p'/pgsize)
      fun va hva => ⟨p,mem_cons_self ..,hva⟩
    cases ok1 with
    | false =>
      cases hr
      exact ht1
    | true =>
      have ht2:=ih ht1.inv hsp hr
      exact ht1.trans (ht2.mono _ fun va ⟨p',hp',hva⟩ => ⟨p',mem_cons_of_mem _ hp',hva⟩)

variable {ph : Proghdr} {k : Bool}

lemma pages_below {va p : ℕ} (hp : p∈ph.pages) (hva : va/pgsize=p/pgsize) :
    pgrounddown va<uintAdd ph.vaddr ph.memsz := by
  obtain ⟨k,hk,rfl⟩:=mem_map.mp hp
  rw [mem_range] at hk
  have he : (ph.vaddr+ph.memsz)%wordMod=uintAdd ph.vaddr ph.memsz := rfl
  simp only [pgroundup,pgrounddown,pgsize,wordMod] at *
  omega

lemma execMapLoadSegment_end {vma : AddressSpace} (hmem : ph.memsz≠0)
    (hsane : ph.Sane) (hr : ¬ (execMapLoadSegment k (fun _ => true) vma ph).1<0) :
    uintAdd ph.vaddr ph.memsz<kernbase := by
  have hno : ¬ (pgroundup ((ph.vaddr+ph.memsz)%wordMod)<pgrounddown ph.vaddr ∨
      kernbase≤pgroundup ((ph.vaddr+ph.memsz)%wordMod)) := by
    intro hc
    rw [execMapLoadSegment,if_neg hmem] at hr
    rw [if_pos hc] at hr
    exact hr (show (-1 : ℤ)<0 by decide)
  have he : (ph.vaddr+ph.memsz)%wordMod=uintAdd ph.vaddr ph.memsz := rfl
  unfold Proghdr.Sane at hsane
  simp only [pgroundup,pgrounddown,pgsize,wordMod,kernbase] at *
  omega

lemma execMapLoadSegment_size (k : Bool) (f : ℕ → Bool) (vma : AddressSpace) (ph : Proghdr) :
    (execMapLoadSegment k f vma ph).2.vmSize ≤ max vma.vmSize (uintAdd ph.vaddr ph.memsz) := by
  rcases execMapLoadSegment_cases k f vma ph with he | he | ⟨he,-⟩
  · rw [he]
    exact le_max_left _ _
  · rw [he]
    exact le_rfl
  · rw [he]
    exact (vmaInsert_vmSize k vma ph.vma).le.trans (le_max_left _ _)

lemma execMapSegment_spec {ok : Bool} (h : SysInv L τ) (hsp : τ.space e=some sp)
    (hsane : ph.Sane) (hr : execMapSegment L τ e ph k c=some (ok,τ')) :
    SysInv L τ' ∧ KeepsOthers τ τ' e ∧ (ok=true → ∀ sz,ImageInv τ.uvm sp sz →
      (ph.memsz=0 ∨ uintAdd ph.vaddr ph.memsz<kernbase) ∧ ∃ sp',τ'.space e=some sp' ∧
        ImageInv τ'.uvm sp' (max sz (uintAdd ph.vaddr ph.memsz))) := by
  rw [execMapSegment,hsp,some_bind] at hr
  split at hr
  next hmem =>
    cases hr
    refine ⟨h,(Touches.refl h hsp fun _ => False).keepsOthers h,fun _ sz hi => ⟨.inl hmem,sp,hsp,?_⟩⟩
    exact ⟨hi.vmas,hi.size.trans (le_max_left _ _),fun va hva hab =>
      hi.absent va hva ((le_max_left _ _).trans hab)⟩
  rename_i hmem
  split at hr
  · cases hr
    exact ⟨h,(Touches.refl h hsp fun _ => False).keepsOthers h,(fun hc => by cases hc)⟩
  rename_i hok
  have hend:=execMapLoadSegment_end hmem hsane hok
  obtain ⟨⟨ok',s⟩,hs,hr⟩:=bind_eq_some_iff.mp hr
  cases hr
  have ht:=mapSegmentPages_touches ph.pages h hsp hs
  have hsize:=execMapLoadSegment_size k (fun _ => ok') sp.vma ph
  have hold:=h.size e sp hsp
  have hvm : (execMapLoadSegment k (fun _ => ok') sp.vma ph).2.vmSize≤kernbase := by omega
  have ht':=h.touches hsp hvm ht.inv.inv ht.inv.excl ht.maps
  refine ⟨ht'.inv,ht'.keepsOthers h,fun hc sz hi => ⟨.inr hend,_,ht'.space,?_⟩⟩
  subst hc
  have hpages : ph.pages.all (fun _ => true)=true := all_eq_true.mpr fun _ _ => rfl
  have hle:=hi.size
  refine ht'.image hi ⟨execMapLoadSegment_rep k _ sp.vma ph hi.vmas.1,
    execMapLoadSegment_insideVmSize hi.vmas.2 (.inl hpages)⟩ (by omega) (le_max_left _ _) fun va hva => ?_
  obtain ⟨p,hp,hva⟩:=hva
  exact (pages_below hp hva).trans_le (le_max_right _ _)

lemma loadLoop_page {file : Reads} {d offset addr sz : ℕ} {ok : Bool} {s s' : Uvm} (fuel i : ℕ)
    (hr : loadLoop file d offset addr sz fuel i s=some (ok,s')) : ∃ page,s'={s with page := page} := by
  induction fuel generalizing i s with
  | zero =>
    cases hr
    exact ⟨_,rfl⟩
  | succ fuel ih =>
    rw [loadLoop] at hr
    split at hr
    · cases hr
      exact ⟨_,rfl⟩
    dsimp only at hr
    split at hr
    · cases hr
    split at hr
    · cases hr
    split at hr
    · cases hr
      exact ⟨_,rfl⟩
    split at hr
    · obtain ⟨page,rfl⟩:=ih _ hr
      exact ⟨page,rfl⟩
    · cases hr
      exact ⟨_,rfl⟩

lemma loaduvm_page {file : Reads} {d offset addr sz : ℕ} {ok : Bool} {s s' : Uvm}
    (hr : loaduvm file s d addr offset sz=some (ok,s')) : ∃ page,s'={s with page := page} := by
  unfold loaduvm at hr
  split at hr
  · cases hr
    exact ⟨_,rfl⟩
  · exact loadLoop_page _ _ hr

lemma dropImage_inv (h : ImagesInv L σ) (he : σ.loading e=some ld) (hsys : SysInv L sys)
    (hk : KeepsOthers σ.sys sys e) (hr : Images.destroy L {σ with sys := sys} e c=some σ') : ImagesInv L σ' := by
  obtain ⟨sys',hs,rfl⟩:=map_eq_some_iff.mp hr
  obtain ⟨hsys',hk'⟩:=addressSpaceDestroy_spec hsys hs
  exact h.updateLoading he hsys' (hk.trans hk') (fun _ hc => by cases hc)

lemma loadSegment_spec {filesz sz : ℕ} {file : Reads} {o : Option ℕ} (h : SysInv L τ)
    (hsp : τ.space e=some sp) (hi : ImageInv τ.uvm sp sz) (hsane : ph.Sane)
    (hr : loadSegment L τ e ph filesz file sz k c=some (o,τ')) : SysInv L τ' ∧ KeepsOthers τ τ' e ∧
      ∀ sz'∈o,sz' ≤ max sz kernbase ∧ ∃ sp',τ'.space e=some sp' ∧ ImageInv τ'.uvm sp' sz' := by
  unfold loadSegment at hr
  split at hr
  · cases hr
    exact ⟨h,(Touches.refl h hsp fun _ => False).keepsOthers h,nofun⟩
  obtain ⟨⟨ok,τ1⟩,hs,hr⟩:=bind_eq_some_iff.mp hr
  obtain ⟨hsys,hk,himg⟩:=execMapSegment_spec h hsp hsane hs
  dsimp only at hr
  split at hr
  · cases hr
    exact ⟨hsys,hk,nofun⟩
  rename_i hok
  obtain ⟨hend,sp',hsp',hi'⟩:=himg (not_not.mp hok) _ hi
  rw [hsp',some_bind] at hr
  obtain ⟨⟨ok',s⟩,hload,hr⟩:=bind_eq_some_iff.mp hr
  obtain ⟨page,rfl⟩:=loaduvm_page hload
  have ht : Touches L τ1 {τ1 with uvm := {τ1.uvm with page := page}} e sp' sp'.vma (fun _ => False) :=
    hsys.touchesUvm hsp' (hsys.inv.setPages page) hsys.excl (mapsWithin_setPages page _)
  have hk':=hk.trans (ht.keepsOthers hsys)
  split at hr
  · cases hr
    exact ⟨ht.inv,hk',nofun⟩
  cases hr
  refine ⟨ht.inv,hk',fun sz' hsz' => ?_⟩
  cases hsz'
  refine ⟨max_le_max le_rfl ?_,_,ht.space,ht.image hi' hi'.vmas hi'.size le_rfl fun _ hc => hc.elim⟩
  -- an empty segment lies in the user half by assumption
  rcases hend with hz | hlt
  · exact hsane.resolve_right fun hc => hc.1 hz
  · exact hlt.le

lemma segment_inv {filesz : ℕ} {file : Reads} (h : ImagesInv L σ) (hsane : ph.Sane)
    (hr : σ.segment L e ph filesz file k c=some σ') : ImagesInv L σ' := by
  obtain ⟨ld,he,hr⟩:=bind_eq_some_iff.mp hr
  obtain ⟨⟨sp,hsp,hi⟩,hsz,-⟩:=h.loading e ld he
  split at hr
  · cases hr
  rename_i hnot
  obtain ⟨⟨o,τ⟩,hs,hr⟩:=bind_eq_some_iff.mp hr
  obtain ⟨hsys,hk,himg⟩:=loadSegment_spec h.sys hsp hi hsane hs
  cases o with
  | none => exact dropImage_inv h he hsys hk hr
  | some sz =>
    cases hr
    obtain ⟨hle,himg⟩:=himg sz rfl
    refine h.updateLoading he hsys hk fun ld' hld' => ?_
    cases hld'
    exact ⟨himg,hle.trans (max_le hsz le_rfl),fun hc => absurd hc hnot⟩

lemma hidePages_touches (pages : List ℕ) (h : SysInv L τ) (hsp : τ.space a=some sp)
    (hr : hidePages sp.pgdir pages τ.uvm=some s) : Touches L τ {τ with uvm := s} a sp sp.vma (fun _ => False) := by
  induction pages generalizing τ with
  | nil =>
    cases hr
    exact Touches.refl h hsp _
  | cons p rest ih =>
    rw [hidePages] at hr
    split at hr
    · exact ih h hsp hr
    rename_i hlt
    obtain ⟨s1,hs,hr⟩:=bind_eq_some_iff.mp hr
    have ht1:=markPteu_touches h hsp (not_le.mp hlt) hs fun _ => False
    exact ht1.trans (ih ht1.inv hsp hr)

section
variable (h : ImagesInv L σ)
include h

lemma stack_inv (hr : σ.stack L e k c=some σ') : ImagesInv L σ' := by
  obtain ⟨ld,he,hr⟩:=bind_eq_some_iff.mp hr
  obtain ⟨⟨sp,hsp,hi⟩,hsz,-⟩:=h.loading e ld he
  split at hr
  · cases hr
  obtain ⟨⟨o,τ'⟩,hstack,hr⟩:=bind_eq_some_iff.mp hr
  obtain ⟨hup,hdown,hal⟩:=pgroundup_bounds hsz
  unfold mapStack at hstack
  generalize pgroundup ld.sz=base at *
  have hadd : uintAdd base stackTotal=base+stackTotal := uintAdd_of_lt (by
    simp only [stackTotal,userStackGuardPages,userStackMaxPages,pgsize,wordMod,kernbase] at *
    omega)
  dsimp only at hstack
  rw [hadd] at hstack
  obtain ⟨⟨m,τ⟩,hs,hstack⟩:=bind_eq_some_iff.mp hstack
  obtain ⟨sp',ht,hres⟩:=allocuvmAs_touches h.sys hs
  have hold:=ht.old
  cases hsp.symm.trans hold
  have hk:=ht.keepsOthers h.sys
  split at hstack
  · cases hstack
    exact dropImage_inv h he ht.inv hk hr
  rename_i hz
  have hm : m=base+stackTotal ∧ m<kernbase := by omega
  have hi':=image_of_grown m hi ht (by omega) hm.1.ge
  rw [ht.space,some_bind] at hstack
  obtain ⟨s,hs',hstack⟩:=bind_eq_some_iff.mp hstack
  cases hstack
  cases hr
  have ht':=hidePages_touches _ ht.inv ht.space hs'
  refine h.updateLoading he ht'.inv (hk.trans (ht'.keepsOthers ht.inv)) fun ld' hld' => ?_
  cases hld'
  refine ⟨⟨_,ht'.space,ht'.image hi' hi'.vmas hi'.size le_rfl fun _ hc => hc.elim⟩,hm.2.le,fun _ =>
    ⟨by dsimp only; omega,hm.2,?_⟩⟩
  simp only [stackTotal,userStackGuardPages,userStackMaxPages,pgsize] at *
  omega

lemma copyArg_inv {va : ℕ} {buf : List UInt8} (hr : σ.copyArg L e va buf c=some σ') : ImagesInv L σ' := by
  obtain ⟨ld,he,hr⟩:=bind_eq_some_iff.mp hr
  obtain ⟨⟨sp,hsp,hi⟩,hrest⟩:=h.loading e ld he
  rw [hsp,some_bind] at hr
  obtain ⟨⟨r,s⟩,hs,hr⟩:=bind_eq_some_iff.mp hr
  have ht:=(copyout_touches h.sys hsp hs).mono (fun _ => False) fun va' ⟨as,v,has,_⟩ => by cases has
  have hk:=ht.keepsOthers h.sys
  split at hr
  · cases hr
    have hsame : ({σ with sys := {σ.sys with uvm := s}} : Images) =
        σ.setLoading e {σ.sys with uvm := s} (some ld) := by
      rw [Images.setLoading,← he,Function.update_eq_self]
    rw [hsame]
    refine h.updateLoading he ht.inv hk fun ld' hld' => ?_
    cases hld'
    exact ⟨⟨_,ht.space,ht.image hi hi.vmas hi.size le_rfl fun _ hc => hc.elim⟩,hrest⟩
  · exact dropImage_inv h he ht.inv hk hr

lemma commit_inv (hr : σ.commit L q e c=some σ') : ImagesInv L σ' := by
  obtain ⟨ld,he,hr⟩:=bind_eq_some_iff.mp hr
  obtain ⟨pr,hq,hr⟩:=bind_eq_some_iff.mp hr
  split at hr
  · cases hr
  rename_i hst
  obtain ⟨r,hs,hr⟩:=bind_eq_some_iff.mp hr
  obtain ⟨sys,hdrop,heq⟩:=bind_eq_some_iff.mp hs
  cases heq
  cases hr
  obtain ⟨hsys,hk⟩:=addressSpaceDestroy_spec h.sys hdrop
  have hne:=h.apart q pr e ld hq he
  obtain ⟨⟨sp,hsp,hi⟩,-,hstack⟩:=hk.loadingOk hne.symm (h.loading e ld he)
  obtain ⟨htotal,hlt,hal⟩:=hstack (not_not.mp hst)
  have hsub : uintSub ld.sz (userStackPages*pgsize)=ld.sz-userStackPages*pgsize :=
    uintSub_of_le (by
      simp only [stackTotal,userStackGuardPages,userStackMaxPages,userStackPages,pgsize] at *
      omega) (by simp only [wordMod,kernbase] at *; omega)
  have hnew : ProcOk sys ⟨e,ld.sz,ld.sz,uintSub ld.sz (userStackPages*pgsize)⟩ := by
    refine ⟨⟨sp,hsp,hi⟩,hlt,?_,hlt,?_⟩
    · rw [hsub]
      exact Nat.sub_le ..
    · rw [hsub]
      simp only [userStackPages,pgsize] at *
      omega
  refine ⟨hsys,fun q' pr' hq' => ?_,fun e' ld' he' => ?_,fun q1 q2 pr1 pr2 h1 h2 heq => ?_,
    fun q' pr' e' ld' hq' he' => ?_⟩
  · rcases update_eq_some hq' with ⟨_,hx⟩ | ⟨hne',hx⟩
    · cases hx
      exact hnew
    · exact hk.procOk (fun hc => hne' (h.own q' q pr' pr hx hq hc)) (h.proc q' pr' hx)
  · rcases update_eq_some he' with ⟨_,hx⟩ | ⟨_,hx⟩
    · cases hx
    · exact hk.loadingOk (fun hc => h.apart q pr e' ld' hq hx hc.symm) (h.loading e' ld' hx)
  · rcases update_eq_some h1 with ⟨e1,hx1⟩ | ⟨_,hx1⟩ <;>
      rcases update_eq_some h2 with ⟨e2,hx2⟩ | ⟨_,hx2⟩
    · rw [e1,e2]
    · cases hx1
      exact absurd heq.symm (h.apart q2 pr2 e ld hx2 he)
    · cases hx2
      exact absurd heq (h.apart q1 pr1 e ld hx1 he)
    · exact h.own q1 q2 pr1 pr2 hx1 hx2 heq
  · rcases update_eq_some he' with ⟨_,hx⟩ | ⟨hne',hx⟩
    · cases hx
    rcases update_eq_some hq' with ⟨_,hy⟩ | ⟨_,hy⟩
    · cases hy
      exact hne'.symm
    · exact h.apart q' pr' e' ld' hy hx

lemma ImagesInv.addrsp_ne (hnone : σ.sys.space a=none) :
    (∀ q pr,σ.proc q=some pr → pr.addrsp≠a) ∧ ∀ e ld,σ.loading e=some ld → e≠a := by
  constructor
  · rintro q pr hq rfl
    obtain ⟨⟨sp,hsp,-⟩,-⟩:=h.proc q pr hq
    rw [hnone] at hsp
    cases hsp
  rintro e ld he rfl
  obtain ⟨⟨sp,hsp,-⟩,-⟩:=h.loading e ld he
  rw [hnone] at hsp
  cases hsp

lemma ImagesInv.ofFresh (hnone : σ.sys.space a=none) (hsys : SysInv L sys)
    (hk : KeepsOthers σ.sys sys a) : ImagesInv L {σ with sys := sys} := by
  obtain ⟨hp,hl⟩:=h.addrsp_ne hnone
  exact ⟨hsys,fun q pr hq => hk.procOk (hp q pr hq) (h.proc q pr hq),
    fun e ld he => hk.loadingOk (hl e ld he) (h.loading e ld he),h.own,h.apart⟩

lemma fork_inv {child : ℕ} {allocOk : Bool} (hr : fork L σ q child a allocOk k c=some σ') : ImagesInv L σ' := by
  obtain ⟨pr,hq,hr⟩:=bind_eq_some_iff.mp hr
  obtain ⟨⟨sp,hsp,hi⟩,hrest⟩:=h.proc q pr hq
  split at hr
  next sp' hchild hsp' hnone =>
    cases hsp.symm.trans hsp'
    obtain ⟨⟨o,sys⟩,hs,hr⟩:=bind_eq_some_iff.mp hr
    obtain ⟨hsys,hk,hforked⟩:=dupCowExec_spec h.sys hsp hnone hs
    rcases hforked with rfl | ⟨n,rfl,himg⟩
    · cases hr
      exact h.ofFresh hnone hsys hk
    cases hr
    obtain ⟨sp',hsp',hi'⟩:=himg pr.sz hi
    obtain ⟨hp,hl⟩:=h.addrsp_ne hnone
    have hnew : ProcOk sys {pr with addrsp := a} := ⟨⟨sp',hsp',hi'⟩,hrest⟩
    exact h.setProc hsys hk (fun q' pr' _ => hp q' pr') hl rfl hnew
  · cases hr

lemma execCreate_images (hr : imageStep L σ (.execCreate e k c)=some σ') : ImagesInv L σ' := by
  rw [imageStep] at hr
  split at hr
  · cases hr
  rename_i hnone
  obtain ⟨⟨o,sys⟩,hs,hr⟩:=bind_eq_some_iff.mp hr
  obtain ⟨hsys,hk,hnew⟩:=createExec_spec h.sys hnone hs
  rcases hnew with ⟨rfl,-⟩ | ⟨rfl,sp,hsp,hi⟩
  · cases hr
    exact h.ofFresh hnone hsys hk
  cases hr
  refine h.setLoading hsys hk (h.addrsp_ne hnone).1 fun ld' hld' => ?_
  cases hld'
  exact ⟨⟨_,hsp,hi⟩,Nat.zero_le _,(fun hc => by cases hc)⟩

lemma userinit_inv {k' : Bool} (hr : userinit L σ q a k k' c=some σ') : ImagesInv L σ' := by
  unfold userinit at hr
  split at hr
  next hq hnone =>
    obtain ⟨⟨o,τ⟩,hs,hr⟩:=bind_eq_some_iff.mp hr
    obtain ⟨hsys,hk,hnew⟩:=createExec_spec h.sys hnone hs
    obtain ⟨sp,hsp,hr⟩:=bind_eq_some_iff.mp hr
    rcases hnew with ⟨-,hno⟩ | ⟨-,sp',hsp',hi⟩
    · dsimp only at hsp
      rw [hno] at hsp
      cases hsp
    obtain ⟨⟨m,τ1⟩,hs1,hr⟩:=bind_eq_some_iff.mp hr
    obtain ⟨sp1,ht1,hres⟩:=allocuvmAs_touches hsys hs1
    have hold:=ht1.old
    cases hsp'.symm.trans hold
    cases hsp'.symm.trans hsp
    split at hr
    · cases hr
    rename_i hz
    have hm : m=pgsize := by
      omega
    obtain ⟨s,hs2,hr⟩:=bind_eq_some_iff.mp hr
    cases hr
    have hva : uintSub m pgsize<kernbase := by
      rw [hm]
      decide
    have ht2:=markPteu_touches ht1.inv ht1.space hva hs2 fun _ => False
    have hi1:=image_of_grown m hi ht1 (Nat.zero_le _) hm.ge
    obtain ⟨hp,hl⟩:=h.addrsp_ne hnone
    refine h.setProc ht2.inv ((hk.trans (ht1.keepsOthers hsys)).trans (ht2.keepsOthers ht1.inv))
      (fun q' pr' _ => hp q' pr') hl rfl ⟨⟨_,ht2.space,?_⟩,?_⟩
    · exact ht2.image hi1 hi1.vmas hi1.size le_rfl fun _ hc => hc.elim
    · rw [hm]
      exact ⟨show pgsize<kernbase by decide,le_rfl,show 0<kernbase by decide,rfl⟩
  · cases hr

end

end

end Auxv6.Vm

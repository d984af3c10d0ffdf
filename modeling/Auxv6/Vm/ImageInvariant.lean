import Auxv6.Vm.Presence
import Auxv6.Vm.ProcImage
import Auxv6.Vm.VmaRun

/-!
# What the calls on images keep

Each image maps no page above its size, and its VMAs lie below it.
-/

namespace Auxv6.Vm
open Machine Lib Option Set

structure SysInv (L : Mem.Layout) (σ : Sys) : Prop where
  inv : UvmInv L σ.dirs [] σ.uvm
  excl : Excl σ.dirs σ.dirs σ.uvm
  inj : ∀ a b sp sp',σ.space a=some sp → σ.space b=some sp' → sp.pgdir=sp'.pgdir → a=b
  size : ∀ a sp,σ.space a=some sp → sp.vma.vmSize≤kernbase

def Sys.memory (σ : Sys) : Memory := fun a va =>
  match σ.space a with
  | some sp => bytes σ.uvm sp.pgdir va
  | none => 0
def VmaOk (vma : AddressSpace) : Prop := vma.Rep ∧ vma.InsideVmSize

structure ImageInv (s : Uvm) (sp : Space) (sz : ℕ) : Prop where
  vmas : VmaOk sp.vma
  size : sp.vma.vmSize ≤ sz
  absent : ∀ va<kernbase,sz≤pgrounddown va → view s sp.pgdir va=none

def KeepsOthers (σ σ' : Sys) (a : ℕ) : Prop :=
  ∀ b sp,b≠a → σ.space b=some sp → σ'.space b=some sp ∧
    ∀ va<kernbase,view σ.uvm sp.pgdir va=none → view σ'.uvm sp.pgdir va=none

structure Touches (L : Mem.Layout) (σ σ' : Sys) (a : ℕ) (sp : Space) (vma : AddressSpace)
    (R : ℕ → Prop) : Prop where
  old : σ.space a=some sp
  eq : σ'=σ.set a σ'.uvm (some {sp with vma := vma})
  inv : SysInv L σ'
  maps : MapsWithin σ.dirs (fun d va => d=sp.pgdir ∧ R va) σ.uvm σ'.uvm

section

variable {L : Mem.Layout} {σ σ' σ'' : Sys} {a b sz sz' : ℕ} {sp : Space} {vma vma' : AddressSpace}
  {R : ℕ → Prop} {s : Uvm} {c : Fin ncpu}

lemma PairedInv.sysInv {p : Paired} (h : PairedInv L p) : SysInv L p.sys := ⟨h.inv,h.excl,h.inj,h.size⟩
lemma SysInv.paired (h : SysInv L σ) : PairedInv L ⟨σ,σ.memory⟩ := by
  refine ⟨h.inv,h.excl,h.inj,h.size,fun b sp hb va _ => ?_⟩
  dsimp only [Sys.memory]
  rw [hb]

variable {o : Outcome} {k ok : Bool} {oldsz newsz r va : ℕ}

lemma exec_sysInv {act : CowAction} (h : SysInv L σ) (hr : exec L σ act=some (o,σ')) : SysInv L σ' := by
  have hstep : pairedStep L ⟨σ,σ.memory⟩ act=some ⟨σ',refStep σ.memory act o⟩ := by
    rw [pairedStep,hr]
    rfl
  exact (pairedStep_inv _ act _ h.paired hstep).sysInv

section
variable (h : SysInv L σ) (hsp : σ.space a=some sp) (hsize : vma.vmSize≤kernbase) (hi : UvmInv L σ.dirs [] s)
  (hx : Excl σ.dirs σ.dirs s)
include h hsp hsize hi hx

lemma SysInv.set : SysInv L (σ.set a s (some {sp with vma := vma})) := by
  have hdirs:=dirs_set_same hsp s vma
  have hspace : ∀ b sp',(σ.set a s (some {sp with vma := vma})).space b=some sp' →
      ∃ sp0,σ.space b=some sp0 ∧ sp0.pgdir=sp'.pgdir ∧ sp'.vma.vmSize≤kernbase := by
    intro b sp' hb
    rw [set_space] at hb
    split at hb
    next he =>
      cases hb
      exact ⟨sp,he ▸ hsp,rfl,hsize⟩
    · exact ⟨sp',hb,rfl,h.size b sp' hb⟩
  refine ⟨hdirs.symm ▸ hi,hdirs.symm ▸ hx,fun b b' sp1 sp2 h1 h2 he => ?_,fun b sp' hb => ?_⟩
  · obtain ⟨sp1',h1',he1,_⟩:=hspace b sp1 h1
    obtain ⟨sp2',h2',he2,_⟩:=hspace b' sp2 h2
    exact h.inj b b' sp1' sp2' h1' h2' (by rw [he1,he2,he])
  · exact (hspace b sp' hb).choose_spec.2.2

lemma SysInv.touches (hm : MapsWithin σ.dirs (fun d va => d=sp.pgdir ∧ R va) σ.uvm s) :
    Touches L σ (σ.set a s (some {sp with vma := vma})) a sp vma R :=
  ⟨hsp,rfl,h.set hsp hsize hi hx,hm⟩

end

lemma SysInv.touchesUvm (h : SysInv L σ) (hsp : σ.space a=some sp) (hi : UvmInv L σ.dirs [] s)
    (hx : Excl σ.dirs σ.dirs s) (hm : MapsWithin σ.dirs (fun d va => d=sp.pgdir ∧ R va) σ.uvm s) :
    Touches L σ {σ with uvm := s} a sp sp.vma R := by
  rw [set_same hsp]
  exact h.touches hsp (h.size a sp hsp) hi hx hm

section
variable (ht : Touches L σ σ' a sp vma R)
include ht

lemma Touches.space : σ'.space a=some {sp with vma := vma} := by
  rw [ht.eq,set_space,if_pos rfl]
lemma Touches.dirs : σ'.dirs=σ.dirs := by
  rw [ht.eq,dirs_set_same ht.old]

lemma Touches.trans (ht' : Touches L σ' σ'' a {sp with vma := vma} vma' R) : Touches L σ σ'' a sp vma' R := by
  refine ⟨ht.old,?_,ht'.inv,ht.maps.trans (ht.dirs ▸ ht'.maps)⟩
  have hspace : σ'.space=Function.update σ.space a (some {sp with vma := vma}) := by
    rw [ht.eq]
    rfl
  calc σ'' = σ'.set a σ''.uvm (some {sp with vma := vma'}) := ht'.eq
    _ = σ.set a σ''.uvm (some {sp with vma := vma'}) := by
      rw [Sys.set,Sys.set,hspace,Function.update_idem]

lemma Touches.mono (R' : ℕ → Prop) (hR : ∀ va,R va → R' va) : Touches L σ σ' a sp vma R' :=
  ⟨ht.old,ht.eq,ht.inv,ht.maps.mono fun _ va h => ⟨h.1,hR va h.2⟩⟩

end

lemma Touches.refl (h : SysInv L σ) (hsp : σ.space a=some sp) (R : ℕ → Prop) :
    Touches L σ σ a sp sp.vma R := h.touchesUvm hsp h.inv h.excl (MapsWithin.refl _ _ _)

lemma Touches.keepsOthers (ht : Touches L σ σ' a sp vma R) (h : SysInv L σ) : KeepsOthers σ σ' a := by
  intro b sp' hb hsp'
  refine ⟨?_,fun va hva => ht.maps _ (mem_dirs hsp') va hva fun hc => hb ?_⟩
  · rw [ht.eq,set_space,if_neg hb]
    exact hsp'
  · exact h.inj b a sp' sp hsp' ht.old hc.1

lemma Touches.image (ht : Touches L σ σ' a sp vma R) (hi : ImageInv σ.uvm sp sz) (hok : VmaOk vma)
    (hsize : vma.vmSize ≤ sz') (hle : sz ≤ sz') (hR : ∀ va,R va → pgrounddown va<sz') :
    ImageInv σ'.uvm {sp with vma := vma} sz' := by
  refine ⟨hok,hsize,fun va hva habove => ?_⟩
  refine ht.maps _ (mem_dirs ht.old) va hva (fun hc => ?_) (hi.absent va hva (hle.trans habove))
  have := hR va hc.2
  omega

lemma vmaExpand_ok (k : Bool) (n : ℕ) (h : VmaOk vma) : VmaOk (vmaExpand k vma n).2 :=
  ⟨(vmaExpand_grows k vma n).rep h.1,(vmaExpand_grows k vma n).insideVmSize h.2⟩
lemma vmaShrink_ok (n : ℕ) (h : VmaOk vma) : VmaOk (vmaShrink vma n).2 :=
  ⟨vmaShrink_rep vma n h.1,vmaShrink_insideVmSize vma n h.1 h.2⟩

lemma Grows.size {n : ℕ} {res : Int × AddressSpace} (hg : Grows k vma n res) : res.2.vmSize ≤ max vma.vmSize n := by
  cases hg with
  | unchanged e => exact le_max_left _ _
  | extend => exact le_max_right _ _
  | append => exact le_max_right _ _

lemma vmaShrink_size_le (n : ℕ) : (vmaShrink vma n).2.vmSize≤n := by
  unfold vmaShrink
  split_ifs with h1 h2
  · exact h1.le
  · exact h2.ge
  · exact le_rfl

lemma allocVmas_ok (oldsz newsz r : ℕ) (k : Bool) (h : VmaOk vma) : VmaOk (allocVmas vma oldsz newsz r k) := by
  unfold allocVmas
  split_ifs
  · exact h
  · exact vmaExpand_ok k newsz h
  · exact vmaShrink_ok oldsz h

lemma allocVmas_size_le : (allocVmas vma oldsz newsz r k).vmSize ≤ max vma.vmSize newsz := by
  unfold allocVmas
  split_ifs
  · exact le_max_left _ _
  · exact (vmaExpand_grows k vma newsz).size
  · exact (vmaShrink_size vma oldsz).trans (le_max_left _ _)

lemma allocVmas_size_of_fail (hr : r≠newsz) : (allocVmas vma oldsz newsz r k).vmSize≤vma.vmSize := by
  rw [allocVmas,if_neg hr]
  split
  · exact le_rfl
  · exact vmaShrink_size vma oldsz

lemma allocuvm_result {n d : ℕ} {s s' : Uvm} {D : Set ℕ} (h : UvmInv L D [] s)
    (hx : Excl D D s) (hd : d∈D) (hr : allocuvm L c s d oldsz newsz=some (n,s')) :
    n=0 ∨ (n=newsz ∧ newsz<kernbase ∧ oldsz≤newsz) ∨ (n=oldsz ∧ newsz<oldsz ∧ s'=s) := by
  unfold allocuvm at hr
  split_ifs at hr with hbig hsmall
  · cases hr
    exact .inl rfl
  · cases hr
    exact .inr (.inr ⟨rfl,hsmall,rfl⟩)
  have hr' : allocuvm L c s d oldsz newsz=some (n,s') := by
    rw [allocuvm,if_neg hbig,if_neg hsmall]
    exact hr
  obtain ⟨-,⟨-,hno⟩ | ⟨hlt,hle,hg⟩⟩:=h.allocuvm hx hd hr'
  · omega
  · rcases hg.range with ⟨he,-⟩ | ⟨he,-⟩
    · exact .inr (.inl ⟨he,hlt,hle⟩)
    · exact .inl he

lemma allocuvmAs_touches (h : SysInv L σ) (hr : allocuvmAs L σ a oldsz newsz k c=some (r,σ')) :
    ∃ sp,Touches L σ σ' a sp (allocVmas sp.vma oldsz newsz r k)
        (fun va => r=newsz ∧ newsz<kernbase ∧ grown oldsz newsz va) ∧
      (r=0 ∨ (r=newsz ∧ newsz<kernbase ∧ oldsz≤newsz) ∨ (r=oldsz ∧ newsz<oldsz)) := by
  obtain ⟨sp,hsp,hr⟩:=bind_eq_some_iff.mp hr
  obtain ⟨⟨n,s⟩,hs,hr⟩:=bind_eq_some_iff.mp hr
  cases hr
  have hd:=mem_dirs hsp
  obtain ⟨hi,hcase⟩:=h.inv.allocuvm h.excl hd hs
  have hx : Excl σ.dirs σ.dirs s := by
    rcases hcase with ⟨rfl,-⟩ | ⟨-,-,hg⟩
    · exact h.excl
    · exact hg.excl
  refine ⟨sp,h.touches hsp (allocVmas_size (h.size a sp hsp)) hi hx ?_,?_⟩
  · by_cases hn : n=newsz
    · exact (allocuvm_mapsWithin h.inv h.excl hd hs).mono fun d va hc => ⟨hc.1,hn,hc.2⟩
    · exact allocuvm_failed_mapsWithin h.inv h.excl hd hs hn _
  rcases allocuvm_result h.inv h.excl hd hs with hz | hn | hn
  · exact .inl hz
  · exact .inr (.inl hn)
  · exact .inr (.inr ⟨hn.1,hn.2.1⟩)

lemma image_of_grown (sz' : ℕ) (hi : ImageInv σ.uvm sp sz)
    (ht : Touches L σ σ' a sp (allocVmas sp.vma oldsz newsz r k)
      (fun va => r=newsz ∧ newsz<kernbase ∧ grown oldsz newsz va)) (hsz : sz ≤ sz') (hnew : newsz ≤ sz') :
    ImageInv σ'.uvm {sp with vma := allocVmas sp.vma oldsz newsz r k} sz' := by
  have h1:=hi.size
  have h2 : (allocVmas sp.vma oldsz newsz r k).vmSize ≤ max sp.vma.vmSize newsz := allocVmas_size_le
  refine ht.image hi (allocVmas_ok _ _ _ _ hi.vmas) ?_ hsz fun va hc => ?_
  · omega
  · have := hc.2.2.2
    omega

section
variable (h : SysInv L σ)
include h

section
variable (hsp : σ.space a=some sp)
include hsp

lemma markPteu_touches {enabled : Bool}
    (hva : va<kernbase) (hr : markPteu σ.uvm sp.pgdir va enabled=some s) (R : ℕ → Prop) :
    Touches L σ {σ with uvm := s} a sp sp.vma R := by
  have h':=(markPteu_inv h.paired hsp hva enabled hr).sysInv
  exact h.touchesUvm hsp h'.inv h'.excl (markPteu_mapsWithin h.inv (mem_dirs hsp) hva hr _)

lemma cowFault_touches (hva : va<kernbase) (hr : cowFault L c σ.uvm sp.pgdir va=some (ok,s)) (R : ℕ → Prop) :
    Touches L σ {σ with uvm := s} a sp sp.vma R := by
  obtain ⟨ok',s',heq,hi,hx,hs⟩:=h.inv.cowFault h.excl (mem_dirs hsp) hva c
  rw [hr] at heq
  cases heq
  exact h.touchesUvm hsp hi hx (hs.mapsWithin _)

lemma vmMapZerofillPage_touches {w : Bool} (hr : vmMapZerofillPage L c σ.uvm sp.pgdir va w=some (ok,s)) :
    Touches L σ {σ with uvm := s} a sp sp.vma (fun va' => va'/pgsize=va/pgsize) := by
  obtain ⟨ok',s',heq,hi,hx,_⟩:=h.inv.zerofillBytes h.excl (mem_dirs hsp) va w c
  have hw:=vmMapZerofillPage_mapsWithin h.inv h.excl (mem_dirs hsp) hr
  rw [hr] at heq
  cases heq
  exact h.touchesUvm hsp hi hx hw

lemma userStore_touches {b : UInt8} (hr : userStore L c σ.uvm sp.pgdir va b=some (ok,s)) (R : ℕ → Prop) :
    Touches L σ {σ with uvm := s} a sp sp.vma R := by
  obtain ⟨ok',s',heq,hi,hx,_⟩:=h.inv.userStore h.excl (mem_dirs hsp) va b c
  have hw:=userStore_mapsWithin h.inv h.excl (mem_dirs hsp) hr
  rw [hr] at heq
  cases heq
  exact h.touchesUvm hsp hi hx (hw.mono fun _ _ hc => hc.elim)

lemma copyout_touches {buf : List UInt8} {cur : Option AddressSpace} {r : Bool × ℕ}
    (hr : copyout L c σ.uvm cur sp.pgdir va buf=some (r,s)) :
    Touches L σ {σ with uvm := s} a sp sp.vma
      (fun va' => ∃ as v,cur=some as ∧ v∈as.vmas ∧ pgrounddown va'<v.vaEnd) := by
  obtain ⟨ok',n,s',heq,hi,hx,_⟩ :=
    UvmInv.copyoutLoop cur (mem_dirs hsp) c (buf.length+1) va buf h.inv h.excl (Nat.lt_succ_self _)
  have hw:=copyoutLoop_mapsWithin (mem_dirs hsp) _ _ _ h.inv h.excl hr
  rw [copyout,heq] at hr
  cases hr
  exact h.touchesUvm hsp hi hx hw

end

lemma addressSpaceDestroy_spec (hr : addressSpaceDestroy L σ a c=some σ') : SysInv L σ' ∧ KeepsOthers σ σ' a := by
  obtain ⟨sp,hsp,hr⟩:=bind_eq_some_iff.mp hr
  obtain ⟨s,hs,hr⟩:=bind_eq_some_iff.mp hr
  cases hr
  have hexec : exec L σ (.destroy a c)=some (.ok,σ.set a s none) := by
    rw [exec,hsp,some_bind,hs]
    rfl
  refine ⟨exec_sysInv h hexec,fun b sp' hb hsp' => ⟨?_,fun va hva hn => ?_⟩⟩
  · rw [set_space,if_neg hb]
    exact hsp'
  -- the directories left are those of the other address spaces
  have hne : sp'.pgdir≠sp.pgdir := fun he => hb (h.inj b a sp' sp hsp' hsp he)
  have hins : insert sp.pgdir (σ.dirs \ {sp.pgdir})=σ.dirs := by
    rw [insert_sdiff_singleton,insert_eq_of_mem (mem_dirs hsp)]
  obtain ⟨s',heq,_,hk⟩:=UvmInv.freevm (D := σ.dirs \ {sp.pgdir}) (d := sp.pgdir)
    (by rw [hins]; exact h.inv) (by simp) c
  rw [hs] at heq
  cases heq
  have hview:=hk.view_of_subset h.inv sdiff_subset ⟨mem_dirs hsp',hne⟩ hva
  exact hview.trans hn

lemma createExec_spec (hnone : σ.space a=none) (hr : createExec L σ a k c=some (o,σ')) :
    SysInv L σ' ∧ KeepsOthers σ σ' a ∧ ((o=.fail ∧ σ'.space a=none) ∨
      (o=.ok ∧ ∃ sp,σ'.space a=some sp ∧ ImageInv σ'.uvm sp 0)) := by
  have hexec : exec L σ (.create a k c)=some (o,σ') := by
    rw [exec,hnone]
    exact hr
  refine ⟨exec_sysInv h hexec,?_⟩
  unfold createExec at hr
  split at hr
  · cases hr
    exact ⟨fun b sp hb hsp => ⟨hsp,fun _ _ hn => hn⟩,.inl ⟨rfl,hnone⟩⟩
  obtain ⟨q,s,heq,hk,hq⟩:=h.inv.setupkvm c
  have hviews:=hk.sameViews h.inv
  rw [heq,some_bind] at hr
  rcases hq with ⟨rfl,_⟩ | ⟨d,rfl,_,_,habs⟩
  · cases hr
    exact ⟨fun b sp hb hsp => ⟨hsp,fun va hva hn => (hviews _ (mem_dirs hsp) va hva).trans hn⟩,.inl ⟨rfl,hnone⟩⟩
  cases hr
  refine ⟨fun b sp hb hsp => ⟨?_,fun va hva hn => (hviews _ (mem_dirs hsp) va hva).trans hn⟩,
    .inr ⟨rfl,⟨d,addressSpaceCreate⟩,by rw [set_space,if_pos rfl],⟨addressSpaceCreate_rep,?_⟩,le_rfl,
      fun va hva _ => view_eq_none.mpr (habs va hva)⟩⟩
  · rw [set_space,if_neg hb]
    exact hsp
  · intro r hmem
    cases hmem

lemma dupCowExec_spec {dst : ℕ} {allocOk : Bool} (hsp : σ.space a=some sp) (hnone : σ.space dst=none)
    (hr : dupCowExec L σ sp dst allocOk k c=some (o,σ')) :
    SysInv L σ' ∧ KeepsOthers σ σ' dst ∧ (o=.fail ∨ ∃ n,o=.forked n ∧ ∀ sz,ImageInv σ.uvm sp sz →
      ∃ sp',σ'.space dst=some sp' ∧ ImageInv σ'.uvm sp' sz) := by
  have hexec : exec L σ (.dupCow a dst allocOk k c)=some (o,σ') := by
    rw [exec,hsp,hnone]
    exact hr
  refine ⟨exec_sysInv h hexec,?_⟩
  unfold dupCowExec at hr
  split at hr
  · cases hr
    exact ⟨fun b sp hb hsp => ⟨hsp,fun _ _ hn => hn⟩,.inl rfl⟩
  obtain ⟨q,s,heq,hviews,hq⟩:=h.inv.copyuvm h.excl (mem_dirs hsp) (h.size a sp hsp) c
  rw [heq,some_bind] at hr
  rcases hq with ⟨rfl,_⟩ | ⟨d,rfl,hd,hi,hx,hchild⟩
  · cases hr
    exact ⟨fun b sp' hb hsp' => ⟨hsp',fun va hva hn => (hviews _ (mem_dirs hsp') va hva).trans hn⟩,.inl rfl⟩
  dsimp only at hr
  split at hr
  · obtain ⟨s',hs',he⟩:=map_eq_some_iff.mp hr
    cases he
    obtain ⟨s'',heq',_,hk⟩:=hi.freevm hd c
    cases heq'.symm.trans hs'
    refine ⟨fun b sp' hb hsp' => ⟨hsp',fun va hva hn => ?_⟩,.inl rfl⟩
    have hback:=hk.view_of_subset hi (subset_insert ..) (mem_dirs hsp') hva
    exact hback.trans ((hviews _ (mem_dirs hsp') va hva).trans hn)
  rename_i vma hdup
  cases hr
  obtain ⟨hv,hsize,hcap⟩:=addressSpaceDupVmas_spec hdup
  refine ⟨fun b sp' hb hsp' => ⟨?_,fun va hva hn => (hviews _ (mem_dirs hsp') va hva).trans hn⟩,
    .inr ⟨_,rfl,fun sz him => ⟨⟨d,vma⟩,by rw [set_space,if_pos rfl],⟨⟨?_,?_⟩,?_⟩,?_,?_⟩⟩⟩
  · rw [set_space,if_neg hb]
    exact hsp'
  · rw [hv]
    exact him.vmas.1.tiled
  · simp only [AddressSpace.vmaCount,hv]
    exact hcap
  · intro r hmem
    rw [hsize]
    exact him.vmas.2 r (hv ▸ hmem)
  · exact hsize.le.trans him.size
  · intro va hva habove
    have hsz:=him.size
    rw [Sys.set,hchild va hva,if_neg (by omega)]

end

end

end Auxv6.Vm

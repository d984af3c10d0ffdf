import Auxv6.Vm.CowFork

/-!
# Where pages get mapped

`MapsWithin D R s s'`: an address of a directory of `D` that is mapped in `s'` was mapped in
`s` or lies in `R`.
-/

namespace Auxv6.Vm
open Machine Lib

def MapsWithin (D : Set ℕ) (R : ℕ → ℕ → Prop) (s s' : Uvm) : Prop :=
  ∀ d∈D,∀ va<kernbase,¬ R d va → view s d va=none → view s' d va=none
def demandable (cur : Option AddressSpace) (d d' va : ℕ) : Prop :=
  d'=d ∧ ∃ as r,cur=some as ∧ r∈as.vmas ∧ pgrounddown va<r.vaEnd

section

variable {L : Mem.Layout} {D : Set ℕ} {R R' : ℕ → ℕ → Prop} {s s' s'' : Uvm} {d va : ℕ}
  {c : Fin ncpu} {cur : Option AddressSpace}

lemma view_eq_none : view s d va=none ↔ (pteAt s d va).p=false := by
  unfold view Pte.frame
  cases (pteAt s d va).p <;> simp
lemma MapsWithin.refl (D : Set ℕ) (R : ℕ → ℕ → Prop) (s : Uvm) : MapsWithin D R s s := fun _ _ _ _ _ h => h
lemma MapsWithin.trans (h : MapsWithin D R s s') (h' : MapsWithin D R s' s'') : MapsWithin D R s s'' :=
  fun d hd va hva hr hn => h' d hd va hva hr (h d hd va hva hr hn)
lemma MapsWithin.mono (h : MapsWithin D R s s') (hR : ∀ d va,R d va → R' d va) : MapsWithin D R' s s' :=
  fun d hd va hva hr hn => h d hd va hva (fun hc => hr (hR d va hc)) hn
lemma SameViews.mapsWithin (h : SameViews D s s') (R : ℕ → ℕ → Prop) : MapsWithin D R s s' :=
  fun d hd va hva _ hn => (h d hd va hva).trans hn
lemma MapsNew.mapsWithin {e : Pte} {bs : ℕ → UInt8} (hm : MapsNew D s s' d va e bs) :
    MapsWithin D (fun d' va' => d'=d ∧ va'/pgsize=va/pgsize) s s' := by
  intro d' hd' va' hva' hr hn
  rw [hm.view d' hd' va' hva',if_neg hr]
  exact hn
lemma mapsWithin_setPages (page : ℕ → ℕ → UInt8) (R : ℕ → ℕ → Prop) : MapsWithin D R s {s with page := page} := by
  intro d' _ va' _ _ hn
  rw [view_eq_none] at hn ⊢
  exact hn
lemma Unmaps.mapsWithin (hu : Unmaps D s s' R') (R : ℕ → ℕ → Prop) : MapsWithin D R s s' := by
  intro d' hd' va' hva' _ hn
  by_cases hr : R' d' va'
  · exact (hu.view hd' hva').1 hr
  · exact ((hu.view hd' hva').2 hr).trans hn

variable {ok : Bool}

lemma userStore_mapsWithin {b : UInt8} (h : UvmInv L D [] s) (hx : Excl D D s) (hd : d∈D)
    (hr : userStore L c s d va b=some (ok,s')) : MapsWithin D (fun _ _ => False) s s' := by
  obtain ⟨_,s1,_,heq,-,-,hs,-,hcase⟩:=h.userStore_cases hx hd va b c
  cases hr.symm.trans heq
  have hw:=hs.mapsWithin fun _ _ => False
  rcases hcase with ⟨-,rfl⟩ | ⟨-,-,l,-,-,rfl⟩
  · exact hw
  · exact hw.trans (mapsWithin_setPages _ _)

lemma vmMapZerofillPage_mapsWithin {writable : Bool} (h : UvmInv L D [] s) (hx : Excl D D s)
    (hd : d∈D) (hr : vmMapZerofillPage L c s d va writable=some (ok,s')) :
    MapsWithin D (fun d' va' => d'=d ∧ va'/pgsize=va/pgsize) s s' := by
  obtain ⟨ok',s1,heq,_,hcase⟩:=h.vmMapZerofillPage hx hd va writable c
  rw [hr] at heq
  cases heq
  rcases hcase with ⟨_,hk⟩ | ⟨_,_,_,_,e,hm⟩
  · exact (hk.sameViews h).mapsWithin _
  · exact hm.mapsWithin

lemma mem_of_vmaFind {as : AddressSpace} {r : VaddrRange} (h : vmaFind as va=some r) :
    r∈as.vmas ∧ r.vaStart≤va ∧ va<r.vaEnd :=
  ⟨List.mem_of_find?_eq_some h,by simpa using List.find?_some h⟩

section
variable (h : UvmInv L D [] s) (hx : Excl D D s) (hd : d∈D) (hal : va%pgsize=0)
include h hx hd hal

lemma copyoutResolveZerofill_mapsWithin (hr : copyoutResolveZerofill L c s cur d va=some (ok,s')) :
    MapsWithin D (demandable cur d) s s' := by
  unfold copyoutResolveZerofill at hr
  split at hr
  · cases hr
    exact MapsWithin.refl _ _ _
  rename_i vma hfind
  split at hr
  · cases hr
    exact MapsWithin.refl _ _ _
  obtain ⟨as,rfl,hfind⟩:=Option.bind_eq_some_iff.mp hfind
  obtain ⟨hmem,_,hlt⟩:=mem_of_vmaFind hfind
  refine (vmMapZerofillPage_mapsWithin h hx hd hr).mono fun d' va' hsame => ?_
  refine ⟨hsame.1,as,vma,rfl,hmem,?_⟩
  simp only [pgrounddown,pgsize] at *
  omega

lemma copyoutPresent_mapsWithin
    (hr : copyoutPresent L c s cur d va=some (ok,s')) : MapsWithin D (demandable cur d) s s' := by
  unfold copyoutPresent at hr
  split at hr
  · exact copyoutResolveZerofill_mapsWithin h hx hd hal hr
  split at hr
  · cases hr
    exact MapsWithin.refl _ _ _
  · exact copyoutResolveZerofill_mapsWithin h hx hd hal hr

lemma copyoutFrame_mapsWithin {r : Option ℕ} (hr : copyoutFrame L c s cur d va=some (r,s')) :
    MapsWithin D (demandable cur d) s s' := by
  obtain ⟨_,_,heq,hf⟩:=h.copyoutFrame hx hd cur va c
  cases hr.symm.trans heq
  rcases hf.via with rfl | ⟨ok,s1,hpres,hs⟩
  · exact MapsWithin.refl _ _ _
  · exact (copyoutPresent_mapsWithin h hx hd hal hpres).trans (hs.mapsWithin _)

end

lemma copyoutLoop_mapsWithin {r : Bool × ℕ} (hd : d∈D) (fuel va : ℕ) (buf : List UInt8)
    (h : UvmInv L D [] s) (hx : Excl D D s) (hr : copyoutLoop L c cur d fuel va buf s=some (r,s')) :
    MapsWithin D (demandable cur d) s s' := by
  induction fuel generalizing s va buf r with
  | zero =>
    cases hr
    exact MapsWithin.refl _ _ _
  | succ fuel ih =>
    rw [copyoutLoop] at hr
    split at hr
    · cases hr
      exact MapsWithin.refl _ _ _
    obtain ⟨o,s1,heq,hi,hx1,_⟩:=h.copyoutFrame hx hd cur (pgrounddown va) c
    have hw:=copyoutFrame_mapsWithin h hx hd (Nat.mul_mod_left ..) heq
    dsimp only at hr
    rw [heq,some_bind] at hr
    cases o with
    | none =>
      cases hr
      exact hw
    | some f =>
      obtain ⟨⟨r2,s2⟩,hrest,he⟩:=Option.bind_eq_some_iff.mp hr
      cases he
      refine (hw.trans (mapsWithin_setPages _ _)).trans (ih _ _ ?_ ?_ hrest)
      · exact hi.setPage _ _
      · exact hx1.setPage _ _

lemma allocuvm_mapsWithin {oldsz newsz n : ℕ} (h : UvmInv L D [] s) (hx : Excl D D s) (hd : d∈D)
    (hr : allocuvm L c s d oldsz newsz=some (n,s')) :
    MapsWithin D (fun d' va' => d'=d ∧ newsz<kernbase ∧ grown oldsz newsz va') s s' := by
  obtain ⟨-,hcase⟩:=h.allocuvm hx hd hr
  rcases hcase with ⟨rfl,_⟩ | ⟨hlt,_,hg⟩
  · exact MapsWithin.refl _ _ _
  · exact fun d' hd' va' hva' hno hn => (hg.other d' hd' va' hva' fun hc => hno ⟨hc.1,hlt,hc.2⟩).trans hn

lemma allocuvm_failed_mapsWithin {oldsz newsz n : ℕ} (h : UvmInv L D [] s) (hx : Excl D D s) (hd : d∈D)
    (hr : allocuvm L c s d oldsz newsz=some (n,s')) (hn : n≠newsz) (R : ℕ → ℕ → Prop) : MapsWithin D R s s' := by
  obtain ⟨-,hcase⟩:=h.allocuvm hx hd hr
  rcases hcase with ⟨rfl,_⟩ | ⟨hlt,_,hg⟩
  · exact MapsWithin.refl _ _ _
  intro d' hd' va' hva' _ hnone
  by_cases hin : d'=d ∧ grown oldsz newsz va'
  · rcases hg.range with ⟨rfl,-⟩ | ⟨-,hgone⟩
    · exact absurd rfl hn
    · rw [hin.1]
      exact hgone va' hva' hin.2
  · exact (hg.other d' hd' va' hva' hin).trans hnone

lemma markPteu_mapsWithin {enabled : Bool} (h : UvmInv L D [] s) (hd : d∈D) (hva : va<kernbase)
    (hr : markPteu s d va enabled=some s') (R : ℕ → ℕ → Prop) : MapsWithin D R s s' := by
  unfold markPteu at hr
  rcases h.walkpgdir_cases hd hva with ⟨_,hw⟩ | ⟨l,hl,hw⟩
  · rw [hw] at hr
    cases hr
  rw [hw] at hr
  dsimp only at hr
  split at hr
  · cases hr
    exact (sameViews_setPte h hd hva hl {s.entry l with u := enabled} rfl).mapsWithin R
  · cases hr

end

end Auxv6.Vm

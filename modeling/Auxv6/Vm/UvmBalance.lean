import Auxv6.Vm.CowSpec

/-!
# What the page table functions do to the free pages

`Balanced` says that a function changes the reference counts by its slots, the frames held, and one for a
directory or a table.
-/

namespace Auxv6.Mem
open Machine List

variable {L : Layout} {s s' : State}

def freeFrames (s : State) : Finset ℕ :=
  (Finset.range npages).filter fun p => (s.kmeta p).managed=true ∧ kpageRefcount s p=0

lemma sum_count_range (l : List ℕ) (n : ℕ) (h : ∀ p∈l,p<n) : ∑ p∈Finset.range n,l.count p=l.length := by
  induction l with
  | nil => simp
  | cons a l ih =>
    have ha : a∈Finset.range n := Finset.mem_range.mpr (h a (mem_cons_self ..))
    simp only [count_cons,Finset.sum_add_distrib,length_cons,beq_iff_eq]
    rw [ih fun p hp => h p (mem_cons_of_mem _ hp),Finset.sum_ite_eq,if_pos ha]

lemma Good.freePages_eq (h : Good L s) : s.freePages=(freeFrames s).card := by
  have hocc : ∀ p,occ s p=if p<npages ∧ (s.kmeta p).managed=true ∧ kpageRefcount s p=0 then 1 else 0 := by
    intro p
    have heq:=h.inv.occ_eq p
    rw [count_nil,Nat.add_zero] at heq
    rw [heq]
    refine if_congr ⟨fun hp => ?_,fun hp => ⟨hp.2.1,?_⟩⟩ rfl rfl
    · exact ⟨h.inv.lt_npages hp.1,hp.1,(h.inv.free_iff p hp.1).mp hp.2⟩
    · exact (h.inv.free_iff p hp.2.1).mpr hp.2.2
  have hlt : ∀ p,0<occ s p → p<npages := by
    intro p hp
    rw [hocc] at hp
    by_contra hn
    rw [if_neg (fun hc => hn hc.1)] at hp
    omega
  have hsum : ∑ p∈Finset.range npages,occ s p=listed s := by
    have hfree:=sum_count_range s.freelist npages fun p hp => hlt p (occ_pos_of_mem_freelist hp)
    have hcache : ∀ c,∑ p∈Finset.range npages,(s.cache c).count p=(s.cache c).length :=
      fun c => sum_count_range (s.cache c) npages fun p hp => hlt p (occ_pos_of_mem_cache hp)
    unfold occ listed
    rw [Finset.sum_add_distrib,Finset.sum_comm,hfree,Finset.sum_congr rfl fun c _ => hcache c]
  rw [show s.freePages=listed s from h.counted,← hsum,freeFrames,Finset.card_filter]
  refine Finset.sum_congr rfl fun p hp => ?_
  rw [hocc]
  simp [Finset.mem_range.mp hp]

end Auxv6.Mem

namespace Auxv6.Vm
open Machine Lib

open Classical in
noncomputable def tableRef (D : Set ℕ) (s : Uvm) (p : ℕ) : ℕ := if IsTable D s p then 1 else 0

noncomputable def refsTo (D : Set ℕ) (P : List ℕ) (s : Uvm) (p : ℕ) : ℕ := mapped D s p+P.count p+tableRef D s p

structure Balanced (D : Set ℕ) (P : List ℕ) (s : Uvm) (P' : List ℕ) (s' : Uvm) : Prop where
  rc : ∀ p,s'.rc p+refsTo D P s p=s.rc p+refsTo D P' s' p
  managed : ∀ p,s'.managed p ↔ s.managed p

section

variable {L : Mem.Layout} {D : Set ℕ} {P P' P'' : List ℕ} {s s' s'' : Uvm} {f d va k : ℕ} {l : Slot}
  {c : Fin ncpu}

lemma tableRef_congr (h : s'.dir=s.dir) (p : ℕ) : tableRef D s' p=tableRef D s p := by
  have hiff : IsTable D s' p ↔ IsTable D s p := isTable_congr h
  unfold tableRef
  by_cases ht : IsTable D s p
  · rw [if_pos ht,if_pos (hiff.mpr ht)]
  · rw [if_neg ht,if_neg fun hn => ht (hiff.mp hn)]

lemma Balanced.refl (D : Set ℕ) (P : List ℕ) (s : Uvm) : Balanced D P s P s := ⟨fun _ => rfl,fun _ => Iff.rfl⟩
lemma Balanced.trans (h : Balanced D P s P' s') (h' : Balanced D P' s' P'' s'') : Balanced D P s P'' s'' := by
  refine ⟨fun p => ?_,fun p => (h'.managed p).trans (h.managed p)⟩
  have h1:=h.rc p
  have h2:=h'.rc p
  omega
lemma Balanced.setPage (h : Balanced D P s P' s') (f : ℕ) (bs : ℕ → UInt8) :
    Balanced D P s P' (s'.setPage f bs) := ⟨h.rc,h.managed⟩

lemma kalloc_balanced {r : Option ℕ} (h : UvmInv L D P s) (hk : s.kalloc L c=some (r,s')) :
    Balanced D P s (r.toList++P) s' := by
  obtain ⟨r',m,heq,hg,hh⟩:=Mem.kalloc_spec h.good c
  have hs : s.kalloc L c=some (r',{s with mem := m}) := by
    rw [Uvm.kalloc,heq]
    rfl
  rw [hs,Option.some.injEq,Prod.mk.injEq] at hk
  obtain ⟨rfl,rfl⟩:=hk
  refine ⟨fun p => ?_,fun p => by simp only [Uvm.managed,hh.managed]⟩
  have hrefs : refsTo D (r'.toList++P) {s with mem := m} p=refsTo D P s p+r'.toList.count p := by
    unfold refsTo
    rw [List.count_append]
    have hm : mapped D {s with mem := m} p=mapped D s p := mapped_congr (fun _ => rfl) p
    have ht : tableRef D {s with mem := m} p=tableRef D s p := tableRef_congr rfl p
    omega
  have hrc : Uvm.rc {s with mem := m} p=if p∈r'.toList then 1 else s.rc p := hh.refs p
  rw [hrefs,hrc]
  by_cases hp : p∈r'.toList
  · obtain ⟨hm,hfree⟩:=hh.fresh p hp
    have hz : s.rc p=0 := (h.good.inv.free_iff p hm).mp hfree
    have hone : r'.toList.count p=1 := by
      rw [Option.mem_toList] at hp
      rw [hp]
      exact List.count_singleton_self
    rw [if_pos hp,hz,hone]
    omega
  · rw [if_neg hp,List.count_eq_zero_of_not_mem hp]
    omega

lemma kfree_balanced (h : UvmInv L D (f::P) s) (hk : s.kfree L c f=some s') : Balanced D (f::P) s P s' := by
  obtain ⟨hm,hrc,_,_⟩:=h.user f (by rw [List.count_cons_self]; omega)
  obtain ⟨m,heq,_,hr,_⟩:=Mem.kfree_page h.good hm c
  rw [Uvm.kfree,heq,Option.map_some] at hk
  cases hk
  refine ⟨fun p => ?_,fun p => by simp only [Uvm.managed,hr.managed]⟩
  have hmap : mapped D {s with mem := m} p=mapped D s p := mapped_congr (fun _ => rfl) p
  have ht : tableRef D {s with mem := m} p=tableRef D s p := tableRef_congr rfl p
  have hrc' : Uvm.rc {s with mem := m} p=if p=f then s.rc f-1 else s.rc p := hr.refs p
  unfold refsTo
  rw [hmap,hrc',ht,List.count_cons]
  simp only [beq_iff_eq]
  rw [List.count_cons_self] at hrc
  by_cases hp : p=f
  · subst hp
    rw [if_pos rfl,if_pos rfl]
    omega
  · rw [if_neg hp,if_neg (Ne.symm hp)]
    omega

lemma setPte_balanced (hl : IsTable D s l.1) (e : Pte) (hcount : ∀ g,(if e.frame=some g then 1 else 0)+P'.count g =
      (if (s.entry l).frame=some g then 1 else 0)+P.count g) : Balanced D P s P' (s.setPte l.loc e) := by
  refine ⟨fun p => ?_,fun p => Iff.rfl⟩
  have hup:=RefCount.refs_update (slots D s) l e.frame p
  rw [slots_of_isTable hl] at hup
  have hm : mapped D (s.setPte l.loc e) p=RefCount.refs (Function.update (slots D s) l e.frame) p :=
    RefCount.refs_congr (slots_setPte hl e) p
  have hs : mapped D s p=RefCount.refs (slots D s) p := rfl
  have ht : tableRef D (s.setPte l.loc e) p=tableRef D s p := tableRef_congr rfl p
  have hrc : (s.setPte l.loc e).rc p=s.rc p := rfl
  have hc:=hcount p
  unfold refsTo
  omega

lemma addTable_balanced (h : UvmInv L D (f::P) s) (hd : d∈D) (hk : k<userPdes) (hnone : s.dir d k=none) :
    Balanced D (f::P) s P (s.addTable f d k) := by
  obtain ⟨_,_,_,hfT⟩:=h.user f (by rw [List.count_cons_self]; omega)
  have hT:=isTable_addTable (f := f) hd hk hnone
  refine ⟨fun p => ?_,fun p => Iff.rfl⟩
  have hm : mapped D (s.addTable f d k) p=mapped D s p := mapped_congr (slots_addTable hnone hfT subset_rfl) p
  have hrc : (s.addTable f d k).rc p=s.rc p := rfl
  unfold refsTo tableRef
  rw [hm,hrc,List.count_cons]
  simp only [beq_iff_eq]
  by_cases hp : p=f
  · subst hp
    rw [if_neg hfT,if_pos ((hT p).mpr (.inr rfl)),if_pos rfl]
    omega
  rw [if_neg (Ne.symm hp)]
  by_cases ht : IsTable D s p
  · rw [if_pos ht,if_pos ((hT p).mpr (.inl ht))]
    omega
  · rw [if_neg ht,if_neg (fun hn => ((hT p).mp hn).elim ht hp)]
    omega

structure Gains (d : ℕ) (s s' : Uvm) : Prop where
  old : ∀ d' k g,s.dir d' k=some g → s'.dir d' k=some g
  other : ∀ d',d'≠d → s'.dir d'=s.dir d'

lemma Gains.refl (d : ℕ) (s : Uvm) : Gains d s s := ⟨fun _ _ _ h => h,fun _ _ => rfl⟩
lemma Gains.trans (h : Gains d s s') (h' : Gains d s' s'') : Gains d s s'' :=
  ⟨fun d' k g hg => h'.old d' k g (h.old d' k g hg),fun d' hd' => (h'.other d' hd').trans (h.other d' hd')⟩
lemma Gains.of_dir (h : s'.dir=s.dir) : Gains d s s' := ⟨fun d' k g hg => by rw [h]; exact hg,fun d' _ => by rw [h]⟩

lemma gains_setPde (hnone : s.dir d k=none) (es : ℕ → Pte) : Gains d s ((s.setTab f es).setPde d k (some f)) := by
  refine ⟨fun d' k' g hg => ?_,fun d' hd' => funext fun k' => ?_⟩
  · rw [dir_setPde,if_neg]
    · exact hg
    · rintro ⟨rfl,rfl⟩
      rw [hnone] at hg
      cases hg
  · rw [dir_setPde,if_neg fun hc => hd' hc.1]
    rfl

lemma walkpgdirAlloc_balanced {r : Option (ℕ × ℕ)} (h : UvmInv L D P s) (hd : d∈D) (hva : va<kernbase)
    (hw : walkpgdirAlloc L c s d va=some (r,s')) : Balanced D P s P s' ∧ Gains d s s' := by
  unfold walkpgdirAlloc at hw
  rcases h.walkpgdir_cases hd hva with ⟨hnone,hn⟩ | ⟨l,hl,hn⟩
  · rw [hn,setPde_same hnone] at hw
    dsimp only at hw
    obtain ⟨q,m,heq,hq⟩:=h.kalloc c
    have hbal:=kalloc_balanced h heq
    rw [heq,some_bind] at hw
    rcases hq with ⟨rfl,_⟩ | ⟨f,rfl,hi,_⟩
    · cases hw
      exact ⟨hbal,Gains.of_dir rfl⟩
    · cases hw
      have hgain:=gains_setPde (s := {s with mem := m}) (f := f) hnone fun _ => Pte.zero
      exact ⟨hbal.trans (addTable_balanced hi hd (pdx_lt hva) hnone),hgain.old,hgain.other⟩
  · rw [hn] at hw
    cases hw
    exact ⟨Balanced.refl D P s,Gains.refl d s⟩

lemma mappages_balanced {e : Pte} {ok : Bool} (h : UvmInv L D (e.pa::P) s) (hd : d∈D)
    (hva : va<kernbase) (hfree : (pteAt s d va).p=false) (hm : mappages L c s d va e=some (ok,s')) :
    Balanced D (e.pa::P) s (if ok then P else e.pa::P) s' ∧ Gains d s s' := by
  obtain ⟨r,s1,heq,hi,hk,-,hr⟩:=h.walkpgdirAlloc hd hva c
  obtain ⟨hbal,hgain⟩:=walkpgdirAlloc_balanced h hd hva heq
  simp only [mappages,heq,some_bind] at hm
  rcases hr with rfl | ⟨l,rfl,hl⟩
  · cases hm
    exact ⟨hbal,hgain⟩
  have he : (s1.entry l).p=false := by
    rw [← pteAt_of_slotAt hi hd hva hl,hk.pte d hd va hva,hfree]
  have hp : (s1.pte l.loc).p=false := he
  simp only [hp,Bool.false_eq_true,if_false,Option.some.injEq,Prod.mk.injEq] at hm
  obtain ⟨rfl,rfl⟩:=hm
  refine ⟨hbal.trans (setPte_balanced (hl.isTable hd hva) _ fun g => ?_),hgain.trans (Gains.of_dir rfl)⟩
  rw [if_pos rfl,List.count_cons]
  simp only [Pte.frame,he,if_true,Bool.false_eq_true,if_false,Option.some.injEq,beq_iff_eq,reduceCtorEq]
  omega

lemma uvmReleasePte_balanced {r : Int} (h : UvmInv L D P s) (hd : d∈D) (hva : va<kernbase)
    (hl : SlotAt s d va l) (hr : uvmReleasePte L c s l.loc=some (r,s')) : Balanced D P s P s' := by
  rcases h.uvmReleasePte_cases hd hva hl c with ⟨-,heq⟩ | ⟨hp,hheld,m,hkf,heq⟩
  · cases heq.symm.trans hr
    exact Balanced.refl D P s
  · cases heq.symm.trans hr
    exact (setPte_balanced (hl.isTable hd hva) Pte.zero (count_setPte_zero hp)).trans (kfree_balanced hheld hkf)

variable {oldsz newsz r : ℕ}

lemma deallocLoop_balanced (hd : d∈D) (hold : oldsz≤kernbase) (fuel a : ℕ)
    (h : UvmInv L D P s) (hr : deallocLoop L c d oldsz fuel a s=some s') : Balanced D P s P s' := by
  induction fuel generalizing a s with
  | zero =>
    obtain rfl:=Option.some.inj hr
    exact Balanced.refl D P s
  | succ fuel ih =>
    rw [deallocLoop] at hr
    split at hr
    · rename_i hlt
      have hva : a<kernbase := by omega
      rcases h.walkpgdir_cases hd hva with ⟨_,hw⟩ | ⟨l,hl,hw⟩
      · rw [hw] at hr
        exact ih _ h hr
      rw [hw] at hr
      obtain ⟨q,s1,heq,_,hi,_⟩:=h.uvmReleasePte hd hva hl c
      simp only [heq,some_bind] at hr
      exact (uvmReleasePte_balanced h hd hva hl heq).trans (ih _ hi hr)
    · obtain rfl:=Option.some.inj hr
      exact Balanced.refl D P s

lemma deallocuvm_balanced (h : UvmInv L D P s) (hd : d∈D) (hold : oldsz≤kernbase)
    (hr : deallocuvm L c s d oldsz newsz=some (r,s')) : Balanced D P s P s' := by
  unfold deallocuvm at hr
  split_ifs at hr
  · cases hr
    exact Balanced.refl D P s
  · obtain ⟨s1,hloop,heq⟩:=Option.map_eq_some_iff.mp hr
    cases heq
    exact deallocLoop_balanced hd hold _ _ h hloop

structure AllocBalances (D : Set ℕ) (s s' : Uvm) (d oldsz newsz : ℕ) : Prop where
  balanced : Balanced D [] s [] s'
  gains : Gains d s s'
  other : ∀ d'∈D,∀ va<kernbase,¬ (d'=d ∧ grown oldsz newsz va) → pteAt s' d' va=pteAt s d' va

lemma AllocBalances.refl (D : Set ℕ) (s : Uvm) (d oldsz newsz : ℕ) : AllocBalances D s s d oldsz newsz :=
  ⟨Balanced.refl D [] s,Gains.refl d s,fun _ _ _ _ _ => rfl⟩

lemma MapsNew.balances {e : Pte} {a : ℕ} (hm : MapsNew D s s' d a e fun _ => 0) (ha : a%pgsize=0)
    (hlow : pgroundup oldsz≤a) (hlast : a<newsz) (hbal : Balanced D [] s [] s') (hgain : Gains d s s')
    (hg : AllocBalances D s' s'' d oldsz newsz) : AllocBalances D s s'' d oldsz newsz := by
  refine ⟨hbal.trans hg.balanced,hgain.trans hg.gains,fun d' hd' va hva hne => ?_⟩
  rw [hg.other d' hd' va hva hne,hm.pte d' hd' va hva,if_neg]
  rintro ⟨rfl,hsame⟩
  refine hne ⟨rfl,?_,?_⟩ <;> simp only [pgrounddown,pgsize] at * <;> omega

lemma deallocGrown_balances (h : UvmInv L D P s') (hk : Keeps D s s') (hd : d∈D)
    (hnew : newsz<kernbase) (hr : deallocuvm L c s' d newsz oldsz=some (r,s'')) :
    Balanced D P s' P s'' ∧ Gains d s' s'' ∧
      ∀ d'∈D,∀ va<kernbase,¬ (d'=d ∧ grown oldsz newsz va) → pteAt s'' d' va=pteAt s d' va := by
  obtain ⟨r',s2,heq,_,hu⟩:=h.deallocuvm hd newsz oldsz hnew.le c
  rw [hr] at heq
  cases heq
  refine ⟨deallocuvm_balanced h hd hnew.le hr,Gains.of_dir hu.dir,fun d' hd' va hva hne => ?_⟩
  rw [hu.kept d' hd' va hva (fun hc => hne ⟨hc.1,hc.2.2⟩),hk.pte d' hd' va hva]

lemma AllocRun.balances {a : ℕ} (hrun : AllocRun L c D d oldsz newsz a s r s') (hd : d∈D)
    (hlt : newsz<kernbase) (h : UvmInv L D [] s) (ha : a%pgsize=0) (hlow : pgroundup oldsz≤a) :
    AllocBalances D s s' d oldsz newsz := by
  induction hrun with
  | done => exact AllocBalances.refl ..
  | noPage hlast hk hi hde =>
    obtain ⟨hb,hg,ho⟩:=deallocGrown_balances hi (.setMem _ _) hd hlt hde
    exact ⟨(kalloc_balanced h hk).trans hb,⟨hg.old,hg.other⟩,ho⟩
  | @noTable _ _ f _ _ _ _ _ hlast hk hi hp hmap hi1 hkeep hde hf =>
    obtain ⟨hb1,hg1⟩:=mappages_balanced (P := []) (e := ⟨f,true,true,true,false⟩) (hi.setPage f _) hd
      (hlast.trans hlt) hp hmap
    obtain ⟨hb2,hg2,ho⟩:=deallocGrown_balances hi1 hkeep hd hlt hde
    obtain ⟨_,_,heq,hi2,_⟩:=hi1.deallocuvm hd newsz oldsz hlt.le c
    cases heq.symm.trans hde
    have hb3:=kfree_balanced hi2 hf
    obtain ⟨m',_,rfl⟩:=Option.map_eq_some_iff.mp hf
    have hg:=Gains.trans ⟨hg1.old,hg1.other⟩ hg2
    exact ⟨((((kalloc_balanced h hk).setPage f _).trans hb1).trans hb2).trans hb3,⟨hg.old,hg.other⟩,ho⟩
  | @page _ _ f _ _ _ _ hlast hk hi hp hmap hi1 hm _ ih =>
    obtain ⟨hb,hg⟩:=mappages_balanced (P := []) (e := ⟨f,true,true,true,false⟩) (hi.setPage f _) hd
      (hlast.trans hlt) hp hmap
    exact hm.balances ha hlow hlast (((kalloc_balanced h hk).setPage f _).trans hb) ⟨hg.old,hg.other⟩
      (ih hi1 (by rw [Nat.add_mod_right,ha]) (by omega))

lemma allocuvm_balances (h : UvmInv L D [] s) (hd : d∈D)
    (hrun : allocuvm L c s d oldsz newsz=some (r,s')) : AllocBalances D s s' d oldsz newsz := by
  rcases h.allocuvm_cases hd hrun with ⟨-,-,rfl⟩ | ⟨-,-,rfl⟩ | ⟨hlt,-,-,ha,hr⟩
  · exact AllocBalances.refl ..
  · exact AllocBalances.refl ..
  · exact hr.balances hd hlt h ha le_rfl

end

end Auxv6.Vm

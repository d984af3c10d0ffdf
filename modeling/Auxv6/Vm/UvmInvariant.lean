import Auxv6.Lib.RefCount
import Auxv6.Mem.KallocSpec
import Auxv6.Vm.Uvm

/-!
# Who refers to a frame

`D` is the set of page directories in use and `P` the list of the frames the running function holds without
having mapped them. A frame has one reference for each slot that maps it and one for each time it is held.
-/

namespace Auxv6.Vm
open Machine Lib Function List Mem

def IsTable (D : Set ℕ) (s : Uvm) (f : ℕ) : Prop := ∃ d∈D,∃ k<userPdes,s.dir d k=some f

abbrev Slot := Fin npages × Fin nptentries

def Uvm.entry (s : Uvm) (l : Slot) : Pte := s.tab l.1 l.2
def Slot.loc (l : Slot) : ℕ × ℕ := (l.1,l.2)
def Pte.frame (e : Pte) : Option ℕ := if e.p then some e.pa else none

open Classical in
noncomputable def slots (D : Set ℕ) (s : Uvm) (l : Slot) : Option ℕ :=
  if IsTable D s l.1 then (s.entry l).frame else none

noncomputable def mapped (D : Set ℕ) (s : Uvm) (g : ℕ) : ℕ := RefCount.refs (slots D s) g
def Uvm.managed (s : Uvm) (f : ℕ) : Prop := (s.mem.kmeta f).managed=true
def Uvm.rc (s : Uvm) (f : ℕ) : ℕ := kpageRefcount s.mem f

structure UvmInv (L : Layout) (D : Set ℕ) (P : List ℕ) (s : Uvm) : Prop where
  good : Good L s.mem
  dir : ∀ d∈D,s.managed d ∧ s.rc d=1
  table : ∀ f,IsTable D s f → s.managed f ∧ s.rc f=1 ∧ f∉D
  inj : ∀ d∈D,∀ k<userPdes,∀ d'∈D,∀ k'<userPdes,∀ f, s.dir d k=some f → s.dir d' k'=some f → d=d' ∧ k=k'
  user : ∀ g,0 < mapped D s g+P.count g → s.managed g ∧ s.rc g=mapped D s g+P.count g ∧ g∉D ∧ ¬ IsTable D s g

def Excl (A B : Set ℕ) (s : Uvm) : Prop :=
  ∀ l g,slots A s l=some g → (s.entry l).w=true → (s.entry l).cow=false ∧ ∀ l',slots B s l'=some g → l'=l

section

variable {L : Layout} {D A B : Set ℕ} {P P' : List ℕ} {s s' : Uvm} {f g d va : ℕ} {l : Slot}

lemma slots_eq_some : slots D s l=some g ↔ IsTable D s l.1 ∧ (s.entry l).p=true ∧ (s.entry l).pa=g := by
  unfold slots Pte.frame
  by_cases ht : IsTable D s l.1 <;> simp [ht]
lemma slots_of_isTable (hl : IsTable D s l.1) : slots D s l=(s.entry l).frame := if_pos hl
lemma slots_of_not_isTable (hl : ¬ IsTable D s l.1) : slots D s l=none := if_neg hl
lemma slots_congr (ht : IsTable D s' l.1 ↔ IsTable B s l.1) (he : s'.entry l=s.entry l) :
    slots D s' l=slots B s l := by
  by_cases h : IsTable B s l.1
  · rw [slots_of_isTable h,slots_of_isTable (ht.mpr h),he]
  · rw [slots_of_not_isTable h,slots_of_not_isTable (fun h' => h (ht.mp h'))]
lemma mapped_pos_iff : 0 < mapped D s g ↔ ∃ l,slots D s l=some g := RefCount.refs_pos_iff
lemma mapped_congr (h : ∀ l,slots D s' l=slots B s l) (g : ℕ) : mapped D s' g=mapped B s g := RefCount.refs_congr h g
lemma IsTable.mono (h : A ⊆ B) (ht : IsTable A s f) : IsTable B s f := by
  obtain ⟨d,hd,rest⟩:=ht
  exact ⟨d,h hd,rest⟩
lemma slots_mono (h : A ⊆ B) (hl : slots A s l=some g) : slots B s l=some g := by
  rw [slots_eq_some] at hl ⊢
  exact ⟨hl.1.mono h,hl.2⟩
lemma Excl.mono {A' B' : Set ℕ} (h : Excl A B s) (hA : A' ⊆ A) (hB : B' ⊆ B) : Excl A' B' s := by
  intro l g hl hw
  obtain ⟨hcow,hone⟩:=h l g (slots_mono hA hl) hw
  exact ⟨hcow,fun l' hl' => hone l' (slots_mono hB hl')⟩
@[simp] lemma setPte_dir (l : ℕ × ℕ) (e : Pte) : (s.setPte l e).dir=s.dir := rfl
@[simp] lemma setPte_page (l : ℕ × ℕ) (e : Pte) : (s.setPte l e).page=s.page := rfl
lemma isTable_congr (h : s'.dir=s.dir) : IsTable D s' f ↔ IsTable D s f := by
  unfold IsTable
  rw [h]

lemma tab_setPte (l : ℕ × ℕ) (e : Pte) (f i : ℕ) : (s.setPte l e).tab f i=if (f,i)=l then e else s.tab f i := by
  obtain ⟨f',i'⟩:=l
  simp only [Uvm.setPte,update_apply,Prod.mk.injEq]
  by_cases hf : f=f'
  · subst hf
    by_cases hi : i=i' <;> simp [hi]
  · simp [hf]

lemma loc_inj {l l' : Slot} : l.loc=l'.loc ↔ l=l' := by
  obtain ⟨⟨a,_⟩,⟨b,_⟩⟩:=l
  obtain ⟨⟨a',_⟩,⟨b',_⟩⟩:=l'
  simp [Slot.loc]
lemma entry_setPte (l' : Slot) (e : Pte) : (s.setPte l.loc e).entry l'=if l'=l then e else s.entry l' := by
  unfold Uvm.entry
  rw [tab_setPte]
  exact if_congr loc_inj rfl rfl

lemma slots_setPte (hl : IsTable D s l.1) (e : Pte) (l' : Slot) :
    slots D (s.setPte l.loc e) l'=update (slots D s) l e.frame l' := by
  unfold slots
  rw [entry_setPte,isTable_congr (setPte_dir l.loc e),update_apply]
  by_cases h : l'=l
  · subst h
    simp [hl]
  · simp [h]

lemma UvmInv.setPte (h : UvmInv L D P s) (hl : IsTable D s l.1) (e : Pte)
    (hcount : ∀ g,(if e.frame=some g then 1 else 0)+P'.count g =
      (if (s.entry l).frame=some g then 1 else 0)+P.count g) : UvmInv L D P' (s.setPte l.loc e) := by
  have htotal : ∀ g,mapped D (s.setPte l.loc e) g+P'.count g=mapped D s g+P.count g := by
    intro g
    have hup:=RefCount.refs_update (slots D s) l e.frame g
    rw [slots_of_isTable hl] at hup
    have hm : mapped D (s.setPte l.loc e) g=RefCount.refs (update (slots D s) l e.frame) g :=
      RefCount.refs_congr (slots_setPte hl e) g
    have hs : mapped D s g=RefCount.refs (slots D s) g := rfl
    have hc:=hcount g
    omega
  refine ⟨h.good,h.dir,fun f hf => h.table f ((isTable_congr rfl).mp hf),h.inj,fun g hg => ?_⟩
  rw [htotal] at hg ⊢
  obtain ⟨h1,h2,h3,h4⟩:=h.user g hg
  exact ⟨h1,h2,h3,fun hf => h4 ((isTable_congr rfl).mp hf)⟩

lemma UvmInv.setMem (h : UvmInv L D P s) {m : State} (hg : Good L m)
    (hman : ∀ p,(m.kmeta p).managed=(s.mem.kmeta p).managed)
    (hfix : ∀ p,p∈D ∨ IsTable D s p → kpageRefcount m p=s.rc p)
    (huser : ∀ p,0 < mapped D s p+P'.count p → s.managed p ∧
      kpageRefcount m p=mapped D s p+P'.count p ∧ p∉D ∧ ¬ IsTable D s p) : UvmInv L D P' {s with mem := m} := by
  have hman' : ∀ p,Uvm.managed {s with mem := m} p ↔ s.managed p := fun p => by
    simp only [Uvm.managed,hman]
  refine ⟨hg,fun d hd => ?_,fun f hf => ?_,h.inj,fun p hp => ?_⟩
  · obtain ⟨h1,h2⟩:=h.dir d hd
    exact ⟨(hman' d).mpr h1,(hfix d (.inl hd)).trans h2⟩
  · obtain ⟨h1,h2,h3⟩:=h.table f hf
    exact ⟨(hman' f).mpr h1,(hfix f (.inr hf)).trans h2,h3⟩
  · obtain ⟨h1,h2⟩:=huser p hp
    exact ⟨(hman' p).mpr h1,h2⟩

structure Fresh (D : Set ℕ) (P : List ℕ) (s : Uvm) (f : ℕ) : Prop where
  mapped : mapped D s f=0
  held : P.count f=0
  dir : f∉D
  table : ¬ IsTable D s f
  managed : s.managed f

lemma UvmInv.fresh_of_rc (h : UvmInv L D P s) (hm : s.managed f) (hrc : s.rc f=0) : Fresh D P s f := by
  have htotal : mapped D s f+P.count f=0 := by
    by_contra hne
    have := (h.user f (by omega)).2.1
    omega
  refine ⟨by omega,by omega,fun hd => ?_,fun ht => ?_,hm⟩
  · have := (h.dir f hd).2
    omega
  · have := (h.table f ht).2.1
    omega

lemma UvmInv.kalloc (h : UvmInv L D P s) (c : Fin ncpu) :
    ∃ r m,s.kalloc L c=some (r,{s with mem := m}) ∧ ((r=none ∧ UvmInv L D P {s with mem := m}) ∨
        ∃ f,r=some f ∧ UvmInv L D (f::P) {s with mem := m} ∧ Fresh D P s f) := by
  obtain ⟨r,m,heq,hg,hh⟩:=kalloc_spec h.good c
  refine ⟨r,m,by rw [Uvm.kalloc,heq]; rfl,?_⟩
  cases r with
  | none =>
    have hrc : ∀ p,kpageRefcount m p=s.rc p := fun p => by
      simpa [Uvm.rc] using hh.refs p
    refine .inl ⟨rfl,h.setMem hg hh.managed (fun p _ => hrc p) fun p hp => ?_⟩
    rw [hrc]
    exact h.user p hp
  | some f =>
    have hrc : ∀ p,kpageRefcount m p=if p=f then 1 else s.rc p := fun p => by
      simpa [Uvm.rc] using hh.refs p
    obtain ⟨hm,hfree⟩:=hh.fresh f (by simp)
    have hf:=h.fresh_of_rc hm ((h.good.inv.free_iff f hm).mp hfree)
    refine .inr ⟨f,rfl,h.setMem hg hh.managed (fun p hp => ?_) fun p hp => ?_,hf⟩
    · rw [hrc,if_neg]
      rintro rfl
      exact hp.elim hf.dir hf.table
    by_cases hpf : p=f
    · subst hpf
      rw [hrc,if_pos rfl,count_cons_self,hf.held,hf.mapped]
      exact ⟨hm,rfl,hf.dir,hf.table⟩
    · rw [count_cons_of_ne (Ne.symm hpf)] at hp ⊢
      rw [hrc,if_neg hpf]
      exact h.user p hp

lemma UvmInv.kfree (h : UvmInv L D (f::P) s) (c : Fin ncpu) :
    ∃ m,s.kfree L c f=some {s with mem := m} ∧ UvmInv L D P {s with mem := m} := by
  obtain ⟨hm,hrc,hd,ht⟩:=h.user f (by rw [count_cons_self]; omega)
  obtain ⟨m,heq,hg,hr,_⟩:=kfree_page h.good hm c
  rw [count_cons_self] at hrc
  refine ⟨m,by rw [Uvm.kfree,heq]; rfl,h.setMem hg hr.managed (fun p hp => ?_) fun p hp => ?_⟩
  · rw [hr.refs,if_neg]
    · rfl
    · rintro rfl
      exact hp.elim hd ht
  rw [hr.refs]
  by_cases hpf : p=f
  · subst hpf
    rw [if_pos rfl]
    have : kpageRefcount s.mem p=mapped D s p+(P.count p+1) := hrc
    exact ⟨hm,by omega,hd,ht⟩
  have hp':=h.user p (by rw [count_cons_of_ne (Ne.symm hpf)]; exact hp)
  rw [count_cons_of_ne (Ne.symm hpf)] at hp'
  rw [if_neg hpf]
  exact hp'

lemma UvmInv.incref (h : UvmInv L D [] s) (hf : 0 < mapped D s f) :
    ∃ m,s.incref f=some {s with mem := m} ∧ UvmInv L D [f] {s with mem := m} := by
  obtain ⟨hm,hrc,hd,ht⟩:=h.user f (by omega)
  have hrc' : kpageRefcount s.mem f=mapped D s f := by simpa [Uvm.rc] using hrc
  have hfits : mapped D s f+1<wordMod := by
    have hle : mapped D s f≤Fintype.card Slot := RefCount.refs_le ..
    rw [Fintype.card_prod,Fintype.card_fin,Fintype.card_fin,npages_eq,nptentries] at hle
    simp only [wordMod]
    omega
  have heq:=kpageIncref_eq h.good.inv hm (by rw [hrc']; omega)
  obtain ⟨hg,_,_,hr⟩:=kpageIncref_spec h.good heq (hrc' ▸ hfits)
  refine ⟨_,by rw [Uvm.incref,heq]; rfl,h.setMem hg hr.managed (fun p hp => ?_) fun p hp => ?_⟩
  · rw [hr.refs,if_neg]
    · rfl
    · rintro rfl
      exact hp.elim hd ht
  rw [hr.refs]
  by_cases hpf : p=f
  · subst hpf
    rw [if_pos rfl,count_singleton_self]
    exact ⟨hm,by omega,hd,ht⟩
  · rw [count_cons_of_ne (Ne.symm hpf)] at hp ⊢
    rw [if_neg hpf]
    exact h.user p hp

end

end Auxv6.Vm

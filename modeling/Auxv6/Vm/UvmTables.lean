import Auxv6.Vm.UvmInvariant

/-!
# Directories, page tables and what is seen through them

How a frame becomes a page directory or a page table and stops being one, and the bytes
`view s d va` that the address `va` of the directory `d` shows.
-/

namespace Auxv6.Vm
open Machine Lib Function List Option

section

variable {L : Mem.Layout} {D A B : Set ℕ} {P : List ℕ} {s s' : Uvm} {f g d k va va' : ℕ} {l : Slot}

lemma dir_setPde (o : Option ℕ) (d' k' : ℕ) : (s.setPde d k o).dir d' k'=if d'=d ∧ k'=k then o else s.dir d' k' := by
  simp only [Uvm.setPde,update_apply]
  by_cases hd : d'=d
  · subst hd
    by_cases hk : k'=k <;> simp [hk]
  · simp [hd]

lemma IsTable.setPde (h : IsTable A s g) (hnone : s.dir d k=none) (o : Option ℕ) : IsTable A (s.setPde d k o) g := by
  obtain ⟨d',hd',k',hk',hp⟩:=h
  refine ⟨d',hd',k',hk',?_⟩
  rw [dir_setPde,if_neg]
  · exact hp
  · rintro ⟨rfl,rfl⟩
    rw [hnone] at hp
    cases hp

lemma IsTable.addTable (h : IsTable A s g) (hnone : s.dir d k=none) : IsTable A (s.addTable f d k) g :=
  IsTable.setPde (s := s.setTab f fun _ => Pte.zero) h hnone _

lemma isTable_addTable (hd : d∈D) (hk : k<userPdes) (hnone : s.dir d k=none) (p : ℕ) :
    IsTable D (s.addTable f d k) p ↔ IsTable D s p ∨ p=f := by
  constructor
  · rintro ⟨d',hd',k',hk',hp⟩
    rw [dir_setPde] at hp
    split at hp
    · exact .inr (some.inj hp).symm
    · exact .inl ⟨d',hd',k',hk',hp⟩
  · rintro (hp | rfl)
    · exact hp.addTable hnone
    · exact ⟨d,hd,k,hk,by rw [dir_setPde,if_pos ⟨rfl,rfl⟩]⟩

lemma UvmInv.isTable_setPde_none (h : UvmInv L D P s) (hd : d∈D) (hk : k<userPdes)
    (hf : s.dir d k=some f) (p : ℕ) : IsTable D (s.setPde d k none) p ↔ IsTable D s p ∧ p≠f := by
  constructor
  · rintro ⟨d',hd',k',hk',hp⟩
    rw [dir_setPde] at hp
    split at hp
    · cases hp
    rename_i hne
    refine ⟨⟨d',hd',k',hk',hp⟩,?_⟩
    rintro rfl
    exact hne (h.inj d' hd' k' hk' d hd k hk p hp hf)
  · rintro ⟨⟨d',hd',k',hk',hp⟩,hne⟩
    refine ⟨d',hd',k',hk',?_⟩
    rw [dir_setPde,if_neg]
    · exact hp
    · rintro ⟨rfl,rfl⟩
      rw [hf] at hp
      exact hne (some.inj hp).symm

lemma UvmInv.of_slots {D' : Set ℕ} {P' : List ℕ} (h : UvmInv L D P s) (hmem : s'.mem=s.mem)
    (hdir : ∀ d∈D',s.managed d ∧ s.rc d=1) (htable : ∀ f,IsTable D' s' f → s.managed f ∧ s.rc f=1 ∧ f∉D')
    (hinj : ∀ d∈D',∀ k<userPdes,∀ d'∈D',∀ k'<userPdes,∀ f, s'.dir d k=some f → s'.dir d' k'=some f → d=d' ∧ k=k')
    (hslots : ∀ l,slots D' s' l=slots D s l)
    (huser : ∀ g,0 < mapped D s g+P'.count g → P'.count g=P.count g ∧ g∉D' ∧ ¬ IsTable D' s' g
      ∨ s.managed g ∧ s.rc g=mapped D s g+P'.count g ∧ g∉D' ∧ ¬ IsTable D' s' g) : UvmInv L D' P' s' := by
  have hman : ∀ p,s'.managed p ↔ s.managed p := fun p => by simp only [Uvm.managed,hmem]
  have hrc : ∀ p,s'.rc p=s.rc p := fun p => by simp only [Uvm.rc,hmem]
  refine ⟨hmem ▸ h.good,fun d hd => ?_,fun f hf => ?_,hinj,fun g hg => ?_⟩
  · rw [hman,hrc]
    exact hdir d hd
  · rw [hman,hrc]
    exact htable f hf
  rw [mapped_congr hslots] at hg ⊢
  rw [hman,hrc]
  rcases huser g hg with ⟨hP,hD,hT⟩ | hall
  · obtain ⟨h1,h2,_⟩:=h.user g (hP ▸ hg)
    exact ⟨h1,hP ▸ h2,hD,hT⟩
  · exact hall

lemma Fresh.rc_eq_one {m : Mem.State} (hf : Fresh D P s f)
    (h : UvmInv L D (f::P) {s with mem := m}) : Uvm.rc {s with mem := m} f=1 := by
  have hrc:=(h.user f (by rw [count_cons_self]; omega)).2.1
  have hmap : Vm.mapped D {s with mem := m} f=Vm.mapped D s f := mapped_congr (fun _ => rfl) f
  rw [count_cons_self,hf.held,hmap,hf.mapped] at hrc
  exact hrc

lemma entry_addTable (l : Slot) : Uvm.entry (s.addTable f d k) l = if (l.1 : ℕ)=f then Pte.zero else s.entry l := by
  simp only [Uvm.entry,Uvm.setPde,Uvm.setTab,update_apply]
  split <;> rfl

lemma slots_addTable (hnone : s.dir d k=none) (hfT : ¬ IsTable D s f) (hA : A ⊆ D) (l : Slot) :
    slots A (s.addTable f d k) l=slots A s l := by
  by_cases hlf : (l.1 : ℕ)=f
  · have hno : ¬ IsTable A s l.1 := fun ht => hfT (hlf ▸ ht.mono hA)
    rw [slots_of_not_isTable hno]
    by_cases ht : IsTable A (s.addTable f d k) l.1
    · rw [slots_of_isTable ht,entry_addTable,if_pos hlf]
      rfl
    · exact slots_of_not_isTable ht
  refine slots_congr ⟨?_,?_⟩ (by rw [entry_addTable,if_neg hlf])
  · rintro ⟨d',hd',k',hk',hp⟩
    rw [dir_setPde] at hp
    split at hp
    · exact absurd (some.inj hp).symm hlf
    · exact ⟨d',hd',k',hk',hp⟩
  · exact fun ht => ht.addTable hnone

lemma UvmInv.addTable (h : UvmInv L D (f::P) s) (hrc : s.rc f=1) (hd : d∈D) (hk : k<userPdes)
    (hnone : s.dir d k=none) : UvmInv L D P (s.addTable f d k) := by
  obtain ⟨hm,htot,hfD,hfT⟩:=h.user f (by rw [count_cons_self]; omega)
  rw [count_cons_self] at htot
  have hT:=isTable_addTable (f := f) hd hk hnone
  have hslots:=slots_addTable hnone hfT subset_rfl
  refine h.of_slots rfl h.dir (fun p hp => ?_) ?_ hslots fun g hg => ?_
  · rcases (hT p).mp hp with hp | rfl
    · exact h.table p hp
    · exact ⟨hm,hrc,hfD⟩
  · have hnew : ∀ d'∈D,∀ k'<userPdes,s.dir d' k'≠some f := fun d' hd' k' hk' he => hfT ⟨d',hd',k',hk',he⟩
    intro d1 hd1 k1 hk1 d2 hd2 k2 hk2 p h1 h2
    rw [dir_setPde] at h1 h2
    split at h1 <;> split at h2
    · next e1 e2 => exact ⟨e1.1.trans e2.1.symm,e1.2.trans e2.2.symm⟩
    · cases h1
      exact absurd h2 (hnew d2 hd2 k2 hk2)
    · cases h2
      exact absurd h1 (hnew d1 hd1 k1 hk1)
    · exact h.inj d1 hd1 k1 hk1 d2 hd2 k2 hk2 p h1 h2
  · by_cases hgf : g=f
    · subst hgf
      omega
    · have hc : (f::P).count g=P.count g := count_cons_of_ne (Ne.symm hgf)
      obtain ⟨_,_,h3,h4⟩:=h.user g (by rw [hc]; exact hg)
      exact .inl ⟨hc.symm,h3,fun ht => ((hT g).mp ht).elim h4 hgf⟩

lemma UvmInv.removeTable (h : UvmInv L D P s) (hd : d∈D) (hk : k<userPdes)
    (hf : s.dir d k=some f) (hempty : ∀ i<nptentries,(s.tab f i).p=false) :
    UvmInv L D (f::P) (s.setPde d k none) ∧ ∀ l,slots D (s.setPde d k none) l=slots D s l := by
  have hft : IsTable D s f := ⟨d,hd,k,hk,hf⟩
  obtain ⟨hm,hrc,hfD⟩:=h.table f hft
  have hzero : mapped D s f+P.count f=0 := by
    by_contra hne
    exact (h.user f (by omega)).2.2.2 hft
  have hT:=h.isTable_setPde_none hd hk hf
  have hslots : ∀ l,slots D (s.setPde d k none) l=slots D s l := by
    intro l
    have hentry : (s.setPde d k none).entry l=s.entry l := rfl
    by_cases hlf : (l.1 : ℕ)=f
    · have hp : (s.entry l).p=false := by
        rw [Uvm.entry,hlf]
        exact hempty l.2 l.2.isLt
      have hold : slots D s l=(s.entry l).frame := slots_of_isTable (hlf ▸ hft)
      rw [hold,slots_of_not_isTable (fun ht => ((hT _).mp ht).2 hlf),Pte.frame,hp]
      simp
    · exact slots_congr ((hT _).trans (by simp [hlf])) hentry
  refine ⟨h.of_slots rfl h.dir (fun p hp => h.table p ((hT p).mp hp).1) ?_ hslots fun g hg => ?_,hslots⟩
  · intro d1 hd1 k1 hk1 d2 hd2 k2 hk2 p h1 h2
    rw [dir_setPde] at h1 h2
    split at h1
    · cases h1
    split at h2
    · cases h2
    exact h.inj d1 hd1 k1 hk1 d2 hd2 k2 hk2 p h1 h2
  by_cases hgf : g=f
  · subst hgf
    refine .inr ⟨hm,?_,hfD,fun ht => ((hT g).mp ht).2 rfl⟩
    rw [count_cons_self]
    omega
  · have hc : (f::P).count g=P.count g := count_cons_of_ne (Ne.symm hgf)
    obtain ⟨_,_,h3,h4⟩:=h.user g (by rw [← hc]; exact hg)
    exact .inl ⟨hc,h3,fun ht => h4 ((hT g).mp ht).1⟩

lemma UvmInv.addDir (h : UvmInv L D (d::P) s) (hrc : s.rc d=1) :
    UvmInv L (insert d D) P (s.clearDir d) ∧
      ∀ l,slots (insert d D) (s.clearDir d) l=slots D s l := by
  obtain ⟨hm,htot,hdD,hdT⟩:=h.user d (by rw [count_cons_self]; omega)
  rw [count_cons_self] at htot
  have hne : ∀ d'∈D,d'≠d := fun d' hd' => ne_of_mem_of_not_mem hd' hdD
  have hdir : ∀ d'∈insert d D,∀ k p,update s.dir d (fun _ => none) d' k=some p → d'∈D ∧ s.dir d' k=some p := by
    intro d' hd' k p hp
    by_cases he : d'=d
    · subst he
      simp at hp
    · rw [update_of_ne he] at hp
      exact ⟨hd'.resolve_left he,hp⟩
  have hT : ∀ p,IsTable (insert d D) (s.clearDir d) p ↔ IsTable D s p := by
    intro p
    constructor
    · rintro ⟨d',hd',k',hk',hp⟩
      obtain ⟨hd'',hp'⟩:=hdir d' hd' k' p hp
      exact ⟨d',hd'',k',hk',hp'⟩
    rintro ⟨d',hd',k',hk',hp⟩
    refine ⟨d',.inr hd',k',hk',?_⟩
    show update s.dir d (fun _ => none) d' k'=some p
    rw [update_of_ne (hne d' hd')]
    exact hp
  have hslots : ∀ l,slots (insert d D) (s.clearDir d) l=slots D s l := by
    exact fun l => slots_congr (hT _) rfl
  refine ⟨h.of_slots rfl ?_ (fun p hp => ?_) ?_ hslots fun g hg => ?_,hslots⟩
  · rintro d' (rfl | hd')
    · exact ⟨hm,hrc⟩
    · exact h.dir d' hd'
  · have hp':=(hT p).mp hp
    obtain ⟨h1,h2,h3⟩:=h.table p hp'
    refine ⟨h1,h2,?_⟩
    rintro (rfl | hpD)
    · exact hdT hp'
    · exact h3 hpD
  · intro d1 hd1 k1 hk1 d2 hd2 k2 hk2 p h1 h2
    obtain ⟨hd1,h1⟩:=hdir d1 hd1 k1 p h1
    obtain ⟨hd2,h2⟩:=hdir d2 hd2 k2 p h2
    exact h.inj d1 hd1 k1 hk1 d2 hd2 k2 hk2 p h1 h2
  · by_cases hgd : g=d
    · subst hgd
      omega
    have hc : (d::P).count g=P.count g := count_cons_of_ne (Ne.symm hgd)
    obtain ⟨_,_,h3,h4⟩:=h.user g (by rw [hc]; exact hg)
    refine .inl ⟨hc.symm,?_,fun ht => h4 ((hT g).mp ht)⟩
    rintro (rfl | hgD)
    · exact hgd rfl
    · exact h3 hgD

lemma UvmInv.removeDir (h : UvmInv L (insert d D) P s) (hd : d∉D) (hempty : ∀ k<userPdes,s.dir d k=none) :
    UvmInv L D (d::P) s ∧ ∀ l,slots D s l=slots (insert d D) s l := by
  have hT : ∀ p,IsTable D s p ↔ IsTable (insert d D) s p := by
    intro p
    refine ⟨IsTable.mono (Set.subset_insert d D),?_⟩
    rintro ⟨d',hd',k',hk',hp⟩
    refine ⟨d',hd'.resolve_left ?_,k',hk',hp⟩
    rintro rfl
    rw [hempty k' hk'] at hp
    cases hp
  have hslots : ∀ l,slots D s l=slots (insert d D) s l := by
    exact fun l => slots_congr (hT _) rfl
  obtain ⟨hm,hrc⟩:=h.dir d (.inl rfl)
  have hzero : mapped (insert d D) s d+P.count d=0 := by
    by_contra hne
    exact (h.user d (by omega)).2.2.1 (.inl rfl)
  refine ⟨h.of_slots rfl (fun d' hd' => h.dir d' (.inr hd')) (fun p hp => ?_) ?_ hslots fun g hg => ?_,hslots⟩
  · obtain ⟨h1,h2,h3⟩:=h.table p ((hT p).mp hp)
    exact ⟨h1,h2,fun hpD => h3 (.inr hpD)⟩
  · intro d1 hd1 k1 hk1 d2 hd2
    exact h.inj d1 (.inr hd1) k1 hk1 d2 (.inr hd2)
  by_cases hgd : g=d
  · subst hgd
    refine .inr ⟨hm,?_,hd,fun ht => (h.table g ((hT g).mp ht)).2.2 (.inl rfl)⟩
    rw [count_cons_self]
    omega
  · have hc : (d::P).count g=P.count g := count_cons_of_ne (Ne.symm hgd)
    obtain ⟨_,_,h3,h4⟩:=h.user g (by rw [← hc]; exact hg)
    exact .inl ⟨hc,fun hgD => h3 (.inr hgD),fun ht => h4 ((hT g).mp ht)⟩

def SlotAt (s : Uvm) (d va : ℕ) (l : Slot) : Prop := s.dir d (pdx va)=some (l.1 : ℕ) ∧ (l.2 : ℕ)=ptx va

lemma pdx_lt (hva : va<kernbase) : pdx va<userPdes := by
  simp only [pdx,npdentries,userPdes,kernbase] at *
  omega
lemma same_page_iff (hva : va<kernbase) (hva' : va'<kernbase) :
    pdx va=pdx va' ∧ ptx va=ptx va' ↔ va/pgsize=va'/pgsize := by
  simp only [pdx,ptx,npdentries,nptentries,kernbase,pgsize] at *
  omega

lemma UvmInv.paValid (h : UvmInv L D P s) (hm : s.managed f) : paValid f=true := by
  obtain ⟨hlo,hhi⟩:=Mem.runptrValid_iff.mp (h.good.inv.managed_valid f hm)
  have h1:=L.data_ge
  have h2:=L.meta_ge
  have h3:=L.meta_end
  simp only [Vm.paValid,decide_eq_true_eq]
  simp only [kernbase,extmem,physTop] at *
  refine ⟨?_,hhi,by omega⟩
  rintro rfl
  omega

lemma SlotAt.isTable (hl : SlotAt s d va l) (hd : d∈D) (hva : va<kernbase) : IsTable D s l.1 :=
  ⟨d,hd,pdx va,pdx_lt hva,hl.1⟩
lemma SlotAt.eq {l' : Slot} (hl : SlotAt s d va l) (hl' : SlotAt s d va l') : l=l' := by
  have h1 : (l.1 : ℕ)=l'.1 := some.inj (hl.1.symm.trans hl'.1)
  exact Prod.ext (Fin.ext h1) (Fin.ext (hl.2.trans hl'.2.symm))
lemma SlotAt.same_page {d' : ℕ} (h : UvmInv L D P s) (hl : SlotAt s d va l)
    (hl' : SlotAt s d' va' l) (hd : d∈D) (hd' : d'∈D) (hva : va<kernbase)
    (hva' : va'<kernbase) : d=d' ∧ va/pgsize=va'/pgsize := by
  obtain ⟨he,hk⟩:=h.inj d hd _ (pdx_lt hva) d' hd' _ (pdx_lt hva') _ hl.1 hl'.1
  exact ⟨he,(same_page_iff hva hva').mp ⟨hk,hl.2.symm.trans hl'.2⟩⟩
lemma SlotAt.of_same_page (hl : SlotAt s d va l) (hva : va<kernbase)
    (hva' : va'<kernbase) (he : va'/pgsize=va/pgsize) : SlotAt s d va' l := by
  obtain ⟨h1,h2⟩:=(same_page_iff hva' hva).mpr he
  exact ⟨by rw [h1]; exact hl.1,by rw [h2]; exact hl.2⟩
lemma ptx_lt (va : ℕ) : ptx va<nptentries := Nat.mod_lt _ (by decide)
lemma walkpgdir_of_slotAt (h : UvmInv L D P s) (hd : d∈D) (hva : va<kernbase)
    (hl : SlotAt s d va l) : walkpgdir s d va=some l.loc := by
  have hval:=h.paValid (h.table _ (hl.isTable hd hva)).1
  simp only [walkpgdir,hl.1,hval,if_true,Slot.loc,hl.2]

lemma UvmInv.walkpgdir_cases (h : UvmInv L D P s) (hd : d∈D) (hva : va<kernbase) :
    (s.dir d (pdx va)=none ∧ walkpgdir s d va=none) ∨ ∃ l,SlotAt s d va l ∧ walkpgdir s d va=some l.loc := by
  cases hdir : s.dir d (pdx va) with
  | none => exact .inl ⟨rfl,by simp only [walkpgdir,hdir]⟩
  | some f =>
    have hm:=(h.table f ⟨d,hd,pdx va,pdx_lt hva,hdir⟩).1
    have hlt : f<npages := h.good.inv.lt_npages hm
    have hl : SlotAt s d va (⟨f,hlt⟩,⟨ptx va,ptx_lt va⟩) := ⟨hdir,rfl⟩
    exact .inr ⟨_,hl,walkpgdir_of_slotAt h hd hva hl⟩

lemma exists_slotAt (ht : IsTable D s l.1) : ∃ d∈D,∃ va<kernbase,SlotAt s d va l := by
  obtain ⟨d,hd,k,hk,hdir⟩:=ht
  have hva : k*2^22+l.2*2^12<kernbase := by
    simp only [userPdes,nptentries,kernbase] at *
    omega
  refine ⟨d,hd,_,hva,?_,?_⟩
  · have hpdx : pdx (k*2^22+l.2*2^12)=k := by
      simp only [pdx,npdentries,userPdes,nptentries] at *
      omega
    rw [hpdx]
    exact hdir
  · simp only [ptx,nptentries] at *
    omega

def pteAt (s : Uvm) (d va : ℕ) : Pte :=
  match walkpgdir s d va with
  | none => Pte.zero
  | some l => s.pte l
def view (s : Uvm) (d va : ℕ) : Option UInt8 := (pteAt s d va).frame.map fun f => s.page f (va%pgsize)

lemma pteAt_of_slotAt (h : UvmInv L D P s) (hd : d∈D) (hva : va<kernbase)
    (hl : SlotAt s d va l) : pteAt s d va=s.entry l := by
  simp only [pteAt,walkpgdir_of_slotAt h hd hva hl]
  rfl
lemma pteAt_of_dir_none (hnone : s.dir d (pdx va)=none) : pteAt s d va=Pte.zero := by
  simp only [pteAt,walkpgdir,hnone]

lemma UvmInv.slotAt_of_present (h : UvmInv L D P s) (hd : d∈D) (hva : va<kernbase)
    (hp : (pteAt s d va).p=true) : ∃ l,SlotAt s d va l ∧ s.entry l=pteAt s d va ∧
      slots D s l=some (pteAt s d va).pa := by
  rcases h.walkpgdir_cases hd hva with ⟨hnone,_⟩ | ⟨l,hl,_⟩
  · rw [pteAt_of_dir_none hnone] at hp
    cases hp
  · have he:=pteAt_of_slotAt h hd hva hl
    exact ⟨l,hl,he.symm,slots_eq_some.mpr ⟨hl.isTable hd hva,he ▸ hp,by rw [he]⟩⟩

lemma pteAt_setPte (h : UvmInv L D P s) (hd : d∈D) (hva : va<kernbase) {d' : ℕ} (hd' : d'∈D)
    (hva' : va'<kernbase) (hl : SlotAt s d va l) (e : Pte) : pteAt (s.setPte l.loc e) d' va' = if d'=d ∧
      va'/pgsize=va/pgsize then e else pteAt s d' va' := by
  have hwalk : walkpgdir (s.setPte l.loc e) d' va'=walkpgdir s d' va' := rfl
  rcases h.walkpgdir_cases hd' hva' with ⟨hnone,hw⟩ | ⟨l',hl',hw⟩
  · simp only [pteAt,hwalk,hw]
    rw [if_neg]
    rintro ⟨rfl,he⟩
    have := (hl.of_same_page hva hva' he).1
    rw [hnone] at this
    cases this
  have hnew : pteAt (s.setPte l.loc e) d' va'=(s.setPte l.loc e).entry l' := by
    simp only [pteAt,hwalk,hw]
    rfl
  rw [hnew,entry_setPte,pteAt_of_slotAt h hd' hva' hl']
  refine if_congr ⟨?_,?_⟩ rfl rfl
  · rintro rfl
    exact SlotAt.same_page h hl' hl hd' hd hva' hva
  · rintro ⟨rfl,he⟩
    exact hl'.eq (hl.of_same_page hva hva' he)

end

end Auxv6.Vm

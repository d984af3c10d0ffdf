import Auxv6.Vm.UvmTables

/-!
# What the page table functions keep

`Keeps D s s'` says that nothing of what the directories of `D` map has changed, and
`Unmaps D s s' R` that exactly the addresses in `R` have been unmapped.
-/

namespace Auxv6.Vm
open Machine Lib Function Nat Mem Vm

structure Keeps (D : Set ℕ) (s s' : Uvm) : Prop where
  table : ∀ A ⊆ D,∀ f,IsTable A s f → IsTable A s' f
  slots : ∀ A ⊆ D,∀ l,slots A s' l=slots A s l
  entry : ∀ l : Slot,IsTable D s l.1 → s'.entry l=s.entry l
  pte : ∀ d∈D,∀ va<kernbase,pteAt s' d va=pteAt s d va
  page : ∀ l g,Vm.slots D s l=some g → s'.page g=s.page g

structure Unmaps (D : Set ℕ) (s s' : Uvm) (R : ℕ → ℕ → Prop) : Prop where
  dir : s'.dir=s.dir
  page : s'.page=s.page
  slots : ∀ A ⊆ D,∀ l g,slots A s' l=some g → slots A s l=some g ∧ s'.entry l=s.entry l
  gone : ∀ d∈D,∀ va<kernbase,R d va → (pteAt s' d va).p=false
  kept : ∀ d∈D,∀ va<kernbase,¬ R d va → pteAt s' d va=pteAt s d va

section

variable {L : Layout} {D A B : Set ℕ} {P : List ℕ} {s s' s'' : Uvm} {f g d va : ℕ} {l : Slot}
  {R R' : ℕ → ℕ → Prop}

lemma Keeps.refl (D : Set ℕ) (s : Uvm) : Keeps D s s :=
  ⟨fun _ _ _ h => h,fun _ _ _ => rfl,fun _ _ => rfl,fun _ _ _ _ => rfl,fun _ _ _ => rfl⟩

lemma Keeps.trans (h : Keeps D s s') (h' : Keeps D s' s'') : Keeps D s s'' := by
  refine ⟨fun A hA f hf => h'.table A hA f (h.table A hA f hf),fun A hA l => ?_,fun l hl => ?_,
    fun d hd va hva => ?_,fun l g hg => ?_⟩
  · rw [h'.slots A hA,h.slots A hA]
  · rw [h'.entry l (h.table D subset_rfl _ hl),h.entry l hl]
  · rw [h'.pte d hd va hva,h.pte d hd va hva]
  · rw [h'.page l g (by rw [h.slots D subset_rfl]; exact hg),h.page l g hg]

lemma Keeps.setMem (s : Uvm) (m : State) : Keeps D s {s with mem := m} :=
  ⟨fun _ _ _ h => h,fun _ _ _ => rfl,fun _ _ => rfl,fun _ _ _ _ => rfl,fun _ _ _ => rfl⟩

lemma Keeps.setPage (s : Uvm) (hf : mapped D s f=0) (bs : ℕ → UInt8) : Keeps D s (s.setPage f bs) := by
  refine ⟨fun _ _ _ h => h,fun _ _ _ => rfl,fun _ _ => rfl,fun _ _ _ _ => rfl,fun l g hg => ?_⟩
  have hne : g≠f := by
    rintro rfl
    have := mapped_pos_iff.mpr ⟨l,hg⟩
    omega
  exact update_of_ne hne ..

lemma Keeps.mono (h : Keeps D s s') (hA : A ⊆ D) : Keeps A s s' :=
  ⟨fun B hB => h.table B (hB.trans hA),fun B hB => h.slots B (hB.trans hA),
    fun l hl => h.entry l (hl.mono hA),fun d hd => h.pte d (hA hd),fun l g hl => h.page l g (slots_mono hA hl)⟩
lemma Keeps.mapped (h : Keeps D s s') (g : ℕ) : mapped D s' g=mapped D s g := mapped_congr (h.slots D subset_rfl) g

lemma Keeps.excl (h : Keeps D s s') (hA : A ⊆ D) (hB : B ⊆ D) (hx : Excl A B s) : Excl A B s' := by
  intro l g hl hw
  rw [h.slots A hA] at hl
  have ht : IsTable D s l.1 := ((slots_eq_some.mp hl).1).mono hA
  rw [h.entry l ht] at hw ⊢
  obtain ⟨hcow,hone⟩:=hx l g hl hw
  exact ⟨hcow,fun l' hl' => hone l' (by rw [← h.slots B hB]; exact hl')⟩

lemma view_eq_of_pte (hpte : pteAt s' d va=pteAt s d va)
    (hpage : (pteAt s d va).p=true → s'.page (pteAt s d va).pa=s.page (pteAt s d va).pa) :
    view s' d va=view s d va := by
  unfold view
  rw [hpte]
  cases hp : (pteAt s d va).p with
  | false => simp [Pte.frame,hp]
  | true => simp [Pte.frame,hp,hpage hp]

lemma Keeps.view_of_subset (h : Keeps A s s') (hi : UvmInv L D P s) (hA : A ⊆ D) (hd : d∈A)
    (hva : va<kernbase) : view s' d va=view s d va := by
  refine view_eq_of_pte (h.pte d hd va hva) fun hp => ?_
  obtain ⟨l,hl,he,_⟩:=hi.slotAt_of_present (hA hd) hva hp
  exact h.page l _ (slots_eq_some.mpr ⟨hl.isTable hd hva,he ▸ hp,by rw [he]⟩)
lemma Keeps.view (h : Keeps D s s') (hi : UvmInv L D P s) (hd : d∈D) (hva : va<kernbase) :
    view s' d va=view s d va := h.view_of_subset hi subset_rfl hd hva
lemma Unmaps.refl (hR : ∀ d∈D,∀ va<kernbase,R d va → (pteAt s d va).p=false) : Unmaps D s s R :=
  ⟨rfl,rfl,fun _ _ _ _ h => ⟨h,rfl⟩,hR,fun _ _ _ _ _ => rfl⟩

section
variable (h : Unmaps D s s' R)
include h

lemma Unmaps.trans (h' : Unmaps D s' s'' R') : Unmaps D s s'' fun d va => R d va ∨ R' d va := by
  refine ⟨h'.dir.trans h.dir,h'.page.trans h.page,fun A hA l g hl => ?_,
    fun d hd va hva hr => ?_,fun d hd va hva hr => ?_⟩
  · obtain ⟨h1,h2⟩:=h'.slots A hA l g hl
    obtain ⟨h3,h4⟩:=h.slots A hA l g h1
    exact ⟨h3,h2.trans h4⟩
  · by_cases hr' : R' d va
    · exact h'.gone d hd va hva hr'
    · rw [h'.kept d hd va hva hr']
      exact h.gone d hd va hva (hr.resolve_right hr')
  · rw [not_or] at hr
    rw [h'.kept d hd va hva hr.2,h.kept d hd va hva hr.1]

lemma Unmaps.congr (hR : ∀ d∈D,∀ va<kernbase,R' d va ↔ R d va) : Unmaps D s s' R' :=
  ⟨h.dir,h.page,h.slots,fun d hd va hva hr => h.gone d hd va hva ((hR d hd va hva).mp hr),
    fun d hd va hva hr => h.kept d hd va hva (fun hr' => hr ((hR d hd va hva).mpr hr'))⟩

lemma Unmaps.excl (hA : A ⊆ D) (hB : B ⊆ D) (hx : Excl A B s) : Excl A B s' := by
  intro l g hl hw
  obtain ⟨hl',he⟩:=h.slots A hA l g hl
  rw [he] at hw ⊢
  obtain ⟨hcow,hone⟩:=hx l g hl' hw
  exact ⟨hcow,fun l' hl'' => hone l' (h.slots B hB l' g hl'').1⟩

lemma Unmaps.view (hd : d∈D) (hva : va<kernbase) :
    (R d va → view s' d va=none) ∧ (¬ R d va → view s' d va=view s d va) := by
  constructor
  · intro hr
    simp [Vm.view,Pte.frame,h.gone d hd va hva hr]
  · intro hr
    exact view_eq_of_pte (h.kept d hd va hva hr) fun _ => by rw [h.page]

end

lemma slots_setPte_of_ne {l' : Slot} (hne : l'≠l) (e : Pte) : slots A (s.setPte l.loc e) l'=slots A s l' :=
  slots_congr (isTable_congr rfl) (by rw [entry_setPte,if_neg hne])
lemma slots_setPte_self (e : Pte) : slots A (s.setPte l.loc e) l=some g ↔ IsTable A s l.1 ∧ e.p=true ∧ e.pa=g := by
  rw [slots_eq_some,entry_setPte,if_pos rfl]
  exact and_congr_left' (isTable_congr rfl)

lemma Excl.setPte (h : Excl A B s) (e : Pte) (hnew : IsTable A s l.1 → e.p=true → e.w=true →
      e.cow=false ∧ ∀ l',l'≠l → slots B s l'≠some e.pa)
    (hold : IsTable B s l.1 → e.p=true → ∀ l',l'≠l → slots A s l'=some e.pa →
      (s.entry l').w=false) : Excl A B (s.setPte l.loc e) := by
  intro l1 g hl1 hw
  by_cases he : l1=l
  · subst he
    obtain ⟨ht,hp,rfl⟩:=(slots_setPte_self e).mp hl1
    rw [entry_setPte,if_pos rfl] at hw ⊢
    obtain ⟨hcow,hone⟩:=hnew ht hp hw
    refine ⟨hcow,fun l' hl' => ?_⟩
    by_contra hne
    rw [slots_setPte_of_ne hne] at hl'
    exact hone l' hne hl'
  rw [slots_setPte_of_ne he] at hl1
  rw [entry_setPte,if_neg he] at hw ⊢
  obtain ⟨hcow,hone⟩:=h l1 g hl1 hw
  refine ⟨hcow,fun l' hl' => ?_⟩
  by_cases he' : l'=l
  · subst he'
    obtain ⟨ht,hp,rfl⟩:=(slots_setPte_self e).mp hl'
    have := hold ht hp l1 he hl1
    rw [hw] at this
    cases this
  · rw [slots_setPte_of_ne he'] at hl'
    exact hone l' hl'

lemma Excl.setPte_fresh (h : Excl A B s) (hA : A ⊆ D) (hB : B ⊆ D) (e : Pte) (hf : mapped D s e.pa=0)
    (hcow : e.w=true → e.cow=false) : Excl A B (s.setPte l.loc e) := by
  have hno : ∀ C ⊆ D,∀ l',slots C s l'≠some e.pa := fun C hC l' hl' => by
    have := mapped_pos_iff.mpr ⟨l',slots_mono hC hl'⟩
    omega
  exact h.setPte e (fun _ _ hw => ⟨hcow hw,fun l' _ => hno B hB l'⟩) fun _ _ l' _ hl' => absurd hl' (hno A hA l')

lemma unmaps_setPte_zero (h : UvmInv L D P s) (hd : d∈D) (hva : va<kernbase) (hl : SlotAt s d va l)
    (m : State) : Unmaps D s (Uvm.setPte {s with mem := m} l.loc Pte.zero) fun d' va' => d'=d ∧
      va'/pgsize=va/pgsize := by
  have hpte : ∀ d'∈D,∀ va'<kernbase,pteAt (Uvm.setPte {s with mem := m} l.loc Pte.zero) d' va' =
        if d'=d ∧ va'/pgsize=va/pgsize then Pte.zero else pteAt s d' va' :=
    fun d' hd' va' hva' => pteAt_setPte h hd hva hd' hva' hl Pte.zero
  refine ⟨rfl,rfl,fun A _ l' g hl' => ?_,fun d' hd' va' hva' hr => ?_,fun d' hd' va' hva' hr => ?_⟩
  · by_cases he : l'=l
    · subst he
      obtain ⟨_,hp,_⟩:=(slots_setPte_self Pte.zero).mp hl'
      cases hp
    · rw [slots_setPte_of_ne he] at hl'
      exact ⟨hl',by rw [entry_setPte,if_neg he]; rfl⟩
  · rw [hpte d' hd' va' hva',if_pos hr]
    rfl
  · rw [hpte d' hd' va' hva',if_neg hr]

lemma setPde_same {k : ℕ} {o : Option ℕ} (h : s.dir d k=o) : s.setPde d k o=s := by
  unfold Uvm.setPde
  rw [← h,update_eq_self,update_eq_self]

lemma UvmInv.keeps_addTable (h : UvmInv L D (f::P) s) (hrc : s.rc f=1) (hd : d∈D)
    (hva : va<kernbase) (hnone : s.dir d (pdx va)=none) : Keeps D s (s.addTable f d (pdx va)) := by
  obtain ⟨_,_,_,hfT⟩:=h.user f (by rw [List.count_cons_self]; omega)
  have hk:=pdx_lt hva
  have hinv:=h.addTable hrc hd hk hnone
  have hentry : ∀ l : Slot,IsTable D s l.1 → Uvm.entry (s.addTable f d (pdx va)) l=s.entry l := by
    intro l hl
    rw [entry_addTable,if_neg]
    intro he
    exact hfT (he ▸ hl)
  refine ⟨fun A hA p hp => hp.addTable hnone,
    fun A hA => slots_addTable hnone hfT hA,hentry,fun d' hd' va' hva' => ?_,fun _ _ _ => rfl⟩
  rcases h.walkpgdir_cases hd' hva' with ⟨hnone',_⟩ | ⟨l,hl,_⟩
  · rw [pteAt_of_dir_none hnone']
    -- either the entry is still absent or it is one of the new, zero table
    rcases hinv.walkpgdir_cases hd' hva' with ⟨hnone'',_⟩ | ⟨l,hl,_⟩
    · exact pteAt_of_dir_none hnone''
    rw [pteAt_of_slotAt hinv hd' hva' hl,entry_addTable,if_pos]
    have hdir:=hl.1
    rw [dir_setPde] at hdir
    split at hdir
    · exact (Option.some.inj hdir).symm
    · rw [show (s.setTab f fun _ => Pte.zero).dir=s.dir from rfl,hnone'] at hdir
      cases hdir
  · have hl' : SlotAt (s.addTable f d (pdx va)) d' va' l := by
      refine ⟨?_,hl.2⟩
      rw [dir_setPde,if_neg]
      · exact hl.1
      rintro ⟨rfl,he⟩
      have := hl.1
      rw [he,hnone] at this
      cases this
    rw [pteAt_of_slotAt hinv hd' hva' hl',pteAt_of_slotAt h hd' hva' hl,hentry l (hl.isTable hd' hva')]

lemma UvmInv.walkpgdirAlloc (h : UvmInv L D P s) (hd : d∈D) (hva : va<kernbase) (c : Fin ncpu) :
    ∃ r s',walkpgdirAlloc L c s d va=some (r,s') ∧ UvmInv L D P s' ∧ Keeps D s s' ∧
      s'.page=s.page ∧ (r=none ∨ ∃ l : Slot,r=some l.loc ∧ SlotAt s' d va l) := by
  rcases h.walkpgdir_cases hd hva with ⟨hnone,hw⟩ | ⟨l,hl,hw⟩
  · simp only [Vm.walkpgdirAlloc,hw,setPde_same hnone]
    obtain ⟨r,m,heq,hr⟩:=h.kalloc c
    rw [heq]
    rcases hr with ⟨rfl,hi⟩ | ⟨f,rfl,hi,hf⟩
    · exact ⟨none,_,rfl,hi,.setMem s m,rfl,.inl rfl⟩
    have hrc:=hf.rc_eq_one hi
    have hadd:=hi.addTable hrc hd (pdx_lt hva) hnone
    have hlt : f<npages := h.good.inv.lt_npages hf.managed
    refine ⟨_,_,rfl,hadd,(Keeps.setMem s m).trans (hi.keeps_addTable hrc hd hva hnone),rfl,
      .inr ⟨(⟨f,hlt⟩,⟨ptx va,ptx_lt va⟩),rfl,?_,rfl⟩⟩
    rw [dir_setPde,if_pos ⟨rfl,rfl⟩]
  · exact ⟨some l.loc,s,by simp only [Vm.walkpgdirAlloc,hw],h,.refl D s,rfl,.inr ⟨l,rfl,hl⟩⟩

lemma UvmInv.mappages {e : Pte} (h : UvmInv L D (e.pa::P) s) (hd : d∈D) (hva : va<kernbase)
    (hfree : (pteAt s d va).p=false) (c : Fin ncpu) :
    ∃ ok s',mappages L c s d va e=some (ok,s') ∧ ((ok=false ∧ UvmInv L D (e.pa::P) s' ∧ Keeps D s s') ∨
        (ok=true ∧ UvmInv L D P s' ∧ ∃ s1 l,UvmInv L D (e.pa::P) s1 ∧ Keeps D s s1 ∧
          s1.page=s.page ∧ SlotAt s1 d va l ∧ s'=s1.setPte l.loc {e with p := true})) := by
  obtain ⟨r,s1,heq,hi,hk,hpage,hr⟩:=h.walkpgdirAlloc hd hva c
  simp only [Vm.mappages,heq,some_bind]
  rcases hr with rfl | ⟨l,rfl,hl⟩
  · exact ⟨false,s1,rfl,.inl ⟨rfl,hi,hk⟩⟩
  have he : s1.entry l=pteAt s d va := by
    rw [← pteAt_of_slotAt hi hd hva hl,hk.pte d hd va hva]
  have hp : (s1.pte l.loc).p=false := by
    show (s1.entry l).p=false
    rw [he,hfree]
  refine ⟨true,s1.setPte l.loc {e with p := true},by simp [hp],.inr ⟨rfl,?_,s1,l,hi,hk, hpage,hl,rfl⟩⟩
  refine hi.setPte (hl.isTable hd hva) _ fun g => ?_
  simp only [he,Pte.frame,hfree,List.count_cons]
  by_cases hg : e.pa=g <;> simp [hg]
  omega

lemma kfree_of_mem {c : Fin ncpu} {m : State} (hmem : s'.mem=s.mem)
    (h : s.kfree L c f=some {s with mem := m}) : s'.kfree L c f=some {s' with mem := m} := by
  simp only [Uvm.kfree,Option.map_eq_some_iff] at h ⊢
  obtain ⟨m',hm',he⟩:=h
  exact ⟨m',by rw [hmem,hm'],by rw [show m'=m from congrArg Uvm.mem he]⟩

lemma count_setPte_zero (hp : (s.entry l).p=true) (g : ℕ) :
    (if Pte.zero.frame=some g then 1 else 0)+((s.entry l).pa::P).count g =
      (if (s.entry l).frame=some g then 1 else 0)+P.count g := by
  simp only [Pte.frame,Pte.zero,hp,List.count_cons,Bool.false_eq_true,if_false,if_true,
    Option.some.injEq,beq_iff_eq,reduceCtorEq]
  omega

lemma UvmInv.uvmReleasePte_cases (h : UvmInv L D P s) (hd : d∈D) (hva : va<kernbase)
    (hl : SlotAt s d va l) (c : Fin ncpu) : ((s.entry l).p=false ∧ uvmReleasePte L c s l.loc=some (0,s)) ∨
      ((s.entry l).p=true ∧ UvmInv L D ((s.entry l).pa::P) (s.setPte l.loc Pte.zero) ∧
        ∃ m,(s.setPte l.loc Pte.zero).kfree L c (s.entry l).pa = some {s.setPte l.loc Pte.zero with mem := m} ∧
          uvmReleasePte L c s l.loc=some (1,Uvm.setPte {s with mem := m} l.loc Pte.zero)) := by
  have ht:=hl.isTable hd hva
  have hpe : s.pte l.loc=s.entry l := rfl
  unfold uvmReleasePte
  rw [hpe]
  cases hp : (s.entry l).p with
  | false => exact .inl ⟨rfl,by simp [hp]⟩
  | true =>
    have hpos:=mapped_pos_iff.mpr ⟨l,slots_eq_some.mpr ⟨ht,hp,rfl⟩⟩
    obtain ⟨hm,_⟩:=h.user (s.entry l).pa (by omega)
    have hman : kpageIsManaged s.mem (s.entry l).pa=true := by
      simp only [kpageIsManaged,Bool.and_eq_true,decide_eq_true_eq]
      exact ⟨h.good.inv.lt_npages hm,hm⟩
    have hheld : UvmInv L D ((s.entry l).pa::P) (s.setPte l.loc Pte.zero) :=
      h.setPte ht Pte.zero (count_setPte_zero hp)
    obtain ⟨m,heq,-⟩:=hheld.kfree c
    have heq' : s.kfree L c (s.entry l).pa=some {s with mem := m} :=
      kfree_of_mem (s := s.setPte l.loc Pte.zero) rfl heq
    exact .inr ⟨rfl,hheld,m,heq,by simp [hp,h.paValid hm,hman,heq']⟩

lemma UvmInv.uvmReleasePte (h : UvmInv L D P s) (hd : d∈D) (hva : va<kernbase) (hl : SlotAt s d va l)
    (c : Fin ncpu) : ∃ r s',uvmReleasePte L c s l.loc=some (r,s') ∧ 0≤r ∧ UvmInv L D P s' ∧
      Unmaps D s s' (fun d' va' => d'=d ∧ va'/pgsize=va/pgsize) ∧
      ((s.entry l).p=true → ∃ m,s'=Uvm.setPte {s with mem := m} l.loc Pte.zero) := by
  rcases h.uvmReleasePte_cases hd hva hl c with ⟨hp,heq⟩ | ⟨hp,hheld,m,hkf,heq⟩
  · refine ⟨0,s,heq,le_rfl,h,Unmaps.refl fun d' _ va' hva' hr => ?_,by simp [hp]⟩
    obtain ⟨rfl,he⟩:=hr
    rw [pteAt_of_slotAt h hd hva' (hl.of_same_page hva hva' he),hp]
  · obtain ⟨m',hkf',hi⟩:=hheld.kfree c
    cases hkf'.symm.trans hkf
    exact ⟨1,_,heq,by decide,hi,unmaps_setPte_zero h hd hva hl m,fun _ => ⟨m,rfl⟩⟩

lemma UvmInv.deallocLoop {oldsz : ℕ} (hd : d∈D) (hold : oldsz≤kernbase) (c : Fin ncpu)
    (fuel a : ℕ) (h : UvmInv L D P s) (ha : a%pgsize=0) (hfuel : oldsz≤a+fuel*pgsize) :
    ∃ s',deallocLoop L c d oldsz fuel a s=some s' ∧ UvmInv L D P s' ∧
      Unmaps D s s' fun d' va => d'=d ∧ a≤va ∧ pgrounddown va<oldsz := by
  induction fuel generalizing a s with
  | zero =>
    refine ⟨s,rfl,h,Unmaps.refl fun d' _ va _ hr => ?_⟩
    simp only [pgrounddown,pgsize] at *
    omega
  | succ fuel ih =>
    rw [deallocLoop]
    by_cases hlt : a<oldsz
    · rw [if_pos hlt]
      have hva : a<kernbase := by omega
      rcases h.walkpgdir_cases hd hva with ⟨hnone,hw⟩ | ⟨l,hl,hw⟩
      · rw [hw]
        -- every address up to the next directory entry is unmapped
        obtain ⟨s',heq,hi,hu⟩:=ih ((pdx a+1)*2^22) h (by simp only [pgsize]; omega)
          (by simp only [pdx,npdentries,pgsize,kernbase] at *; omega)
        refine ⟨s',heq,hi,((Unmaps.refl (R := fun d' va => d'=d ∧ (a≤va ∧ pgrounddown va<oldsz) ∧ pdx va=pdx a)
          fun d' _ va _ hr => ?_).trans hu).congr fun d' _ va hva' => ?_⟩
        · obtain ⟨rfl,_,he⟩:=hr
          rw [pteAt_of_dir_none (he ▸ hnone)]
          rfl
        · simp only [pdx,npdentries,pgrounddown,pgsize,kernbase] at *
          omega
      · rw [hw]
        obtain ⟨r,s1,heq1,_,hi1,hu1,_⟩:=h.uvmReleasePte hd hva hl c
        obtain ⟨s',heq,hi,hu⟩:=ih (a+pgsize) hi1 (by rw [add_mod_right,ha]) (by rw [succ_mul] at hfuel; omega)
        refine ⟨s',by simp only [heq1,some_bind,heq],hi,(hu1.trans hu).congr fun d' _ va _ => ?_⟩
        simp only [pgrounddown,pgsize] at *
        omega
    · rw [if_neg hlt]
      refine ⟨s,rfl,h,Unmaps.refl fun d' _ va _ hr => ?_⟩
      simp only [pgrounddown,pgsize] at *
      omega

lemma UvmInv.deallocuvm (h : UvmInv L D P s) (hd : d∈D) (oldsz newsz : ℕ) (hold : oldsz≤kernbase)
    (c : Fin ncpu) : ∃ r s',deallocuvm L c s d oldsz newsz=some (r,s') ∧ UvmInv L D P s' ∧
      Unmaps D s s' fun d' va => d'=d ∧ newsz<oldsz ∧ pgroundup newsz≤va ∧ pgrounddown va<oldsz := by
  obtain ⟨hm,_⟩:=h.dir d hd
  have hw:=h.good.inv.kaddrWritable_page hm
  have hge : ¬ p2v (d*pgsize)<kernbase := by
    simp only [p2v]
    omega
  unfold Vm.deallocuvm
  simp only [hge,hw,not_true_eq_false,or_self,if_false]
  by_cases hle : oldsz≤newsz
  · rw [if_pos hle]
    exact ⟨_,s,rfl,h,Unmaps.refl fun d' _ va _ hr => by omega⟩
  rw [if_neg hle]
  have hround : pgroundup newsz%pgsize=0 := mul_mod_left ..
  obtain ⟨s',heq,hi,hu⟩:=h.deallocLoop hd hold c (oldsz/pgsize+1) (pgroundup newsz) hround
    (by have := div_add_mod oldsz pgsize
        simp only [pgsize] at *
        omega)
  rw [heq]
  exact ⟨_,s',rfl,hi,hu.congr fun d' _ va _ => by
    constructor
    · rintro ⟨h1,_,h2⟩
      exact ⟨h1,h2⟩
    · rintro ⟨h1,h2⟩
      exact ⟨h1,by omega,h2⟩⟩

end

end Auxv6.Vm

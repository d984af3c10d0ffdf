import Auxv6.Vm.UvmSpec

/-! # Growing, sharing and giving up user memory -/

namespace Auxv6.Vm
open Machine Lib Option Nat Mem

section

variable {L : Layout} {D A B : Set ℕ} {P : List ℕ} {s s' s'' : Uvm} {f g d va : ℕ} {l : Slot}
  {R R' : ℕ → ℕ → Prop}

lemma Unmaps.keeps {D' : Set ℕ} (hu : Unmaps D' s s' R) (h : UvmInv L D' P s)
    (h' : UvmInv L D' P s') (hD : D ⊆ D') (hR : ∀ d∈D,∀ va,¬ R d va) : Keeps D s s' := by
  have hT : ∀ A f,IsTable A s' f ↔ IsTable A s f := fun A f => isTable_congr hu.dir
  have hpte : ∀ d∈D,∀ va<kernbase,pteAt s' d va=pteAt s d va :=
    fun d hd va hva => hu.kept d (hD hd) va hva (hR d hd va)
  have hentry : ∀ l : Slot,IsTable D s l.1 → s'.entry l=s.entry l := by
    intro l hl
    obtain ⟨d,hd,va,hva,hs⟩:=exists_slotAt hl
    have hs' : SlotAt s' d va l := ⟨by rw [hu.dir]; exact hs.1,hs.2⟩
    rw [← pteAt_of_slotAt h' (hD hd) hva hs',hpte d hd va hva,pteAt_of_slotAt h (hD hd) hva hs]
  refine ⟨fun A _ f hf => (hT A f).mpr hf,fun A hA l => ?_,hentry,hpte,fun _ _ _ => by rw [hu.page]⟩
  by_cases hl : IsTable A s l.1
  · exact slots_congr (hT A _) (hentry l (hl.mono hA))
  · rw [slots_of_not_isTable hl,slots_of_not_isTable (fun ht => hl ((hT A _).mp ht))]

lemma keeps_of_dir (hdir : ∀ d∈D,s'.dir d=s.dir d) (htab : s'.tab=s.tab) (hpage : s'.page=s.page) : Keeps D s s' := by
  have hT : ∀ A ⊆ D,∀ f,IsTable A s' f ↔ IsTable A s f := by
    intro A hA f
    constructor <;> rintro ⟨d',hd',k',hk',hf⟩ <;> refine ⟨d',hd',k',hk',?_⟩
    · rw [← hdir d' (hA hd')]
      exact hf
    · rw [hdir d' (hA hd')]
      exact hf
  have hentry : ∀ l,s'.entry l=s.entry l := fun l => by rw [Uvm.entry,Uvm.entry,htab]
  refine ⟨fun A hA f hf => (hT A hA f).mpr hf,fun A hA l => slots_congr (hT A hA _) (hentry l),
    fun l _ => hentry l,fun _ hd' _ _ => ?_,fun _ _ _ => by rw [hpage]⟩
  unfold pteAt walkpgdir Uvm.pte
  rw [hdir _ hd',htab]

lemma UvmInv.freeTables (hd : d∉D) (c : Fin ncpu) (n i : ℕ) (hn : n+i=userPdes)
    (h : UvmInv L (insert d D) P s) (hgone : ∀ va<kernbase,(pteAt s d va).p=false) :
    ∃ s',freeTables L c d n i s=some s' ∧ UvmInv L (insert d D) P s' ∧ Keeps D s s' ∧
      (∀ k < i,s'.dir d k=s.dir d k) ∧ ∀ k,i≤k → k<userPdes → s'.dir d k=none := by
  induction n generalizing i s with
  | zero => exact ⟨s,rfl,h,.refl D s,fun _ _ => rfl,fun k h1 h2 => by omega⟩
  | succ n ih =>
    rw [Vm.freeTables]
    cases hdir : s.dir d i with
    | none =>
      obtain ⟨s',heq,hi,hk,hlow,hhigh⟩:=ih (i+1) (by omega) h hgone
      refine ⟨s',heq,hi,hk,fun k hki => hlow k (by omega),fun k hik hku => ?_⟩
      by_cases he : k=i
      · rw [he,hlow i (by omega),hdir]
      · exact hhigh k (by omega) hku
    | some f =>
      have hiu : i<userPdes := by omega
      have hval:=h.paValid (h.table f ⟨d,.inl rfl,i,hiu,hdir⟩).1
      have hempty : ∀ j<nptentries,(s.tab f j).p=false := by
        intro j hj
        have hva : i*2^22+j*2^12<kernbase := by
          simp only [userPdes,nptentries,kernbase] at *
          omega
        have hpdx : pdx (i*2^22+j*2^12)=i := by
          simp only [pdx,npdentries,userPdes,nptentries] at *
          omega
        have hptx : ptx (i*2^22+j*2^12)=j := by
          simp only [ptx,nptentries] at *
          omega
        have hp:=hgone _ hva
        simp only [pteAt,walkpgdir,hpdx,hptx,hdir,hval,if_true] at hp
        exact hp
      obtain ⟨hrem,_⟩:=h.removeTable (.inl rfl) hiu hdir hempty
      obtain ⟨m,heq,hi⟩:=hrem.kfree c
      have heq' : s.kfree L c f=some {s with mem := m} := kfree_of_mem (s := s.setPde d i none) rfl heq
      have hgone' : ∀ va<kernbase,(pteAt (Uvm.setPde {s with mem := m} d i none) d va).p=false := by
        intro va hva
        by_cases he : pdx va=i
        · rw [pteAt_of_dir_none (by rw [dir_setPde,if_pos ⟨rfl,he⟩])]
          rfl
        have hsame : pteAt (Uvm.setPde {s with mem := m} d i none) d va=pteAt s d va := by
          unfold pteAt walkpgdir
          rw [dir_setPde,if_neg (by simp [he])]
          rfl
        rw [hsame]
        exact hgone va hva
      obtain ⟨s',heq2,hi2,hk,hlow,hhigh⟩:=ih (i+1) (by omega) hi hgone'
      refine ⟨s',?_,hi2,((Keeps.setMem s m).trans (show Keeps D _ (Uvm.setPde _ d i none) from
          keeps_of_dir (fun _ hd' => Function.update_of_ne (ne_of_mem_of_not_mem hd' hd) ..) rfl rfl)).trans hk,
        fun k hki => ?_,fun k hik hku => ?_⟩
      · simp only [hval,not_true_eq_false,if_false,heq',some_bind]
        exact heq2
      · rw [hlow k (by omega)]
        refine (dir_setPde none d k).trans (if_neg ?_)
        omega
      · by_cases he : k=i
        · rw [hlow k (by omega)]
          exact (dir_setPde none d k).trans (if_pos ⟨rfl,he⟩)
        · exact hhigh k (by omega) hku

lemma UvmInv.freevm (h : UvmInv L (insert d D) P s) (hd : d∉D) (c : Fin ncpu) :
    ∃ s',freevm L c s d=some s' ∧ UvmInv L D P s' ∧ Keeps D s s' := by
  obtain ⟨r,s1,heq1,hi1,hu⟩:=h.deallocuvm (.inl rfl) kernbase 0 le_rfl c
  have hgone : ∀ va<kernbase,(pteAt s1 d va).p=false := by
    intro va hva
    have hlow:=pgrounddown_le va
    refine hu.gone d (.inl rfl) va hva ⟨rfl,by omega,?_,by omega⟩
    exact zero_le va
  obtain ⟨s2,heq2,hi2,hk2,_,hnone⟩:=hi1.freeTables hd c userPdes 0 (add_zero _) hgone
  obtain ⟨hrem,hsl⟩:=hi2.removeDir hd fun k hk => hnone k (zero_le k) hk
  obtain ⟨m,heq3,hi3⟩:=hrem.kfree c
  have hk1 : Keeps D s s1 := hu.keeps h hi1 (Set.subset_insert d D) fun d' hd' va hr =>
    hd (hr.1 ▸ hd')
  refine ⟨_,?_,hi3,(hk1.trans hk2).trans (.setMem s2 m)⟩
  rw [Vm.freevm,heq1,some_bind,heq2,some_bind,heq3]

structure MapsNew (D : Set ℕ) (s s' : Uvm) (d va : ℕ) (e : Pte) (bs : ℕ → UInt8) : Prop where
  fresh : mapped D s e.pa=0
  pte : ∀ d'∈D,∀ va'<kernbase,pteAt s' d' va' = if d'=d ∧ va'/pgsize=va/pgsize then e else pteAt s d' va'
  view : ∀ d'∈D,∀ va'<kernbase,view s' d' va' =
    if d'=d ∧ va'/pgsize=va/pgsize then some (bs (va'%pgsize)) else view s d' va'
  excl : ∀ A ⊆ D,∀ B ⊆ D,Excl A B s → Excl A B s'
  keeps : ∀ A ⊆ D,d∉A → Keeps A s s'

lemma keeps_setPte_other (h : UvmInv L D P s) (hd : d∈D) (hA : A ⊆ D) (hdA : d∉A)
    (hva : va<kernbase) (hl : SlotAt s d va l) (e : Pte) : Keeps A s (s.setPte l.loc e) := by
  have hno : ∀ l' : Slot,IsTable A s l'.1 → l'≠l := by
    rintro l' ⟨d',hd',k,hk,hf⟩ rfl
    exact hdA ((h.inj d hd _ (pdx_lt hva) d' (hA hd') k hk _ hl.1 hf).1 ▸ hd')
  refine ⟨fun _ _ _ ht => ht,fun B hB l' => ?_,fun l' hl' => ?_,fun d' hd' va' hva' => ?_,fun _ _ _ => rfl⟩
  · by_cases ht : IsTable B s l'.1
    · exact slots_setPte_of_ne (hno l' (ht.mono hB)) e
    · have ht' : ¬ IsTable B (s.setPte l.loc e) l'.1 := fun h' => ht ((isTable_congr rfl).mp h')
      rw [slots_of_not_isTable ht',slots_of_not_isTable ht]
  · rw [entry_setPte,if_neg (hno l' hl')]
  · rw [pteAt_setPte h hd hva (hA hd') hva' hl,if_neg]
    rintro ⟨rfl,_⟩
    exact hdA hd'

lemma UvmInv.setPages (h : UvmInv L D P s) (page : ℕ → ℕ → UInt8) : UvmInv L D P {s with page := page} :=
  ⟨h.good,h.dir,h.table,h.inj,h.user⟩
lemma UvmInv.setPage (h : UvmInv L D P s) (f : ℕ) (bs : ℕ → UInt8) : UvmInv L D P (s.setPage f bs) := h.setPages _

variable {m : State} {e : Pte} {oldsz newsz a r : ℕ}

lemma UvmInv.mapFresh (h : UvmInv L D P s)
    (hi : UvmInv L D (e.pa::P) {s with mem := m}) (hf : Fresh D P s e.pa) (bs : ℕ → UInt8)
    (hd : d∈D) (hva : va<kernbase) (hfree : (pteAt s d va).p=false) (hp : e.p=true)
    (hcow : e.w=true → e.cow=false) (c : Fin ncpu) :
    ∃ ok s',Vm.mappages L c (Uvm.setPage {s with mem := m} e.pa bs) d va e=some (ok,s') ∧
      ((ok=false ∧ UvmInv L D (e.pa::P) s' ∧ Keeps D s s') ∨
        (ok=true ∧ UvmInv L D P s' ∧ MapsNew D s s' d va e bs)) := by
  have hk : Keeps D s (Uvm.setPage {s with mem := m} e.pa bs) :=
    (Keeps.setMem s m).trans (.setPage _ (((Keeps.setMem s m).mapped _).trans hf.mapped) bs)
  have hi' : UvmInv L D (e.pa::P) (Uvm.setPage {s with mem := m} e.pa bs) := ⟨hi.good,hi.dir,hi.table,hi.inj,hi.user⟩
  obtain ⟨ok,s',heq,hr⟩:=hi'.mappages hd hva (by rw [hk.pte d hd va hva]; exact hfree) c
  refine ⟨ok,s',heq,hr.imp (fun hr => ⟨hr.1,hr.2.1,hk.trans hr.2.2⟩) ?_⟩
  rintro ⟨rfl,hinv,s1,l,hi1,hk1,hpage,hl,rfl⟩
  have he : {e with p := true} = e := by
    rw [← hp]
  rw [he] at hinv ⊢
  have hks : Keeps D s s1 := hk.trans hk1
  have hmap : mapped D s1 e.pa=0 := by rw [hks.mapped,hf.mapped]
  have hpte : ∀ d'∈D,∀ va'<kernbase,pteAt (s1.setPte l.loc e) d' va' =
      if d'=d ∧ va'/pgsize=va/pgsize then e else pteAt s d' va' := by
    intro d' hd' va' hva'
    rw [pteAt_setPte hi1 hd hva hd' hva' hl,hks.pte d' hd' va' hva']
  refine ⟨rfl,hinv,hf.mapped,hpte,fun d' hd' va' hva' => ?_,fun A hA B hB hx => ?_,fun A hA hdA => ?_⟩
  · by_cases hsame : d'=d ∧ va'/pgsize=va/pgsize
    · rw [if_pos hsame]
      simp only [view,hpte d' hd' va' hva',if_pos hsame,Pte.frame,hp,if_true,map_some]
      rw [setPte_page,hpage]
      simp [Uvm.setPage]
    · rw [if_neg hsame,← hks.view h hd' hva']
      refine view_eq_of_pte ?_ fun _ => rfl
      rw [hpte d' hd' va' hva',if_neg hsame,hks.pte d' hd' va' hva']
  · exact (hks.excl hA hB hx).setPte_fresh hA hB e hmap hcow
  · exact (hks.mono hA).trans (keeps_setPte_other hi1 hd hA hdA hva hl e)

lemma Excl.sane (hx : Excl A B s) (ht : IsTable A s l.1) : (s.entry l).sane=true := by
  unfold Pte.sane
  cases hp : (s.entry l).p with
  | false => simp
  | true =>
    cases hw : (s.entry l).w with
    | false => simp
    | true => simp [(hx l _ (slots_eq_some.mpr ⟨ht,hp,rfl⟩) hw).1]

lemma UvmInv.userPageState (h : UvmInv L D P s) (hx : Excl D D s) (hd : d∈D)
    (hva : va<kernbase) : ∃ n,userPageState s d va=some n ∧ (n=0 ↔ (pteAt s d va).p=false) := by
  unfold Vm.userPageState
  rcases h.walkpgdir_cases hd hva with ⟨hnone,hw⟩ | ⟨l,hl,hw⟩
  · rw [hw,pteAt_of_dir_none hnone]
    exact ⟨0,rfl,by simp [Pte.zero]⟩
  rw [hw,pteAt_of_slotAt h hd hva hl]
  have hpe : s.pte l.loc=s.entry l := rfl
  simp only [hpe]
  cases hp : (s.entry l).p with
  | false => exact ⟨0,by simp,by simp⟩
  | true =>
    have hsane:=hx.sane (hl.isTable hd hva)
    refine ⟨if (s.entry l).u then 2 else 1,by simp [hsane],?_⟩
    split <;> simp

lemma UvmInv.vmMapZerofillPage (h : UvmInv L D [] s) (hx : Excl D D s) (hd : d∈D) (va : ℕ)
    (writable : Bool) (c : Fin ncpu) : ∃ ok s',vmMapZerofillPage L c s d va writable=some (ok,s') ∧ UvmInv L D [] s' ∧
      ((ok=false ∧ Keeps D s s') ∨ (ok=true ∧ va%pgsize=0 ∧ va<kernbase ∧ (pteAt s d va).p=false ∧
          ∃ f,MapsNew D s s' d va ⟨f,true,writable,true,false⟩ fun _ => 0)) := by
  unfold Vm.vmMapZerofillPage
  by_cases hbad : va%pgsize≠0 ∨ kernbase≤va
  · rw [if_pos hbad]
    exact ⟨false,s,rfl,h,.inl ⟨rfl,.refl D s⟩⟩
  rw [if_neg hbad]
  rw [not_or,not_not,not_le] at hbad
  obtain ⟨hal,hva⟩:=hbad
  obtain ⟨n,heq,hn⟩:=h.userPageState hx hd hva
  rw [heq,some_bind]
  by_cases hn0 : n≠0
  · rw [if_pos hn0]
    exact ⟨false,s,rfl,h,.inl ⟨rfl,.refl D s⟩⟩
  rw [if_neg hn0]
  have hfree:=hn.mp (not_not.mp hn0)
  obtain ⟨r,m,heq,hr⟩:=h.kalloc c
  rw [heq,some_bind]
  rcases hr with ⟨rfl,hi⟩ | ⟨f,rfl,hi,hf⟩
  · exact ⟨false,_,rfl,hi,.inl ⟨rfl,.setMem s m⟩⟩
  obtain ⟨ok,s',heq',hr⟩:=h.mapFresh (e := ⟨f,true,writable,true,false⟩) hi hf
    (fun _ => 0) hd hva hfree rfl (fun _ => rfl) c
  simp only [heq',some_bind]
  rcases hr with ⟨rfl,hi',hk⟩ | ⟨rfl,hi',hm⟩
  · obtain ⟨m',hkf,hi''⟩:=UvmInv.kfree (f := f) hi' c
    exact ⟨false,_,by simp only [hkf,map_some],hi'',.inl ⟨rfl,hk.trans (.setMem s' m')⟩⟩
  · exact ⟨true,s',rfl,hi',.inr ⟨rfl,hal,hva,hfree,_,hm⟩⟩

def grown (oldsz newsz va : ℕ) : Prop := pgroundup oldsz≤va ∧ pgrounddown va<newsz
  deriving Decidable

structure AllocGrows (D : Set ℕ) (s s' : Uvm) (d oldsz newsz a r : ℕ) : Prop where
  excl : Excl D D s'
  other : ∀ d'∈D,∀ va<kernbase,¬ (d'=d ∧ grown oldsz newsz va) → view s' d' va=view s d' va
  range : (r=newsz ∧ ∀ va<kernbase,grown oldsz newsz va → view s' d va=if a≤va then some 0 else view s d va) ∨
    (r=0 ∧ ∀ va<kernbase,grown oldsz newsz va → view s' d va=none)

lemma UvmInv.deallocGrown (h : UvmInv L D P s') (hk : Keeps D s s')
    (hi : UvmInv L D [] s) (hx : Excl D D s) (hd : d∈D) (hlt : oldsz<newsz)
    (hnew : newsz<kernbase) (a : ℕ) (c : Fin ncpu) :
    ∃ r s'',Vm.deallocuvm L c s' d newsz oldsz=some (r,s'') ∧ UvmInv L D P s'' ∧
      AllocGrows D s s'' d oldsz newsz a 0 := by
  obtain ⟨r,s'',heq,hi',hu⟩:=h.deallocuvm hd newsz oldsz hnew.le c
  refine ⟨r,s'',heq,hi',hu.excl subset_rfl subset_rfl (hk.excl subset_rfl subset_rfl hx),
    fun d' hd' va hva hne => ?_,.inr ⟨rfl,fun va hva hg => ?_⟩⟩
  · rw [(hu.view hd' hva).2 (fun hr => hne ⟨hr.1,hr.2.2⟩),hk.view hi hd' hva]
  · exact (hu.view hd hva).1 ⟨rfl,hlt,hg⟩

lemma pgrounddown_lt {b : ℕ} (ha : a%pgsize=0) : pgrounddown b<a ↔ b<a := by
  simp only [pgrounddown,pgsize] at *
  omega
lemma view_setMem (m : State) : view {s with mem := m} d va=view s d va := rfl

lemma AllocGrows.setMem (h : AllocGrows D s s' d oldsz newsz a r) (m : State) :
    AllocGrows D s {s' with mem := m} d oldsz newsz a r := by
  refine ⟨(Keeps.setMem s' m).excl subset_rfl subset_rfl h.excl,fun d' hd' va hva hne => ?_,
    h.range.imp (fun hr => ⟨hr.1,fun va hva hg => ?_⟩) fun hr => ⟨hr.1,fun va hva hg => ?_⟩⟩
  · rw [view_setMem,h.other d' hd' va hva hne]
  · rw [view_setMem,hr.2 va hva hg]
  · rw [view_setMem,hr.2 va hva hg]

lemma MapsNew.grows (hm : MapsNew D s s' d a e fun _ => 0)
    (hd : d∈D) (ha : a%pgsize=0) (hlow : pgroundup oldsz≤a) (hlast : a<newsz)
    (hg : AllocGrows D s' s'' d oldsz newsz (a+pgsize) r) : AllocGrows D s s'' d oldsz newsz a r := by
  have hpage : ∀ va,va/pgsize=a/pgsize ↔ a≤va ∧ va<a+pgsize := by
    simp only [pgsize] at *
    omega
  refine ⟨hg.excl,fun d' hd' va hva hne => ?_,hg.range.imp_left fun hr =>
    ⟨hr.1,fun va hva hgr => ?_⟩⟩
  · rw [hg.other d' hd' va hva hne,hm.view d' hd' va hva,if_neg]
    rintro ⟨rfl,hsame⟩
    have hin:=(hpage va).mp hsame
    have hdown : pgrounddown va=a := by
      simp only [pgrounddown,pgsize] at *
      omega
    exact hne ⟨rfl,by omega,by omega⟩
  · rw [hr.2 va hva hgr,hm.view d hd va hva]
    simp only [true_and,hpage]
    split_ifs <;> first | rfl | omega

variable {c : Fin ncpu}

lemma UvmInv.mappages_remap (h : UvmInv L D P s) (hd : d∈D) (hva : va<kernbase)
    (hp : (pteAt s d va).p=true) : Vm.mappages L c s d va e=none := by
  obtain ⟨l,hl,he,_⟩:=h.slotAt_of_present hd hva hp
  have hpe : (s.pte l.loc).p=true := by
    show (s.entry l).p=true
    rw [he,hp]
  simp [Vm.mappages,Vm.walkpgdirAlloc,walkpgdir_of_slotAt h hd hva hl,hpe]

/-- How the loop of `allocuvm` goes from address `a` on: to the end, or to a page or a page table
that there is no memory for. -/
inductive AllocRun (L : Layout) (c : Fin ncpu) (D : Set ℕ) (d oldsz newsz : ℕ) :
    ℕ → Uvm → ℕ → Uvm → Prop
  | done {a : ℕ} {s : Uvm} (hle : newsz≤a) : AllocRun L c D d oldsz newsz a s newsz s
  | noPage {a r : ℕ} {s s' : Uvm} {m : State} (hlast : a<newsz)
      (hk : s.kalloc L c=some (none,{s with mem := m})) (hi : UvmInv L D [] {s with mem := m})
      (hde : deallocuvm L c {s with mem := m} d newsz oldsz=some (r,s')) :
      AllocRun L c D d oldsz newsz a s 0 s'
  | noTable {a r f : ℕ} {s s1 s2 s' : Uvm} {m : State} (hlast : a<newsz)
      (hk : s.kalloc L c=some (some f,{s with mem := m})) (hi : UvmInv L D [f] {s with mem := m})
      (hp : (pteAt s d a).p=false) (hmap : mappages L c (Uvm.setPage {s with mem := m} f fun _ => 0)
        d a ⟨f,true,true,true,false⟩=some (false,s1))
      (hi1 : UvmInv L D [f] s1) (hkeep : Keeps D s s1)
      (hde : deallocuvm L c s1 d newsz oldsz=some (r,s2)) (hf : s2.kfree L c f=some s') :
      AllocRun L c D d oldsz newsz a s 0 s'
  | page {a r f : ℕ} {s s1 s' : Uvm} {m : State} (hlast : a<newsz)
      (hk : s.kalloc L c=some (some f,{s with mem := m})) (hi : UvmInv L D [f] {s with mem := m})
      (hp : (pteAt s d a).p=false) (hmap : mappages L c (Uvm.setPage {s with mem := m} f fun _ => 0)
        d a ⟨f,true,true,true,false⟩=some (true,s1))
      (hi1 : UvmInv L D [] s1) (hm : MapsNew D s s1 d a ⟨f,true,true,true,false⟩ fun _ => 0)
      (rest : AllocRun L c D d oldsz newsz (a+pgsize) s1 r s') : AllocRun L c D d oldsz newsz a s r s'

lemma UvmInv.allocLoop (hd : d∈D) (hlt : newsz<kernbase)
    (fuel a : ℕ) (h : UvmInv L D [] s) (hfuel : newsz≤a+fuel*pgsize)
    (hrun : allocLoop L c d oldsz newsz fuel a s=some (r,s')) : AllocRun L c D d oldsz newsz a s r s' := by
  induction fuel generalizing a s with
  | zero =>
    cases hrun
    exact .done (by omega)
  | succ fuel ih =>
    rw [Vm.allocLoop] at hrun
    by_cases hlast : a<newsz
    · rw [if_pos hlast] at hrun
      have hva : a<kernbase := by omega
      obtain ⟨q,m,heq,hq⟩:=h.kalloc c
      rw [heq,some_bind] at hrun
      rcases hq with ⟨rfl,hi⟩ | ⟨f,rfl,hi,hf⟩
      · obtain ⟨_,hde,he⟩:=map_eq_some_iff.mp hrun
        cases he
        exact .noPage hlast heq hi hde
      cases hp : (pteAt s d a).p with
      | true =>
        have hp' : (pteAt (Uvm.setPage {s with mem := m} f fun _ => 0) d a).p=true := hp
        simp only [(hi.setPage f _).mappages_remap hd hva hp',bind_eq_bind,bind_none] at hrun
        cases hrun
      | false =>
        obtain ⟨ok,s1,hmap,hr⟩:=h.mapFresh (e := ⟨f,true,true,true,false⟩) hi hf
          (fun _ => 0) hd hva hp rfl (fun _ => rfl) c
        simp only [hmap,some_bind] at hrun
        rcases hr with ⟨rfl,hi1,hkeep⟩ | ⟨rfl,hi1,hm⟩
        · obtain ⟨_,hde,hrun⟩:=bind_eq_some_iff.mp hrun
          obtain ⟨_,hkf,he⟩:=map_eq_some_iff.mp hrun
          cases he
          exact .noTable hlast heq hi hp hmap hi1 hkeep hde hkf
        · rw [succ_mul] at hfuel
          exact .page hlast heq hi hp hmap hi1 hm (ih (a+pgsize) hi1 (by omega) hrun)
    · rw [if_neg hlast] at hrun
      cases hrun
      exact .done (not_lt.mp hlast)

lemma UvmInv.allocuvm_cases (h : UvmInv L D [] s) (hd : d∈D)
    (hrun : allocuvm L c s d oldsz newsz=some (r,s')) : (kernbase≤newsz ∧ r=0 ∧ s'=s) ∨
      (newsz<oldsz ∧ r=oldsz ∧ s'=s) ∨ newsz<kernbase ∧ oldsz≤newsz ∧ oldsz≤pgroundup oldsz ∧
      pgroundup oldsz%pgsize=0 ∧ AllocRun L c D d oldsz newsz (pgroundup oldsz) s r s' := by
  unfold Vm.allocuvm at hrun
  split_ifs at hrun with hbig hsmall
  · cases hrun
    exact .inl ⟨hbig,rfl,rfl⟩
  · cases hrun
    exact .inr (.inl ⟨hsmall,rfl,rfl⟩)
  have hge : oldsz≤pgroundup oldsz := by
    simp only [pgroundup,pgrounddown,pgsize,wordMod,kernbase] at *
    omega
  refine .inr (.inr ⟨not_le.mp hbig,not_lt.mp hsmall,hge,mul_mod_left ..,?_⟩)
  exact UvmInv.allocLoop hd (not_le.mp hbig) _ _ h (by simp only [pgsize] at *; omega) hrun

lemma AllocRun.grows (hrun : AllocRun L c D d oldsz newsz a s r s') (hd : d∈D) (hlt : newsz<kernbase)
    (h : UvmInv L D [] s) (hx : Excl D D s) (ha : a%pgsize=0) (hlow : pgroundup oldsz≤a)
    (hold : a<newsz → oldsz<newsz) : UvmInv L D [] s' ∧ AllocGrows D s s' d oldsz newsz a r := by
  induction hrun with
  | done hle =>
    refine ⟨h,hx,fun _ _ _ _ _ => rfl,.inl ⟨rfl,fun va _ hg => ?_⟩⟩
    have hva : va<_ := (pgrounddown_lt ha).mp (hg.2.trans_le hle)
    rw [if_neg (by omega)]
  | noPage hlast hk hi hde =>
    obtain ⟨_,s1,heq,hi',hg⟩:=hi.deallocGrown (.setMem _ _) h hx hd (hold hlast) hlt _ c
    cases heq.symm.trans hde
    exact ⟨hi',hg⟩
  | @noTable _ _ f _ _ _ _ _ hlast hk hi hp hmap hi1 hkeep hde hf =>
    obtain ⟨_,s2,heq,hi2,hg⟩:=hi1.deallocGrown hkeep h hx hd (hold hlast) hlt _ c
    cases heq.symm.trans hde
    obtain ⟨m',hkf,hi3⟩:=UvmInv.kfree (f := f) hi2 c
    cases hkf.symm.trans hf
    exact ⟨hi3,hg.setMem m'⟩
  | page hlast hk hi hp hmap hi1 hm _ ih =>
    obtain ⟨hi',hg⟩:=ih hi1 (hm.excl D subset_rfl D subset_rfl hx) (by rw [add_mod_right,ha])
      (by omega) fun _ => hold hlast
    exact ⟨hi',hm.grows hd ha hlow hlast hg⟩

lemma UvmInv.allocuvm (h : UvmInv L D [] s) (hx : Excl D D s) (hd : d∈D)
    (hrun : allocuvm L c s d oldsz newsz=some (r,s')) : UvmInv L D [] s' ∧ (s'=s ∧ ¬ (newsz<kernbase ∧ oldsz≤newsz) ∨
      newsz<kernbase ∧ oldsz≤newsz ∧ AllocGrows D s s' d oldsz newsz (pgroundup oldsz) r) := by
  rcases h.allocuvm_cases hd hrun with ⟨hbig,-,rfl⟩ | ⟨hsmall,-,rfl⟩ | ⟨hlt,hle,hge,ha,hr⟩
  · exact ⟨h,.inl ⟨rfl,by omega⟩⟩
  · exact ⟨h,.inl ⟨rfl,by omega⟩⟩
  · obtain ⟨hi,hg⟩:=hr.grows hd hlt h hx ha le_rfl (fun hlast => by omega)
    exact ⟨hi,.inr ⟨hlt,hle,hg⟩⟩

def SameViews (D : Set ℕ) (s s' : Uvm) : Prop := ∀ d∈D,∀ va<kernbase,view s' d va=view s d va

lemma Keeps.sameViews (hk : Keeps D s s') (h : UvmInv L D P s) : SameViews D s s' :=
  fun _ hd _ hva => hk.view h hd hva
lemma view_of_entry (h : UvmInv L D P s) (hd : d∈D) (hva : va<kernbase)
    (hl : SlotAt s d va l) : view s d va=(s.entry l).frame.map fun f => s.page f (va%pgsize) := by
  rw [view,pteAt_of_slotAt h hd hva hl]

lemma sameViews_setPte (h : UvmInv L D P s) (hd : d∈D) (hva : va<kernbase) (hl : SlotAt s d va l) (e : Pte)
    (he : e.frame.map s.page=(s.entry l).frame.map s.page) : SameViews D s (s.setPte l.loc e) := by
  intro d' hd' va' hva'
  have hpte:=pteAt_setPte h hd hva hd' hva' hl e
  by_cases hsame : d'=d ∧ va'/pgsize=va/pgsize
  · obtain ⟨rfl,hpage⟩:=hsame
    rw [if_pos ⟨rfl,hpage⟩] at hpte
    have hmap : ∀ o : Option ℕ,o.map (fun f => s.page f (va'%pgsize)) =
        (o.map s.page).map fun bs => bs (va'%pgsize) := fun o => by rw [map_map]; rfl
    rw [view_of_entry h hd' hva' (hl.of_same_page hva hva' hpage),view,hpte,setPte_page,hmap,hmap,he]
  · rw [if_neg hsame] at hpte
    exact view_eq_of_pte hpte fun _ => rfl

lemma UvmInv.vmLookupPte (h : UvmInv L D P s) (hx : Excl D D s) (hd : d∈D) (hva : va<kernbase) :
    (vmLookupPte s d va=some none ∧ (pteAt s d va).p=false) ∨
      ∃ l,SlotAt s d va l ∧ vmLookupPte s d va=some (some l.loc) := by
  have hdown : pgrounddown va<kernbase := (div_mul_le_self va pgsize).trans_lt hva
  have hpage : pgrounddown va/pgsize=va/pgsize := by
    simp only [pgrounddown,pgsize]
    omega
  unfold Vm.vmLookupPte
  rcases h.walkpgdir_cases hd hdown with ⟨hnone,hw⟩ | ⟨l,hl,hw⟩
  · refine .inl ⟨by rw [hw],?_⟩
    rw [pteAt_of_dir_none]
    · rfl
    · rw [← ((same_page_iff hdown hva).mpr hpage).1]
      exact hnone
  · have hsane : (s.pte l.loc).sane=true := hx.sane (hl.isTable hd hdown)
    exact .inr ⟨l,hl.of_same_page hdown hva hpage.symm,by simp [hw,hsane]⟩

lemma UvmInv.cowCopy (h : UvmInv L D [] s) (hx : Excl D D s) (hd : d∈D)
    (hva : va<kernbase) (hl : SlotAt s d va l) (hp : (s.entry l).p=true)
    (hi : UvmInv L D [f] {s with mem := m}) (hf : Fresh D [] s f) (u : Bool) (c : Fin ncpu) :
    ∃ r s',Vm.uvmReleasePte L c (Uvm.setPage {s with mem := m} f (s.page (s.entry l).pa)) l.loc =
        some (r,s') ∧ 0≤r ∧ UvmInv L D [] (s'.setPte l.loc ⟨f,true,true,u,false⟩) ∧
      Excl D D (s'.setPte l.loc ⟨f,true,true,u,false⟩) ∧ SameViews D s (s'.setPte l.loc ⟨f,true,true,u,false⟩) := by
  have hk : Keeps D s (Uvm.setPage {s with mem := m} f (s.page (s.entry l).pa)) :=
    (Keeps.setMem s m).trans (.setPage _ (((Keeps.setMem s m).mapped _).trans hf.mapped) _)
  generalize hs1 : Uvm.setPage {s with mem := m} f (s.page (s.entry l).pa)=s1 at hk ⊢
  have hi1 : UvmInv L D [f] s1 := hs1 ▸ ⟨hi.good,hi.dir,hi.table,hi.inj,hi.user⟩
  have hl1 : SlotAt s1 d va l := hs1 ▸ hl
  have hpf : s1.page f=s.page (s.entry l).pa := by
    rw [← hs1]
    exact Function.update_self ..
  have he1 : s1.entry l=s.entry l := hk.entry l (hl.isTable hd hva)
  obtain ⟨r,s2,heq,hr,hi2,hu,hset⟩:=hi1.uvmReleasePte hd hva hl1 c
  obtain ⟨m',rfl⟩:=hset (by rw [he1,hp])
  have hl2 : SlotAt (Uvm.setPte {s1 with mem := m'} l.loc Pte.zero) d va l := hl1
  have hmap : mapped D (Uvm.setPte {s1 with mem := m'} l.loc Pte.zero) f=0 := by
    by_contra hne
    obtain ⟨l',hl'⟩:=mapped_pos_iff.mp (pos_of_ne_zero hne)
    have := mapped_pos_iff.mpr ⟨l',(hu.slots D subset_rfl l' f hl').1⟩
    rw [hk.mapped,hf.mapped] at this
    exact this.ne rfl
  refine ⟨r,_,heq,hr,?_,?_,?_⟩
  · refine hi2.setPte (hl2.isTable hd hva) _ fun g => ?_
    rw [entry_setPte,if_pos rfl]
    simp only [Pte.frame,Pte.zero,List.count_cons,List.count_nil]
    by_cases hg : f=g <;> simp [hg]
  · exact (hu.excl subset_rfl subset_rfl (hk.excl subset_rfl subset_rfl hx)).setPte_fresh
      subset_rfl subset_rfl _ hmap fun _ => rfl
  intro d' hd' va' hva'
  have hpte:=pteAt_setPte hi2 hd hva hd' hva' hl2 ⟨f,true,true,u,false⟩
  by_cases hsame : d'=d ∧ va'/pgsize=va/pgsize
  · obtain ⟨rfl,hpage⟩:=hsame
    rw [if_pos ⟨rfl,hpage⟩] at hpte
    rw [view_of_entry h hd' hva' (hl.of_same_page hva hva' hpage),view,hpte]
    simp only [Pte.frame,hp,if_true,map_some]
    rw [← hpf]
    rfl
  · rw [if_neg hsame,hu.kept d' hd' va' hva' hsame] at hpte
    rw [← hk.view h hd' hva']
    exact view_eq_of_pte hpte fun _ => rfl

lemma UvmInv.cowFault (h : UvmInv L D [] s) (hx : Excl D D s) (hd : d∈D) (hva : va<kernbase) (c : Fin ncpu) :
    ∃ ok s',cowFault L c s d va=some (ok,s') ∧ UvmInv L D [] s' ∧ Excl D D s' ∧ SameViews D s s' := by
  unfold Vm.cowFault
  rcases h.vmLookupPte hx hd hva with ⟨heq,_⟩ | ⟨l,hl,heq⟩
  · rw [heq,some_bind]
    exact ⟨false,s,rfl,h,hx,fun _ _ _ _ => rfl⟩
  rw [heq,some_bind]
  have hpe : s.pte l.loc=s.entry l := rfl
  simp only [hpe]
  by_cases hno : ¬ (s.entry l).p=true ∨ ¬ (s.entry l).cow=true ∨ (s.entry l).pa=0
  · rw [if_pos hno]
    exact ⟨false,s,rfl,h,hx,fun _ _ _ _ => rfl⟩
  rw [if_neg hno]
  rw [not_or,not_or,not_not,not_not] at hno
  obtain ⟨hp,_,_⟩:=hno
  have ht:=hl.isTable hd hva
  have hsl : slots D s l=some (s.entry l).pa := slots_eq_some.mpr ⟨ht,hp,rfl⟩
  by_cases hshared : 1<kpageRefcount s.mem (s.entry l).pa
  · rw [if_pos hshared]
    obtain ⟨r,m,heqk,hr⟩:=h.kalloc c
    rw [heqk,some_bind]
    rcases hr with ⟨rfl,hi⟩ | ⟨f,rfl,hi,hf⟩
    · exact ⟨false,_,rfl,hi,(Keeps.setMem s m).excl subset_rfl subset_rfl hx,(Keeps.setMem s m).sameViews h⟩
    obtain ⟨r,s',heqr,hr,hres⟩:=h.cowCopy hx hd hva hl hp hi hf (s.entry l).u c
    dsimp only
    rw [heqr,some_bind,if_neg (not_lt.mpr hr)]
    exact ⟨true,_,rfl,hres⟩
  rw [if_neg hshared]
  -- the only reference is the one of this slot
  have hone : mapped D s (s.entry l).pa=1 := by
    have hpos:=mapped_pos_iff.mpr ⟨l,hsl⟩
    have hrc:=(h.user (s.entry l).pa (by omega)).2.1
    rw [List.count_nil,Uvm.rc] at hrc
    omega
  have honly : ∀ l',l'≠l → slots D s l'≠some (s.entry l).pa := fun l' hne hl' =>
    hne (RefCount.eq_of_refs_eq_one hone hl' hsl)
  refine ⟨true,_,rfl,h.setPte ht _ fun g => rfl,hx.setPte _ (fun _ _ _ => ⟨rfl,honly⟩)
    fun _ _ l' hne hl' => absurd hl' (honly l' hne),sameViews_setPte h hd hva hl _ rfl⟩

end

end Auxv6.Vm

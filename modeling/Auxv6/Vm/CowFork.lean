import Auxv6.Vm.CowStore

/-!
# Duplicating an address space

The parent's entries are write-protected only once the child is complete.
-/

namespace Auxv6.Vm
open Machine Lib List Option Mem

structure Copying (L : Layout) (D : Set ℕ) (s0 s : Uvm) (src d : ℕ) (done : Set ℕ) : Prop where
  inv : UvmInv L (insert d D) [] s
  keeps : Keeps D s0 s
  excl : Excl {d} (insert d D) s
  view : ∀ va<kernbase,va/pgsize∈done → view s d va=view s0 src va
  absent : ∀ va<kernbase,va/pgsize∉done → (pteAt s d va).p=false
  source : ∀ va<kernbase,(pteAt s d va).p=true → ((pteAt s0 src va).p=true ∧ (pteAt s0 src va).u=true ∧
      (pteAt s0 src va).pa=(pteAt s d va).pa) ∨ ∀ l,slots D s0 l≠some (pteAt s d va).pa

section

variable {L : Layout} {D A B : Set ℕ} {P : List ℕ} {s0 s s' s'' : Uvm} {f g d src va k : ℕ}
  {l : Slot} {done : Set ℕ}

lemma UvmInv.setupkvm (h : UvmInv L D [] s) (c : Fin ncpu) :
    ∃ r s',setupkvm L c s=some (r,s') ∧ Keeps D s s' ∧ ((r=none ∧ UvmInv L D [] s') ∨
        ∃ d,r=some d ∧ d∉D ∧ UvmInv L (insert d D) [] s' ∧ ∀ va<kernbase,(pteAt s' d va).p=false) := by
  obtain ⟨r,m,heq,hr⟩:=h.kalloc c
  rw [Vm.setupkvm,heq,some_bind]
  rcases hr with ⟨rfl,hi⟩ | ⟨d,rfl,hi,hf⟩
  · exact ⟨none,_,rfl,.setMem s m,.inl ⟨rfl,hi⟩⟩
  obtain ⟨hadd,_⟩:=hi.addDir (hf.rc_eq_one hi)
  refine ⟨some d,_,rfl,(Keeps.setMem s m).trans (keeps_of_dir (fun d' hd' => ?_) rfl rfl),
    .inr ⟨d,rfl,hf.dir,hadd,fun va _ => ?_⟩⟩
  · exact Function.update_of_ne (ne_of_mem_of_not_mem hd' hf.dir) ..
  · rw [pteAt_of_dir_none]
    · rfl
    · simp

lemma UvmInv.isManaged (h : UvmInv L D P s) (hl : slots D s l=some g) : kpageIsManaged s.mem g=true := by
  have hpos:=mapped_pos_iff.mpr ⟨l,hl⟩
  obtain ⟨hm,_⟩:=h.user g (by omega)
  simp only [kpageIsManaged,Bool.and_eq_true,decide_eq_true_eq]
  exact ⟨h.good.inv.lt_npages hm,hm⟩

variable {e : Pte}

lemma Copying.step (h : Copying L D s0 s src d done)
    (hinv : UvmInv L (insert d D) [] s') (hkeeps : Keeps D s s') (hexcl : Excl {d} (insert d D) s')
    (hpte : ∀ va<kernbase,pteAt s' d va=if va/pgsize=k then e else pteAt s d va)
    (hview : ∀ va<kernbase,Vm.view s' d va = if va/pgsize=k then Vm.view s0 src va else Vm.view s d va)
    (hsrc : e.p=true → (∀ va<kernbase,va/pgsize=k → (pteAt s0 src va).p=true ∧
      (pteAt s0 src va).u=true ∧ (pteAt s0 src va).pa=e.pa) ∨ ∀ l,slots D s0 l≠some e.pa) :
    Copying L D s0 s' src d (insert k done) := by
  refine ⟨hinv,h.keeps.trans hkeeps,hexcl,fun va hva hin => ?_,fun va hva hout => ?_,fun va hva hp => ?_⟩
  · rw [hview va hva]
    split
    · rfl
    next hne => exact h.view va hva (hin.resolve_left hne)
  · rw [Set.mem_insert_iff,not_or] at hout
    rw [hpte va hva,if_neg hout.1]
    exact h.absent va hva hout.2
  · rw [hpte va hva] at hp ⊢
    by_cases hk : va/pgsize=k
    · rw [if_pos hk] at hp ⊢
      exact (hsrc hp).imp_left fun hall => hall va hva hk
    · rw [if_neg hk] at hp ⊢
      exact h.source va hva hp

lemma Copying.skip (h : Copying L D s0 s src d done) (hk : k∉done)
    (hnone : ∀ va<kernbase,va/pgsize=k → (pteAt s0 src va).p=false) : Copying L D s0 s src d (insert k done) := by
  refine ⟨h.inv,h.keeps,h.excl,fun va hva hin => ?_,fun va hva hout => ?_,h.source⟩
  · rcases hin with hin | hin
    · have h1:=h.absent va hva (hin ▸ hk)
      simp [Vm.view,Pte.frame,h1,hnone va hva hin]
    · exact h.view va hva hin
  · exact h.absent va hva fun hin => hout (.inr hin)

lemma pteAt_same_page {va' : ℕ} (hva : va<kernbase) (hva' : va'<kernbase)
    (he : va'/pgsize=va/pgsize) : pteAt s d va'=pteAt s d va := by
  unfold pteAt walkpgdir
  obtain ⟨h1,h2⟩:=(same_page_iff hva' hva).mpr he
  rw [h1,h2]

lemma Copying.share (h : Copying L D s0 s src d done) (h0 : UvmInv L (insert d D) [] s0) (hd : d∉D) (hsrc : src∈D)
    (hva : va<kernbase) (hdone : va/pgsize∉done) (hp : (pteAt s0 src va).p=true)
    (hu : (pteAt s0 src va).u=true) (hpa : e.pa=(pteAt s0 src va).pa) (hw : e.w=false)
    (c : Fin ncpu) : ∃ s1 ok s',s.incref e.pa=some s1 ∧ mappages L c s1 d va e=some (ok,s') ∧
      ((ok=false ∧ UvmInv L (insert d D) [e.pa] s' ∧ Keeps D s0 s') ∨
        (ok=true ∧ Copying L D s0 s' src d (insert (va/pgsize) done))) := by
  have hsub : D ⊆ insert d D := Set.subset_insert d D
  have hpte : pteAt s src va=pteAt s0 src va := h.keeps.pte src hsrc va hva
  obtain ⟨ls,hls,hels,hsls⟩:=h.inv.slotAt_of_present (hsub hsrc) hva (hpte ▸ hp)
  rw [hpte,← hpa] at hsls
  obtain ⟨m,heq,hi⟩:=h.inv.incref (mapped_pos_iff.mpr ⟨ls,hsls⟩)
  obtain ⟨ok,s',heq',hr⟩:=hi.mappages (.inl rfl) hva (h.absent va hva hdone) c
  refine ⟨_,ok,s',heq,heq',?_⟩
  have hk1 : Keeps (insert d D) s {s with mem := m} := .setMem s m
  rcases hr with ⟨rfl,hi',hk⟩ | ⟨rfl,hi',s1,l,hi1,hk,hpage,hl,rfl⟩
  · exact .inl ⟨rfl,hi',h.keeps.trans ((hk1.trans hk).mono hsub)⟩
  have hks : Keeps (insert d D) s s1 := hk1.trans hk
  have hpage' : s1.page=s.page := hpage
  have hpte' : ∀ va'<kernbase,pteAt (s1.setPte l.loc {e with p := true}) d va' =
      if va'/pgsize=va/pgsize then {e with p := true} else pteAt s d va' := by
    intro va' hva'
    rw [pteAt_setPte hi1 (.inl rfl) hva (.inl rfl) hva' hl,hks.pte d (.inl rfl) va' hva']
    simp
  refine .inr ⟨rfl,h.step hi' ?_ ?_ hpte' (fun va' hva' => ?_) fun _ => .inl fun va' hva' he => ?_⟩
  · exact (hks.mono hsub).trans (keeps_setPte_other hi1 (.inl rfl) hsub hd hva hl _)
  · -- a writable slot of the child for the same frame would be the parent's slot
    have hx1 : Excl {d} (insert d D) s1 := hks.excl (by simp) subset_rfl h.excl
    refine hx1.setPte _ (fun _ _ hw' => ?_) fun _ _ l' _ hl' => ?_
    · rw [hw] at hw'
      cases hw'
    cases hw' : (s1.entry l').w with
    | false => rfl
    | true =>
      rw [hks.slots {d} (by simp)] at hl'
      obtain ⟨⟨d',rfl,k',hk',hdir⟩,_⟩:=slots_eq_some.mp hl'
      rw [hks.entry l' ⟨d',.inl rfl,k',hk',hdir⟩] at hw'
      have hlls:=(h.excl l' _ hl' hw').2 ls hsls
      subst hlls
      exact absurd (h.inv.inj d' (.inl rfl) k' hk' src (hsub hsrc) _ (pdx_lt hva) _ hdir hls.1).1
        (ne_of_mem_of_not_mem hsrc hd).symm
  · by_cases he : va'/pgsize=va/pgsize
    · have hp' : pteAt s src va'=pteAt s0 src va := by
        rw [h.keeps.pte src hsrc va' hva',pteAt_same_page hva hva' he]
      rw [if_pos he,← h.keeps.view_of_subset h0 hsub hsrc hva']
      rw [Vm.view,hpte' va' hva',if_pos he,Vm.view,hp',setPte_page,hpage']
      simp [Pte.frame,hp,hpa]
    · rw [if_neg he]
      refine view_eq_of_pte (by rw [hpte' va' hva',if_neg he]) fun _ => ?_
      rw [setPte_page,hpage']
  · rw [pteAt_same_page hva hva' he]
    exact ⟨hp,hu,hpa.symm⟩

def Abandoned (L : Layout) (D : Set ℕ) (s0 s : Uvm) (d : ℕ) : Prop := UvmInv L (insert d D) [] s ∧ Keeps D s0 s

lemma Abandoned.kfree (h : UvmInv L (insert d D) [f] s) (hk : Keeps D s0 s) (c : Fin ncpu) :
    ∃ s',s.kfree L c f=some s' ∧ Abandoned L D s0 s' d := by
  obtain ⟨m,heq,hi⟩:=h.kfree c
  exact ⟨_,heq,hi,hk.trans (.setMem s m)⟩

lemma Copying.copy {m : State} (h : Copying L D s0 s src d done)
    (h0 : UvmInv L (insert d D) [] s0) (hd : d∉D) (hsrc : src∈D) (hva : va<kernbase)
    (hdone : va/pgsize∉done) (hp : (pteAt s0 src va).p=true)
    (hi : UvmInv L (insert d D) [e.pa] {s with mem := m}) (hf : Fresh (insert d D) [] s e.pa)
    (hep : e.p=true) (hcow : e.w=true → e.cow=false) (c : Fin ncpu) :
    ∃ ok s',mappages L c (Uvm.setPage {s with mem := m} e.pa (s.page (pteAt s0 src va).pa)) d va e = some (ok,s') ∧
      ((ok=false ∧ UvmInv L (insert d D) [e.pa] s' ∧ Keeps D s0 s') ∨
        (ok=true ∧ Copying L D s0 s' src d (insert (va/pgsize) done))) := by
  have hsub : D ⊆ insert d D := Set.subset_insert d D
  obtain ⟨ok,s',heq,hr⟩:=h.inv.mapFresh hi hf (s.page (pteAt s0 src va).pa) (.inl rfl) hva
    (h.absent va hva hdone) hep hcow c
  refine ⟨ok,s',heq,?_⟩
  rcases hr with ⟨rfl,hi',hk⟩ | ⟨rfl,hi',hm⟩
  · exact .inl ⟨rfl,hi',h.keeps.trans (hk.mono hsub)⟩
  refine .inr ⟨rfl,h.step (e := e) hi' (hm.keeps D hsub hd)
    (hm.excl {d} (by simp) _ subset_rfl h.excl) (fun va' hva' => ?_) (fun va' hva' => ?_)
    fun _ => .inr fun l hl => ?_⟩
  · rw [hm.pte d (.inl rfl) va' hva']
    simp
  · rw [hm.view d (.inl rfl) va' hva']
    by_cases he : va'/pgsize=va/pgsize
    · rw [if_pos ⟨rfl,he⟩,if_pos he,← h.keeps.view_of_subset h0 hsub hsrc hva',Vm.view,
        h.keeps.pte src hsrc va' hva',pteAt_same_page hva hva' he]
      simp [Pte.frame,hp]
    · rw [if_neg (fun hc => he hc.2),if_neg he]
  · rw [← h.keeps.slots D subset_rfl] at hl
    have := mapped_pos_iff.mpr ⟨l,slots_mono hsub hl⟩
    rw [hf.mapped] at this
    exact this.ne rfl

lemma finish_share {ok : Bool} (hr : (ok=false ∧ UvmInv L (insert d D) [f] s' ∧ Keeps D s0 s') ∨
      (ok=true ∧ Copying L D s0 s' src d done)) (c : Fin ncpu) : ∃ ok' s'',(match (ok,s') with
        | (true,s) => some (true,s)
        | (false,s) => (s.kfree L c f).map (false,·))=some (ok',s'') ∧
      ((ok'=false ∧ Abandoned L D s0 s'' d) ∨ (ok'=true ∧ Copying L D s0 s'' src d done)) := by
  rcases hr with ⟨rfl,hi,hk⟩ | ⟨rfl,hc⟩
  · obtain ⟨s'',heq,ha⟩:=Abandoned.kfree hi hk c
    exact ⟨false,s'',by simp only [heq,map_some],.inl ⟨rfl,ha⟩⟩
  · exact ⟨true,s',rfl,.inr ⟨rfl,hc⟩⟩

lemma UvmInv.pa_ne_zero (h : UvmInv L D P s) (hl : slots D s l=some g) : g≠0 := by
  have hpos:=mapped_pos_iff.mpr ⟨l,hl⟩
  have hval:=h.paValid (h.user g (by omega)).1
  simp only [Vm.paValid,decide_eq_true_eq] at hval
  exact hval.1

lemma Copying.turn (h : Copying L D s0 s src d done) (h0 : UvmInv L (insert d D) [] s0)
    (hx0 : Excl D D s0) (hd : d∉D) (hsrc : src∈D) (hva : va<kernbase) (hdone : va/pgsize∉done) (c : Fin ncpu) :
    ∃ ok s',copyTurn L c s src d va=some (ok,s') ∧ ((ok=false ∧ Abandoned L D s0 s' d) ∨
        (ok=true ∧ Copying L D s0 s' src d (insert (va/pgsize) done))) := by
  have hsub : D ⊆ insert d D := Set.subset_insert d D
  have hpte : pteAt s src va=pteAt s0 src va := h.keeps.pte src hsrc va hva
  have hskip : (pteAt s0 src va).p=false → Copying L D s0 s src d (insert (va/pgsize) done) := fun hp =>
    h.skip hdone fun va' hva' he => by rw [pteAt_same_page hva hva' he]; exact hp
  unfold copyTurn
  rcases h.inv.walkpgdir_cases (hsub hsrc) hva with ⟨hnone,hw⟩ | ⟨l,hl,hw⟩
  · rw [hw]
    refine ⟨true,s,rfl,.inr ⟨rfl,hskip ?_⟩⟩
    rw [← hpte,pteAt_of_dir_none hnone]
    rfl
  rw [hw]
  have he : s.entry l=pteAt s0 src va := by
    rw [← hpte,pteAt_of_slotAt h.inv (hsub hsrc) hva hl]
  have hpe : s.pte l.loc=pteAt s0 src va := he
  dsimp only
  rw [hpe]
  by_cases hp : ¬ (pteAt s0 src va).p=true
  · rw [if_pos hp]
    exact ⟨true,s,rfl,.inr ⟨rfl,hskip (by simpa using hp)⟩⟩
  rw [if_neg hp]
  have hp':=not_not.mp hp
  have hsl : slots D s l=some (pteAt s0 src va).pa :=
    slots_eq_some.mpr ⟨hl.isTable hsrc hva,by rw [he]; exact hp',by rw [he]⟩
  have hx : Excl D D s := h.keeps.excl subset_rfl subset_rfl hx0
  have hsane : (pteAt s0 src va).sane=true := he ▸ hx.sane (hl.isTable hsrc hva)
  rw [if_neg (by rw [hsane]; simp)]
  have hman:=h.inv.isManaged (slots_mono hsub hsl)
  by_cases hu : (pteAt s0 src va).u=true
  · rw [if_pos ⟨hu,hman⟩]
    by_cases hwr : (pteAt s0 src va).w=true
    · rw [if_pos hwr,installCowMapping,if_neg (h.inv.pa_ne_zero (slots_mono hsub hsl))]
      obtain ⟨s1,ok,s',heq1,heq2,hr⟩:=h.share
        (e := {pteAt s0 src va with cow := true,w := false}) h0 hd hsrc hva hdone hp' hu rfl rfl c
      rw [heq1,some_bind,heq2,some_bind]
      exact finish_share hr c
    rw [if_neg hwr]
    obtain ⟨s1,ok,s',heq1,heq2,hr⟩:=h.share (e := pteAt s0 src va) h0 hd hsrc hva hdone hp' hu
      rfl (by simpa using hwr) c
    rw [heq1,some_bind,heq2,some_bind]
    exact finish_share hr c
  rw [if_neg (fun hc => hu hc.1)]
  obtain ⟨r,m,heq,hr⟩:=h.inv.kalloc c
  rw [heq,some_bind]
  rcases hr with ⟨rfl,hi⟩ | ⟨f,rfl,hi,hf⟩
  · exact ⟨false,_,rfl,.inl ⟨rfl,hi,h.keeps.trans (.setMem s m)⟩⟩
  have hcow : (pteAt s0 src va).w=true → (pteAt s0 src va).cow=false := fun hw' =>
    he ▸ (hx l _ hsl (he ▸ hw')).1
  obtain ⟨ok,s',heq1,hr⟩:=h.copy (e := {pteAt s0 src va with pa := f}) h0 hd hsrc hva hdone
    hp' hi hf hp' hcow c
  dsimp only
  rw [heq1,some_bind]
  exact finish_share hr c

lemma Copying.loop (h0 : UvmInv L (insert d D) [] s0) (hx0 : Excl D D s0) (hd : d∉D)
    (hsrc : src∈D) (c : Fin ncpu) (ks : List ℕ) (hks : ∀ k∈ks,k*pgsize<kernbase)
    (hnodup : ks.Nodup) (hout : ∀ k∈ks,k∉done) (h : Copying L D s0 s src d done) :
    ∃ ok s',copyLoop L c src d (ks.map (· * pgsize)) s=some (ok,s') ∧ ((ok=false ∧ Abandoned L D s0 s' d) ∨
        (ok=true ∧ Copying L D s0 s' src d (done ∪ { k | k∈ks }))) := by
  induction ks generalizing s done with
  | nil => exact ⟨true,s,rfl,.inr ⟨rfl,by simpa using h⟩⟩
  | cons k rest ih =>
    have hk : k*pgsize/pgsize=k := Nat.mul_div_cancel k (by decide)
    obtain ⟨ok,s1,heq,hr⟩:=h.turn h0 hx0 hd hsrc (hks k (by simp)) (by rw [hk]; exact hout k (by simp)) c
    rw [map_cons,copyLoop,heq,some_bind]
    rcases hr with ⟨rfl,ha⟩ | ⟨rfl,h1⟩
    · exact ⟨false,s1,rfl,.inl ⟨rfl,ha⟩⟩
    rw [hk] at h1
    rw [nodup_cons] at hnodup
    obtain ⟨ok,s',heq',hr⟩:=ih (fun j hj => hks j (by simp [hj])) hnodup.2
      (fun j hj hin => hin.elim (fun he => hnodup.1 (he ▸ hj)) (hout j (by simp [hj]))) h1
    refine ⟨ok,s',heq',hr.imp_right fun hr => ⟨hr.1,?_⟩⟩
    have hset : done ∪ { j | j∈k::rest } = insert k done ∪ { j | j∈rest } := by
      ext j
      simp only [Set.mem_union,Set.mem_ofPred_eq,mem_cons,Set.mem_insert_iff]
      tauto
    rw [hset]
    exact hr.2

structure Protected (L : Layout) (D : Set ℕ) (s s' : Uvm) (src : ℕ) (done : Set ℕ) : Prop where
  inv : UvmInv L D [] s'
  dir : s'.dir=s.dir
  excl : ∀ A ⊆ D,∀ B ⊆ D,Excl A B s → Excl A B s'
  views : SameViews D s s'
  frame : ∀ l,(s'.entry l).frame=(s.entry l).frame
  user : ∀ l,(s'.entry l).u=(s.entry l).u
  weak : ∀ l,(s'.entry l).w=true → (s.entry l).w=true
  prot : ∀ va<kernbase,va/pgsize∈done → ∀ l,SlotAt s src va l → (s'.entry l).p=true →
    (s'.entry l).u=true → (s'.entry l).w=false

lemma Pte.p_of_frame {e' : Pte} (h : e.frame=e'.frame) : e.p=e'.p := by
  unfold Pte.frame at h
  cases hp : e.p <;> cases hp' : e'.p <;> simp_all

lemma Protected.slots (h : Protected L D s s' src done) (A : Set ℕ) (l : Slot) : slots A s' l=slots A s l := by
  have hT : IsTable A s' l.1 ↔ IsTable A s l.1 := isTable_congr h.dir
  by_cases ht : IsTable A s l.1
  · rw [slots_of_isTable ht,slots_of_isTable (hT.mpr ht),h.frame]
  · rw [slots_of_not_isTable ht,slots_of_not_isTable (fun ht' => ht (hT.mp ht'))]

lemma Protected.refl (h : UvmInv L D [] s)
    (hd : ∀ va<kernbase,va/pgsize∈done → ∀ l,SlotAt s src va l → (s.entry l).p=true →
      (s.entry l).u=true → (s.entry l).w=false) : Protected L D s s src done :=
  ⟨h,rfl,fun _ _ _ _ hx => hx,fun _ _ _ _ => rfl,fun _ => rfl,fun _ => rfl,fun _ hw => hw,hd⟩

lemma Protected.trans {done' : Set ℕ} (h : Protected L D s s' src done)
    (h' : Protected L D s' s'' src done') : Protected L D s s'' src (done ∪ done') := by
  refine ⟨h'.inv,h'.dir.trans h.dir,fun A hA B hB hx => h'.excl A hA B hB (h.excl A hA B hB hx),
    fun d hd va hva => (h'.views d hd va hva).trans (h.views d hd va hva),
    fun l => (h'.frame l).trans (h.frame l),fun l => (h'.user l).trans (h.user l),
    fun l hw => h.weak l (h'.weak l hw),fun va hva hin l hl hp hu => ?_⟩
  have hl' : SlotAt s' src va l := ⟨by rw [h.dir]; exact hl.1,hl.2⟩
  rcases hin with hin | hin
  · have hw:=h.prot va hva hin l hl (by rw [← Pte.p_of_frame (h'.frame l)]; exact hp) (by rw [← h'.user l]; exact hu)
    cases hw'' : (s''.entry l).w with
    | false => rfl
    | true => rw [h'.weak l hw''] at hw; cases hw
  · exact h'.prot va hva hin l hl' hp hu

lemma Excl.setPte_readonly (h : Excl A B s) (e : Pte) (hframe : e.frame=(s.entry l).frame)
    (hw : e.w=false) : Excl A B (s.setPte l.loc e) := by
  refine h.setPte e (fun _ _ hw' => ?_) fun ht hp l' hne hl' => ?_
  · rw [hw] at hw'
    cases hw'
  cases hw' : (s.entry l').w with
  | false => rfl
  | true =>
    have hl : slots B s l=some e.pa := by
      rw [slots_of_isTable ht,← hframe,Pte.frame,if_pos hp]
    exact absurd ((h l' _ hl' hw').2 l hl).symm hne

lemma UvmInv.protectTurn (h : UvmInv L D [] s) (hsrc : src∈D) (hva : va<kernbase) :
    Protected L D s (protectTurn src s va) src {va/pgsize} := by
  unfold Vm.protectTurn
  rcases h.walkpgdir_cases hsrc hva with ⟨hnone,hw⟩ | ⟨l,hl,hw⟩
  · rw [hw]
    refine Protected.refl h fun va' hva' hin l' hl' _ _ => ?_
    have := (hl'.of_same_page hva' hva (Eq.symm hin)).1
    rw [hnone] at this
    cases this
  rw [hw]
  have hpe : s.pte l.loc=s.entry l := rfl
  dsimp only
  rw [hpe]
  have hslot : ∀ va'<kernbase,va'/pgsize∈({va/pgsize} : Set ℕ) → ∀ l',SlotAt s src va' l' →
      l'=l := fun va' hva' hin l' hl' => (hl'.of_same_page hva' hva (Eq.symm hin)).eq hl
  by_cases hc : (s.entry l).p=true ∧ (s.entry l).u=true ∧ (s.entry l).w=true ∧
      kpageIsManaged s.mem (s.entry l).pa=true
  · rw [if_pos hc]
    have ht:=hl.isTable hsrc hva
    have hent : ∀ l',(s.setPte l.loc {s.entry l with w := false,cow := true}).entry l' =
        if l'=l then {s.entry l with w := false,cow := true} else s.entry l' :=
      fun l' => entry_setPte l' _
    refine ⟨h.setPte ht _ fun g => rfl,rfl,fun A _ B _ hx => hx.setPte_readonly _ rfl rfl,
      sameViews_setPte h hsrc hva hl _ rfl,fun l' => ?_,fun l' => ?_,fun l' hw' => ?_,
      fun va' hva' hin l' hl' _ _ => ?_⟩
    · rw [hent]
      split
      next he => rw [he]; rfl
      · rfl
    · rw [hent]
      split
      next he => rw [he]
      · rfl
    · rw [hent] at hw'
      split at hw'
      · cases hw'
      · exact hw'
    · rw [hslot va' hva' hin l' hl',hent,if_pos rfl]
  · rw [if_neg hc]
    refine Protected.refl h fun va' hva' hin l' hl' hp hu => ?_
    have hll:=hslot va' hva' hin l' hl'
    subst hll
    cases hw' : (s.entry l').w with
    | false => rfl
    | true =>
      have hsl : Vm.slots D s l'=some (s.entry l').pa := slots_eq_some.mpr ⟨hl.isTable hsrc hva,hp,rfl⟩
      exact absurd ⟨hp,hu,hw',h.isManaged hsl⟩ hc

lemma UvmInv.protectLoop (h : UvmInv L D [] s) (hsrc : src∈D) (ks : List ℕ) (hks : ∀ k∈ks,k*pgsize<kernbase) :
    Protected L D s ((ks.map (· * pgsize)).foldl (Vm.protectTurn src) s) src { k | k∈ks } := by
  induction ks generalizing s with
  | nil => exact Protected.refl h fun va _ hin => absurd hin (by simp)
  | cons k rest ih =>
    have hturn:=h.protectTurn hsrc (hks k (by simp))
    rw [Nat.mul_div_cancel k (by decide)] at hturn
    have hset : { j | j∈k::rest } = ({k} : Set ℕ) ∪ { j | j∈rest } := by
      ext j
      simp
    rw [map_cons,foldl_cons,hset]
    exact hturn.trans (ih hturn.inv fun j hj => hks j (by simp [hj]))

lemma Copying.excl_all (h : Copying L D s0 s src d done) (hx0 : Excl D D s0) (hsrc : src∈D)
    (hp : Protected L (insert d D) s s' src done) : Excl (insert d D) (insert d D) s' := by
  have hsub : D ⊆ insert d D := Set.subset_insert d D
  have hxD : Excl D D s' := hp.excl D hsub D hsub (h.keeps.excl subset_rfl subset_rfl hx0)
  have hxd : Excl {d} (insert d D) s' := hp.excl {d} (by simp) _ subset_rfl h.excl
  have hsplit : ∀ f,IsTable (insert d D) s' f → IsTable {d} s' f ∨ IsTable D s' f := by
    rintro f ⟨d',rfl | hd',hrest⟩
    · exact .inl ⟨d',rfl,hrest⟩
    · exact .inr ⟨d',hd',hrest⟩
  intro l g hl hw
  obtain ⟨ht,hpr,hpa⟩:=slots_eq_some.mp hl
  rcases hsplit _ ht with ht | ht
  · exact hxd l g (slots_eq_some.mpr ⟨ht,hpr,hpa⟩) hw
  have hlD : slots D s' l=some g := slots_eq_some.mpr ⟨ht,hpr,hpa⟩
  obtain ⟨hcow,hone⟩:=hxD l g hlD hw
  refine ⟨hcow,fun l' hl' => ?_⟩
  obtain ⟨ht',hpr',hpa'⟩:=slots_eq_some.mp hl'
  rcases hsplit _ ht' with ht' | ht'
  · -- a slot of the child: its frame is new, or shared with a protected page of the parent
    exfalso
    obtain ⟨d',rfl,va,hva,hsl⟩:=exists_slotAt ((isTable_congr hp.dir).mp ht')
    have hpte:=pteAt_of_slotAt h.inv (.inl rfl) hva hsl
    have hframe : (s.entry l').frame=some g := by
      rw [← hp.frame,Pte.frame,if_pos hpr',hpa']
    have hprs : (pteAt s d' va).p=true := by
      rw [hpte,← Pte.p_of_frame (hp.frame l'),hpr']
    have hpas : (pteAt s d' va).pa=g := by
      rw [hpte]
      rw [Pte.frame,if_pos (hpte ▸ hprs)] at hframe
      exact some.inj hframe
    rw [hp.slots] at hlD
    rcases h.source va hva hprs with ⟨hps,hus,hpas'⟩ | hnone
    · have hsame : pteAt s src va=pteAt s0 src va := h.keeps.pte src hsrc va hva
      obtain ⟨ls,hls,hes,_⟩:=h.inv.slotAt_of_present (hsub hsrc) hva (hsame ▸ hps)
      have hsls : slots D s ls=some g := slots_eq_some.mpr
        ⟨hls.isTable hsrc hva,by rw [hes,hsame]; exact hps,by rw [hes,hsame,hpas',hpas]⟩
      have hll : ls=l := hone ls (by rw [hp.slots]; exact hsls)
      subst hll
      have hin : va/pgsize∈done := by
        by_contra hout
        rw [h.absent va hva hout] at hprs
        cases hprs
      have := hp.prot va hva hin ls hls hpr (by rw [hp.user,hes,hsame]; exact hus)
      rw [hw] at this
      cases this
    · rw [h.keeps.slots D subset_rfl] at hlD
      exact hnone l (hpas ▸ hlD)
  · exact hone l' (slots_eq_some.mpr ⟨ht',hpr',hpa'⟩)

lemma UvmInv.copyuvm (h : UvmInv L D [] s) (hx : Excl D D s) (hsrc : src∈D) {sz : ℕ}
    (hsz : sz≤kernbase) (c : Fin ncpu) : ∃ r s',copyuvm L c s src sz=some (r,s') ∧ SameViews D s s' ∧
      ((r=none ∧ UvmInv L D [] s' ∧ Excl D D s') ∨ ∃ d,r=some d ∧ d∉D ∧ UvmInv L (insert d D) [] s' ∧
          Excl (insert d D) (insert d D) s' ∧ ∀ va<kernbase,
            view s' d va=if pgrounddown va<sz then view s src va else none) := by
  have hks : ∀ k∈List.range ((sz+(pgsize-1))/pgsize),k*pgsize<kernbase := by
    intro k hk
    rw [mem_range] at hk
    simp only [pgsize,kernbase] at *
    omega
  obtain ⟨r,s0,heq,hk0,hr⟩:=h.setupkvm c
  rw [Vm.copyuvm,heq,some_bind]
  rcases hr with ⟨rfl,hi⟩ | ⟨d,rfl,hd,h0,habs⟩
  · exact ⟨none,s0,rfl,hk0.sameViews h,.inl ⟨rfl,hi,hk0.excl subset_rfl subset_rfl hx⟩⟩
  have hsub : D ⊆ insert d D := Set.subset_insert d D
  have hx0 : Excl D D s0 := hk0.excl subset_rfl subset_rfl hx
  have hstart : Copying L D s0 s0 src d ∅ := by
    refine ⟨h0,.refl D s0,fun l g hl _ => ?_,fun _ _ hin => absurd hin (by simp),
      fun va hva _ => habs va hva,fun va hva hp => ?_⟩
    · obtain ⟨ht,hp,_⟩:=slots_eq_some.mp hl
      obtain ⟨d',rfl,va,hva,hsl⟩:=exists_slotAt ht
      have := habs va hva
      rw [pteAt_of_slotAt h0 (.inl rfl) hva hsl,hp] at this
      cases this
    · rw [habs va hva] at hp
      cases hp
  obtain ⟨ok,s1,heq1,hr⟩:=hstart.loop h0 hx0 hd hsrc c _ hks nodup_range (by simp)
  dsimp only
  rw [pagesBelow,heq1,some_bind]
  rcases hr with ⟨rfl,hi1,hk1⟩ | ⟨rfl,h1⟩
  · obtain ⟨s2,heq2,hi2,hk2⟩:=hi1.freevm hd c
    have hk:=(hk0.trans hk1).trans hk2
    exact ⟨none,s2,by simp only [heq2,map_some],hk.sameViews h,.inl ⟨rfl,hi2,hk.excl subset_rfl subset_rfl hx⟩⟩
  rw [Set.empty_union] at h1
  have hprot:=h1.inv.protectLoop (hsub hsrc) _ hks
  refine ⟨some d,_,rfl,fun d' hd' va hva => ?_,.inr ⟨d,rfl,hd,hprot.inv,h1.excl_all hx0 hsrc hprot,fun va hva => ?_⟩⟩
  · rw [hprot.views d' (hsub hd') va hva,h1.keeps.view_of_subset h0 hsub hd' hva,hk0.view h hd' hva]
  rw [hprot.views d (.inl rfl) va hva]
  have hin : va/pgsize ∈ { k | k∈List.range ((sz+(pgsize-1))/pgsize) } ↔ pgrounddown va<sz := by
    simp only [Set.mem_ofPred_eq,mem_range,pgrounddown,pgsize]
    omega
  by_cases hlt : pgrounddown va<sz
  · rw [if_pos hlt,h1.view va hva (hin.mpr hlt),hk0.view h hsrc hva]
  · rw [if_neg hlt]
    simp [Vm.view,Pte.frame,h1.absent va hva (fun hc => hlt (hin.mp hc))]

end

end Auxv6.Vm

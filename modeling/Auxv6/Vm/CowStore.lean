import Auxv6.Vm.CowSpec

/-!
# Stores through an address space

`bytes s d va`: an address that is not mapped counts as 0.
-/

namespace Auxv6.Vm
open Machine Lib List Option Nat

def bytes (s : Uvm) (d va : ℕ) : UInt8 := (view s d va).getD 0
def SameBytes (D : Set ℕ) (s s' : Uvm) : Prop := ∀ d∈D,∀ va<kernbase,bytes s' d va=bytes s d va

section

variable {L : Mem.Layout} {D A B : Set ℕ} {P : List ℕ} {s s' s'' : Uvm} {f g d va : ℕ} {l : Slot}

lemma SameBytes.refl (D : Set ℕ) (s : Uvm) : SameBytes D s s := fun _ _ _ _ => rfl
lemma SameBytes.trans (h : SameBytes D s s') (h' : SameBytes D s' s'') : SameBytes D s s'' :=
  fun d hd va hva => (h' d hd va hva).trans (h d hd va hva)
lemma SameViews.sameBytes (h : SameViews D s s') : SameBytes D s s' := by
  intro d hd va hva
  rw [bytes,bytes,h d hd va hva]

lemma MapsNew.sameBytes {e : Pte} (hm : MapsNew D s s' d va e fun _ => 0) (hva : va<kernbase)
    (hfree : (pteAt s d va).p=false) : SameBytes D s s' := by
  intro d' hd' va' hva'
  rw [bytes,bytes,hm.view d' hd' va' hva']
  split
  next hsame =>
    obtain ⟨rfl,hpage⟩:=hsame
    have hnone : Vm.view s d' va'=none := by
      have hpte : pteAt s d' va'=pteAt s d' va := by
        unfold pteAt walkpgdir
        obtain ⟨h1,h2⟩:=(same_page_iff hva' hva).mpr hpage
        rw [h1,h2]
      simp [Vm.view,hpte,Pte.frame,hfree]
    rw [hnone]
    rfl
  · rfl

lemma Excl.setPage (h : Excl A B s) (f : ℕ) (bs : ℕ → UInt8) : Excl A B (s.setPage f bs) := h

lemma view_setPage (h : UvmInv L D P s) (hx : Excl D D s) (hd : d∈D) (hva : va<kernbase)
    (hl : SlotAt s d va l) (hp : (s.entry l).p=true) (hw : (s.entry l).w=true)
    (bs : ℕ → UInt8) {d' va' : ℕ} (hd' : d'∈D) (hva' : va'<kernbase) : view (s.setPage (s.entry l).pa bs) d' va' =
      if d'=d ∧ va'/pgsize=va/pgsize then some (bs (va'%pgsize)) else view s d' va' := by
  have hsl : slots D s l=some (s.entry l).pa := slots_eq_some.mpr ⟨hl.isTable hd hva,hp,rfl⟩
  have hpte : pteAt (s.setPage (s.entry l).pa bs) d' va'=pteAt s d' va' := rfl
  by_cases hsame : d'=d ∧ va'/pgsize=va/pgsize
  · obtain ⟨rfl,hpage⟩:=hsame
    rw [if_pos ⟨rfl,hpage⟩,view,hpte,pteAt_of_slotAt h hd' hva' (hl.of_same_page hva hva' hpage)]
    simp [Pte.frame,hp,Uvm.setPage]
  rw [if_neg hsame]
  refine view_eq_of_pte hpte fun hp' => ?_
  refine Function.update_of_ne ?_ ..
  intro he
  -- a second entry for the frame would be the same slot
  obtain ⟨l',hl',_,hsl'⟩:=h.slotAt_of_present hd' hva' hp'
  have hll:=(hx l _ hsl hw).2 l' (he ▸ hsl')
  subst hll
  exact hsame (SlotAt.same_page h hl' hl hd' hd hva' hva)

section
variable (h : UvmInv L D [] s)
include h

section
variable (hx : Excl D D s) (hd : d∈D)
include hx hd

lemma writeByte_spec (hva : va<kernbase) (hl : SlotAt s d va l)
    (hw : (s.entry l).userWritable=true) (b : UInt8) : UvmInv L D []
      (writeByte s (s.entry l).pa (va%pgsize) b) ∧ Excl D D (writeByte s (s.entry l).pa (va%pgsize) b) ∧
      ∀ d'∈D,∀ va'<kernbase,bytes (writeByte s (s.entry l).pa (va%pgsize) b) d' va' = if d'=d ∧
      va'=va then b else bytes s d' va' := by
  simp only [Pte.userWritable,Bool.and_eq_true] at hw
  obtain ⟨⟨hp,_⟩,hw⟩:=hw
  refine ⟨h.setPage _ _,hx.setPage _ _,fun d' hd' va' hva' => ?_⟩
  rw [bytes,writeByte,view_setPage h hx hd hva hl hp hw _ hd' hva']
  by_cases hsame : d'=d ∧ va'/pgsize=va/pgsize
  · obtain ⟨rfl,hpage⟩:=hsame
    rw [if_pos ⟨rfl,hpage⟩,getD_some,Function.update_apply]
    have hva_eq : va'%pgsize=va%pgsize ↔ va'=va := by
      simp only [pgsize] at *
      omega
    simp only [hva_eq,true_and]
    split
    · rfl
    · rw [bytes,view_of_entry h hd' hva' (hl.of_same_page hva hva' hpage)]
      simp [Pte.frame,hp]
  · rw [if_neg hsame,if_neg]
    · rfl
    · rintro ⟨rfl,rfl⟩
      exact hsame ⟨rfl,rfl⟩

/-- A store ends in `s'`: `cow_fault` may have led to `s1`, where the byte is written if the page is
writable. -/
lemma UvmInv.userStore_cases (va : ℕ) (b : UInt8) (c : Fin ncpu) :
    ∃ ok s1 s',userStore L c s d va b=some (ok,s') ∧ UvmInv L D [] s1 ∧ Excl D D s1 ∧ SameViews D s s1 ∧
      (s1=s ∨ (pteAt s d va).userWritable=false ∧ ∃ ok',Vm.cowFault L c s d va=some (ok',s1) ∧ (ok=true → ok'=true)) ∧
      (ok=false ∧ s'=s1 ∨ ok=true ∧ va<kernbase ∧ ∃ l,SlotAt s1 d va l ∧
        (s1.entry l).userWritable=true ∧ s'=writeByte s1 (s1.entry l).pa (va%pgsize) b) := by
  have hstay : SameViews D s s := fun _ _ _ _ => rfl
  unfold Vm.userStore
  by_cases hbig : kernbase≤va
  · rw [if_pos hbig]
    exact ⟨false,s,s,rfl,h,hx,hstay,.inl rfl,.inl ⟨rfl,rfl⟩⟩
  rw [if_neg hbig]
  have hva:=not_le.mp hbig
  rcases h.walkpgdir_cases hd hva with ⟨_,hw⟩ | ⟨l,hl,hw⟩
  · rw [hw]
    exact ⟨false,s,s,rfl,h,hx,hstay,.inl rfl,.inl ⟨rfl,rfl⟩⟩
  rw [hw]
  have hpe : s.pte l.loc=s.entry l := rfl
  simp only [hpe]
  by_cases huw : (s.entry l).userWritable=true
  · rw [if_pos huw]
    exact ⟨true,s,_,rfl,h,hx,hstay,.inl rfl,.inr ⟨rfl,hva,l,hl,huw,rfl⟩⟩
  rw [if_neg huw]
  split
  · exact ⟨false,s,s,rfl,h,hx,hstay,.inl rfl,.inl ⟨rfl,rfl⟩⟩
  -- the fault is resolved by cow_fault and the store is tried again
  obtain ⟨ok,s1,heq,hi,hx1,hs⟩:=h.cowFault hx hd hva c
  rw [heq,some_bind]
  rw [← pteAt_of_slotAt h hd hva hl,Bool.not_eq_true] at huw
  cases ok with
  | false => exact ⟨false,s1,s1,rfl,hi,hx1,hs,.inr ⟨huw,_,rfl,id⟩,.inl ⟨rfl,rfl⟩⟩
  | true =>
    dsimp only
    rcases hi.walkpgdir_cases hd hva with ⟨_,hw1⟩ | ⟨l1,hl1,hw1⟩
    · rw [hw1]
      exact ⟨false,s1,s1,rfl,hi,hx1,hs,.inr ⟨huw,_,rfl,fun _ => rfl⟩,.inl ⟨rfl,rfl⟩⟩
    rw [hw1]
    dsimp only
    split
    next huw1 =>
      exact ⟨true,s1,_,rfl,hi,hx1,hs,.inr ⟨huw,_,rfl,id⟩,.inr ⟨rfl,hva,l1,hl1,huw1,rfl⟩⟩
    · exact ⟨false,s1,s1,rfl,hi,hx1,hs,.inr ⟨huw,_,rfl,fun _ => rfl⟩,.inl ⟨rfl,rfl⟩⟩

lemma UvmInv.userStore (va : ℕ) (b : UInt8) (c : Fin ncpu) :
    ∃ ok s',userStore L c s d va b=some (ok,s') ∧ UvmInv L D [] s' ∧ Excl D D s' ∧
      ∀ d'∈D,∀ va'<kernbase,bytes s' d' va' = if ok=true ∧ d'=d ∧ va'=va then b else bytes s d' va' := by
  obtain ⟨ok,s1,s',heq,hi,hx1,hs,-,⟨rfl,rfl⟩ | ⟨rfl,hva,l,hl,huw,rfl⟩⟩ := h.userStore_cases hx hd va b c
  · refine ⟨false,s',heq,hi,hx1,fun d' hd' va' hva' => ?_⟩
    exact hs.sameBytes d' hd' va' hva'
  obtain ⟨h1,h2,h3⟩:=writeByte_spec hi hx1 hd hva hl huw b
  refine ⟨true,_,heq,h1,h2,fun d' hd' va' hva' => ?_⟩
  rw [h3 d' hd' va' hva',hs.sameBytes d' hd' va' hva']
  simp

lemma UvmInv.zerofillBytes (va : ℕ) (writable : Bool) (c : Fin ncpu) :
    ∃ ok s',Vm.vmMapZerofillPage L c s d va writable=some (ok,s') ∧ UvmInv L D [] s' ∧
      Excl D D s' ∧ SameBytes D s s' := by
  obtain ⟨ok,s',heq,hi,hr⟩:=h.vmMapZerofillPage hx hd va writable c
  refine ⟨ok,s',heq,hi,?_⟩
  rcases hr with ⟨_,hk⟩ | ⟨_,_,hva,hfree,e,hm⟩
  · exact ⟨hk.excl subset_rfl subset_rfl hx,(hk.sameViews h).sameBytes⟩
  · exact ⟨hm.excl D subset_rfl D subset_rfl hx,hm.sameBytes hva hfree⟩

lemma UvmInv.copyoutResolveZerofill (cur : Option AddressSpace) (va0 : ℕ)
    (c : Fin ncpu) : ∃ ok s',copyoutResolveZerofill L c s cur d va0=some (ok,s') ∧ UvmInv L D [] s' ∧
      Excl D D s' ∧ SameBytes D s s' := by
  unfold Vm.copyoutResolveZerofill
  split
  · exact ⟨false,s,rfl,h,hx,.refl D s⟩
  · split
    · exact ⟨false,s,rfl,h,hx,.refl D s⟩
    · exact h.zerofillBytes hx hd va0 true c

lemma UvmInv.copyoutPresent (cur : Option AddressSpace) (va0 : ℕ)
    (c : Fin ncpu) : ∃ ok s',Vm.copyoutPresent L c s cur d va0=some (ok,s') ∧ UvmInv L D [] s' ∧
      Excl D D s' ∧ SameBytes D s s' := by
  unfold Vm.copyoutPresent
  split
  · exact h.copyoutResolveZerofill hx hd cur va0 c
  · split
    · exact ⟨true,s,rfl,h,hx,.refl D s⟩
    · exact h.copyoutResolveZerofill hx hd cur va0 c

end

end

def WritableFrame (s : Uvm) (d va0 : ℕ) (r : Option ℕ) : Prop :=
  ∀ f,r=some f → va0<kernbase ∧ ∃ l,SlotAt s d va0 l ∧ (s.entry l).p=true ∧ (s.entry l).w=true ∧ (s.entry l).pa=f

lemma WritableFrame.none (s : Uvm) (d va0 : ℕ) : WritableFrame s d va0 Option.none := by
  intro f hf
  cases hf

/-- The state after `copyoutFrame`: `copyoutPresent` may have mapped a page, `cow_fault` changes no view. -/
structure FrameOf (L : Mem.Layout) (c : Fin ncpu) (D : Set ℕ) (s : Uvm) (cur : Option AddressSpace) (d va0 : ℕ)
    (r : Option ℕ) (s' : Uvm) : Prop where
  inv : UvmInv L D [] s'
  excl : Excl D D s'
  same : SameBytes D s s'
  frame : WritableFrame s' d va0 r
  via : s'=s ∨ ∃ ok s1,copyoutPresent L c s cur d va0=some (ok,s1) ∧ SameViews D s1 s'

lemma UvmInv.copyoutFrame (h : UvmInv L D [] s) (hx : Excl D D s) (hd : d∈D)
    (cur : Option AddressSpace) (va0 : ℕ) (c : Fin ncpu) :
    ∃ r s',copyoutFrame L c s cur d va0=some (r,s') ∧ FrameOf L c D s cur d va0 r s' := by
  unfold Vm.copyoutFrame
  by_cases hdeny : ¬ vmAddrspaceAllowsUserVa cur va0=true ∨ kernbase≤va0
  · rw [if_pos hdeny]
    exact ⟨none,s,rfl,h,hx,.refl D s,.none s d va0,.inl rfl⟩
  rw [if_neg hdeny]
  have hva : va0<kernbase := by
    rw [not_or,not_le] at hdeny
    exact hdeny.2
  obtain ⟨ok,s1,heq,hi,hx1,hs⟩:=h.copyoutPresent hx hd cur va0 c
  have hout : ∀ r,WritableFrame s1 d va0 r → FrameOf L c D s cur d va0 r s1 := fun r hr =>
    ⟨hi,hx1,hs,hr,.inr ⟨ok,s1,heq,fun _ _ _ _ => rfl⟩⟩
  rw [heq,some_bind]
  cases ok with
  | false => exact ⟨none,s1,rfl,hout _ (.none s1 d va0)⟩
  | true =>
    dsimp only
    rcases hi.walkpgdir_cases hd hva with ⟨_,hw⟩ | ⟨l,hl,hw⟩
    · rw [hw]
      exact ⟨none,s1,rfl,hout _ (.none s1 d va0)⟩
    rw [hw]
    have hsane:=hx1.sane (hl.isTable hd hva)
    have hpe : s1.pte l.loc=s1.entry l := rfl
    simp only [hpe,hsane,not_true_eq_false,if_false]
    by_cases hp : ¬ (s1.entry l).p=true
    · rw [if_pos hp]
      exact ⟨none,s1,rfl,hout _ (.none s1 d va0)⟩
    rw [if_neg hp]
    split
    · exact ⟨none,s1,rfl,hout _ (.none s1 d va0)⟩
    by_cases hwr : (s1.entry l).w=true
    · rw [if_pos hwr]
      exact ⟨_,s1,rfl,hout _ fun f hf => ⟨hva,l,hl,not_not.mp hp,hwr,some.inj hf⟩⟩
    rw [if_neg hwr]
    split
    · exact ⟨none,s1,rfl,hout _ (.none s1 d va0)⟩
    obtain ⟨ok2,s2,heq2,hi2,hx2,hs2⟩:=hi.cowFault hx1 hd hva c
    have hout2 : ∀ r,WritableFrame s2 d va0 r → FrameOf L c D s cur d va0 r s2 := fun r hr =>
      ⟨hi2,hx2,hs.trans hs2.sameBytes,hr,.inr ⟨true,s1,heq,hs2⟩⟩
    rw [heq2,some_bind]
    cases ok2 with
    | false => exact ⟨none,s2,rfl,hout2 _ (.none s2 d va0)⟩
    | true =>
      dsimp only
      rcases hi2.walkpgdir_cases hd hva with ⟨_,hw2⟩ | ⟨l2,hl2,hw2⟩
      · rw [hw2]
        exact ⟨none,s2,rfl,hout2 _ (.none s2 d va0)⟩
      rw [hw2]
      have hsane2:=hx2.sane (hl2.isTable hd hva)
      have hpe2 : s2.pte l2.loc=s2.entry l2 := rfl
      simp only [hpe2,hsane2,not_true_eq_false,if_false]
      by_cases hp2 : ¬ (s2.entry l2).p=true
      · rw [if_pos hp2]
        exact ⟨none,s2,rfl,hout2 _ (.none s2 d va0)⟩
      rw [if_neg hp2]
      split
      · exact ⟨none,s2,rfl,hout2 _ (.none s2 d va0)⟩
      next hbad =>
        rw [not_or,not_or,not_not,not_not] at hbad
        exact ⟨_,s2,rfl,hout2 _ fun f hf => ⟨hva,l2,hl2,not_not.mp hp2,hbad.2.1,some.inj hf⟩⟩

def Copied (D : Set ℕ) (s s' : Uvm) (d va n : ℕ) (buf : List UInt8) : Prop :=
  ∀ d'∈D,∀ va'<kernbase,bytes s' d' va' = if d'=d ∧ va≤va' ∧ va'<va+n then buf.getD (va'-va) 0 else bytes s d' va'

variable {buf : List UInt8}

lemma Copied.nil (h : SameBytes D s s') : Copied D s s' d va 0 buf := by
  intro d' hd' va' hva'
  rw [if_neg (by omega)]
  exact h d' hd' va' hva'
lemma Copied.sameBytes (h : Copied D s s' d va 0 buf) : SameBytes D s s' := by
  intro d' hd' va' hva'
  rw [h d' hd' va' hva',if_neg (by omega)]
lemma Copied.of_sameBytes {n : ℕ} (h : Copied D s' s'' d va n buf)
    (hs : SameBytes D s s') : Copied D s s'' d va n buf := by
  intro d' hd' va' hva'
  rw [h d' hd' va' hva',hs d' hd' va' hva']

lemma Copied.append {n k : ℕ} (h : Copied D s s' d va n buf)
    (h' : Copied D s' s'' d (va+n) k (buf.drop n)) : Copied D s s'' d va (n+k) buf := by
  intro d' hd' va' hva'
  have hdrop : va+n≤va' → (buf.drop n).getD (va'-(va+n)) 0=buf.getD (va'-va) 0 := by
    intro hle
    rw [getD_eq_getElem?_getD,getElem?_drop,getD_eq_getElem?_getD]
    congr 2
    omega
  rw [h' d' hd' va' hva',h d' hd' va' hva']
  by_cases hdd : d'=d
  · simp only [hdd,true_and]
    by_cases h1 : va+n≤va' ∧ va'<va+n+k
    · rw [if_pos h1,if_pos (by omega),hdrop h1.1]
    · rw [if_neg h1]
      exact if_congr (by omega) rfl rfl
  · simp [hdd]

lemma writeBytes_copied (h : UvmInv L D [] s) (hx : Excl D D s) (hd : d∈D)
    (hl : SlotAt s d (pgrounddown va) l) (hva : pgrounddown va<kernbase)
    (hp : (s.entry l).p=true) (hw : (s.entry l).w=true) (n : ℕ) (buf : List UInt8)
    (hn : n≤buf.length) (hfit : va-pgrounddown va+n≤pgsize) :
    Copied D s (writeBytes s (s.entry l).pa (va-pgrounddown va) (buf.take n)) d va n buf := by
  intro d' hd' va' hva'
  have hpage : va'/pgsize=pgrounddown va/pgsize ↔ pgrounddown va≤va' ∧ va'<pgrounddown va+pgsize := by
    simp only [pgrounddown,pgsize]
    omega
  have hdown:=pgrounddown_le va
  rw [bytes,writeBytes,view_setPage h hx hd hva hl hp hw _ hd' hva']
  by_cases hsame : d'=d ∧ va'/pgsize=pgrounddown va/pgsize
  · obtain ⟨rfl,hin⟩:=hsame
    have hold : bytes s d' va'=s.page (s.entry l).pa (va'%pgsize) := by
      rw [bytes,view_of_entry h hd' hva' (hl.of_same_page hva hva' hin)]
      simp [Pte.frame,hp]
    have hoff : va'%pgsize=va'-pgrounddown va := by
      simp only [pgrounddown,pgsize] at *
      omega
    rw [hpage] at hin
    rw [if_pos ⟨rfl,hpage.mpr hin⟩,getD_some,hold,hoff]
    simp only [true_and]
    by_cases hr : va≤va' ∧ va'<va+n
    · have hidx : va'-pgrounddown va-(va-pgrounddown va)=va'-va := by omega
      rw [if_pos hr,if_pos (by omega),hidx,getElem?_take_of_lt (by omega)]
      simp [getElem?_eq_getElem (show va'-va<buf.length by omega)]
    rw [if_neg hr]
    split
    next hle =>
      rw [getElem?_eq_none (by rw [length_take]; omega)]
      rfl
    · rfl
  · rw [if_neg hsame,if_neg]
    · rfl
    · rintro ⟨rfl,hr⟩
      exact hsame ⟨rfl,hpage.mpr (by omega)⟩

lemma UvmInv.copyoutLoop (cur : Option AddressSpace) (hd : d∈D) (c : Fin ncpu) (fuel : ℕ)
    (va : ℕ) (buf : List UInt8) (h : UvmInv L D [] s) (hx : Excl D D s) (hfuel : buf.length<fuel) :
    ∃ ok n s',copyoutLoop L c cur d fuel va buf s=some ((ok,n),s') ∧ UvmInv L D [] s' ∧
      Excl D D s' ∧ n≤buf.length ∧ (ok=true → n=buf.length) ∧ Copied D s s' d va n buf := by
  induction fuel generalizing s va buf with
  | zero => omega
  | succ fuel ih =>
    rw [Vm.copyoutLoop]
    by_cases hnil : buf=[]
    · rw [if_pos hnil]
      exact ⟨true,0,s,rfl,h,hx,zero_le _,fun _ => by rw [hnil]; rfl,.nil (.refl D s)⟩
    rw [if_neg hnil]
    have hlen : 0<buf.length := length_pos_iff.mpr hnil
    obtain ⟨r,s1,heq,hi,hx1,hs,hwf,-⟩:=h.copyoutFrame hx hd cur (pgrounddown va) c
    dsimp only
    rw [heq,some_bind]
    cases r with
    | none =>
      exact ⟨false,0,s1,rfl,hi,hx1,zero_le _,(fun hf => by cases hf),.nil hs⟩
    | some f =>
      obtain ⟨hva,l,hl,hp,hw,rfl⟩:=hwf f rfl
      dsimp only
      generalize hn : min (pgsize-(va-pgrounddown va)) buf.length=n
      have hoff:=lt_pgrounddown_add va
      have hdown:=pgrounddown_le va
      have hc:=writeBytes_copied hi hx1 hd hl hva hp hw n buf (by omega) (by omega)
      rw [next_page hva]
      obtain ⟨ok,k,s2,heq2,hi2,hx2,hk,hok,hc2⟩:=ih (pgrounddown va+pgsize) (buf.drop n)
        (hi.setPage _ _) (hx1.setPage _ _) (by rw [length_drop]; omega)
      rw [length_drop] at hk hok
      refine ⟨ok,n+k,s2,?_,hi2,hx2,by omega,fun hf => by have := hok hf; omega,?_⟩
      · rw [writeBytes,heq2,some_bind]
      by_cases hzero : k=0
      · subst hzero
        exact (hc.of_sameBytes hs).append (.nil hc2.sameBytes)
      refine (hc.of_sameBytes hs).append ?_
      -- the copy went on, so this turn filled its page to the end
      have hend : va+n=pgrounddown va+pgsize := by omega
      rw [hend]
      exact hc2

end

end Auxv6.Vm

import Auxv6.Vm.UserCopy

/-!
# `copyout` does what the user's stores do

The stores of a range resolve each page once, with the calls that a turn of `copyout` makes.
-/

namespace Auxv6.Vm
open Machine Lib Lib.Transition Function List Option Nat Prod Mem

section

variable {L : Layout} {D : Set ℕ} {s s' s1 : Uvm} {cur : Option AddressSpace} {vma : AddressSpace}
  {d va f : ℕ} {c : Fin ncpu} {b : UInt8} {buf : List UInt8}

variable {ok : Bool}

lemma UvmInv.cowFault_pte (h : UvmInv L D [] s) (hx : Excl D D s) (hd : d∈D) (hva : va<kernbase)
    (heq : Vm.cowFault L c s d va=some (ok,s')) :
    (∀ d'∈D,∀ va'<kernbase,¬ (d'=d ∧ va'/pgsize=va/pgsize) → pteAt s' d' va'=pteAt s d' va') ∧
      (pteAt s' d va).p=(pteAt s d va).p ∧ (pteAt s' d va).u=(pteAt s d va).u ∧
      (ok=true → (pteAt s d va).cow=true) := by
  have hsame : (∀ d'∈D,∀ va'<kernbase,¬ (d'=d ∧ va'/pgsize=va/pgsize) → pteAt s d' va'=pteAt s d' va') ∧
      (pteAt s d va).p=(pteAt s d va).p ∧ (pteAt s d va).u=(pteAt s d va).u ∧
      (false=true → (pteAt s d va).cow=true) := ⟨fun _ _ _ _ _ => rfl,rfl,rfl,fun hf => by cases hf⟩
  unfold Vm.cowFault at heq
  rcases h.vmLookupPte hx hd hva with ⟨hlook,_⟩ | ⟨l,hl,hlook⟩
  · rw [hlook,some_bind] at heq
    cases heq
    exact hsame
  rw [hlook,some_bind] at heq
  have hpe : s.pte l.loc=s.entry l := rfl
  simp only [hpe] at heq
  have hentry:=pteAt_of_slotAt h hd hva hl
  by_cases hno : ¬ (s.entry l).p=true ∨ ¬ (s.entry l).cow=true ∨ (s.entry l).pa=0
  · rw [if_pos hno] at heq
    cases heq
    exact hsame
  rw [if_neg hno] at heq
  rw [not_or,not_or,not_not,not_not] at hno
  obtain ⟨hp,hcow,-⟩:=hno
  by_cases hshared : 1<kpageRefcount s.mem (s.entry l).pa
  · rw [if_pos hshared] at heq
    obtain ⟨r,m,heqk,hr⟩:=h.kalloc c
    rw [heqk,some_bind] at heq
    rcases hr with ⟨rfl,hi⟩ | ⟨f,rfl,hi,-⟩
    · cases heq
      exact hsame
    dsimp only at heq
    have hi1 : UvmInv L D [f] (Uvm.setPage {s with mem := m} f (s.page (s.entry l).pa)) :=
      ⟨hi.good,hi.dir,hi.table,hi.inj,hi.user⟩
    obtain ⟨r,s2,heqr,hr,hi2,hu,-⟩:=hi1.uvmReleasePte hd hva hl c
    rw [heqr,some_bind,if_neg (not_lt.mpr hr)] at heq
    have hl2 : SlotAt s2 d va l := ⟨by rw [hu.dir]; exact hl.1,hl.2⟩
    cases heq
    have hpte:=fun d' hd' va' hva' => @pteAt_setPte L D [f] s2 d va va' l hi2 hd hva d' hd' hva' hl2
      {s.entry l with pa := f,cow := false,w := true,p := true}
    refine ⟨fun d' hd' va' hva' hne => ?_,?_,?_,fun _ => by rw [hentry]; exact hcow⟩
    · rw [hpte d' hd' va' hva',if_neg hne,hu.kept d' hd' va' hva' hne]
      rfl
    · rw [hpte d hd va hva,if_pos ⟨rfl,rfl⟩,hentry,hp]
    · rw [hpte d hd va hva,if_pos ⟨rfl,rfl⟩,hentry]
  · rw [if_neg hshared] at heq
    cases heq
    have hpte:=fun d' hd' va' hva' => @pteAt_setPte L D [] s d va va' l h hd hva d' hd' hva' hl
      {s.entry l with w := true,cow := false}
    refine ⟨fun d' hd' va' hva' hne => ?_,?_,?_,fun _ => by rw [hentry]; exact hcow⟩
    · rw [hpte d' hd' va' hva',if_neg hne]
    · rw [hpte d hd va hva,if_pos ⟨rfl,rfl⟩,hentry]
    · rw [hpte d hd va hva,if_pos ⟨rfl,rfl⟩,hentry]

def KeepsAccess (D : Set ℕ) (s s' : Uvm) : Prop := ∀ d∈D,∀ va<kernbase,Accessible s d va → Accessible s' d va

section
variable (h : UvmInv L D [] s)
include h

section
variable (hx : Excl D D s) (hd : d∈D)
include hx hd

lemma UvmInv.cowFault_keepsAccess
    (hva : va<kernbase) (heq : Vm.cowFault L c s d va=some (ok,s')) : KeepsAccess D s s' := by
  obtain ⟨hother,hp,hu,-⟩:=h.cowFault_pte hx hd hva heq
  intro d' hd' va' hva' ha
  by_cases hsame : d'=d ∧ va'/pgsize=va/pgsize
  · obtain ⟨rfl,hpage⟩:=hsame
    have hbase : pgrounddown va'=pgrounddown va := by rw [pgrounddown,pgrounddown,hpage]
    rw [Accessible,pteAt_of_base hbase] at ha ⊢
    rw [hp,hu]
    exact ha
  · rw [Accessible,hother d' hd' va' hva' hsame]
    exact ha

lemma demandZero_cases (hva : va<kernbase) (hz : faultDemandZero L s vma d va c=some (ok,s')) :
    (ok=false ∧ s'=s) ∨ ∃ r,vmaFind vma (pgrounddown va)=some r ∧ r.flags &&& vmaZerofill≠0 ∧
      r.inode=0 ∧ vmMapZerofillPage L c s d (pgrounddown va) (r.flags &&& vmaWrite≠0)=some (ok,s') := by
  unfold faultDemandZero at hz
  dsimp only at hz
  split at hz
  · simp only [some.injEq,mk.injEq] at hz
    exact .inl ⟨hz.1.symm,hz.2.symm⟩
  rename_i r hfind
  split at hz
  · simp only [some.injEq,mk.injEq] at hz
    exact .inl ⟨hz.1.symm,hz.2.symm⟩
  rename_i hflags
  rw [not_or,not_not] at hflags
  have hdown:=(pgrounddown_le va).trans_lt hva
  rcases h.vmLookupPte hx hd hdown with ⟨heq,-⟩ | ⟨l,hl,heq⟩
  · rw [heq,some_bind] at hz
    exact .inr ⟨r,hfind,hflags.1,hflags.2,hz⟩
  rw [heq,some_bind] at hz
  dsimp only at hz
  by_cases hp : (s.pte l.loc).p=true
  · rw [if_pos hp] at hz
    simp only [some.injEq,mk.injEq] at hz
    exact .inl ⟨hz.1.symm,hz.2.symm⟩
  · rw [if_neg hp] at hz
    exact .inr ⟨r,hfind,hflags.1,hflags.2,hz⟩

lemma zerofill_spec {writable : Bool} (hz : vmMapZerofillPage L c s d va writable=some (ok,s')) :
    UvmInv L D [] s' ∧ Excl D D s' ∧ SameBytes D s s' ∧ KeepsAccess D s s' ∧
      (ok=true → (pteAt s d va).p=false ∧ ∃ f,pteAt s' d va=⟨f,true,writable,true,false⟩) := by
  obtain ⟨ok',s'',heq,hi,hcase⟩:=h.vmMapZerofillPage hx hd va writable c
  cases hz.symm.trans heq
  rcases hcase with ⟨rfl,hk⟩ | ⟨rfl,-,hva,hfree,f,hm⟩
  · refine ⟨hi,hk.excl subset_rfl subset_rfl hx,(hk.sameViews h).sameBytes,fun d' hd' va' hva' ha => ?_,
      fun hf => by cases hf⟩
    rw [Accessible,hk.pte d' hd' va' hva']
    exact ha
  refine ⟨hi,hm.excl D subset_rfl D subset_rfl hx,hm.sameBytes hva hfree,fun d' hd' va' hva' ha => ?_,
    fun _ => ⟨hfree,f,by rw [hm.pte d hd va hva,if_pos ⟨rfl,rfl⟩]⟩⟩
  rw [Accessible,hm.pte d' hd' va' hva']
  split
  · exact ⟨rfl,rfl⟩
  · exact ha

lemma userStore_cases (hva : va<kernbase) (hst : userStore L c s d va b=some (true,s')) :
    ∃ s1,((pteAt s d va).w=true ∧ s1=s ∨ (pteAt s d va).w=false ∧ (pteAt s d va).cow=true ∧
        cowFault L c s d va=some (true,s1)) ∧
      UvmInv L D [] s1 ∧ Excl D D s1 ∧ SameBytes D s s1 ∧ KeepsAccess D s s1 ∧ Accessible s d va ∧
      (pteAt s1 d va).userWritable=true ∧ s'=writeByte s1 (pteAt s1 d va).pa (va%pgsize) b := by
  obtain ⟨_,s1,_,heq,hi,hx1,hs,hvia,hcase⟩:=h.userStore_cases hx hd va b c
  cases hst.symm.trans heq
  obtain ⟨hno,-⟩ | ⟨-,-,l,hl,huw,hs'⟩:=hcase
  · cases hno
  rw [← pteAt_of_slotAt hi hd hva hl] at huw hs'
  have hbits:=huw
  simp only [Pte.userWritable,Bool.and_eq_true] at hbits
  rcases hvia with rfl | ⟨hno,ok',hcf,hok⟩
  · exact ⟨s1,.inl ⟨hbits.2,rfl⟩,hi,hx1,.refl D s1,fun _ _ _ _ ha => ha,hbits.1,huw,hs'⟩
  obtain rfl:=hok rfl
  obtain ⟨-,hp1,hu1,hcow⟩:=h.cowFault_pte hx hd hva hcf
  have hacc : Accessible s d va := ⟨hp1 ▸ hbits.1.1,hu1 ▸ hbits.1.2⟩
  have hnw : (pteAt s d va).w=false := by simpa [Pte.userWritable,hacc.1,hacc.2] using hno
  exact ⟨s1,.inr ⟨hnw,hcow rfl,hcf⟩,hi,hx1,hs.sameBytes,h.cowFault_keepsAccess hx hd hva hcf,hacc,huw,hs'⟩

end

end

lemma copyoutFrame_of_store (h : UvmInv L D [] s1) (hx : Excl D D s1) (hd : d∈D) (hva : va<kernbase)
    (hallow : vmAddrspaceAllowsUserVa cur (pgrounddown va)=true)
    (hpres : copyoutPresent L c s cur d (pgrounddown va)=some (true,s1))
    (hst : userStore L c s1 d va b=some (true,s')) :
    ∃ s2,copyoutFrame L c s cur d (pgrounddown va)=some (some (pteAt s2 d va).pa,s2) ∧
      UvmInv L D [] s2 ∧ Excl D D s2 ∧ (pteAt s2 d va).userWritable=true ∧
      s'=writeByte s2 (pteAt s2 d va).pa (va%pgsize) b := by
  obtain ⟨s2,hcase,hi,hx2,-,-,hacc,huw,hs'⟩:=userStore_cases h hx hd hva hst
  refine ⟨s2,?_,hi,hx2,huw,hs'⟩
  have hdown:=(pgrounddown_le va).trans_lt hva
  obtain ⟨l,hl,he,-⟩:=h.slotAt_of_present hd hva hacc.1
  have hpe : s1.pte l.loc=pteAt s1 d va := he
  have hsane:=sane_of_slot h hx hd hva hl
  have hval:=paValid_of_present h hd hva hacc.1
  rw [copyoutFrame,if_neg (by simp [hallow,hdown]),hpres,some_bind]
  dsimp only
  rw [walkpgdir_pgrounddown,walkpgdir_of_slotAt h hd hva hl]
  simp only [hpe]
  rw [if_neg (by simp [hacc.1]),if_neg (by simp [hsane]),if_neg (by simp [hacc.2,hval])]
  rcases hcase with ⟨hw,rfl⟩ | ⟨hw,hcow,hfault⟩
  · rw [if_pos hw]
  have hbits:=huw
  simp only [Pte.userWritable,Bool.and_eq_true] at hbits
  obtain ⟨l2,hl2,he2,-⟩:=hi.slotAt_of_present hd hva hbits.1.1
  have hpe2 : s2.pte l2.loc=pteAt s2 d va := he2
  have hsane2:=sane_of_slot hi hx2 hd hva hl2
  have hval2:=paValid_of_present hi hd hva hbits.1.1
  rw [if_neg (by simp [hw]),if_neg (by simp [hcow]),cowFault_pgrounddown,hfault,some_bind]
  dsimp only
  rw [walkpgdir_pgrounddown,walkpgdir_of_slotAt hi hd hva hl2]
  simp only [hpe2]
  rw [if_neg (by simp [hbits.1.1]),if_neg (by simp [hsane2]),if_neg (by simp [hbits.1.2,hbits.2,hval2])]

section
variable (h : UvmInv L D [] s) (hx : Excl D D s) (hd : d∈D) (hst : demandStore L c s vma d va b=some (true,s'))
include h hx hd hst

lemma demandStore_cases : va<kernbase ∧ ∃ s1,copyoutPresent L c s (some vma) d (pgrounddown va)=some (true,s1) ∧
      userStore L c s1 d va b=some (true,s') ∧ UvmInv L D [] s1 ∧ Excl D D s1 ∧ SameBytes D s s1 ∧
      KeepsAccess D s s1 := by
  unfold demandStore at hst
  by_cases hbig : kernbase≤va
  · rw [if_pos hbig] at hst
    simp at hst
  rw [if_neg hbig] at hst
  have hva:=not_le.mp hbig
  refine ⟨hva,?_⟩
  by_cases hp : (pteAt s d va).p=true
  · rw [if_pos hp] at hst
    obtain ⟨l,hl,he,-⟩:=h.slotAt_of_present hd hva hp
    refine ⟨s,?_,hst,h,hx,.refl D s,fun _ _ _ _ ha => ha⟩
    have hpl : (s.pte l.loc).p=true := (congrArg Pte.p he).trans hp
    rw [copyoutPresent,walkpgdir_pgrounddown,walkpgdir_of_slotAt h hd hva hl]
    exact if_pos hpl
  rw [if_neg hp] at hst
  obtain ⟨⟨ok,s1⟩,hz,hst⟩:=bind_eq_some_iff.mp hst
  cases ok with
  | false => simp at hst
  | true =>
    rcases demandZero_cases h hx hd hva hz with ⟨hf,-⟩ | ⟨r,hfind,hzf,hino,hmap⟩
    · cases hf
    obtain ⟨hi,hx1,hs,hk,hnew⟩:=zerofill_spec h hx hd hmap
    obtain ⟨-,f,hpte⟩:=hnew rfl
    rw [pteAt_pgrounddown] at hpte
    refine ⟨s1,?_,hst,hi,hx1,hs,hk⟩
    -- the store went through, so the VMA is writable
    have hwrite : r.flags &&& vmaWrite≠0 := by
      obtain ⟨_,⟨hw,-⟩ | ⟨-,hcow,-⟩,-⟩:=userStore_cases hi hx1 hd hva hst
      · rw [hpte] at hw
        exact of_decide_eq_true hw
      · rw [hpte] at hcow
        cases hcow
    rw [decide_eq_true hwrite] at hmap
    have hres : copyoutResolveZerofill L c s (some vma) d (pgrounddown va)=some (true,s1) := by
      rw [copyoutResolveZerofill,bind_some,hfind]
      dsimp only
      rw [if_neg (by simp [hzf,hwrite,hino])]
      exact hmap
    rw [copyoutPresent,walkpgdir_pgrounddown]
    cases hw : walkpgdir s d va with
    | none => exact hres
    | some l =>
      have hpl : ¬ (s.pte l).p=true := by rwa [pteAt,hw] at hp
      dsimp only
      rw [if_neg hpl]
      exact hres

lemma demandStore_spec : va<kernbase ∧ UvmInv L D [] s' ∧ Excl D D s' ∧ KeepsAccess D s s' ∧ Accessible s' d va ∧
      ∀ d'∈D,∀ va'<kernbase,bytes s' d' va'=if d'=d ∧ va'=va then b else bytes s d' va' := by
  obtain ⟨hva,s1,-,hst,hi,hx1,hs,hk⟩:=demandStore_cases h hx hd hst
  obtain ⟨s2,-,hi2,hx2,hs2,hk2,-,huw,rfl⟩:=userStore_cases hi hx1 hd hva hst
  have hbits:=huw
  simp only [Pte.userWritable,Bool.and_eq_true] at hbits
  obtain ⟨l,hl,he,-⟩:=hi2.slotAt_of_present hd hva hbits.1.1
  rw [← he] at huw ⊢
  obtain ⟨h1,h2,hb⟩:=writeByte_spec hi2 hx2 hd hva hl huw b
  refine ⟨hva,h1,h2,fun d' hd' va' hva' ha => hk2 d' hd' va' hva' (hk d' hd' va' hva' ha),hbits.1,
    fun d' hd' va' hva' => ?_⟩
  rw [hb d' hd' va' hva',hs2 d' hd' va' hva',hs d' hd' va' hva']

end

lemma demandStores_cons (hrun : demandStores L c vma d va (b::buf) s=some (true,s')) :
    ∃ s1,demandStore L c s vma d va b=some (true,s1) ∧ demandStores L c vma d (va+1) buf s1=some (true,s') := by
  obtain ⟨⟨ok,s1⟩,hst,hrest⟩:=bind_eq_some_iff.mp hrun
  cases ok with
  | false => simp at hrest
  | true => exact ⟨s1,hst,hrest⟩

lemma demandStores_spec (hd : d∈D) (h : UvmInv L D [] s) (hx : Excl D D s)
    (hrun : demandStores L c vma d va buf s=some (true,s')) :
    UvmInv L D [] s' ∧ Excl D D s' ∧ KeepsAccess D s s' ∧ Copied D s s' d va buf.length buf ∧
      ∀ i<buf.length,va+i<kernbase ∧ Accessible s' d (va+i) := by
  induction buf generalizing va s with
  | nil =>
    simp only [demandStores,some.injEq,mk.injEq,true_and] at hrun
    subst hrun
    exact ⟨h,hx,fun _ _ _ _ ha => ha,.nil (.refl D s),fun i hi => absurd hi (Nat.not_lt_zero i)⟩
  | cons b rest ih =>
    obtain ⟨s1,hst,hrest⟩:=demandStores_cons hrun
    obtain ⟨hva,hi,hx1,hk,ha,hb⟩:=demandStore_spec h hx hd hst
    obtain ⟨hi',hx',hk',hc,hacc⟩:=ih hi hx1 hrest
    refine ⟨hi',hx',fun d' hd' va' hva' ha' => hk' d' hd' va' hva' (hk d' hd' va' hva' ha'),?_,?_⟩
    · rw [length_cons,Nat.add_comm]
      refine Copied.append (fun d' hd' va' hva' => ?_) hc
      rw [hb d' hd' va' hva']
      by_cases heq : d'=d ∧ va'=va
      · rw [if_pos heq,if_pos ⟨heq.1,by omega⟩,heq.2,Nat.sub_self]
        rfl
      · rw [if_neg heq,if_neg (by omega)]
    · intro i hi
      cases i with
      | zero => exact ⟨hva,hk' d hd va hva ha⟩
      | succ i =>
        have := hacc i (by simpa using hi)
        rwa [Nat.add_assoc,Nat.add_comm 1] at this

lemma demandStores_append {xs : List UInt8} (ys : List UInt8) (hrun : demandStores L c vma d va xs s=some (true,s1)) :
    demandStores L c vma d va (xs++ys) s=demandStores L c vma d (va+xs.length) ys s1 := by
  induction xs generalizing va s with
  | nil =>
    simp only [demandStores,some.injEq,mk.injEq,true_and] at hrun
    rw [hrun]
    rfl
  | cons b rest ih =>
    obtain ⟨s2,hst,hrest⟩:=demandStores_cons hrun
    rw [cons_append,demandStores,hst,some_bind]
    dsimp only
    rw [ih hrest,length_cons,add_assoc,add_comm 1]

lemma writeBytes_cons (s : Uvm) (f off : ℕ) (b : UInt8) (rest : List UInt8) :
    writeBytes s f off (b::rest)=writeBytes (writeByte s f off b) f (off+1) rest := by
  simp only [writeBytes,writeByte,Uvm.setPage,update_self,update_idem]
  congr 2
  funext i
  by_cases hlt : off ≤ i
  · rw [if_pos hlt]
    by_cases heq : i=off
    · subst heq
      rw [Nat.sub_self,if_neg (by omega),update_self]
      rfl
    · have hidx : i-off=i-(off+1)+1 := by omega
      rw [if_pos (by omega),hidx,getElem?_cons_succ,update_of_ne heq]
  · rw [if_neg hlt,if_neg (by omega),update_of_ne (by omega)]

lemma writeBytes_nil (s : Uvm) (f off : ℕ) : writeBytes s f off []=s := by
  have hid : (fun i => if off ≤ i then (([] : List UInt8)[i-off]?).getD (s.page f i) else s.page f i) = s.page f := by
    simp
  rw [writeBytes,hid,Uvm.setPage,update_eq_self]

lemma demandStores_page (c : Fin ncpu) (vma : AddressSpace) (buf : List UInt8) (h : UvmInv L D [] s)
    (hd : d∈D) (hva : va<kernbase) (hw : (pteAt s d va).userWritable=true) (hfit : va%pgsize+buf.length≤pgsize) :
    demandStores L c vma d va buf s=some (true,writeBytes s (pteAt s d va).pa (va%pgsize) buf) := by
  induction buf generalizing va s with
  | nil => rw [demandStores,writeBytes_nil]
  | cons b rest ih =>
    have hbits:=hw
    simp only [Pte.userWritable,Bool.and_eq_true] at hbits
    obtain ⟨l,hl,he,-⟩:=h.slotAt_of_present hd hva hbits.1.1
    have hpe : s.pte l.loc=pteAt s d va := he
    have hst : demandStore L c s vma d va b=some (true,writeByte s (pteAt s d va).pa (va%pgsize) b) := by
      rw [demandStore,if_neg (not_le.mpr hva),if_pos hbits.1.1,userStore,if_neg (not_le.mpr hva),
        walkpgdir_of_slotAt h hd hva hl]
      simp only [hpe]
      rw [if_pos hw]
    rw [demandStores,hst,some_bind,writeBytes_cons]
    dsimp only
    rw [length_cons] at hfit
    cases rest with
    | nil => rw [demandStores,writeBytes_nil]
    | cons b' rest' =>
      rw [length_cons] at hfit
      have hnext : va+1<kernbase := by
        simp only [kernbase,pgsize] at *
        omega
      have hoff : (va+1)%pgsize=va%pgsize+1 := by
        simp only [pgsize] at *
        omega
      have hpage : pteAt s d (va+1)=pteAt s d va := by
        refine pteAt_of_base (pgrounddown_eq ?_)
        rw [sub_pgrounddown]
        omega
      have hpage' : pteAt (writeByte s (pteAt s d va).pa (va%pgsize) b) d (va+1)=pteAt s d va := hpage
      have hi' : UvmInv L D [] (writeByte s (pteAt s d va).pa (va%pgsize) b) := h.setPage _ _
      rw [ih hi' hnext (by rw [hpage']; exact hw) (by rw [hoff,length_cons]; omega),hpage',hoff]

lemma copyoutLoop_of_stores (hd : d∈D) (fuel va : ℕ) (buf : List UInt8) (h : UvmInv L D [] s)
    (hx : Excl D D s) (hfuel : buf.length<fuel)
    (hallow : ∀ i<buf.length,vmAddrspaceAllowsUserVa (some vma) (pgrounddown (va+i))=true)
    (hrun : demandStores L c vma d va buf s=some (true,s')) :
    copyoutLoop L c (some vma) d fuel va buf s=some ((true,buf.length),s') := by
  induction fuel generalizing va buf s with
  | zero => omega
  | succ fuel ih =>
    rw [copyoutLoop]
    cases buf with
    | nil =>
      simp only [demandStores,some.injEq,mk.injEq,true_and] at hrun
      rw [if_pos rfl,hrun]
      rfl
    | cons b rest =>
      rw [if_neg (by simp)]
      obtain ⟨s1',hst,hrest⟩:=demandStores_cons hrun
      obtain ⟨hva,s1,hpres,hus,hi,hx1,-,-⟩:=demandStore_cases h hx hd hst
      obtain ⟨s2,hframe,hi2,hx2,huw,rfl⟩:=copyoutFrame_of_store hi hx1 hd hva
        (by simpa using hallow 0 (by simp)) hpres hus
      dsimp only
      rw [hframe,some_bind]
      dsimp only
      -- the stores of the range, started once the page is writable
      have hrun2 : demandStores L c vma d va (b::rest) s2=some (true,s') := by
        have hfirst : demandStores L c vma d va [b] s2 = _ :=
          demandStores_page c vma [b] hi2 hd hva huw (by
            have := Nat.mod_lt va (show 0<pgsize by decide)
            simpa using this)
        rw [writeBytes_cons,writeBytes_nil] at hfirst
        have := demandStores_append rest hfirst
        rw [singleton_append,length_singleton] at this
        rw [this,hrest]
      rw [sub_pgrounddown]
      have hoff:=Nat.mod_lt va (show 0<pgsize by decide)
      generalize hn : min (pgsize-va%pgsize) (b::rest).length=n
      have hnpos : 0<n := by
        rw [← hn,length_cons]
        omega
      have hpage:=demandStores_page c vma ((b::rest).take n) hi2 hd hva huw (by
        rw [length_take]
        omega)
      have hsplit:=demandStores_append ((b::rest).drop n) hpage
      rw [take_append_drop,hrun2,length_take,Nat.min_eq_left (by omega)] at hsplit
      generalize hs3 : writeBytes s2 (pteAt s2 d va).pa (va%pgsize) ((b::rest).take n)=s3 at hsplit ⊢
      have hi3 : UvmInv L D [] s3 := hs3 ▸ hi2.setPage _ _
      have hx3 : Excl D D s3 := hs3 ▸ hx2.setPage _ _
      have hdrop : ((b::rest).drop n).length=(b::rest).length-n := length_drop
      have hle : n≤(b::rest).length := by omega
      by_cases hlast : (b::rest).length-n=0
      · -- the page holds the rest of the range
        have hnil : (b::rest).drop n=[] := eq_nil_of_length_eq_zero (by omega)
        rw [hnil,demandStores] at hsplit
        rw [hnil,ih _ [] hi3 hx3 (by rw [length_nil]; omega) (by simp)
          (by rw [demandStores]; exact hsplit.symm),some_bind,length_nil,Nat.add_zero]
        congr 3
        omega
      · have hend : pgrounddown va+pgsize=va+n := by
          have := sub_pgrounddown va
          have := pgrounddown_le va
          omega
        rw [next_page (by omega),hend,ih (va+n) _ hi3 hx3 (by rw [hdrop]; omega) (fun i hi' => by
          rw [Nat.add_assoc]; exact hallow (n+i) (by omega)) hsplit.symm,some_bind,hdrop,Nat.add_sub_cancel' hle]

lemma copyoutFrame_some (hf : copyoutFrame L c s cur d va=some (some f,s')) :
    vmAddrspaceAllowsUserVa cur va=true ∧ va<kernbase := by
  unfold copyoutFrame at hf
  by_cases hdeny : ¬ vmAddrspaceAllowsUserVa cur va=true ∨ kernbase≤va
  · rw [if_pos hdeny] at hf
    simp at hf
  · rw [not_or,not_not,not_le] at hdeny
    exact hdeny

lemma copyoutLoop_needs (fuel va : ℕ) (buf : List UInt8) (hfuel : buf.length<fuel) {n : ℕ}
    (hr : copyoutLoop L c cur d fuel va buf s=some ((true,n),s')) :
    ∀ i<buf.length,vmAddrspaceAllowsUserVa cur (pgrounddown (va+i))=true := by
  induction fuel generalizing va buf s n with
  | zero => omega
  | succ fuel ih =>
    intro i hi
    have hne : buf≠[] := ne_nil_of_length_pos (by omega)
    rw [copyoutLoop,if_neg hne] at hr
    obtain ⟨⟨o,s1⟩,ho,hr⟩:=bind_eq_some_iff.mp hr
    cases o with
    | none => simp at hr
    | some f =>
      obtain ⟨hallow,hva⟩:=copyoutFrame_some ho
      obtain ⟨⟨⟨ok,k⟩,s2⟩,hrest,hr⟩:=bind_eq_some_iff.mp hr
      cases hr
      have hoff:=lt_pgrounddown_add va
      have hdown:=pgrounddown_le va
      generalize hn : min (pgsize-(va-pgrounddown va)) buf.length=n' at hrest
      by_cases hin : i<n'
      · rw [pgrounddown_eq (by omega)]
        exact hallow
      have hend : pgrounddown va+pgsize=va+n' := by omega
      rw [next_page hva,hend] at hrest
      have := ih (va+n') (buf.drop n') (by rw [length_drop]; omega) hrest (i-n')
        (by rw [length_drop]; omega)
      rwa [Nat.add_assoc,Nat.add_sub_cancel' (by omega)] at this

lemma copyout_agrees (h : UvmInv L D [] s) (hx : Excl D D s) (hd : d∈D)
    (hrun : demandStores L c vma d va buf s=some (true,s')) :
    (copyout L c s (some vma) d va buf=some ((true,buf.length),s') ∧
        copyin s' (some vma) d va buf.length=some (true,buf)) ↔
      ∀ i<buf.length,vmAddrspaceAllowsUserVa (some vma) (pgrounddown (va+i))=true := by
  constructor
  · rintro ⟨hout,-⟩
    exact copyoutLoop_needs _ va buf (Nat.lt_succ_self _) hout
  intro hallow
  refine ⟨copyoutLoop_of_stores hd _ va buf h hx (Nat.lt_succ_self _) hallow hrun,?_⟩
  obtain ⟨hi,hx',-,hc,hacc⟩:=demandStores_spec hd h hx hrun
  have hin:=copyinLoop_accessible hi hx' hd (buf.length+1) va buf.length (Nat.lt_succ_self _)
    (fun i hlt => ⟨(hacc i hlt).1,(hacc i hlt).2,hallow i hlt⟩)
  rw [copyin,hin]
  congr 2
  refine ext_getElem (by simp) fun i h1 h2 => ?_
  rw [getElem_map,getElem_range,hc d hd _ (hacc i h2).1,if_pos ⟨rfl,by omega,by omega⟩,
    Nat.add_sub_cancel_left,getD_eq_getElem?_getD,getElem?_eq_getElem h2,getD_some]

end

/-- In every reachable state, for any VMAs of the running process: the kernel's copies of a range the user can
access agree with the accesses exactly when the base of every page lies in a VMA and, for `copyin`, every
page is present. -/
theorem kernel_copies_agree (L : Layout) (m : State) (hm : Good L m) (acts : List CowAction)
    (p : Paired) (hrun : run (pairedStep L) (Paired.start m) acts=some p) (a : ℕ) (sp : Space)
    (hsp : p.sys.space a=some sp) (vma : AddressSpace) (c : Fin ncpu) (va : ℕ) :
    (∀ len,(∀ i<len,userReadable L c p.sys.uvm vma sp.pgdir (va+i)=true) →
      (copyin p.sys.uvm (some vma) sp.pgdir va len =
          some (true,(range len).map fun i => bytes p.sys.uvm sp.pgdir (va+i)) ↔
        ∀ i<len,(pteAt p.sys.uvm sp.pgdir (va+i)).p=true ∧
          vmAddrspaceAllowsUserVa (some vma) (pgrounddown (va+i))=true)) ∧
    (∀ buf s',demandStores L c vma sp.pgdir va buf p.sys.uvm=some (true,s') →
      ((copyout L c p.sys.uvm (some vma) sp.pgdir va buf=some ((true,buf.length),s') ∧
          copyin s' (some vma) sp.pgdir va buf.length=some (true,buf)) ↔
        ∀ i<buf.length,vmAddrspaceAllowsUserVa (some vma) (pgrounddown (va+i))=true)) := by
  have h : PairedInv L p := run_invariant pairedStep_inv (start_inv hm) hrun
  have hd:=mem_dirs hsp
  refine ⟨fun len hr => ⟨fun hok i hi => ?_,fun hcond => ?_⟩,fun buf s' => copyout_agrees h.inv h.excl hd⟩
  · obtain ⟨hacc,hallow⟩:=copyinLoop_needs _ va len (lt_succ_self _) hok i hi
    exact ⟨hacc.1,hallow⟩
  · refine copyinLoop_accessible h.inv h.excl hd _ va len (lt_succ_self _) fun i hi => ?_
    obtain ⟨hva,hacc⟩:=accessible_of_userReadable h.inv h.excl hd (hr i hi) (hcond i hi).1
    exact ⟨hva,hacc,(hcond i hi).2⟩

theorem kernel_copies_agree_across : ∃ p sp s',run (pairedStep layout) (Paired.start smallMem)
        [.create 0 true bootCpu,.allocuvm 0 0 8192 true bootCpu]=some p ∧ p.sys.space 0=some sp ∧
      copyin p.sys.uvm (some sp.vma) sp.pgdir 4094 4 =
        some (true,(range 4).map fun i => bytes p.sys.uvm sp.pgdir (4094+i)) ∧
      copyout layout bootCpu p.sys.uvm (some sp.vma) sp.pgdir 4094 [1,2,3,4]=some ((true,4),s') ∧
      copyin s' (some sp.vma) sp.pgdir 4094 4=some (true,[1,2,3,4]) := by
  obtain ⟨p,hrun,sp,hsp,hst,hall⟩ : ∃ p,run (pairedStep layout) (Paired.start smallMem)
      [.create 0 true bootCpu,.allocuvm 0 0 8192 true bootCpu]=some p ∧ ∃ sp,p.sys.space 0=some sp ∧
      (∃ r,demandStores layout bootCpu sp.vma sp.pgdir 4094 [1,2,3,4] p.sys.uvm=some r ∧ r.1=true) ∧
      ∀ i<4,userReadable layout bootCpu p.sys.uvm sp.vma sp.pgdir (4094+i)=true ∧
        (pteAt p.sys.uvm sp.pgdir (4094+i)).p=true ∧
        vmAddrspaceAllowsUserVa (some sp.vma) (pgrounddown (4094+i))=true := by
    decide +kernel
  obtain ⟨⟨ok,s'⟩,hst,rfl : ok=true⟩ := hst
  obtain ⟨hin,hout⟩:=kernel_copies_agree layout smallMem smallMem_good _ p hrun 0 sp hsp sp.vma
    bootCpu 4094
  obtain ⟨h1,h2⟩:=(hout [1,2,3,4] s' hst).mpr fun i hi => (hall i hi).2.2
  exact ⟨p,sp,s',hrun,hsp,(hin 4 fun i hi => (hall i hi).1).mpr fun i hi => (hall i hi).2,h1,h2⟩

def reservedVmas : AddressSpace := (vmaReserveZerofill true addressSpaceCreate 0 4096).2
def unalignedVmas : AddressSpace := (execMapLoadSegment true (fun _ => true) addressSpaceCreate ⟨0,0x1800,0x100,6⟩).2

theorem kernel_copies_disagree : (∃ p sp,run (pairedStep layout) (Paired.start smallMem)
        [.create 0 true bootCpu,.setVmas 0 reservedVmas]=some p ∧ p.sys.space 0=some sp ∧
      userReadable layout bootCpu p.sys.uvm sp.vma sp.pgdir 16=true ∧
      copyin p.sys.uvm (some sp.vma) sp.pgdir 16 1=some (false,[])) ∧
    (∃ p sp,run (pairedStep layout) (Paired.start smallMem)
        [.create 0 true bootCpu,.mapZerofill 0 0x1000 true bootCpu,.setVmas 0 unalignedVmas]=some p ∧
      p.sys.space 0=some sp ∧ userReadable layout bootCpu p.sys.uvm sp.vma sp.pgdir 0x1800=true ∧
      copyin p.sys.uvm (some sp.vma) sp.pgdir 0x1800 1=some (false,[]) ∧
      (demandStores layout bootCpu sp.vma sp.pgdir 0x1800 [7] p.sys.uvm).map (·.1)=some true ∧
      (copyout layout bootCpu p.sys.uvm (some sp.vma) sp.pgdir 0x1800 [7]).map (·.1) = some (false,0)) := by
  simp only [exists_and_left]
  decide +kernel

end Auxv6.Vm

import Auxv6.Vm.ProcImage

/-!
# Kernel copies and user accesses (core/vm.c, vm/fault.c)

`copyin` and `copyout` walk a range page by page, the MMU byte by byte. A user access to a
page that is not present is served by `fault_demand_zero`; `copyout` maps such a page itself,
`copyin` does not. Both ask the VMAs about the base of the page, not about the byte.
-/

namespace Auxv6.Vm
open Machine Lib List Option Nat

/-- `vm.c:1174-1194`: the frame, none for the null pointer. A kernel page has no
`PTE_U`. -/
def uva2ka (s : Uvm) (cur : Option AddressSpace) (d uva : ℕ) : Option (Option ℕ) :=
  if ¬ vmAddrspaceAllowsUserVa cur uva ∨ kernbase≤uva then some none
  else match walkpgdir s d uva with
    | none => some none
    | some l =>
      if ¬ (s.pte l).sane then none
      else if ¬ (s.pte l).p ∨ ¬ (s.pte l).u ∨ ¬ paValid (s.pte l).pa then some none
      else some (some (s.pte l).pa)

def readBytes (s : Uvm) (f off n : ℕ) : List UInt8 := (range n).map fun i => s.page f (off+i)

/-- The loop of `copyin` (`vm.c:1294-1309`): whether it returns 0, and what it has written to
`buf`. `fuel` bounds its turns. -/
def copyinLoop (s : Uvm) (cur : Option AddressSpace) (d : ℕ) : ℕ → ℕ → ℕ → Option (Bool × List UInt8)
  | 0, _, _ => some (true,[])
  | fuel+1, va, len =>
    if len=0 then some (true,[])
    else do
      let va0:=pgrounddown va
      if ¬ vmAddrspaceAllowsUserVa cur va0 then some (false,[])
      else match ← uva2ka s cur d va0 with
        | none => some (false,[])
        | some f =>
          let n:=min (pgsize-(va-va0)) len
          let r ← copyinLoop s cur d fuel ((va0+pgsize)%wordMod) (len-n)
          some (r.1,readBytes s f (va-va0) n++r.2)

def copyin (s : Uvm) (cur : Option AddressSpace) (d va len : ℕ) : Option (Bool × List UInt8) :=
  copyinLoop s cur d (len+1) va len

section

variable (L : Mem.Layout) (c : Fin ncpu)

/-- A user load of the byte at `va` succeeds: it lies in a readable VMA and its page is present
with `PTE_U`, or in a zero-fill VMA and `fault_demand_zero` populates its page. -/
def userReadable (s : Uvm) (vma : AddressSpace) (d va : ℕ) : Bool :=
  match vmaFind vma va with
  | none => false
  | some r => decide (va<kernbase) &&
      ((decide (r.flags &&& vmaRead≠0) && (pteAt s d va).p && (pteAt s d va).u) ||
        (decide (r.flags &&& vmaZerofill≠0) && (faultDemandZero L s vma d va c).any (·.1)))

/-- A user store that may also fault on a page that is not present: `fault_demand_zero` maps
it, and the instruction is tried again. -/
def demandStore (s : Uvm) (vma : AddressSpace) (d va : ℕ) (b : UInt8) : Option (Bool × Uvm) := do
  if kernbase≤va then some (false,s)
  else if (pteAt s d va).p then userStore L c s d va b
  else match ← faultDemandZero L s vma d va c with
    | (false,s) => some (false,s)
    | (true,s) => userStore L c s d va b

def demandStores (vma : AddressSpace) (d : ℕ) : ℕ → List UInt8 → Uvm → Option (Bool × Uvm)
  | _, [], s => some (true,s)
  | va, b::rest, s => do
    match ← demandStore L c s vma d va b with
    | (false,s) => some (false,s)
    | (true,s) => demandStores vma d (va+1) rest s

end

def Accessible (s : Uvm) (d va : ℕ) : Prop := (pteAt s d va).p=true ∧ (pteAt s d va).u=true

section

variable {L : Mem.Layout} {D : Set ℕ} {s s' s1 : Uvm} {cur : Option AddressSpace} {vma : AddressSpace}
  {d va f : ℕ} {c : Fin ncpu}

@[simp] lemma pgrounddown_idem (va : ℕ) : pgrounddown (pgrounddown va)=pgrounddown va := by
  simp only [pgrounddown,pgsize]
  omega
lemma sub_pgrounddown (va : ℕ) : va-pgrounddown va=va%pgsize := by
  simp only [pgrounddown,pgsize]
  omega
lemma pgrounddown_eq {va i : ℕ} (h : va-pgrounddown va+i<pgsize) : pgrounddown (va+i)=pgrounddown va := by
  simp only [pgrounddown,pgsize] at *
  omega

@[simp] lemma walkpgdir_pgrounddown (s : Uvm) (d va : ℕ) : walkpgdir s d (pgrounddown va)=walkpgdir s d va := by
  have h1 : pdx (pgrounddown va)=pdx va := by
    simp only [pdx,pgrounddown,pgsize,npdentries]
    omega
  have h2 : ptx (pgrounddown va)=ptx va := by
    simp only [ptx,pgrounddown,pgsize,nptentries]
    omega
  rw [walkpgdir,walkpgdir,h1,h2]

@[simp] lemma pteAt_pgrounddown (s : Uvm) (d va : ℕ) : pteAt s d (pgrounddown va)=pteAt s d va := by
  rw [pteAt,pteAt,walkpgdir_pgrounddown]
lemma pteAt_of_base {va' : ℕ} (h : pgrounddown va'=pgrounddown va) : pteAt s d va'=pteAt s d va := by
  rw [← pteAt_pgrounddown,h,pteAt_pgrounddown]
lemma cowFault_pgrounddown (s : Uvm) (d va : ℕ) : cowFault L c s d (pgrounddown va)=cowFault L c s d va := by
  rw [cowFault,cowFault,vmLookupPte,vmLookupPte,pgrounddown_idem]
lemma bytes_of_accessible (h : (pteAt s d va).p=true) : bytes s d va=s.page (pteAt s d va).pa (va%pgsize) := by
  simp [bytes,view,Pte.frame,h]
lemma paValid_of_present (h : UvmInv L D [] s) (hd : d∈D) (hva : va<kernbase)
    (hp : (pteAt s d va).p=true) : paValid (pteAt s d va).pa=true := by
  obtain ⟨l,-,-,hsl⟩:=h.slotAt_of_present hd hva hp
  have hpos:=mapped_pos_iff.mpr ⟨l,hsl⟩
  exact h.paValid (h.user _ (by omega)).1
lemma sane_of_slot (h : UvmInv L D [] s) (hx : Excl D D s) (hd : d∈D) (hva : va<kernbase) {l : Slot}
    (hl : SlotAt s d va l) : (pteAt s d va).sane=true := by
  rw [pteAt_of_slotAt h hd hva hl]
  exact hx.sane (hl.isTable hd hva)

lemma uva2ka_of_accessible (h : UvmInv L D [] s) (hx : Excl D D s) (hd : d∈D) (hva : va<kernbase)
    (hallow : vmAddrspaceAllowsUserVa cur va=true) (ha : Accessible s d va) :
    uva2ka s cur d va=some (some (pteAt s d va).pa) := by
  obtain ⟨l,hl,he,-⟩:=h.slotAt_of_present hd hva ha.1
  have hval:=paValid_of_present h hd hva ha.1
  have hsane:=sane_of_slot h hx hd hva hl
  have hpe : s.pte l.loc=pteAt s d va := he
  rw [uva2ka,if_neg (by simp [hallow,hva]),walkpgdir_of_slotAt h hd hva hl]
  simp [hpe,hsane,ha.1,ha.2,hval]

lemma uva2ka_some (h : uva2ka s cur d va=some (some f)) : va<kernbase ∧ Accessible s d va := by
  unfold uva2ka at h
  split at h
  · cases h
  rename_i hno
  rw [not_or,not_le] at hno
  split at h
  · cases h
  rename_i l hw
  split at h
  · cases h
  split at h
  · cases h
  next hbad =>
    rw [not_or,not_or,not_not,not_not] at hbad
    exact ⟨hno.2,by rw [Accessible,pteAt,hw]; exact ⟨hbad.1,hbad.2.1⟩⟩

lemma readBytes_eq {n : ℕ} (hp : (pteAt s d va).p=true) (hn : va-pgrounddown va+n≤pgsize) :
    readBytes s (pteAt s d va).pa (va-pgrounddown va) n=(range n).map fun i => bytes s d (va+i) := by
  refine map_congr_left fun i hi => ?_
  rw [mem_range] at hi
  have hpage : pteAt s d (va+i)=pteAt s d va := pteAt_of_base (pgrounddown_eq (by omega))
  have hoff : va-pgrounddown va+i=(va+i)%pgsize := by
    simp only [pgrounddown,pgsize] at *
    omega
  rw [bytes_of_accessible (by rw [hpage]; exact hp),hpage,hoff]

lemma range_map_append {α : Type} (g : ℕ → α) {n len : ℕ} (hn : n≤len) :
    ((List.range n).map g++(List.range (len-n)).map fun i => g (n+i))=(List.range len).map g := by
  obtain ⟨k,rfl⟩:=Nat.exists_eq_add_of_le hn
  rw [List.range_add,List.map_append,List.map_map,Nat.add_sub_cancel_left]
  rfl

lemma copyinLoop_accessible (h : UvmInv L D [] s) (hx : Excl D D s) (hd : d∈D) (fuel va len : ℕ)
    (hfuel : len<fuel) (hr : ∀ i<len,va+i<kernbase ∧ Accessible s d (va+i) ∧
      vmAddrspaceAllowsUserVa cur (pgrounddown (va+i))=true) :
    copyinLoop s cur d fuel va len=some (true,(range len).map fun i => bytes s d (va+i)) := by
  induction fuel generalizing va len with
  | zero => omega
  | succ fuel ih =>
    rw [copyinLoop]
    by_cases hlen : len=0
    · rw [if_pos hlen,hlen]
      rfl
    rw [if_neg hlen]
    obtain ⟨hva,hacc,hallow⟩:=hr 0 (by omega)
    rw [add_zero] at hva hacc hallow
    have hbase:=uva2ka_of_accessible h hx hd ((pgrounddown_le va).trans_lt hva) hallow
      (by rw [Accessible,pteAt_pgrounddown]; exact hacc)
    rw [pteAt_pgrounddown] at hbase
    dsimp only
    rw [if_neg (by simp [hallow]),hbase,some_bind]
    dsimp only
    have hoff:=lt_pgrounddown_add va
    have hdown:=pgrounddown_le va
    generalize hn : min (pgsize-(va-pgrounddown va)) len=n
    have hnpos : 0<n := by omega
    rw [readBytes_eq hacc.1 (by omega)]
    by_cases hlast : len-n=0
    · have hfull : n=len := by omega
      have hdone : copyinLoop s cur d fuel ((pgrounddown va+pgsize)%wordMod) (len-n)=some (true,[]) := by
        rw [hlast]
        exact ih _ 0 (by omega) (fun i hi => by omega)
      rw [hdone,some_bind,append_nil,hfull]
    -- the turn has filled its page, and the next one starts at the next page
    have hend : pgrounddown va+pgsize=va+n := by omega
    rw [next_page (hdown.trans_lt hva),hend,ih (va+n) (len-n) (by omega) (fun i hi => by
      rw [add_assoc]; exact hr (n+i) (by omega)),some_bind]
    have hsum:=range_map_append (fun i => bytes s d (va+i)) (show n≤len by omega)
    simp only [← add_assoc] at hsum
    rw [hsum]

lemma copyinLoop_needs (fuel va len : ℕ) (hfuel : len<fuel) {out : List UInt8}
    (hr : copyinLoop s cur d fuel va len=some (true,out)) :
    ∀ i<len,Accessible s d (va+i) ∧ vmAddrspaceAllowsUserVa cur (pgrounddown (va+i))=true := by
  induction fuel generalizing va len out with
  | zero => omega
  | succ fuel ih =>
    intro i hi
    rw [copyinLoop,if_neg (by omega)] at hr
    by_cases hallow : vmAddrspaceAllowsUserVa cur (pgrounddown va)=true
    · rw [if_neg (by simp [hallow])] at hr
      obtain ⟨o,ho,hr⟩:=bind_eq_some_iff.mp hr
      cases o with
      | none => simp at hr
      | some f =>
        obtain ⟨hva,hacc⟩:=uva2ka_some ho
        rw [Accessible,pteAt_pgrounddown] at hacc
        obtain ⟨r,hrest,hr⟩:=bind_eq_some_iff.mp hr
        have hoff:=lt_pgrounddown_add va
        have hdown:=pgrounddown_le va
        generalize hn : min (pgsize-(va-pgrounddown va)) len=n at hr hrest
        by_cases hin : i<n
        · have hpage : pgrounddown (va+i)=pgrounddown va := pgrounddown_eq (by omega)
          rw [Accessible,pteAt_of_base hpage,hpage]
          exact ⟨hacc,hallow⟩
        have hend : pgrounddown va+pgsize=va+n := by omega
        obtain ⟨ok,rest⟩:=r
        obtain ⟨rfl,-⟩:=hr
        rw [next_page hva,hend] at hrest
        have := ih (va+n) (len-n) (by omega) hrest (i-n) (by omega)
        rwa [Nat.add_assoc,Nat.add_sub_cancel' (by omega)] at this
    · rw [if_pos hallow] at hr
      simp at hr

lemma absent_of_demandZero (h : UvmInv L D [] s) (hx : Excl D D s) (hd : d∈D) (hva : va<kernbase)
    (hz : faultDemandZero L s vma d va c=some (true,s')) : (pteAt s d va).p=false := by
  unfold faultDemandZero at hz
  dsimp only at hz
  split at hz
  · simp at hz
  split at hz
  · simp at hz
  have hdown:=(pgrounddown_le va).trans_lt hva
  rcases h.vmLookupPte hx hd hdown with ⟨heq,hp⟩ | ⟨l,hl,heq⟩
  · rwa [pteAt_pgrounddown] at hp
  rw [heq,some_bind] at hz
  dsimp only at hz
  rw [← pteAt_pgrounddown,pteAt_of_slotAt h hd hdown hl]
  by_cases hp : (s.pte l.loc).p=true
  · rw [if_pos hp] at hz
    simp at hz
  · exact Bool.not_eq_true _ ▸ hp

lemma accessible_of_userReadable (h : UvmInv L D [] s) (hx : Excl D D s) (hd : d∈D)
    (hr : userReadable L c s vma d va=true) (hp : (pteAt s d va).p=true) : va<kernbase ∧ Accessible s d va := by
  unfold userReadable at hr
  split at hr
  · cases hr
  simp only [Bool.and_eq_true,Bool.or_eq_true,decide_eq_true_eq] at hr
  obtain ⟨hva,⟨⟨-,-⟩,hu⟩ | ⟨-,hz⟩⟩:=hr
  · exact ⟨hva,hp,hu⟩
  obtain ⟨⟨ok,s'⟩,hz,hok⟩:=(any_eq_true _ _).mp hz
  obtain rfl : ok=true := hok
  rw [absent_of_demandZero h hx hd hva hz] at hp
  cases hp

end

end Auxv6.Vm

import Auxv6.Mem.KallocRun
import Auxv6.Vm.CowFork

/-!
# Isolation of address spaces over whole runs

The reference model gives each address space a private memory; memory that is given up reads as 0 when
it is mapped again.
-/

namespace Auxv6.Vm
open Machine Lib Lib.Transition Function List Option Nat Mem

structure Space where
  pgdir : ℕ
  vma : AddressSpace

structure Sys where
  uvm : Uvm
  space : ℕ → Option Space

def Sys.set (σ : Sys) (a : ℕ) (s : Uvm) (o : Option Space) : Sys := ⟨s,update σ.space a o⟩

inductive CowAction where
  | create (a : ℕ) (memOk : Bool) (c : Fin ncpu)
  | dupCow (src dst : ℕ) (allocOk memOk : Bool) (c : Fin ncpu)
  | store (a va : ℕ) (b : UInt8) (c : Fin ncpu)
  | copyout (a va : ℕ) (buf : List UInt8) (current : Bool) (c : Fin ncpu)
  | allocuvm (a oldsz newsz : ℕ) (memOk : Bool) (c : Fin ncpu)
  | deallocuvm (a oldsz newsz : ℕ) (c : Fin ncpu)
  | mapZerofill (a va : ℕ) (writable : Bool) (c : Fin ncpu)
  | markPteu (a va : ℕ) (enabled : Bool)
  | setVmas (a : ℕ) (vma : AddressSpace)
  | destroy (a : ℕ) (c : Fin ncpu)

inductive Outcome where
  | fail
  | ok
  | forked (sz : ℕ)
  | copied (n : ℕ)

section

variable (L : Layout)

/-- `address_space_create` (`vma.c:47-62`). -/
def createExec (σ : Sys) (a : ℕ) (memOk : Bool) (c : Fin ncpu) : Option (Outcome × Sys) := do
  if ¬ memOk then some (.fail,σ)
  else match ← setupkvm L c σ.uvm with
    | (none,s) => some (.fail,{σ with uvm := s})
    | (some d,s) => some (.ok,σ.set a s (some ⟨d,addressSpaceCreate⟩))

/-- `address_space_dup_cow` (`vma.c:64-101`). -/
def dupCowExec (σ : Sys) (sp : Space) (dst : ℕ) (allocOk memOk : Bool) (c : Fin ncpu) :
    Option (Outcome × Sys) := do
  if ¬ allocOk then some (.fail,σ)
  else match ← copyuvm L c σ.uvm sp.pgdir sp.vma.vmSize with
    | (none,s) => some (.fail,{σ with uvm := s})
    | (some d,s) =>
      match addressSpaceDupVmas true memOk sp.vma with
      | none => (freevm L c s d).map fun s => (.fail,{σ with uvm := s})
      | some vma => some (.forked sp.vma.vmSize,σ.set dst s (some ⟨d,vma⟩))

def allocVmas (vma : AddressSpace) (oldsz newsz r : ℕ) (memOk : Bool) : AddressSpace :=
  if kernbase≤newsz ∨ newsz<oldsz then vma
  else if r=newsz then (vmaExpand memOk vma newsz).2
  else (vmaShrink vma oldsz).2

/-- One call. An address space that does not exist, or a new one under a name in use, is no
call of the kernel; `deallocuvm` is only called with sizes up to `KERNBASE`. -/
def exec (σ : Sys) : CowAction → Option (Outcome × Sys)
  | .create a memOk c =>
    match σ.space a with
    | some _ => none
    | none => createExec L σ a memOk c
  | .dupCow src dst allocOk memOk c =>
    match σ.space src, σ.space dst with
    | some sp, none => dupCowExec L σ sp dst allocOk memOk c
    | _, _ => none
  | .store a va b c => do
    let sp ← σ.space a
    let r ← userStore L c σ.uvm sp.pgdir va b
    some (if r.1 then .ok else .fail,{σ with uvm := r.2})
  | .copyout a va buf current c => do
    let sp ← σ.space a
    let r ← copyout L c σ.uvm (if current then some sp.vma else none) sp.pgdir va buf
    some (.copied r.1.2,{σ with uvm := r.2})
  | .allocuvm a oldsz newsz memOk c => do
    let sp ← σ.space a
    let r ← allocuvm L c σ.uvm sp.pgdir oldsz newsz
    some (if r.1=newsz then .ok else .fail,
      σ.set a r.2 (some {sp with vma := allocVmas sp.vma oldsz newsz r.1 memOk}))
  | .deallocuvm a oldsz newsz c => do
    let sp ← σ.space a
    if kernbase<oldsz then none
    else
      let r ← deallocuvm L c σ.uvm sp.pgdir oldsz newsz
      some (.ok,σ.set a r.2 (some {sp with vma := (vmaShrink sp.vma (min oldsz newsz)).2}))
  | .mapZerofill a va writable c => do
    let sp ← σ.space a
    let r ← vmMapZerofillPage L c σ.uvm sp.pgdir va writable
    some (if r.1 then .ok else .fail,{σ with uvm := r.2})
  | .markPteu a va enabled => do
    let sp ← σ.space a
    if kernbase≤va then none
    else
      let s ← markPteu σ.uvm sp.pgdir va enabled
      some (.ok,{σ with uvm := s})
  | .setVmas a vma => do
    let sp ← σ.space a
    if kernbase<vma.vmSize then none
    else some (.ok,σ.set a σ.uvm (some {sp with vma := vma}))
  | .destroy a c => do
    let sp ← σ.space a
    let s ← freevm L c σ.uvm sp.pgdir
    some (.ok,σ.set a s none)

end

abbrev Memory := ℕ → ℕ → UInt8

def clear (m : ℕ → UInt8) (R : ℕ → Prop) [DecidablePred R] : ℕ → UInt8 := fun va => if R va then 0 else m va

def refStep (M : Memory) : CowAction → Outcome → Memory
  | .create a .., .ok => update M a fun _ => 0
  | .dupCow src dst .., .forked sz =>
    update M dst (clear (M src) fun va => ¬ pgrounddown va<sz)
  | .store a va b _, .ok => update M a (update (M a) va b)
  | .copyout a va buf .., .copied n => update M a fun va' =>
      if va≤va' ∧ va'<va+n then buf.getD (va'-va) 0 else M a va'
  | .allocuvm a oldsz newsz .., _ =>
    if newsz<kernbase ∧ oldsz≤newsz then update M a (clear (M a) (grown oldsz newsz))
    else M
  | .deallocuvm a oldsz newsz _, _ =>
    if newsz<oldsz then update M a (clear (M a) (grown newsz oldsz)) else M
  | _, _ => M

structure Paired where
  sys : Sys
  memory : Memory

def pairedStep (L : Layout) (p : Paired) (a : CowAction) : Option Paired :=
  (exec L p.sys a).map fun r => ⟨r.2,refStep p.memory a r.1⟩
def Paired.start (m : State) : Paired :=
  ⟨⟨⟨m,fun _ _ => none,fun _ _ => Pte.zero,fun _ _ => 0⟩,fun _ => none⟩,fun _ _ => 0⟩
def Sys.dirs (σ : Sys) : Set ℕ := { d | ∃ a sp,σ.space a=some sp ∧ sp.pgdir=d }

structure PairedInv (L : Layout) (p : Paired) : Prop where
  inv : UvmInv L p.sys.dirs [] p.sys.uvm
  excl : Excl p.sys.dirs p.sys.dirs p.sys.uvm
  inj : ∀ a b sp sp',p.sys.space a=some sp → p.sys.space b=some sp' → sp.pgdir=sp'.pgdir → a=b
  size : ∀ a sp,p.sys.space a=some sp → sp.vma.vmSize≤kernbase
  memory : ∀ a sp,p.sys.space a=some sp → ∀ va<kernbase,bytes p.sys.uvm sp.pgdir va=p.memory a va

section

variable {L : Layout} {p p' : Paired} {s : Uvm} {a : ℕ} {sp : Space} {σ : Sys} {D : Set ℕ}

lemma mem_dirs (h : σ.space a=some sp) : sp.pgdir ∈ σ.dirs := ⟨a,sp,h,rfl⟩
lemma set_space (σ : Sys) (a b : ℕ) (s : Uvm) (o : Option Space) :
    (σ.set a s o).space b=if b=a then o else σ.space b := update_apply ..

lemma dirs_set_same (h : σ.space a=some sp) (s : Uvm) (vma : AddressSpace) :
    (σ.set a s (some {sp with vma := vma})).dirs=σ.dirs := by
  ext d
  constructor
  · rintro ⟨b,sp',hb,rfl⟩
    rw [set_space] at hb
    split at hb
    · cases hb
      exact ⟨a,sp,h,rfl⟩
    · exact mem_dirs hb
  rintro ⟨b,sp',hb,rfl⟩
  by_cases he : b=a
  · subst he
    rw [h] at hb
    cases hb
    exact ⟨b,{sp with vma := vma},by rw [set_space,if_pos rfl],rfl⟩
  · exact ⟨b,sp',by rw [set_space,if_neg he]; exact hb,rfl⟩

lemma dirs_set_new (h : σ.space a=none) (s : Uvm) (sp : Space) :
    (σ.set a s (some sp)).dirs=insert sp.pgdir σ.dirs := by
  ext d
  constructor
  · rintro ⟨b,sp',hb,rfl⟩
    rw [set_space] at hb
    split at hb
    · cases hb
      exact .inl rfl
    · exact .inr (mem_dirs hb)
  rintro (rfl | ⟨b,sp',hb,rfl⟩)
  · exact ⟨a,sp,by rw [set_space,if_pos rfl],rfl⟩
  refine ⟨b,sp',?_,rfl⟩
  rw [set_space,if_neg]
  · exact hb
  · rintro rfl
    rw [h] at hb
    cases hb

lemma PairedInv.set (h : PairedInv L p) (sp' : Space)
    (hD : (p.sys.set a s (some sp')).dirs=D) (hi : UvmInv L D [] s) (hx : Excl D D s)
    (hsize : sp'.vma.vmSize≤kernbase) (m : ℕ → UInt8) (hself : ∀ va<kernbase,bytes s sp'.pgdir va=m va)
    (hne : ∀ b sp2,b≠a → p.sys.space b=some sp2 → sp2.pgdir≠sp'.pgdir)
    (hother : ∀ b sp2,b≠a → p.sys.space b=some sp2 → ∀ va<kernbase,
      bytes s sp2.pgdir va=bytes p.sys.uvm sp2.pgdir va) :
    PairedInv L ⟨p.sys.set a s (some sp'),update p.memory a m⟩ := by
  have hspace : ∀ b sp2,(p.sys.set a s (some sp')).space b=some sp2 →
      (b=a ∧ sp2=sp') ∨ (b≠a ∧ p.sys.space b=some sp2) := by
    intro b sp2 hb
    rw [set_space] at hb
    split at hb
    next he => exact .inl ⟨he,(some.inj hb).symm⟩
    next he => exact .inr ⟨he,hb⟩
  subst hD
  refine ⟨hi,hx,fun b b' sp1 sp2 h1 h2 he => ?_,fun b sp2 hb => ?_,fun b sp2 hb va hva => ?_⟩
  · rcases hspace b sp1 h1 with ⟨hb,rfl⟩ | ⟨hb,hb1⟩ <;>
      rcases hspace b' sp2 h2 with ⟨hb',rfl⟩ | ⟨hb',hb2⟩
    · exact hb.trans hb'.symm
    · exact absurd he.symm (hne b' sp2 hb' hb2)
    · exact absurd he (hne b sp1 hb hb1)
    · exact h.inj _ _ _ _ hb1 hb2 he
  · rcases hspace b sp2 hb with ⟨_,rfl⟩ | ⟨_,hb⟩
    · exact hsize
    · exact h.size b sp2 hb
  · dsimp only
    rcases hspace b sp2 hb with ⟨rfl,rfl⟩ | ⟨hba,hb⟩
    · rw [update_self]
      exact hself va hva
    · rw [update_of_ne hba,← h.memory b sp2 hb va hva]
      exact hother b sp2 hba hb va hva

lemma PairedInv.update (h : PairedInv L p) (hsp : p.sys.space a=some sp) (vma : AddressSpace)
    (hsize : vma.vmSize≤kernbase) (hi : UvmInv L p.sys.dirs [] s) (hx : Excl p.sys.dirs p.sys.dirs s) (m : ℕ → UInt8)
    (hself : ∀ va<kernbase,bytes s sp.pgdir va=m va)
    (hother : ∀ d∈p.sys.dirs,d≠sp.pgdir → ∀ va<kernbase,bytes s d va=bytes p.sys.uvm d va) :
    PairedInv L ⟨p.sys.set a s (some {sp with vma := vma}),update p.memory a m⟩ := by
  have hne : ∀ b sp2,b≠a → p.sys.space b=some sp2 → sp2.pgdir≠sp.pgdir :=
    fun b sp2 hb hb2 he => hb (h.inj _ _ _ _ hb2 hsp he)
  exact h.set _ (dirs_set_same hsp s vma) hi hx hsize m hself hne fun b sp2 hb hb2 =>
    hother _ (mem_dirs hb2) (hne b sp2 hb hb2)

lemma set_same (h : σ.space a=some sp) (s : Uvm) : {σ with uvm := s} = σ.set a s (some sp) := by
  rw [Sys.set,← h,update_eq_self]

lemma PairedInv.updateUvm (h : PairedInv L p) (hsp : p.sys.space a=some sp)
    (hi : UvmInv L p.sys.dirs [] s) (hx : Excl p.sys.dirs p.sys.dirs s) (m : ℕ → UInt8)
    (hself : ∀ va<kernbase,bytes s sp.pgdir va=m va)
    (hother : ∀ d∈p.sys.dirs,d≠sp.pgdir → ∀ va<kernbase,bytes s d va=bytes p.sys.uvm d va) :
    PairedInv L ⟨{p.sys with uvm := s},Function.update p.memory a m⟩ := by
  rw [set_same hsp]
  exact h.update hsp sp.vma (h.size a sp hsp) hi hx m hself hother

lemma PairedInv.keep (h : PairedInv L p) (hi : UvmInv L p.sys.dirs [] s)
    (hx : Excl p.sys.dirs p.sys.dirs s) (hs : SameBytes p.sys.dirs p.sys.uvm s) :
    PairedInv L ⟨{p.sys with uvm := s},p.memory⟩ := by
  refine ⟨hi,hx,h.inj,h.size,fun b sp' hb va hva => ?_⟩
  rw [← h.memory b sp' hb va hva]
  exact hs _ (mem_dirs hb) va hva

lemma PairedInv.add (h : PairedInv L p) (sp : Space) (hnone : p.sys.space a=none) (hd : sp.pgdir∉p.sys.dirs)
    (hsize : sp.vma.vmSize≤kernbase) (hi : UvmInv L (insert sp.pgdir p.sys.dirs) [] s)
    (hx : Excl (insert sp.pgdir p.sys.dirs) (insert sp.pgdir p.sys.dirs) s) (m : ℕ → UInt8)
    (hself : ∀ va<kernbase,bytes s sp.pgdir va=m va) (hother : SameBytes p.sys.dirs p.sys.uvm s) :
    PairedInv L ⟨p.sys.set a s (some sp),Function.update p.memory a m⟩ :=
  h.set sp (dirs_set_new hnone s sp) hi hx hsize m hself
    (fun _ _ _ hb2 => ne_of_mem_of_not_mem (mem_dirs hb2) hd) fun _ _ _ hb2 => hother _ (mem_dirs hb2)

lemma slots_insert_absent {d g : ℕ} {l : Slot} (hi : UvmInv L (insert d D) [] s)
    (habs : ∀ va<kernbase,(pteAt s d va).p=false) (hl : slots (insert d D) s l=some g) : slots D s l=some g := by
  obtain ⟨⟨d',hd',k,hk,hdir⟩,hp,hpa⟩:=slots_eq_some.mp hl
  rcases hd' with rfl | hd'
  · obtain ⟨_,rfl,va,hva,hsl⟩:=exists_slotAt (D := {d'}) ⟨d',rfl,k,hk,hdir⟩
    have := habs va hva
    rw [pteAt_of_slotAt hi (.inl rfl) hva hsl,hp] at this
    cases this
  · exact slots_eq_some.mpr ⟨⟨d',hd',k,hk,hdir⟩,hp,hpa⟩

variable {r : Outcome × Sys} {oldsz newsz n va : ℕ} {ok : Bool}

lemma create_inv (h : PairedInv L p) (hnone : p.sys.space a=none) (memOk : Bool)
    (c : Fin ncpu) (hr : createExec L p.sys a memOk c=some r) :
    PairedInv L ⟨r.2,refStep p.memory (.create a memOk c) r.1⟩ := by
  unfold createExec at hr
  by_cases hk : ¬ memOk=true
  · rw [if_pos hk] at hr
    cases hr
    exact h
  rw [if_neg hk] at hr
  obtain ⟨o,s,heq,hkeep,ho⟩:=h.inv.setupkvm c
  rw [heq,some_bind] at hr
  have hx : Excl p.sys.dirs p.sys.dirs s := hkeep.excl subset_rfl subset_rfl h.excl
  have hsame:=(hkeep.sameViews h.inv).sameBytes
  rcases ho with ⟨rfl,hi⟩ | ⟨d,rfl,hd,hi,habs⟩
  · cases hr
    exact h.keep hi hx hsame
  cases hr
  have hbytes : ∀ va<kernbase,bytes s d va=0 := fun va hva => by
    simp [bytes,view,Pte.frame,habs va hva]
  refine h.add ⟨d,addressSpaceCreate⟩ hnone hd (zero_le _) hi ?_ _ hbytes hsame
  intro l g hl hw
  obtain ⟨hcow,hone⟩:=hx l g (slots_insert_absent hi habs hl) hw
  exact ⟨hcow,fun l' hl' => hone l' (slots_insert_absent hi habs hl')⟩

lemma dupCow_inv {src dst : ℕ} (h : PairedInv L p) (hsp : p.sys.space src=some sp)
    (hnone : p.sys.space dst=none) (allocOk memOk : Bool) (c : Fin ncpu)
    (hr : dupCowExec L p.sys sp dst allocOk memOk c=some r) :
    PairedInv L ⟨r.2,refStep p.memory (.dupCow src dst allocOk memOk c) r.1⟩ := by
  unfold dupCowExec at hr
  by_cases hk : ¬ allocOk=true
  · rw [if_pos hk] at hr
    cases hr
    exact h
  rw [if_neg hk] at hr
  obtain ⟨o,s,heq,hviews,ho⟩ := h.inv.copyuvm h.excl (mem_dirs hsp) (h.size src sp hsp) c
  rw [heq,some_bind] at hr
  rcases ho with ⟨rfl,hi,hx⟩ | ⟨d,rfl,hd,hi,hx,hchild⟩
  · cases hr
    exact h.keep hi hx hviews.sameBytes
  dsimp only at hr
  cases hv : addressSpaceDupVmas true memOk sp.vma with
  | none =>
    rw [hv] at hr
    obtain ⟨s',heq',hi',hk'⟩:=hi.freevm hd c
    rw [heq',map_some] at hr
    cases hr
    have hsub : p.sys.dirs ⊆ insert d p.sys.dirs := Set.subset_insert ..
    refine h.keep hi' (hk'.excl subset_rfl subset_rfl (hx.mono hsub hsub)) ?_
    intro d' hd' va hva
    rw [bytes,bytes,hk'.view_of_subset hi hsub hd' hva,hviews d' hd' va hva]
  | some vma =>
    rw [hv] at hr
    cases hr
    have hsize : vma.vmSize=sp.vma.vmSize := by
      unfold addressSpaceDupVmas at hv
      simp only [not_true_eq_false,if_false] at hv
      split at hv
      · split at hv
        · cases hv
        · cases hv
          rfl
      · cases hv
        rfl
    refine h.add ⟨d,vma⟩ hnone hd (hsize ▸ h.size src sp hsp) hi hx _ (fun va hva => ?_) hviews.sameBytes
    rw [bytes,hchild va hva,clear,← h.memory src sp hsp va hva]
    by_cases hlt : pgrounddown va<sp.vma.vmSize
    · rw [if_pos hlt,if_neg (not_not.mpr hlt)]
      rfl
    · rw [if_neg hlt,if_pos hlt]
      rfl

lemma update_memory_self (M : Memory) (a : ℕ) : update M a (M a)=M := update_eq_self a M

lemma vmaExpand_size (ok : Bool) (vma : AddressSpace) (n : ℕ) :
    (vmaExpand ok vma n).2.vmSize=vma.vmSize ∨ (vmaExpand ok vma n).2.vmSize=n := by
  unfold vmaExpand
  split_ifs
  · exact .inl rfl
  · exact .inl rfl
  dsimp only
  split
  · split_ifs
    · exact .inl rfl
    · exact .inr rfl
  split_ifs
  · exact .inr rfl
  · exact .inl rfl
  · exact .inr rfl

lemma vmaShrink_size (vma : AddressSpace) (n : ℕ) : (vmaShrink vma n).2.vmSize≤vma.vmSize := by
  unfold vmaShrink
  split_ifs with h
  · exact le_rfl
  · exact le_rfl
  · exact not_lt.mp h

lemma allocVmas_size {vma : AddressSpace} {r : ℕ}
    (h : vma.vmSize≤kernbase) : (allocVmas vma oldsz newsz r ok).vmSize≤kernbase := by
  unfold allocVmas
  split_ifs with hbig
  · exact h
  · rw [not_or,not_le] at hbig
    rcases vmaExpand_size ok vma newsz with he | he
    · rw [he]
      exact h
    · rw [he]
      exact hbig.1.le
  · exact (vmaShrink_size vma oldsz).trans h

variable {c : Fin ncpu}

lemma allocuvm_inv (h : PairedInv L p) (hsp : p.sys.space a=some sp) (memOk : Bool)
    (hr : allocuvm L c p.sys.uvm sp.pgdir oldsz newsz=some (n,s)) (o : Outcome) :
    PairedInv L ⟨p.sys.set a s (some {sp with vma := allocVmas sp.vma oldsz newsz n memOk}),
      refStep p.memory (.allocuvm a oldsz newsz memOk c) o⟩ := by
  have hd:=mem_dirs hsp
  obtain ⟨hi,hcase⟩:=h.inv.allocuvm h.excl hd hr
  have hsize : (allocVmas sp.vma oldsz newsz n memOk).vmSize≤kernbase := allocVmas_size (h.size a sp hsp)
  dsimp only [refStep]
  rcases hcase with ⟨rfl,hno⟩ | ⟨hbig,hle,hg⟩
  · rw [if_neg hno,← update_memory_self p.memory a]
    exact h.update hsp _ hsize h.inv h.excl _ (h.memory a sp hsp) fun _ _ _ _ _ => rfl
  rw [if_pos ⟨hbig,hle⟩]
  refine h.update hsp _ hsize hi hg.excl _ (fun va hva => ?_) fun d' hd' hne va hva => ?_
  · rw [clear,← h.memory a sp hsp va hva]
    by_cases hr : grown oldsz newsz va
    · rw [if_pos hr,bytes]
      rcases hg.range with ⟨_,hz⟩ | ⟨_,hz⟩
      · rw [hz va hva hr,if_pos hr.1]
        rfl
      · rw [hz va hva hr]
        rfl
    · rw [if_neg hr,bytes,bytes,hg.other _ hd va hva (fun hc => hr hc.2)]
  · rw [bytes,bytes,hg.other d' hd' va hva (fun hc => hne hc.1)]

lemma deallocuvm_inv (h : PairedInv L p) (hsp : p.sys.space a=some sp) (hold : oldsz≤kernbase)
    (hr : deallocuvm L c p.sys.uvm sp.pgdir oldsz newsz=some (n,s)) (k : ℕ) (o : Outcome) :
    PairedInv L ⟨p.sys.set a s (some {sp with vma := (vmaShrink sp.vma k).2}),
      refStep p.memory (.deallocuvm a oldsz newsz c) o⟩ := by
  have hd:=mem_dirs hsp
  obtain ⟨n',s',heq,hi,hu⟩:=h.inv.deallocuvm hd oldsz newsz hold c
  rw [hr] at heq
  cases heq
  have hx:=hu.excl subset_rfl subset_rfl h.excl
  have hsize:=(vmaShrink_size sp.vma k).trans (h.size a sp hsp)
  dsimp only [refStep]
  by_cases hlt : newsz<oldsz
  · rw [if_pos hlt]
    refine h.update hsp _ hsize hi hx _ (fun va hva => ?_) fun d' hd' hne va hva => ?_
    · rw [clear,← h.memory a sp hsp va hva,bytes,bytes]
      by_cases hr : grown newsz oldsz va
      · rw [if_pos hr,(hu.view hd hva).1 ⟨rfl,hlt,hr⟩]
        rfl
      · rw [if_neg hr,(hu.view hd hva).2 (fun hc => hr hc.2.2)]
    · rw [bytes,bytes,(hu.view hd' hva).2 (fun hc => hne hc.1)]
  · rw [if_neg hlt,← update_memory_self p.memory a]
    refine h.update hsp _ hsize hi hx _ (fun va hva => ?_) fun d' hd' hne va hva => ?_
    · rw [← h.memory a sp hsp va hva,bytes,bytes,(hu.view hd hva).2 (fun hc => hlt hc.2.1)]
    · rw [bytes,bytes,(hu.view hd' hva).2 (fun hc => hne hc.1)]

lemma markPteu_keeps {s' : Uvm} {d : ℕ} {enabled : Bool} (h : UvmInv L D [] s)
    (hx : Excl D D s) (hd : d∈D) (hva : va<kernbase) (hr : markPteu s d va enabled=some s') :
    UvmInv L D [] s' ∧ Excl D D s' ∧ SameViews D s s' ∧
      ∀ va'<kernbase,va'/pgsize≠va/pgsize → pteAt s' d va'=pteAt s d va' := by
  unfold markPteu at hr
  rcases h.walkpgdir_cases hd hva with ⟨_,hw⟩ | ⟨l,hl,hw⟩
  · rw [hw] at hr
    cases hr
  rw [hw] at hr
  dsimp only at hr
  split at hr
  next =>
    cases hr
    refine ⟨h.setPte (hl.isTable hd hva) _ fun g => rfl,?_,
      sameViews_setPte h hd hva hl {s.entry l with u := enabled} rfl,fun va' hva' hne => ?_⟩
    · refine hx.setPte _ (fun ht hp hw => ?_) fun ht hp l' hne hl' => ?_
      · obtain ⟨hcow,hone⟩:=hx l _ (slots_eq_some.mpr ⟨ht,hp,rfl⟩) hw
        exact ⟨hcow,fun l' hne hl' => hne (hone l' hl')⟩
      · cases hw : (s.entry l').w with
        | false => rfl
        | true => exact absurd ((hx l' _ hl' hw).2 l (slots_eq_some.mpr ⟨ht,hp,rfl⟩)).symm hne
    · rw [pteAt_setPte h hd hva hd hva' hl,if_neg fun hc => hne hc.2]
  · cases hr

lemma markPteu_inv (h : PairedInv L p) (hsp : p.sys.space a=some sp)
    (hva : va<kernbase) (enabled : Bool) (hr : markPteu p.sys.uvm sp.pgdir va enabled=some s) :
    PairedInv L ⟨{p.sys with uvm := s},p.memory⟩ := by
  obtain ⟨hi,hx,hviews,-⟩:=markPteu_keeps h.inv h.excl (mem_dirs hsp) hva hr
  exact h.keep hi hx hviews.sameBytes

lemma set_none_space {b : ℕ} {sp' : Space} (hb : (σ.set a s none).space b=some sp') : b≠a ∧ σ.space b=some sp' := by
  rw [set_space] at hb
  split at hb
  · cases hb
  next he => exact ⟨he,hb⟩

lemma dirs_set_none (hinj : ∀ a b sp sp',σ.space a=some sp → σ.space b=some sp' →
    sp.pgdir=sp'.pgdir → a=b) (hsp : σ.space a=some sp) (s : Uvm) :
    sp.pgdir∉(σ.set a s none).dirs ∧ insert sp.pgdir (σ.set a s none).dirs=σ.dirs := by
  constructor
  · rintro ⟨b,sp',hb,he⟩
    obtain ⟨hne,hb⟩:=set_none_space hb
    exact hne (hinj _ _ _ _ hb hsp he)
  ext d
  constructor
  · rintro (rfl | ⟨b,sp',hb,rfl⟩)
    · exact mem_dirs hsp
    · exact mem_dirs (set_none_space hb).2
  rintro ⟨b,sp',hb,rfl⟩
  by_cases he : b=a
  · subst he
    rw [hsp] at hb
    cases hb
    exact .inl rfl
  · exact .inr ⟨b,sp',by rw [set_space,if_neg he]; exact hb,rfl⟩

section
variable (h : PairedInv L p) (hsp : p.sys.space a=some sp)
include h hsp

lemma destroy_inv (hr : freevm L c p.sys.uvm sp.pgdir=some s) : PairedInv L ⟨p.sys.set a s none,p.memory⟩ := by
  obtain ⟨hnot,hins⟩:=dirs_set_none h.inj hsp s
  have hsub : (p.sys.set a s none).dirs ⊆ p.sys.dirs := hins ▸ Set.subset_insert ..
  obtain ⟨s',heq,hi,hk⟩:=UvmInv.freevm (hins.symm ▸ h.inv) hnot c
  rw [hr] at heq
  cases heq
  refine ⟨hi,hk.excl subset_rfl subset_rfl (h.excl.mono hsub hsub),fun b b' sp1 sp2 h1 h2 he => ?_,
    fun b sp' hb => h.size b sp' (set_none_space hb).2,fun b sp' hb va hva => ?_⟩
  · exact h.inj _ _ _ _ (set_none_space h1).2 (set_none_space h2).2 he
  · rw [← h.memory b sp' (set_none_space hb).2 va hva]
    show bytes s sp'.pgdir va=bytes p.sys.uvm sp'.pgdir va
    rw [bytes,bytes,hk.view_of_subset h.inv hsub (mem_dirs hb) hva]

lemma store_inv (b : UInt8)
    (hr : userStore L c p.sys.uvm sp.pgdir va b=some (ok,s)) : PairedInv L ⟨{p.sys with uvm := s},
      refStep p.memory (.store a va b c) (if ok=true then .ok else .fail)⟩ := by
  have hd:=mem_dirs hsp
  obtain ⟨ok',s',heq,hi,hx,hb⟩:=h.inv.userStore h.excl hd va b c
  rw [hr] at heq
  cases heq
  cases ok with
  | false => exact h.keep hi hx fun d' hd' va' hva' => by simpa using hb d' hd' va' hva'
  | true =>
    refine h.updateUvm hsp hi hx _ (fun va' hva' => ?_) fun d' hd' hne va' hva' => ?_
    · rw [hb _ hd va' hva',update_apply,← h.memory a sp hsp va' hva']
      simp
    · rw [hb d' hd' va' hva',if_neg (fun hc => hne hc.2.1)]

lemma copyout_inv {buf : List UInt8} (current : Bool) {cur : Option AddressSpace}
    (hr : copyout L c p.sys.uvm cur sp.pgdir va buf=some ((ok,n),s)) :
    PairedInv L ⟨{p.sys with uvm := s},refStep p.memory (.copyout a va buf current c) (.copied n)⟩ := by
  have hd:=mem_dirs hsp
  obtain ⟨ok',n',s',heq,hi,hx,_,_,hc⟩ :=
    UvmInv.copyoutLoop cur hd c (buf.length+1) va buf h.inv h.excl (lt_succ_self _)
  rw [copyout,heq] at hr
  cases hr
  refine h.updateUvm hsp hi hx _ (fun va' hva' => ?_) fun d' hd' hne va' hva' => ?_
  · rw [hc _ hd va' hva',← h.memory a sp hsp va' hva']
    simp
  · rw [hc d' hd' va' hva',if_neg (fun hc => hne hc.1)]

end

lemma pairedStep_inv (p : Paired) (act : CowAction) (p' : Paired) (h : PairedInv L p)
    (hstep : pairedStep L p act=some p') : PairedInv L p' := by
  obtain ⟨r,hr,rfl⟩:=map_eq_some_iff.mp hstep
  cases act with
  | create a memOk c =>
    cases hsp : p.sys.space a with
    | some sp =>
      simp only [exec,hsp] at hr
      cases hr
    | none =>
      simp only [exec,hsp] at hr
      exact create_inv h hsp memOk c hr
  | dupCow src dst allocOk memOk c =>
    cases hsp : p.sys.space src with
    | none =>
      simp only [exec,hsp] at hr
      cases hr
    | some sp =>
      cases hdst : p.sys.space dst with
      | some sp' =>
        simp only [exec,hsp,hdst] at hr
        cases hr
      | none =>
        simp only [exec,hsp,hdst] at hr
        exact dupCow_inv h hsp hdst allocOk memOk c hr
  | store a va b c =>
    obtain ⟨sp,hsp,hr⟩:=bind_eq_some_iff.mp hr
    obtain ⟨⟨ok,s⟩,hs,hr⟩:=bind_eq_some_iff.mp hr
    cases hr
    exact store_inv h hsp b hs
  | copyout a va buf current c =>
    obtain ⟨sp,hsp,hr⟩:=bind_eq_some_iff.mp hr
    obtain ⟨⟨⟨ok,n⟩,s⟩,hs,hr⟩:=bind_eq_some_iff.mp hr
    cases hr
    exact copyout_inv h hsp current hs
  | allocuvm a oldsz newsz memOk c =>
    obtain ⟨sp,hsp,hr⟩:=bind_eq_some_iff.mp hr
    obtain ⟨⟨n,s⟩,hs,hr⟩:=bind_eq_some_iff.mp hr
    cases hr
    exact allocuvm_inv h hsp memOk hs _
  | deallocuvm a oldsz newsz c =>
    obtain ⟨sp,hsp,hr⟩:=bind_eq_some_iff.mp hr
    split at hr
    · cases hr
    rename_i hold
    obtain ⟨⟨n,s⟩,hs,hr⟩:=bind_eq_some_iff.mp hr
    cases hr
    exact deallocuvm_inv h hsp (not_lt.mp hold) hs _ _
  | mapZerofill a va writable c =>
    obtain ⟨sp,hsp,hr⟩:=bind_eq_some_iff.mp hr
    obtain ⟨⟨ok,s⟩,hs,hr⟩:=bind_eq_some_iff.mp hr
    cases hr
    obtain ⟨ok',s',heq,hi,hx,hb⟩:=h.inv.zerofillBytes h.excl (mem_dirs hsp) va writable c
    rw [hs] at heq
    cases heq
    exact h.keep hi hx hb
  | markPteu a va enabled =>
    obtain ⟨sp,hsp,hr⟩:=bind_eq_some_iff.mp hr
    split at hr
    · cases hr
    rename_i hva
    obtain ⟨s,hs,hr⟩:=bind_eq_some_iff.mp hr
    cases hr
    exact markPteu_inv h hsp (not_le.mp hva) enabled hs
  | setVmas a vma =>
    obtain ⟨sp,hsp,hr⟩:=bind_eq_some_iff.mp hr
    split at hr
    · cases hr
    rename_i hsize
    cases hr
    have hup:=h.update hsp vma (not_lt.mp hsize) h.inv h.excl _ (h.memory a sp hsp) fun _ _ _ _ _ => rfl
    rw [update_memory_self] at hup
    exact hup
  | destroy a c =>
    obtain ⟨sp,hsp,hr⟩:=bind_eq_some_iff.mp hr
    obtain ⟨s,hs,hr⟩:=bind_eq_some_iff.mp hr
    cases hr
    exact destroy_inv h hsp hs

lemma start_inv {m : State} (hm : Good L m) : PairedInv L (Paired.start m) := by
  have hno : ∀ d,d∉(Paired.start m).sys.dirs := by
    rintro d ⟨a,sp,h,_⟩
    cases h
  have hslots : ∀ l,slots (Paired.start m).sys.dirs (Paired.start m).sys.uvm l=none :=
    fun l => slots_of_not_isTable fun ⟨d,hd,_⟩ => hno d hd
  refine ⟨⟨hm,fun d hd => absurd hd (hno d),fun f ⟨d,hd,_⟩ => absurd hd (hno d),
    fun d hd => absurd hd (hno d),fun g hg => ?_⟩,fun l g hl => ?_,fun a b sp sp' h => ?_,
    fun a sp h => ?_,fun a sp h => ?_⟩
  · rw [count_nil,add_zero] at hg
    obtain ⟨l,hl⟩:=mapped_pos_iff.mp hg
    rw [hslots] at hl
    cases hl
  · rw [hslots] at hl
    cases hl
  · cases h
  · cases h
  · cases h

end

def Sys.mappings (σ : Sys) (g : ℕ) : Set (ℕ × ℕ) :=
  { x | ∃ sp,σ.space x.1=some sp ∧ x.2<kernbase/pgsize ∧ (pteAt σ.uvm sp.pgdir (x.2*pgsize)).frame=some g }

section

variable {L : Layout} {p : Paired} {g : ℕ}

lemma Pte.frame_eq_some {e : Pte} : e.frame=some g ↔ e.p=true ∧ e.pa=g := by
  unfold Pte.frame
  cases e.p <;> simp
lemma page_lt {k : ℕ} (hk : k<kernbase/pgsize) : k*pgsize<kernbase := by
  simp only [kernbase,pgsize] at *
  omega

lemma PairedInv.slot_of_mapping (h : PairedInv L p) {x : ℕ × ℕ} (hx : x∈p.sys.mappings g) :
    ∃ l : Slot,slots p.sys.dirs p.sys.uvm l=some g ∧
      ∃ sp,p.sys.space x.1=some sp ∧ SlotAt p.sys.uvm sp.pgdir (x.2*pgsize) l := by
  obtain ⟨sp,hsp,hk,hf⟩:=hx
  obtain ⟨hp,hpa⟩:=Pte.frame_eq_some.mp hf
  obtain ⟨l,hl,_,hsl⟩:=h.inv.slotAt_of_present (mem_dirs hsp) (page_lt hk) hp
  exact ⟨l,hpa ▸ hsl,sp,hsp,hl⟩

lemma PairedInv.ncard_mappings (h : PairedInv L p) (g : ℕ) :
    (p.sys.mappings g).ncard=mapped p.sys.dirs p.sys.uvm g := by
  rw [mapped,RefCount.refs_eq_ncard]
  refine Set.ncard_congr (fun x hx => (h.slot_of_mapping hx).choose) (fun x hx => ?_)
    (fun x y hx hy he => ?_) fun l hl => ?_
  · exact (h.slot_of_mapping hx).choose_spec.1
  · obtain ⟨_,sp,hsp,hl⟩:=(h.slot_of_mapping hx).choose_spec
    obtain ⟨_,sp',hsp',hl'⟩:=(h.slot_of_mapping hy).choose_spec
    rw [← he] at hl'
    obtain ⟨_,_,hkx,_⟩:=hx
    obtain ⟨_,_,hky,_⟩:=hy
    obtain ⟨hd,hpage⟩:=SlotAt.same_page h.inv hl hl' (mem_dirs hsp) (mem_dirs hsp') (page_lt hkx) (page_lt hky)
    have hpos : 0<pgsize := by decide
    rw [Nat.mul_div_cancel _ hpos,Nat.mul_div_cancel _ hpos] at hpage
    exact Prod.ext (h.inj _ _ _ _ hsp hsp' hd) hpage
  obtain ⟨ht,hp,hpa⟩:=slots_eq_some.mp hl
  obtain ⟨d,⟨a,sp,hsp,rfl⟩,va,hva,hsl⟩:=exists_slotAt ht
  have hk : va/pgsize<kernbase/pgsize := by
    simp only [kernbase,pgsize] at *
    omega
  have hsame : va/pgsize*pgsize/pgsize=va/pgsize := Nat.mul_div_cancel _ (by decide)
  have hsl':=hsl.of_same_page hva (page_lt hk) hsame
  have hx : (a,va/pgsize)∈p.sys.mappings g := by
    refine ⟨sp,hsp,hk,?_⟩
    rw [pteAt_of_slotAt h.inv (mem_dirs hsp) (page_lt hk) hsl',Pte.frame_eq_some]
    exact ⟨hp,hpa⟩
  refine ⟨_,hx,?_⟩
  obtain ⟨_,sp',hsp',hl'⟩:=(h.slot_of_mapping hx).choose_spec
  rw [hsp] at hsp'
  cases hsp'
  exact hl'.eq hsl'

end

/-- In every run, a load at a user address of an address space returns the byte of its
private memory; the reference count of a mapped frame is the number of present user entries
that map it; and no present entry is writable and copy-on-write. -/
theorem cow_isolation (L : Layout) (m : State) (hm : Good L m) (acts : List CowAction)
    (p : Paired) (h : run (pairedStep L) (Paired.start m) acts=some p) :
    (∀ a sp va b,p.sys.space a=some sp → va<kernbase → userLoad p.sys.uvm sp.pgdir va=some b → b=p.memory a va) ∧
    (∀ g,(p.sys.mappings g).Nonempty → kpageIsManaged p.sys.uvm.mem g=true ∧
      kpageRefcount p.sys.uvm.mem g=(p.sys.mappings g).ncard) ∧
    ∀ a sp va,p.sys.space a=some sp → va<kernbase → (pteAt p.sys.uvm sp.pgdir va).p=true →
      ¬ ((pteAt p.sys.uvm sp.pgdir va).w=true ∧ (pteAt p.sys.uvm sp.pgdir va).cow=true) := by
  have hinv : PairedInv L p := run_invariant pairedStep_inv (start_inv hm) h
  refine ⟨fun a sp va b hsp hva hload => ?_,fun g hne => ?_,fun a sp va hsp hva hp => ?_⟩
  · rw [← hinv.memory a sp hsp va hva]
    rcases hinv.inv.walkpgdir_cases (mem_dirs hsp) hva with ⟨_,hw⟩ | ⟨l,hl,hw⟩
    · simp only [userLoad,hw] at hload
      cases hload
    simp only [userLoad,hw] at hload
    split at hload
    next hpu =>
      cases hload
      have hp : (p.sys.uvm.entry l).p=true := hpu.1
      rw [bytes,view_of_entry hinv.inv (mem_dirs hsp) hva hl,Pte.frame,if_pos hp]
      rfl
    · cases hload
  · obtain ⟨x,hx⟩:=hne
    obtain ⟨l,hl,_⟩:=hinv.slot_of_mapping hx
    have hpos:=mapped_pos_iff.mpr ⟨l,hl⟩
    refine ⟨hinv.inv.isManaged hl,?_⟩
    have hrc:=(hinv.inv.user g (by omega)).2.1
    rw [count_nil,Nat.add_zero] at hrc
    rw [hinv.ncard_mappings,← hrc,Uvm.rc]
  · rintro ⟨hw,hcow⟩
    obtain ⟨l,_,he,hsl⟩:=hinv.inv.slotAt_of_present (mem_dirs hsp) hva hp
    have := (hinv.excl l _ hsl (by rw [he]; exact hw)).1
    rw [he,hcow] at this
    cases this

def freeMem (n : ℕ) : State :=
  { State.reset with
    kpgdir := true
    freelist := range' 8192 n
    totalPages := n
    freePages := n
    kmeta := fun r => if 8192≤r ∧ r<8192+n then ⟨0,true,true⟩ else ⟨0,false,false⟩ }

lemma freeMem_good {n : ℕ} (hn : n≤8192) : Good layout (freeMem n) := by
  have hman : ∀ r,((freeMem n).kmeta r).managed=true → 8192≤r ∧ r<8192+n := by
    intro r hr
    simp only [freeMem] at hr
    split at hr
    next h => exact h
    · cases hr
  have hocc : ∀ r,occ (freeMem n) r=if 8192≤r ∧ r<8192+n then 1 else 0 := by
    intro r
    have hcount : (range' 8192 n).count r=if 8192≤r ∧ r<8192+n then 1 else 0 := by
      split
      next h => exact count_eq_one_of_mem nodup_range' (by rw [mem_range'_1]; exact h)
      next h => exact count_eq_zero_of_not_mem (by rw [mem_range'_1]; exact h)
    simp [occ,freeMem,State.reset,hcount]
  refine ⟨⟨fun r hr => ?_,by simp [freeMem],fun r => ?_,fun r hr => ?_,by simp [freeMem,State.reset],
    by simp [freeMem,State.reset],by simp [freeMem,State.reset]⟩,?_⟩
  · have h:=hman r hr
    refine runptrValid_iff.mpr ⟨?_,?_⟩
    · have := layout.end_le
      simp only [pgsize,kernbase,bootEarlyPhystop] at *
      omega
    · simp only [pgsize,physTop]
      omega
  · rw [hocc]
    by_cases h : 8192≤r ∧ r<8192+n <;> simp [freeMem,h]
  · have h:=hman r hr
    simp [kpageRefcount,freeMem,State.reset,h]
  · simp [Counted,listed,freeMem,State.reset]

def smallMem : State := freeMem 16
lemma smallMem_good : Good layout smallMem := freeMem_good (by decide)

def forkTrace : List CowAction :=
  [.create 0 true bootCpu,.allocuvm 0 0 4096 true bootCpu,.store 0 100 7 bootCpu,
    .dupCow 0 1 true true bootCpu,.store 1 100 9 bootCpu,.store 0 101 5 bootCpu]

theorem cow_isolation_fork : ∃ p,run (pairedStep layout) (Paired.start smallMem) forkTrace=some p ∧
      ∃ sp sp',p.sys.space 0=some sp ∧ p.sys.space 1=some sp' ∧
        userLoad p.sys.uvm sp.pgdir 100=some 7 ∧ userLoad p.sys.uvm sp'.pgdir 100=some 9 ∧
        (7 : UInt8)=p.memory 0 100 ∧ (9 : UInt8)=p.memory 1 100 := by
  obtain ⟨p,hrun,sp,hsp,sp',hsp',hl,hl'⟩ : ∃ p,
      run (pairedStep layout) (Paired.start smallMem) forkTrace=some p ∧ ∃ sp,p.sys.space 0=some sp ∧
        ∃ sp',p.sys.space 1=some sp' ∧ userLoad p.sys.uvm sp.pgdir 100=some 7 ∧
          userLoad p.sys.uvm sp'.pgdir 100=some 9 := by
    decide +kernel
  have hiso:=(cow_isolation _ _ smallMem_good forkTrace p hrun).1
  exact ⟨p,hrun,sp,sp',hsp,hsp',hl,hl',hiso 0 sp 100 7 hsp (by decide) hl,hiso 1 sp' 100 9 hsp' (by decide) hl'⟩

/-- In every run a page directory or table is held once, and no user entry maps it. -/
theorem frames_owned (L : Layout) (m : State) (hm : Good L m) (acts : List CowAction) (p : Paired)
    (h : run (pairedStep L) (Paired.start m) acts=some p) : UvmInv L p.sys.dirs [] p.sys.uvm :=
  (run_invariant pairedStep_inv (start_inv hm) h).inv

theorem frames_owned_fork : ∃ p,run (pairedStep layout) (Paired.start smallMem) forkTrace=some p ∧
    UvmInv layout p.sys.dirs [] p.sys.uvm :=
  (isSome_iff_exists.mp (by decide +kernel)).imp fun _ h => ⟨h,frames_owned _ _ smallMem_good _ _ h⟩

end Auxv6.Vm

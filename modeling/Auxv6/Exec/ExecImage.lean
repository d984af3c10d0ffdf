import Auxv6.Exec.ArgImage
import Auxv6.Vm.Sbrk

/-!
# The outcome of exec

Until the commit only the new address space is touched.
-/

namespace Auxv6.Exec
open Machine Vm Lib Lib.Transition Option Nat List
open Mem (Layout State Good layout)

structure Building (L : Layout) (σ0 σ : Sys) (e : ℕ) (sp : Space) : Prop where
  space : σ.space e=some sp
  others : ∀ a,a≠e → σ.space a=σ0.space a
  inv : UvmInv L σ.dirs [] σ.uvm
  excl : Excl σ.dirs σ.dirs σ.uvm
  inj : ∀ a b sp sp',σ.space a=some sp → σ.space b=some sp' → sp.pgdir=sp'.pgdir → a=b

section

variable {L : Layout} {fs : FileSystem} {σ0 σ σ' : Sys} {e : ℕ} {sp : Space} {memOk : ℕ → Bool}
  {c : Fin ncpu} {s s' : Uvm} {k k' : Kernel}

lemma Building.setUvm (h : Building L σ0 σ e sp) (hi : UvmInv L σ.dirs [] s) (hx : Excl σ.dirs σ.dirs s) :
    Building L σ0 {σ with uvm := s} e sp := ⟨h.space,h.others,hi,hx,h.inj⟩

lemma Building.setVma (h : Building L σ0 σ e sp) (vma : AddressSpace) (hi : UvmInv L σ.dirs [] s)
    (hx : Excl σ.dirs σ.dirs s) : Building L σ0 (σ.set e s (some {sp with vma := vma})) e {sp with vma := vma} := by
  have hdirs:=dirs_set_same h.space s vma
  have hpgdir : ∀ a sp',(σ.set e s (some {sp with vma := vma})).space a=some sp' →
      ∃ sp0,σ.space a=some sp0 ∧ sp0.pgdir=sp'.pgdir := by
    intro a sp' ha
    rw [set_space] at ha
    split at ha
    next he =>
      cases ha
      exact ⟨sp,he ▸ h.space,rfl⟩
    · exact ⟨sp',ha,rfl⟩
  refine ⟨by rw [set_space,if_pos rfl],fun a ha => by rw [set_space,if_neg ha,h.others a ha],
    hdirs.symm ▸ hi,hdirs.symm ▸ hx,fun a b sp1 sp2 h1 h2 hp => ?_⟩
  obtain ⟨sp1',h1',hp1⟩:=hpgdir a sp1 h1
  obtain ⟨sp2',h2',hp2⟩:=hpgdir b sp2 h2
  exact h.inj a b sp1' sp2' h1' h2' (by rw [hp1,hp2,hp])

variable {ok : Bool} {ip sz : ℕ} {o : Option ℕ} {r : Int}

lemma mapSegmentPages_keeps {D : Set ℕ} {d : ℕ} {w : Bool} (pages : List ℕ) (h : UvmInv L D [] s)
    (hx : Excl D D s) (hd : d∈D) (hr : mapSegmentPages L d w c pages s=some (ok,s')) :
    UvmInv L D [] s' ∧ Excl D D s' := by
  induction pages generalizing s with
  | nil =>
    cases hr
    exact ⟨h,hx⟩
  | cons p rest ih =>
    obtain ⟨ok1,s1,heq,hi,hx1,-⟩:=h.zerofillBytes hx hd p w c
    rw [mapSegmentPages,heq,some_bind] at hr
    cases ok1 with
    | false =>
      cases hr
      exact ⟨hi,hx1⟩
    | true => exact ih hi hx1 hr

lemma execMapSegment_building {ph : Proghdr} {kmalloc : Bool} (h : Building L σ0 σ e sp)
    (hr : execMapSegment L σ e ph kmalloc c=some (ok,σ')) : ∃ sp',Building L σ0 σ' e sp' := by
  rw [execMapSegment,h.space,some_bind] at hr
  split at hr
  · cases hr
    exact ⟨sp,h⟩
  split at hr
  · cases hr
    exact ⟨sp,h⟩
  obtain ⟨⟨ok',s⟩,hs,hr⟩:=bind_eq_some_iff.mp hr
  cases hr
  obtain ⟨hi,hx⟩:=mapSegmentPages_keeps ph.pages h.inv h.excl (mem_dirs h.space) hs
  exact ⟨_,h.setVma _ hi hx⟩

lemma loadSegment_building {ph : Proghdr} {filesz : ℕ} {file : Reads} {kmalloc : Bool}
    (h : Building L σ0 σ e sp) (hr : loadSegment L σ e ph filesz file sz kmalloc c=some (o,σ')) :
    ∃ sp',Building L σ0 σ' e sp' := by
  unfold loadSegment at hr
  split at hr
  · cases hr
    exact ⟨sp,h⟩
  obtain ⟨⟨ok,σ1⟩,hs,hr⟩:=bind_eq_some_iff.mp hr
  obtain ⟨sp1,h1⟩:=execMapSegment_building h hs
  split at hr
  · cases hr
    exact ⟨sp1,h1⟩
  rw [h1.space,some_bind] at hr
  obtain ⟨⟨ok',s⟩,hs',hr⟩:=bind_eq_some_iff.mp hr
  obtain ⟨page,rfl⟩:=loaduvm_page hs'
  have h2:=h1.setUvm (h1.inv.setPages page) h1.excl
  split at hr <;> cases hr <;> exact ⟨sp1,h2⟩

variable {elf : Elfhdr}

lemma loadHeader_building {i : ℕ} (h : Building L σ0 σ e sp)
    (hr : loadHeader L fs e memOk c ip elf i sz σ=some (o,σ')) : ∃ sp',Building L σ0 σ' e sp' := by
  unfold loadHeader at hr
  split at hr
  · cases hr
    exact ⟨sp,h⟩
  dsimp only at hr
  split at hr
  · cases hr
    exact ⟨sp,h⟩
  · exact loadSegment_building h hr

lemma loadSegments_building (n i sz : ℕ) (h : Building L σ0 σ e sp)
    (hr : loadSegments L fs e memOk c ip elf n i sz σ=some (o,σ')) : ∃ sp',Building L σ0 σ' e sp' := by
  induction n generalizing i sz σ sp with
  | zero =>
    cases hr
    exact ⟨sp,h⟩
  | succ n ih =>
    obtain ⟨⟨o1,σ1⟩,hs,hr⟩:=bind_eq_some_iff.mp hr
    obtain ⟨sp1,h1⟩:=loadHeader_building h hs
    cases o1 with
    | none =>
      cases hr
      exact ⟨sp1,h1⟩
    | some sz => exact ih _ _ h1 hr

lemma mapStack_building {kmalloc : Bool} (h : Building L σ0 σ e sp)
    (hr : mapStack L σ e sz kmalloc c=some (o,σ')) : ∃ sp',σ'.space e=some sp' ∧
      (∀ a,a≠e → σ'.space a=σ0.space a) ∧ ∀ top,o=some top → (top<wordMod ∧ wordMod≤top+stackTotal) ∨
          (Building L σ0 σ' e sp' ∧ stackTotal≤top ∧ top<kernbase ∧
            Writable σ'.uvm sp'.pgdir (top-userStackPages*pgsize) top) := by
  have hbase : pgroundup sz%pgsize=0 := mul_mod_left ..
  have hlt : pgroundup sz<wordMod := (div_mul_le_self ..).trans_lt (mod_lt _ (by decide))
  unfold mapStack at hr
  dsimp only at hr
  generalize pgroundup sz=base at *
  generalize hadd : uintAdd base stackTotal=newsz at hr
  obtain ⟨⟨r,σ1⟩,halloc,hr⟩:=bind_eq_some_iff.mp hr
  rw [allocuvmAs,h.space,some_bind] at halloc
  obtain ⟨⟨r,s⟩,hs,heq⟩:=bind_eq_some_iff.mp halloc
  cases heq
  have hd:=mem_dirs h.space
  obtain ⟨hi,hg⟩:=h.inv.allocuvm h.excl hd hs
  have hx : Excl σ.dirs σ.dirs s := by
    rcases hg with ⟨rfl,-⟩ | ⟨-,-,hg⟩
    · exact h.excl
    · exact hg.excl
  have h1:=h.setVma (allocVmas sp.vma base newsz r kmalloc) hi hx
  split at hr
  · cases hr
    exact ⟨_,h1.space,h1.others,(fun top ht => by cases ht)⟩
  rename_i hz
  rw [h1.space,some_bind] at hr
  obtain ⟨s',hhide,hr⟩:=bind_eq_some_iff.mp hr
  cases hr
  replace hhide : hidePages sp.pgdir (hiddenStackPages (uintSub r stackTotal)) s=some s' := hhide
  refine ⟨_,h1.space,h1.others,fun top ht => ?_⟩
  cases ht
  rcases allocuvm_opens hd hbase h.inv hs hz with ⟨hwrap,rfl,-⟩ | ⟨hle,hk,rfl,hacc⟩
  · left
    refine ⟨hlt,?_⟩
    by_contra hno
    rw [uintAdd_of_lt (not_le.mp hno)] at hadd
    omega
  right
  have hnw : base+stackTotal<wordMod := by
    simp only [uintAdd,stackTotal,userStackGuardPages,userStackMaxPages,pgsize,wordMod,kernbase] at *
    omega
  rw [uintAdd_of_lt hnw] at hadd
  have htop : stackTotal≤base+stackTotal := le_add_left stackTotal base
  rw [← hadd,uintSub_of_le htop hnw] at hhide
  have hal : (base+stackTotal-userStackPages*pgsize)%pgsize=0 := by
    simp only [stackTotal,userStackGuardPages,userStackMaxPages,userStackPages,pgsize] at *
    omega
  have hbelow : ∀ p∈hiddenStackPages (base+stackTotal-stackTotal),p<base+stackTotal-userStackPages*pgsize := by
    intro p hp
    obtain ⟨g,hg,rfl⟩:=mem_map.mp hp
    rw [mem_range] at hg
    simp only [stackTotal,userStackGuardPages,userStackMaxPages,userStackPages,pgsize] at *
    omega
  obtain ⟨hi',hx',hpte⟩:=hidePages_keeps _ h1.inv h1.excl (mem_dirs h1.space) hal hbelow hhide
  refine ⟨h1.setUvm hi' hx',by omega,hk,fun va hlo hhi => ?_⟩
  rw [hpte va (by omega) (by rw [hadd]; exact hlo)]
  refine hacc va ?_ hhi
  simp only [← hadd,stackTotal,userStackGuardPages,userStackMaxPages,userStackPages,pgsize] at hlo
  omega

def ExecDone (k' : Kernel) (args : List CStr) : Prop :=
  ∃ sp,k'.sys.space k'.proc.image.addrsp=some sp ∧ ∃ argv envp ptrs,
    ArgImage (userLoad k'.sys.uvm sp.pgdir) k'.proc.image.stackBot k'.proc.image.stackTop
      k'.proc.tf.esp.toNat argv envp args ptrs

structure ExecFailed (k k' : Kernel) : Prop where
  proc : k'.proc=k.proc
  ref : k'.ref=k.ref
  space : k'.sys.space=k.sys.space

lemma ExecFailed.refl (k : Kernel) : ExecFailed k k := ⟨rfl,rfl,rfl⟩

lemma createExec_building {p : Paired} {kmalloc : Bool} {o : Outcome} (h : PairedInv L p)
    (hnone : p.sys.space e=none) (hr : createExec L p.sys e kmalloc c=some (o,σ)) :
    (o=.fail ∧ σ.space=p.sys.space) ∨ o=.ok ∧ ∃ sp,Building L p.sys σ e sp := by
  have hinv:=create_inv h hnone kmalloc c hr
  unfold createExec at hr
  split at hr
  · cases hr
    exact .inl ⟨rfl,rfl⟩
  obtain ⟨⟨_ | d,s⟩,-,hr⟩:=bind_eq_some_iff.mp hr
  · cases hr
    exact .inl ⟨rfl,rfl⟩
  · cases hr
    refine .inr ⟨rfl,_,⟨by rw [set_space,if_pos rfl],fun a ha => by rw [set_space,if_neg ha],
      hinv.inv,hinv.excl,hinv.inj⟩⟩

lemma execBad_failed (hnone : k.sys.space e=none) (hothers : ∀ a,a≠e → σ.space a=k.sys.space a)
    (hr : execBad L e c k σ=some (r,k')) : r = -1 ∧ ExecFailed k k' := by
  obtain ⟨σ',hs,heq⟩:=map_eq_some_iff.mp hr
  cases heq
  obtain ⟨sp,-,hs⟩:=bind_eq_some_iff.mp hs
  obtain ⟨s,-,hs⟩:=bind_eq_some_iff.mp hs
  cases hs
  refine ⟨rfl,rfl,rfl,funext fun a => ?_⟩
  rw [set_space]
  split
  next he => rw [he,hnone]
  next he => exact hothers a he

variable {args : List CStr}

lemma commitProc_done {path : CStr} {esp : ℕ}
    (hnone : k.sys.space e=none) (h : Building L k.sys σ e sp) (hsz : userStackPages*pgsize<sz)
    (hk : sz<kernbase) (hesp : esp<kernbase) (himg : ∃ argv envp ptrs,
      ArgImage (userLoad σ.uvm sp.pgdir) (sz-userStackPages*pgsize) sz esp argv envp args ptrs)
    (hr : commitProc L e c k σ path elf sz esp=some (r,k')) : r=0 ∧ ExecDone k' args := by
  obtain ⟨old,hold,hr⟩:=bind_eq_some_iff.mp hr
  obtain ⟨o,hs,hr⟩:=bind_eq_some_iff.mp hr
  obtain ⟨σ',hdrop,heq⟩:=bind_eq_some_iff.mp hs
  cases heq
  have hne : k.proc.image.addrsp≠e := by
    rintro he
    rw [he,hnone] at hold
    cases hold
  obtain ⟨sp',hsp',hs⟩:=bind_eq_some_iff.mp hdrop
  obtain ⟨s,hfree,hs⟩:=bind_eq_some_iff.mp hs
  cases hs
  obtain ⟨hnot,hins⟩:=dirs_set_none h.inj hsp' s
  have hnew : (σ.set k.proc.image.addrsp s none).space e=some sp := by
    rw [set_space,if_neg hne.symm]
    exact h.space
  obtain ⟨s',heq,-,hkeeps⟩:=UvmInv.freevm (hins.symm ▸ h.inv) hnot c
  rw [hfree] at heq
  cases heq
  have hload : ∀ va<kernbase,userLoad s sp.pgdir va=userLoad σ.uvm sp.pgdir va := fun va hva =>
    by rw [userLoad_eq,userLoad_eq,hkeeps.pte _ (mem_dirs hnew) va hva,
      hkeeps.view_of_subset h.inv (hins ▸ Set.subset_insert ..) (mem_dirs hnew) hva]
  cases hr
  refine ⟨rfl,sp,hnew,?_⟩
  obtain ⟨argv,envp,ptrs,himg⟩:=himg
  refine ⟨argv,envp,ptrs,?_⟩
  have hbot : uintSub sz (userStackPages*pgsize)=sz-userStackPages*pgsize :=
    uintSub_of_le hsz.le (by simp only [kernbase,wordMod] at *; omega)
  have hword : (BitVec.ofNat 32 esp).toNat=esp := by
    rw [BitVec.toNat_ofNat,mod_eq_of_lt]
    simp only [kernbase] at hesp
    omega
  rw [hbot,hword]
  exact himg.congr hk.le fun va hva => hload va hva

lemma execElf_spec {p : Paired} {path : CStr} (h : PairedInv L p) (hk : k.sys=p.sys)
    (hr : execElf L fs e memOk c k ip elf path args=some (r,k')) :
    (r=0 ∧ ExecDone k' args) ∨ (r = -1 ∧ ExecFailed k k') := by
  unfold execElf at hr
  rw [hk] at hr
  cases hnone : p.sys.space e with
  | some sp =>
    rw [hnone] at hr
    cases hr
  | none =>
    rw [hnone] at hr
    obtain ⟨⟨o,σ1⟩,hcreate,hr⟩:=bind_eq_some_iff.mp hr
    rcases createExec_building h hnone hcreate with ⟨rfl,hsame⟩ | ⟨rfl,sp1,h1⟩
    · cases hr
      exact .inr ⟨rfl,rfl,rfl,hsame.trans (congrArg Sys.space hk).symm⟩
    rw [← hk] at hnone h1
    obtain ⟨⟨o2,σ2⟩,hload,hr⟩:=bind_eq_some_iff.mp hr
    obtain ⟨sp2,h2⟩:=loadSegments_building _ _ _ h1 hload
    cases o2 with
    | none => exact .inr (execBad_failed hnone h2.others hr)
    | some sz =>
      obtain ⟨⟨o3,σ3⟩,hstack,hr⟩:=bind_eq_some_iff.mp hr
      obtain ⟨sp3,hsp3,hothers,hopen⟩:=mapStack_building h2 hstack
      cases o3 with
      | none => exact .inr (execBad_failed hnone hothers hr)
      | some top =>
        dsimp only at hr
        rw [hsp3,some_bind] at hr
        obtain ⟨⟨o4,s⟩,hpush,hr⟩:=bind_eq_some_iff.mp hr
        cases o4 with
        | none => exact .inr (execBad_failed (σ := {σ3 with uvm := s}) hnone hothers hr)
        | some esp =>
          rcases hopen top rfl with ⟨hlt,hwrap⟩ | ⟨h3,htop,hkb,hacc⟩
          · -- the stack has wrapped, so the copy of the arguments cannot have succeeded
            have hfar : kernbase+3*pgsize+stackTotal≤wordMod := by decide
            have hlow:=pushImage_low (by omega) hlt hpush
            omega
          have hinit : userStackPages*pgsize<stackTotal := by decide
          have hroom:=hinit.trans_le htop
          obtain ⟨hi,hx,hesp,himg⟩ := pushImage_spec h3.inv h3.excl (mem_dirs h3.space) hacc hroom hkb hpush
          exact .inl (commitProc_done hnone (h3.setUvm hi hx) hroom hkb hesp himg hr)

lemma execInternal_cases (depth : ℕ) (path : CStr) (args : List CStr)
    (hr : execInternal L fs e memOk c k depth path args=some (r,k')) :
    (r = -1 ∧ k'=k) ∨ ∃ ip elf,execElf L fs e memOk c k ip elf (execTarget fs depth path args).1
      (execTarget fs depth path args).2=some (r,k') := by
  induction depth generalizing path args with
  | zero =>
    unfold execInternal at hr
    split at hr
    · cases hr
      exact .inl ⟨rfl,rfl⟩
    split at hr
    · cases hr
      exact .inl ⟨rfl,rfl⟩
    split at hr
    · cases hr
      exact .inl ⟨rfl,rfl⟩
    split at hr
    · cases hr
      exact .inl ⟨rfl,rfl⟩
    · exact .inr ⟨_,_,hr⟩
  | succ depth ih =>
    unfold execInternal at hr
    split at hr
    · cases hr
      exact .inl ⟨rfl,rfl⟩
    rename_i ip hip
    split at hr
    · cases hr
      exact .inl ⟨rfl,rfl⟩
    split at hr
    · cases hr
      exact .inl ⟨rfl,rfl⟩
    rename_i bs hbs
    rw [execTarget,hip]
    dsimp only
    rw [hbs]
    dsimp only
    split at hr
    next hmagic =>
      rw [if_neg hmagic]
      dsimp only at hr
      split at hr
      · cases hr
        exact .inl ⟨rfl,rfl⟩
      next interp scriptArgv hscript => exact ih _ _ hr
    next hmagic =>
      rw [if_pos (not_not.mp hmagic)]
      exact .inr ⟨_,_,hr⟩

end

/-- In every state of every run, for every path and arguments: `exec` either returns 0 and the
process finds the arguments on its new stack, or it returns -1 and has changed nothing of it. -/
theorem exec_argument_image (L : Layout) (m : State) (hm : Good L m) (acts : List CowAction)
    (p : Paired) (hrun : run (pairedStep L) (Paired.start m) acts=some p) (fs : FileSystem)
    (proc : Proc) (ref : File.FileId → ℕ) (path : CStr) (argv : List CStr) (e : ℕ) (memOk : ℕ → Bool)
    (c : Fin ncpu) (r : Int) (k' : Kernel) (hexec : exec L fs e memOk c ⟨p.sys,proc,ref⟩ path argv=some (r,k')) :
    (r=0 ∧ ExecDone k' (execTarget fs execShebangMaxDepth path argv).2) ∨
      (r = -1 ∧ ExecFailed ⟨p.sys,proc,ref⟩ k') := by
  have hinv : PairedInv L p := run_invariant pairedStep_inv (start_inv hm) hrun
  rcases execInternal_cases _ _ _ hexec with ⟨rfl,rfl⟩ | ⟨ip,elf,helf⟩
  · exact .inr ⟨rfl,.refl _⟩
  · exact execElf_spec hinv rfl helf

def emptyProgram : List UInt8 := [0x7f,0x45,0x4c,0x46]++replicate 20 0++[0,0x10,0,0]++replicate 24 0

def oneFile (file : List UInt8) : FileSystem where
  namei _ := some 0
  access _ := true
  file _ := ⟨fun off n => some ((file.drop off).take n),fun _ _ _ h => by
    cases h
    exact length_take_le ..⟩

def freshProc : Proc := ⟨⟨0,0,0,0⟩,⟨0,0,0,0,0,0,0,0,0,0⟩,[],none⟩

def twoArgs : List CStr := [⟨[97],by decide⟩,⟨[98,99],by decide⟩]

theorem exec_argument_image_two : ∃ p k',
    run (pairedStep layout) (Paired.start (freeMem 80)) [.create 0 true bootCpu]=some p ∧
      exec layout (oneFile emptyProgram) 1 (fun _ => true) bootCpu ⟨p.sys,freshProc,fun _ => 0⟩
        ⟨[47,97],by decide⟩ twoArgs=some (0,k') ∧ ExecDone k' twoArgs := by
  obtain ⟨p,hp,⟨r,k'⟩,hexec,hr⟩ : ∃ p,
      run (pairedStep layout) (Paired.start (freeMem 80)) [.create 0 true bootCpu]=some p ∧
        ∃ r,exec layout (oneFile emptyProgram) 1 (fun _ => true) bootCpu ⟨p.sys,freshProc,fun _ => 0⟩
          ⟨[47,97],by decide⟩ twoArgs=some r ∧ r.1=0 := by
    decide +kernel
  cases hr
  refine ⟨p,k',hp,hexec,?_⟩
  rcases exec_argument_image _ _ (freeMem_good (by decide)) _ p hp _ _ _ _ _ _ _ _ _ _ hexec with
    ⟨-,hdone⟩ | ⟨hc,-⟩
  · exact hdone
  · cases hc

end Auxv6.Exec

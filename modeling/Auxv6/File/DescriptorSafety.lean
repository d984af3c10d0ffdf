import Mathlib.Algebra.BigOperators.Group.Finset.Basic
import Mathlib.Order.Bounds.Basic
import Auxv6.File.DescriptorCalls

/-! # Descriptor tables over every run -/

namespace Auxv6.File
open Lib Function Finset Transition File

def Proc.count : Option Proc → FileId → ℕ
  | some pr, f => pr.table.count f
  | none, _ => 0

structure SysInv (s : System) : Prop where
  tables : ∀ p pr,s.proc p=some pr → TableInv pr.table
  ref : ∀ f,s.ref f = ∑ p,Proc.count (s.proc p) f+s.inflight f

def System.others (s : System) (p : Pid) (f : FileId) : ℕ :=
  ∑ q∈Finset.univ.erase p,Proc.count (s.proc q) f+s.inflight f

variable {s t : System} {p : Pid}

lemma sum_count (s : System) (p : Pid) (f : FileId) :
    ∑ q,Proc.count (s.proc q) f+s.inflight f=s.others p f+Proc.count (s.proc p) f := by
  rw [← add_sum_erase _ _ (mem_univ p)]
  unfold System.others
  omega

lemma others_update (s : System) (p : Pid) (o : Option Proc) (ref : FileId → ℕ) :
    System.others {s with proc := update s.proc p o,ref := ref} p=s.others p := by
  funext f
  unfold System.others
  congr 1
  refine sum_congr rfl fun q hq => ?_
  exact congrArg (Proc.count · f) (update_of_ne (ne_of_mem_erase hq) ..)

lemma SysInv.ctx (h : SysInv s) {pr : Proc} (hp : s.proc p=some pr) : CtxInv (s.others p) ⟨pr.table,s.ref⟩ := by
  refine ⟨h.tables p pr hp,fun f => ?_⟩
  have hf:=h.ref f
  rw [sum_count s p f,hp] at hf
  exact hf

lemma SysInv.setProc (h : SysInv s) {o : Option Proc} {ref : FileId → ℕ}
    (htable : ∀ pr,o=some pr → TableInv pr.table) (href : ∀ f,ref f=s.others p f+Proc.count o f) :
    SysInv {s with proc := update s.proc p o,ref := ref} := by
  refine ⟨fun q pr hq => ?_,fun f => ?_⟩
  · have hq : update s.proc p o q=some pr := hq
    by_cases hqp : q=p
    · subst hqp
      rw [update_self] at hq
      exact htable pr hq
    · rw [update_of_ne hqp] at hq
      exact h.tables q pr hq
  · rw [sum_count _ p f,others_update]
    show ref f=s.others p f+Proc.count (update s.proc p o p) f
    rw [update_self]
    exact href f

lemma SysInv.call (h : SysInv s) {f : Proc → Ctx} (hf : ∀ pr,s.proc p=some pr → CtxInv (s.others p) (f pr))
    (hs : s.call p f=some t) : SysInv t := by
  unfold System.call at hs
  split at hs
  next => cases hs
  next pr hp =>
    cases hs
    refine h.setProc (fun pr' hpr => ?_) (hf pr hp).ref
    cases hpr
    exact (hf pr hp).table

def Sound (s : System) : Action → Prop
  | .dup2 p _ newfd _ => ∀ pr,s.proc p=some pr →
      pr.table.get newfd.toNat=none ∨ ∃ j,newfd.toNat<j ∧ pr.table.get j≠none
  | .exec p => ∀ pr,s.proc p=some pr → ∀ i<pr.table.nextFdHint,pr.table.flag i=false
  | .fork p _ mem => ∀ pr,s.proc p=some pr → ∀ page,mem=some page →
      ∀ i,288 ≤ i → i<pr.table.capacity → page.entries i=none ∧ page.fdflags i=false
  | _ => True

lemma SysInv.ref_pos (h : SysInv s) {pr : Proc} (hp : s.proc p=some pr) {i : ℕ} {f : FileId}
    (hi : pr.table.get i=some f) : ¬ s.ref f<1 :=
  (h.ctx hp).ref.ref_pos ((lt_of_get hi).trans_le (h.tables p pr hp).cap_le) hi

lemma SysInv.fork (h : SysInv s) {child : Pid} {mem : Option Page} (hok : Sound s (.fork p child mem))
    (hs : step s (.fork p child mem)=some t) : SysInv t ∧ ∀ pr ch,s.proc p=some pr →
      t.proc child=some ch → ch.table.get=pr.table.get ∧ ch.table.flag=pr.table.flag := by
  simp only [step] at hs
  split at hs
  next pr hp hc =>
    split at hs
    next =>
      cases hs
      exact ⟨h,fun _ ch _ hch => by rw [hc] at hch; cases hch⟩
    rename_i c hdup
    cases hs
    obtain ⟨hctx,hget,hflag⟩:=fdtableDup_spec (h.tables p pr hp) (fun i f hi => h.ref_pos hp hi) (hok pr hp) hdup
    have hothers : s.others child=s.ref := by
      funext f
      rw [h.ref f,sum_count s child f,hc]
      rfl
    refine ⟨h.setProc (fun pr' hpr => ?_) fun f => ?_,fun pr' ch hpr hch => ?_⟩
    · cases hpr
      exact hctx.table
    · rw [hothers]
      exact hctx.ref f
    rw [hp] at hpr
    cases hpr
    have hch : update s.proc child _ child=some ch := hch
    rw [update_self] at hch
    cases hch
    exact ⟨hget,hflag⟩
  next => cases hs

lemma SysInv.step (h : SysInv s) {a : Action} (hok : Sound s a) (hs : File.step s a=some t) : SysInv t := by
  cases a with
  | open_ p f mem =>
    simp only [File.step] at hs
    split_ifs at hs with hf
    exact h.call (fun pr hp => (h.ctx hp).sysOpen hf _ _) hs
  | close p fd => exact h.call (fun pr hp => (h.ctx hp).sysClose fd) hs
  | dup p fd mem => exact h.call (fun pr hp => (h.ctx hp).sysDup fd _ _) hs
  | dup2 p oldfd newfd mem =>
    exact h.call (fun pr hp => (h.ctx hp).sysDup2 oldfd newfd _ _ (hok pr hp)) hs
  | dupfd p fd arg cloexec mem => exact h.call (fun pr hp => (h.ctx hp).sysDupfd fd arg _ _ _) hs
  | setfd p fd cloexec => exact h.call (fun pr hp => (h.ctx hp).sysSetfd fd cloexec) hs
  | fork p child mem => exact (h.fork hok hs).1
  | exec p => exact h.call (fun pr hp => (h.ctx hp).execClose (hok pr hp)) hs
  | setrlimit p cur max =>
    simp only [File.step] at hs
    split at hs
    next => cases hs
    next pr hp =>
      cases hs
      have htable : (setrlimit pr cur max).table=pr.table := by
        unfold setrlimit
        split_ifs <;> rfl
      refine h.setProc (fun pr' hpr => ?_) fun f => ?_
      · cases hpr
        rw [htable]
        exact h.tables p pr hp
      · rw [Proc.count,htable]
        exact (h.ctx hp).ref f
  | exit p =>
    simp only [File.step] at hs
    split at hs
    next => cases hs
    next pr hp =>
      cases hs
      refine h.setProc (fun pr' hpr => (by cases hpr)) fun f => ?_
      rw [(h.ctx hp).fdtableFree]
      rfl
  | hold f =>
    simp only [File.step] at hs
    split_ifs at hs with hf
    cases hs
    refine ⟨h.tables,fun g => ?_⟩
    have hg:=h.ref g
    show filedup s.ref f g = ∑ p,Proc.count (s.proc p) g+update s.inflight f (s.inflight f+1) g
    unfold filedup
    rw [if_neg (by omega),update_apply,update_apply]
    split_ifs with hgf
    · subst hgf
      omega
    · exact hg
  | unhold f =>
    simp only [File.step] at hs
    split_ifs at hs with hf
    cases hs
    refine ⟨h.tables,fun g => ?_⟩
    have hg:=h.ref g
    have hpos : ¬ s.ref f<1 := by
      rw [h.ref f]
      omega
    show fileclose s.ref f g = ∑ p,Proc.count (s.proc p) g+update s.inflight f (s.inflight f-1) g
    unfold fileclose
    rw [if_neg hpos,update_apply,update_apply]
    split_ifs with hgf
    · subst hgf
      omega
    · exact hg

lemma fdtableInit_get (i : ℕ) : fdtableInit.get i=none := by
  unfold Fdtable.get
  split_ifs <;> rfl

lemma boot_sysInv : SysInv boot := by
  refine ⟨fun p pr hp => ?_,fun f => ?_⟩
  · unfold boot at hp
    dsimp only at hp
    split_ifs at hp
    cases hp
    refine ⟨Nat.zero_le _,le_rfl,by decide,fun _ _ _ => rfl,fun _ hi => (Nat.not_lt_zero _ hi).elim,fun i _ => ?_⟩
    unfold Fdtable.flag
    split_ifs <;> rfl
  have hnone : fdtableInit.count f=0 := by
    unfold Fdtable.count
    rw [RefCount.refs_eq_zero_iff]
    intro i
    rw [fdtableInit_get]
    exact nofun
  have hempty : ∀ p,Proc.count (boot.proc p) f=0 := by
    intro p
    unfold boot
    dsimp only
    split_ifs
    · unfold Proc.count
      exact hnone
    · unfold Proc.count
      rfl
  rw [sum_eq_zero fun p _ => hempty p]
  rfl

structure FdSafe (s : System) : Prop where
  nfds_le : ∀ p pr,s.proc p=some pr → pr.table.nfds≤pr.table.capacity
  null : ∀ p pr,s.proc p=some pr → ∀ i,pr.table.nfds ≤ i → i<pr.table.capacity → pr.table.entries i=none
  ref : ∀ f,s.ref f = ∑ p,Proc.count (s.proc p) f+s.inflight f
  lowest : ∀ p pr f mem,s.proc p=some pr → (∀ k,(mem k).isSome) → ∀ fd,
    IsLeast { i | i<pr.fdLimit ∧ pr.table.get i=none } fd → (pr.table.fdalloc f pr.fdLimit mem).2=some fd

lemma fdalloc_lowest {ft : Fdtable} (h : TableInv ft) (f : FileId) {limit : ℕ}
    (hlimit : limit≤nofileHard) {mem : ℕ → Option Page} (hmem : ∀ k,(mem k).isSome) {fd : ℕ}
    (hfd : IsLeast { i | i<limit ∧ ft.get i=none } fd) : (ft.fdalloc f limit mem).2=some fd := by
  obtain ⟨_,hnone,hsome⟩:=fdalloc_spec h f limit mem
  obtain ⟨⟨hlt,hfree⟩,hleast⟩:=hfd
  cases hr : (ft.fdalloc f limit mem).2 with
  | none => exact absurd hfree ((hnone hr).2 (grow_succeeds h hmem hlimit) fd hlt)
  | some r =>
    obtain ⟨hrlt,hrfree,hbelow,_⟩:=hsome r hr
    have hle : fd≤r := hleast ⟨hrlt,hrfree⟩
    have hge : ¬ fd<r := fun hfr => hbelow fd hfr hfree
    rw [show r=fd by omega]

lemma SysInv.safe (h : SysInv s) : FdSafe s :=
  ⟨fun p pr hp => (h.tables p pr hp).nfds_le,fun p pr hp => (h.tables p pr hp).null,h.ref,
    fun p pr f _ hp hmem _ hfd => fdalloc_lowest (h.tables p pr hp) f
      (by unfold Proc.fdLimit; split_ifs <;> omega) hmem hfd⟩

/-- Over every run from boot whose calls meet the condition. -/
theorem descriptors_safe {as : List Action} (hok : Guarded step Sound boot as) (hrun : run step boot as=some s) :
    FdSafe s ∧ ∀ p child mem t,Sound s (.fork p child mem) → step s (.fork p child mem)=some t →
      ∀ pr ch,s.proc p=some pr → t.proc child=some ch → ch.table.get=pr.table.get ∧ ch.table.flag=pr.table.flag := by
  have h : SysInv s := run_guarded (fun _ _ _ h hok hs => h.step hok hs) boot_sysInv hok hrun
  exact ⟨h.safe,fun _ _ _ _ hok hs => (h.fork hok hs).2⟩

def init0 : Pid := ⟨0,Process.nproc_pos⟩
def emptyPage : Page := ⟨fun _ => none,fun _ => false⟩
def openTwo : List Action :=
  [.open_ init0 1 fun _ => some emptyPage,.open_ init0 2 fun _ => some emptyPage,.dup init0 0 fun _ => some emptyPage]

theorem descriptors_safe_open : ∃ s,run step boot openTwo=some s ∧ s.ref 1=2 ∧ s.ref 2=1 ∧ FdSafe s := by
  obtain ⟨s,hs,h1,h2⟩ : ∃ s,run step boot openTwo=some s ∧ s.ref 1=2 ∧ s.ref 2=1 := by
    decide +kernel
  have hok : Guarded step Sound boot openTwo := ⟨trivial,fun _ _ => ⟨trivial,fun _ _ => ⟨trivial,fun _ _ => trivial⟩⟩⟩
  exact ⟨s,hs,h1,h2,(descriptors_safe hok hs).1⟩

/-- `dup2` onto the highest open descriptor: `fd_clear` trims the high-water mark below it, and
the new entry stands above the mark. -/
theorem dup2_leaves_entry_above_nfds : ∃ s pr,run step boot
      [.open_ init0 1 fun _ => some emptyPage,.open_ init0 2 fun _ => some emptyPage,
        .dup2 init0 0 1 fun _ => some emptyPage]=some s ∧
    s.proc init0=some pr ∧ pr.table.nfds≤1 ∧ 1<pr.table.capacity ∧ pr.table.entries 1=some 1 := by
  simp only [exists_and_left]
  decide +kernel

end Auxv6.File

import Auxv6.Process.PidInvariant

/-!
# The fast path of waitpid

For `pid > 0`, `proc_waitpid` stops at the first slot that carries the pid, whatever its state and parent.
-/

namespace Auxv6.Process
open Machine Lib Lib.Transition List Transition

variable {idx : Chan → ℕ} {s t : State} {c : ℕ} {p cur i : Slot} {pid : Int}

/-- The children that the loop of the general branch looks at, with the target predicate
`child->pid == pid` for a positive pid (`proc_lifecycle.c:537-541`). -/
def generalScan (s : State) (cur : Slot) (pid : Int) : List Slot :=
  slots.filter fun i =>
    decide ((s.proc i).parent=some cur) && procWaitTargetMatch (s.proc cur) (s.proc i) pid

/-- A turn of `proc_waitpid` with that scan (`proc_lifecycle.c:537-634`). -/
def generalTurn (idx : Chan → ℕ) (s : State) (c : ℕ) (cur : Slot) (pid : Int)
    (options : WaitOptions) : Option (Int × ℕ) × State :=
  match (generalScan s cur pid).find? fun i => (s.proc i).reportable options with
  | some i =>
    let r:=reportChild s i options
    (some r.1,r.2)
  | none =>
    if generalScan s cur pid=[] ∨ (s.proc cur).killed then (some (-1,0),s)
    else if options.wnohang then (some (0,0),s)
    else (none,sleepOn idx s c cur (.slot cur) (.waitpid pid options))

def State.ChildWith (s : State) (cur : Slot) (pid : Int) (i : Slot) : Prop :=
  (s.proc i).state≠.unused ∧ (s.proc i).parent=some cur ∧ (s.proc i).pid=pid
  deriving Decidable

/-- The turn for a positive pid is the turn of the general scan. It fails when there is no
such child, and for a killed caller whose child has nothing to report. -/
structure FastPathExact (idx : Chan → ℕ) (s : State) (c : ℕ) (cur : Slot) (pid : Int)
    (options : WaitOptions) : Prop where
  turn : waitpidTurn idx s c cur pid options=generalTurn idx s c cur pid options
  fails : (waitpidTurn idx s c cur pid options).1.map Prod.fst=some (-1) ↔ (¬ ∃ i,s.ChildWith cur pid i) ∨
      ((s.proc cur).killed=true ∧ ∀ i,s.ChildWith cur pid i → (s.proc i).reportable options=false)

lemma mem_generalScan (hpid : 0<pid) : i∈generalScan s cur pid ↔ (s.proc i).parent=some cur ∧ (s.proc i).pid=pid := by
  simp [generalScan,procWaitTargetMatch,hpid,slots]

lemma mem_generalScan_iff (h : NoAbandoned s) (hpid : 0<pid) : i∈generalScan s cur pid ↔ s.ChildWith cur pid i := by
  rw [mem_generalScan hpid]
  refine ⟨fun ⟨hpar,hp⟩ => ⟨fun hu => ?_,hpar,hp⟩,fun hi => hi.2⟩
  rw [h i hu] at hpar
  cases hpar

lemma PidTable.find?_child (h : PidTable s) {j : Slot} (hi : s.ChildWith cur pid i)
    (hf : (slots.find? fun k => decide ((s.proc k).pid=pid))=some j) : j=i := by
  by_contra hne
  have hj : (s.proc j).pid=pid := by simpa using find?_some hf
  obtain ⟨-,hlt⟩:=h.pids j i hne hi.1 (hj.trans hi.2.2.symm)
  have hnot:=finRange_find?_lt hf hlt
  simp [hi.2.2] at hnot

lemma PidTable.waitScan_eq (h : PidTable s) (hab : NoAbandoned s) (hpid : 0<pid) :
    (waitScan s cur pid=.notChild ∧ generalScan s cur pid=[]) ∨
      waitScan s cur pid=.children (generalScan s cur pid) := by
  unfold waitScan
  rw [if_pos hpid]
  have hnil : (∀ i,¬ s.ChildWith cur pid i) → generalScan s cur pid=[] := fun hno =>
    eq_nil_iff_forall_not_mem.mpr fun i hi => hno i ((mem_generalScan_iff hab hpid).mp hi)
  cases hf : slots.find? fun i => decide ((s.proc i).pid=pid) with
  | none =>
    right
    rw [hnil fun i hi => ?_]
    have hall:=find?_eq_none.mp hf i (mem_finRange i)
    simp [hi.2.2] at hall
  | some j =>
    have hj : (s.proc j).pid=pid := by simpa using find?_some hf
    dsimp only
    by_cases hpar : (s.proc j).parent=some cur
    · right
      rw [if_neg (not_not.mpr hpar)]
      have hmem : ∀ i,i∈generalScan s cur pid ↔ i ∈ [j] := by
        intro i
        rw [mem_singleton]
        exact ⟨fun hi => (h.find?_child ((mem_generalScan_iff hab hpid).mp hi) hf).symm,
          fun hi => (mem_generalScan hpid).mpr (hi ▸ ⟨hpar,hj⟩)⟩
      have hperm:=(perm_ext_iff_of_nodup ((nodup_finRange nproc).filter _) (nodup_singleton j)).mpr hmem
      exact congrArg WaitScan.children (perm_singleton.mp hperm).symm
    · left
      rw [if_pos hpar]
      refine ⟨rfl,hnil fun i hi => hpar ?_⟩
      rw [h.find?_child hi hf]
      exact hi.2.1

variable {options : WaitOptions}

lemma PidTable.turn_eq (h : PidTable s) (hab : NoAbandoned s) (hpid : 0<pid) (options : WaitOptions) :
    waitpidTurn idx s c cur pid options=generalTurn idx s c cur pid options := by
  have hscan : (waitScan s cur pid=.notChild ∧ generalScan s cur pid=[]) ∨
      waitScan s cur pid=.children (generalScan s cur pid) := h.waitScan_eq hab hpid
  unfold generalTurn
  rcases hscan with ⟨hscan,hnil⟩ | hscan
  · rw [waitpidTurn,hscan,hnil]
    simp
  · cases hf : (generalScan s cur pid).find? fun i => (s.proc i).reportable options with
    | none => simp only [waitpidTurn,hscan,hf]
    | some i => simp only [waitpidTurn,hscan,hf]

lemma reportChild_pid (s : State) (i : Slot) (options : WaitOptions) :
    (reportChild s i options).1.1=(s.proc i).pid := by
  unfold reportChild
  dsimp only
  split_ifs <;> rfl

lemma generalTurn_fails (hab : NoAbandoned s) (hpid : 0<pid) (options : WaitOptions) :
    (generalTurn idx s c cur pid options).1.map Prod.fst=some (-1) ↔
      (¬ ∃ i,s.ChildWith cur pid i) ∨ ((s.proc cur).killed=true ∧
        ∀ i,s.ChildWith cur pid i → (s.proc i).reportable options=false) := by
  have hmem : ∀ i,i∈generalScan s cur pid ↔ s.ChildWith cur pid i := fun i =>
    mem_generalScan_iff hab hpid
  unfold generalTurn
  cases hf : (generalScan s cur pid).find? fun i => (s.proc i).reportable options with
  | some i =>
    have hi:=(hmem i).mp (mem_of_find?_eq_some hf)
    have hrep:=find?_some (p := fun i => (s.proc i).reportable options) hf
    have hne : (reportChild s i options).1.1 ≠ -1 := by
      rw [reportChild_pid,hi.2.2]
      omega
    refine iff_of_false (by simpa using hne) ?_
    rintro (hno | ⟨-,hall⟩)
    · exact hno ⟨i,hi⟩
    · exact absurd ((hall i hi).symm.trans hrep) (by decide)
  | none =>
    have hall : ∀ i,s.ChildWith cur pid i → (s.proc i).reportable options=false :=
      fun i hi => by simpa using find?_eq_none.mp hf i ((hmem i).mpr hi)
    have hnil : generalScan s cur pid=[] ↔ ¬ ∃ i,s.ChildWith cur pid i := by
      rw [eq_nil_iff_forall_not_mem,not_exists]
      exact forall_congr' fun i => not_congr (hmem i)
    by_cases hend : generalScan s cur pid=[] ∨ (s.proc cur).killed=true
    · rw [if_pos hend]
      exact iff_of_true rfl (hend.imp hnil.mp fun hk => ⟨hk,hall⟩)
    · rw [if_neg hend]
      refine iff_of_false ?_ fun h => hend (h.imp hnil.mpr And.left)
      split_ifs <;> simp

lemma PidTable.fastPathExact (h : PidTable s) (hab : NoAbandoned s) (hpid : 0<pid)
    (options : WaitOptions) : FastPathExact idx s c cur pid options where
  turn := h.turn_eq hab hpid options
  fails := by
    rw [h.turn_eq hab hpid options]
    exact generalTurn_fails hab hpid options

def resumedWait (idx : Chan → ℕ) (s : State) (c : ℕ) (cur : Slot) (m : Mlfq) : State :=
  sleepReturn idx ((State.setCpu {s with mlfq := m} c (some cur)).setProc cur Proc.dispatched) cur (.slot cur)
def WaitGuard (s : State) (a : Action) : Prop := SignalsApart s a ∧ ForkFailsEarly s a

lemma waitGuard_invariant {as : List Action} (hok : Guarded (step idx) WaitGuard zeroState as)
    (h : run (step idx) zeroState as=some s) : PidInv s ∧ NoAbandoned s :=
  run_guarded (I := fun s => PidInv s ∧ NoAbandoned s)
    (fun _ _ _ hs hok hst => ⟨step_pidInv hs.1 hok.1 hst,step_noAbandoned hs.1.sched hs.2 hok.1 hok.2 hst⟩)
    ⟨zeroState_pidInv,fun _ _ => rfl⟩ hok h

/-- In every state of every such run, a turn of `proc_waitpid` for a positive pid is the turn
of the general scan: of a call made there, and of a sleeping call that is dispatched there. -/
theorem waitpid_fast_path_exact (idx : Chan → ℕ) (as : List Action) (s : State)
    (hok : Guarded (step idx) WaitGuard zeroState as)
    (h : run (step idx) zeroState as=some s) (c : ℕ) (cur : Slot) (pid : Int) (hpid : 0<pid) (options : WaitOptions) :
    FastPathExact idx s c cur pid options ∧ ∀ m,schedqPickNextLocked s.mlfq=(some cur,m) →
        (s.proc cur).context=.waitpid pid options →
        dispatch idx s c=some (waitpidTurn idx (resumedWait idx s c cur m) c cur pid options).2 ∧
          FastPathExact idx (resumedWait idx s c cur m) c cur pid options := by
  obtain ⟨hinv,hab⟩:=waitGuard_invariant hok h
  refine ⟨hinv.table.fastPathExact hab hpid options,fun m hm hctx => ?_⟩
  have hstays : Stays s (resumedWait idx s c cur m) :=
    (hinv.sched.taken_stays hm).trans (sleepReturn_stays _ cur (.slot cur))
  refine ⟨by simp only [dispatch,hm,hctx]; rfl,?_⟩
  refine PidTable.fastPathExact (hinv.table.congr (fun i => ?_) fun i => (hstays i).live) ?_ hpid options
  · exact Prod.ext (congrArg (·.1) (hstays i).life) (congrArg (·.2.1) (hstays i).life)
  · intro i hi
    rw [show ((resumedWait idx s c cur m).proc i).parent = _ from congrArg (·.2.1) (hstays i).life]
    exact hab i ((hstays i).live.mp hi)

def forkOne : List Action := [.userinit,.dispatch 0,.forkAlloc 0,.forkCopy 0,.forkPublish 0]

lemma forkOne_guarded : Guarded (step fun _ => 0) WaitGuard zeroState forkOne := by
  refine guarded_of_forall fun a ha s => ?_
  fin_cases ha <;> exact ⟨trivial,trivial⟩

theorem waitpid_fast_path_forkOne : ∃ s,run (step fun _ => 0) zeroState forkOne=some s ∧
      FastPathExact (fun _ => 0) s 0 ⟨0,by decide⟩ 2 ⟨true,false,false⟩ := by
  have hrun : (run (step fun _ => 0) zeroState forkOne).isSome=true := by
    decide +kernel
  obtain ⟨s,hs⟩:=Option.isSome_iff_exists.mp hrun
  exact ⟨s,hs,(waitpid_fast_path_exact _ _ s forkOne_guarded hs 0 _ 2 (by decide) _).1⟩

/-- A killed process that waits for its live child gets -1. After a `fork` that failed once the
parent was set, the parent gets 0 for a child that does not exist. -/
theorem waitpid_fails_otherwise : (∃ s,run (step fun _ => 0) zeroState (forkOne ++
        [.dispatch 1,.forkAlloc 1,.forkCopy 1,.forkPublish 1,.kill 0 2 sigkill false])=some s ∧
      s.cpu 1=some ⟨1,by decide⟩ ∧ s.ChildWith ⟨1,by decide⟩ 3 ⟨2,by decide⟩ ∧
      (waitpidTurn (fun _ => 0) s 1 ⟨1,by decide⟩ 3 ⟨true,false,false⟩).1=some (-1,0)) ∧
    (∃ s,run (step fun _ => 0) zeroState [.userinit,.dispatch 0,.forkAlloc 0,.forkCopy 0,.forkUndo 0]=some s ∧
      s.cpu 0=some ⟨0,by decide⟩ ∧ (¬ ∃ i,s.ChildWith ⟨0,by decide⟩ 2 i) ∧
      (waitpidTurn (fun _ => 0) s 0 ⟨0,by decide⟩ 2 ⟨true,false,false⟩).1=some (0,0)) := by
  decide +kernel

end Auxv6.Process

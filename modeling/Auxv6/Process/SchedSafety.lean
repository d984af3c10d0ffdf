import Auxv6.Lib.Transition
import Auxv6.Process.SchedSteps

/-!
# Scheduler safety

The signal sections keep the invariant only under a condition on the state they start from.
-/

namespace Auxv6.Process
open Machine Lib Option Transition

variable {idx : Chan → ℕ} {s t : State} {c signo : ℕ} {p cur : Slot}

lemma SchedInv.signalOnly (h : SchedInv s) {f : Proc → Proc} (hf : SignalOnly f) : SchedInv (s.setProc p f) :=
  h.setFields (hf _).2.1 (congrArg (·.2.2.2.2.2) (hf _).1)

def NoteOk (s : State) (p : Slot) (signo : ℕ) : Prop := signo=sigcont → (s.proc p).state=.stopped → ¬ s.OnCpu p

lemma SchedInv.note (h : SchedInv s) (hok : NoteOk s p signo) : SchedInv (procNoteSignalLocked s p signo) := by
  obtain ⟨f,hf,hs | ⟨hst,hs⟩⟩:=note_cases s p signo
  · rw [hs]
    exact h.signalOnly hf
  rw [hs]
  have hstf:=setProc_field s p f Proc.state (hf _).2.1 p
  rcases hst with hst | ⟨hsig,hst⟩
  · exact (h.signalOnly hf).wake (hstf.trans hst) .signal
  · exact (h.signalOnly hf).continue_ (hstf.trans hst) (hok hsig hst) .signal

/-- The default actions of the signals pending at `p` neither continue nor terminate it
while it is `STOPPED`, and do not stop and terminate it in one pass. -/
def ApplyOk (s : State) (p : Slot) : Prop :=
  let pending:=(s.proc p).defaultPending
  ((s.proc p).state=.stopped → pending &&& contSet=0 ∧ pending &&& fatalSet=0) ∧
  (pending &&& stopSet=0 ∨ pending &&& fatalSet=0)

lemma SignalUpdate.applyCont (h : SignalUpdate s p t) (hst : (s.proc p).state≠.stopped) :
    SignalUpdate s p (applyCont t p) := by
  unfold Process.applyCont
  extract_lets t1
  have h1 : SignalUpdate s p t1 := h.setProc fun x => ⟨rfl,rfl,rfl⟩
  rw [if_neg (by rwa [h1.state_eq])]
  exact h1

lemma SignalUpdate.applyFatal (h : SignalUpdate s p t) (hst : (s.proc p).state≠.stopped)
    (pending : Sigset) : SignalUpdate s p (applyFatal t p pending) := by
  unfold Process.applyFatal
  extract_lets termsig t1 t2
  have h1 : SignalUpdate s p t1 := h.setProc fun x => ⟨rfl,rfl,rfl⟩
  have h2 : t2=t1 := if_neg (by rwa [h1.state_eq])
  rw [h2]
  exact h1.setProc fun x => ⟨rfl,rfl,rfl⟩

def StopUpdate (s : State) (p : Slot) (t : State) : Prop :=
  ∃ f : Proc → Proc,t=s.setProc p f ∧ ∀ x,(f x).links=x.links ∧ (f x).state=.stopped ∧ (f x).waitEvent=.stopped

lemma SignalUpdate.applyStop (h : SignalUpdate s p t) (hcur : OnCpuState (s.proc p).state)
    (pending : Sigset) : SignalUpdate s p (applyStop t p pending) ∨
      (s.proc p).state=.running ∧ StopUpdate s p (applyStop t p pending) := by
  unfold Process.applyStop
  extract_lets t1 st
  have h1 : SignalUpdate s p t1 := h.setProc fun x => ⟨rfl,rfl,rfl⟩
  have hst : st=(s.proc p).state := h1.state_eq
  rw [hst]
  rcases hcur with hrun | hstop
  · rw [if_pos (.inl hrun)]
    obtain ⟨f,hf,ht⟩:=h1
    rw [ht,setProc_setProc]
    exact .inr ⟨hrun,_,rfl,fun x => ⟨(hf x).1,rfl,rfl⟩⟩
  · rw [if_neg (by rw [hstop]; decide)]
    exact .inl h1

lemma apply_cases (hcur : OnCpuState (s.proc p).state) (hok : ApplyOk s p) :
    SignalUpdate s p (procApplyPendingSignals s p) ∨
      ((s.proc p).state=.running ∧ (s.proc p).defaultPending &&& stopSet≠0 ∧
        StopUpdate s p (procApplyPendingSignals s p)) := by
  unfold procApplyPendingSignals
  extract_lets handled pending s1 s2 s3
  have h1 : SignalUpdate s p s1 := SignalUpdate.refl.setProc fun x => ⟨rfl,rfl,rfl⟩
  have h2 : SignalUpdate s p s2 := by
    by_cases hc : pending &&& contSet≠0
    · simp only [s2,if_pos hc]
      exact h1.applyCont fun hst => hc (hok.1 hst).1
    · simp only [s2,if_neg hc]
      exact h1
  by_cases hf : pending &&& fatalSet≠0
  · -- a fatal signal: the state is not `STOPPED`, and nothing stops it now
    have hstop : ¬ pending &&& stopSet≠0 := fun hs => (hok.2.resolve_left hs) |> hf
    rw [if_pos hf,show s3=s2 from if_neg hstop]
    exact .inl (h2.applyFatal (fun hst => hf (hok.1 hst).2) pending)
  rw [if_neg hf]
  by_cases hs : pending &&& stopSet≠0
  · rw [show s3=Process.applyStop s2 p pending from if_pos hs]
    exact (h2.applyStop hcur pending).imp_right fun ⟨hrun,hup⟩ => ⟨hrun,hs,hup⟩
  · rw [show s3=s2 from if_neg hs]
    exact .inl h2

lemma SchedInv.applySignals (h : SchedInv s) (hc : s.cpu c=some p) (hok : ApplyOk s p) :
    SchedInv (procApplyPendingSignals s p) := by
  have hcur:=h.current p ⟨c,hc⟩
  rcases apply_cases hcur hok with ⟨f,hf,hs⟩ | ⟨-,-,f,hs,hf⟩
  · rw [hs]
    exact h.signalOnly hf
  rw [hs]
  refine h.setState (congrArg (·.2.2.2.2.2) (hf _).1) ?_ ?_ (h.np_ne (h.not_embryo ⟨c,hc⟩))
  · exact iff_of_false (by rw [(hf _).2.1]; decide) (h.not_runnable ⟨c,hc⟩)
  · exact fun _ => .inr (hf _).2.1

section
variable (h : Wakes s t)
include h

lemma NoteOk.of_wakes (hok : NoteOk s p signo) : NoteOk t p signo := by
  rintro hsig hst ⟨c,hc⟩
  rcases h.state p with hs | ⟨hs,-⟩
  · exact hok hsig (hs ▸ hst) ⟨c,h.cpu ▸ hc⟩
  · rw [hs] at hst
    cases hst

lemma Wakes.unused_iff (i : Slot) : (t.proc i).state=.unused ↔ (s.proc i).state=.unused := by
  rcases h.state i with hs | ⟨hs,hs' | hs'⟩ <;> simp [hs]
  all_goals simp [hs']
lemma Wakes.pid (i : Slot) : (t.proc i).pid=(s.proc i).pid := congrArg Prod.fst (h.links i)
lemma Wakes.pgid (i : Slot) : (t.proc i).pgid=(s.proc i).pgid := congrArg (·.2.1) (h.links i)
lemma Wakes.killTarget (cur : Option Slot) (pid : Int) (signo : ℕ) (initHup : Bool) (i : Slot) :
    killTarget t cur pid signo initHup i=killTarget s cur pid signo initHup i := by
  simp only [Process.killTarget,h.unused_iff,h.pid,h.pgid,h.initproc]
lemma Wakes.pgidTarget (pgid : Int) (i : Slot) : pgidTarget t pgid i=pgidTarget s pgid i := by
  simp only [Process.pgidTarget,ne_eq,h.unused_iff,h.pgid,h.initproc]

end

lemma SchedInv.killLoop (h : SchedInv s) {cur : Option Slot} {pid : Int}
    {initHup : Bool} (hok : ∀ i,killTarget s cur pid signo initHup i=true → NoteOk s i signo)
    (l : List Slot) : SchedInv (killLoop cur pid signo initHup l s) := by
  induction l generalizing s with
  | nil => exact h
  | cons i l ih =>
    unfold Process.killLoop
    split_ifs with hi
    · exact h.note (hok i hi)
    · have hw:=note_wakes s i signo
      refine ih (h.note (hok i hi)) fun j hj => (hok j ?_).of_wakes hw
      rwa [hw.killTarget] at hj
    · exact ih h hok

lemma SchedInv.kill (h : SchedInv s) {cur : Option Slot} {pid : Int}
    {initHup : Bool} (hok : ∀ i,killTarget s cur pid signo initHup i=true → NoteOk s i signo) :
    SchedInv (killWithSignal s cur pid signo initHup) := by
  unfold killWithSignal
  split_ifs
  · exact h.killLoop hok slots
  · exact h

def pgidTurn (pgid : Int) (signo : ℕ) (s : State) (i : Slot) : State :=
  if pgidTarget s pgid i then procNoteSignalLocked s i signo else s

lemma pgidTurn_wakes (pgid : Int) (signo : ℕ) (s : State) (i : Slot) : Wakes s (pgidTurn pgid signo s i) := by
  unfold pgidTurn
  split_ifs
  · exact note_wakes s i signo
  · exact Wakes.refl s

lemma SchedInv.pgidLoop (h : SchedInv s) {pgid : Int}
    (hok : ∀ i,pgidTarget s pgid i=true → NoteOk s i signo) (l : List Slot) :
    SchedInv (l.foldl (pgidTurn pgid signo) s) := by
  induction l generalizing s with
  | nil => exact h
  | cons i l ih =>
    have hw:=pgidTurn_wakes pgid signo s i
    refine ih ?_ fun j hj => (hok j ?_).of_wakes hw
    · unfold pgidTurn
      split_ifs with hi
      · exact h.note (hok i hi)
      · exact h
    · rwa [hw.pgidTarget] at hj

lemma SchedInv.signalPgid (h : SchedInv s) {pgid : Int} (hok : ∀ i,pgidTarget s pgid i=true → NoteOk s i signo) :
    SchedInv (procSignalPgid s pgid signo) := by
  unfold procSignalPgid
  split_ifs
  · exact h
  · exact h.pgidLoop hok slots

/-- The condition of scheduler safety: a `SIGCONT` targets no process that is `STOPPED` and still current, and
a signal pass neither continues nor terminates a `STOPPED` process, nor stops and terminates one. -/
def SignalsApart (s : State) : Action → Prop
  | .kill c pid signo initHup =>
    ∀ i,killTarget s (s.cpu c) pid signo initHup i=true → NoteOk s i signo
  | .signalPgid pgid signo => ∀ i,pgidTarget s pgid i=true → NoteOk s i signo
  | .applySignals c => ∀ p,s.cpu c=some p → ApplyOk s p
  | _ => True

lemma step_schedInv {a : Action} (h : SchedInv s) (hok : SignalsApart s a)
    (hs : step idx s a=some t) : SchedInv t := by
  cases step_stepsTo hs with
  | userinit _ ha => exact h.userinit ha
  | forkAlloc _ _ ha => exact h.forkAlloc ha
  | forkUndo _ hnp => exact h.forkUndo hnp
  | forkCopy _ _ => exact h.setFields (f := Proc.forked _ _) rfl rfl
  | forkPublish _ hnp => exact h.forkPublish hnp
  | dispatch hc hs => exact h.dispatch hc hs
  | yield hc => exact h.yield hc
  | sleep hc => exact h.sleepOn hc _ _
  | wakeup => exact h.wakeup1 _
  | kill => exact h.kill hok
  | signalPgid => exact h.signalPgid hok
  | applySignals hc => exact h.applySignals hc (hok _ hc)
  | maybeStop hc hst => exact h.leaveCpu hc (by simp [hst]) rfl
  | checkAlarms =>
    unfold procCheckAlarms
    split_ifs
    · exact h
    · exact SchedInv.foldl (fun s p hs => hs.alarmTurn _ p) _ h
  | boost =>
    unfold mlfqApplyGlobalBoost
    split_ifs
    · exact h
    · exact SchedInv.foldl (fun s p hs => hs.boostTurn p) _ (h.congr rfl rfl (fun _ => rfl) fun _ => rfl)
  | timerCharge _ => exact {h with queues := h.queues.timerCharge _}
  | tick => exact h.congr rfl rfl (fun _ => rfl) fun _ => rfl
  | exit hc => exact h.exits hc _ _
  | waitpid hc ht => exact h.waits hc ht
  | setAlarm _ => exact h.setAlarm _ _ _
  | setSignals _ => exact h.setFields rfl rfl
  | setpgid _ _ | setsid _ _ => exact h.setFields rfl rfl
  | setBoostInterval => exact h.congr rfl rfl (fun _ => rfl) fun _ => rfl
  | refused => exact h

lemma zeroState_schedInv : SchedInv zeroState where
  queues := by
    have hlt : 0 < mlfqNqueues := by decide
    refine ⟨fun _ => [],⟨⟨fun _ => trivial,fun _ => rfl,fun _ => rfl,fun _ => rfl,
      fun _ => List.nodup_nil,fun _ _ _ hp => absurd hp List.not_mem_nil,fun _ _ => ⟨rfl,rfl⟩⟩,
      fun _ _ hp => absurd hp List.not_mem_nil,fun _ => hlt⟩,fun p => ?_⟩
    simp [Queued,State.Runnable,zeroState,zeroProc]
  current := fun p ⟨c,hc⟩ => by cases hc
  oneCpu := fun c c' p hc => by cases hc
  embryo := fun p np hnp => by cases hnp
  oneFork := fun p p' np hnp => by cases hnp

/-- A process is linked at most once, exactly when it is `RUNNABLE`, in the queue of its
level, and never while it is the current process of a CPU. -/
structure SchedSafe (s : State) : Prop where
  once : ∀ p,(∀ q,(queueList s.mlfq q).count p≤1) ∧ ∀ q q',p∈queueList s.mlfq q → p∈queueList s.mlfq q' → q=q'
  linked : ∀ p,(s.proc p).state=.runnable ↔ ∃ q,p∈queueList s.mlfq q
  level : ∀ p q,p∈queueList s.mlfq q → q=(s.mlfq.sched p).schedQ ∧ q < mlfqNqueues
  notCurrent : ∀ p q c,p∈queueList s.mlfq q → s.cpu c≠some p

lemma SchedInv.safe (h : SchedInv s) : SchedSafe s where
  once p := by
    obtain ⟨hmem,hcount,-⟩:=h.queues.queueList p
    exact ⟨hcount,fun q q' hq hq' => ((hmem q).mp hq).2.symm.trans ((hmem q').mp hq').2⟩
  linked p := by
    obtain ⟨hmem,-,-⟩:=h.queues.queueList p
    constructor
    · exact fun hr => ⟨_,(hmem _).mpr ⟨hr,rfl⟩⟩
    · rintro ⟨q,hq⟩
      exact ((hmem q).mp hq).1
  level p q hq := by
    obtain ⟨hmem,-,hlt⟩:=h.queues.queueList p
    obtain ⟨-,rfl⟩:=(hmem q).mp hq
    exact ⟨rfl,hlt⟩
  notCurrent p q c hq hc := h.not_runnable ⟨c,hc⟩ (((h.queues.queueList p).1 q).mp hq).1

/-- Scheduler safety in every state of every run from boot whose signal steps keep apart
what the source does not: see `SignalsApart`. -/
theorem sched_safe_of_signalsApart (idx : Chan → ℕ) (as : List Action) (s : State)
    (hok : Guarded (step idx) SignalsApart zeroState as) (h : run (step idx) zeroState as=some s) : SchedSafe s :=
  (run_guarded (fun _ _ _ hs hok hst => step_schedInv hs hok hst)
    zeroState_schedInv hok h).safe

def stopChild : List Action :=
  [.userinit,.dispatch 0,.forkAlloc 0,.forkCopy 0,.forkPublish 0,.dispatch 1,.kill 0 2 sigtstp false]

lemma stopChild_guarded : Guarded (step fun _ => 0) SignalsApart zeroState stopChild := by
  refine guarded_of_forall fun a ha s => ?_
  fin_cases ha
  all_goals try trivial
  exact fun i _ hsig => absurd hsig (by decide)

def childSlot : Slot := ⟨1,by decide⟩

theorem sched_safe_stopped_child : ∃ s,run (step fun _ => 0) zeroState
      (stopChild++[.applySignals 1,.maybeStop 1,.yield 0,.dispatch 1])=some s ∧ SchedSafe s := by
  have hrun : (run (step fun _ => 0) zeroState
      (stopChild++[.applySignals 1,.maybeStop 1,.yield 0,.dispatch 1])).isSome=true := by
    decide +kernel
  obtain ⟨s,hs⟩:=isSome_iff_exists.mp hrun
  refine ⟨s,hs,sched_safe_of_signalsApart _ _ s (stopChild_guarded.append fun t ht => ?_) hs⟩
  refine ⟨fun p hp => ?_,fun _ _ => guarded_of_forall fun a ha _ => ?_⟩
  · -- the child is `RUNNING` and only the stop signal is pending
    have hpre : (run (step fun _ => 0) zeroState stopChild).map (fun t =>
        (t.cpu 1,(t.proc childSlot).state,(t.proc childSlot).defaultPending &&& fatalSet)) =
          some (some childSlot,.running,0) := by
      decide +kernel
    rw [ht] at hpre
    obtain ⟨hcpu,hpre⟩:=Prod.mk.inj (some.inj hpre)
    obtain ⟨hst,hfatal⟩:=Prod.mk.inj hpre
    obtain rfl : childSlot=p := some.inj (hcpu.symm.trans hp)
    exact ⟨fun hstop => absurd (hst.symm.trans hstop) (by decide),.inr hfatal⟩
  · fin_cases ha <;> trivial

theorem sched_requeues_current : ∃ s,run (step fun _ => 0) zeroState
      (stopChild++[.kill 0 2 15 false,.applySignals 1])=some s ∧ ¬ SchedSafe s := by
  obtain ⟨s,hs,hmem,hcpu⟩ : ∃ s,run (step fun _ => 0) zeroState
      (stopChild++[.kill 0 2 15 false,.applySignals 1])=some s ∧ childSlot∈queueList s.mlfq 1 ∧
      s.cpu 1=some childSlot := by
    decide +kernel
  exact ⟨s,hs,fun hsafe => hsafe.notCurrent _ 1 1 hmem hcpu⟩

end Auxv6.Process

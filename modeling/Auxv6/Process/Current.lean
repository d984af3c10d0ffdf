import Auxv6.Process.SleepInvariant

/-!
# The current process of a CPU

A process is current on one CPU at most, its context is not saved while it is, and its state is one that
needs an address space. Signals may queue it again while it is current: a CPU that picks it then has no
context to switch to.
-/

namespace Auxv6.Process
open Machine Option Function

variable {idx : Chan → ℕ} {s t u : State} {a : Action} {c : ℕ} {p cur : Slot}

/-! ### The signals of one process -/

structure Signalled (p : Slot) (s t : State) : Prop where
  cpu : t.cpu=s.cpu
  hash : t.chanWaitHash=s.chanWaitHash
  queue : t.tickSleepq=s.tickSleepq
  other : ∀ i,i≠p → t.proc i=s.proc i
  state : (t.proc p).state=(s.proc p).state ∨ (s.proc p).state.requiresAddrspace=true ∧
    ((t.proc p).state=.runnable ∨ (t.proc p).state=.stopped)

lemma Signalled.live (h : Signalled p s t) (hp : (s.proc p).state.requiresAddrspace=true) :
    (t.proc p).state.requiresAddrspace=true := by
  rcases h.state with hst | ⟨-,hst | hst⟩
  · rwa [hst]
  all_goals rw [hst]; rfl

lemma Signalled.refl (p : Slot) (s : State) : Signalled p s s := ⟨rfl,rfl,rfl,fun _ _ => rfl,.inl rfl⟩

lemma Signalled.trans (h : Signalled p s t) (h' : Signalled p t u) : Signalled p s u where
  cpu := h'.cpu.trans h.cpu
  hash := h'.hash.trans h.hash
  queue := h'.queue.trans h.queue
  other i hi := (h'.other i hi).trans (h.other i hi)
  state := by
    rcases h'.state with hst | ⟨hlive,hst⟩
    · rw [hst]
      exact h.state
    · rcases h.state with hst' | ⟨hlive',-⟩
      · exact .inr ⟨hst' ▸ hlive,hst⟩
      · exact .inr ⟨hlive',hst⟩

lemma signalled_set {f : Proc → Proc} (hf : (f (s.proc p)).state=(s.proc p).state ∨
    (s.proc p).state.requiresAddrspace=true ∧ ((f (s.proc p)).state=.runnable ∨ (f (s.proc p)).state=.stopped)) :
    Signalled p s (s.setProc p f) :=
  ⟨rfl,rfl,rfl,fun _ hi => setProc_of_ne s f hi,by rwa [setProc_self]⟩
lemma signalled_makeRunnable (hp : (s.proc p).state=.stopped) (reason : SchedEnq) :
    Signalled p s (s.makeRunnable p reason) := by
  have h : Signalled p s (s.setProc p fun x => {x with state := .runnable}) :=
    signalled_set (.inr ⟨by rw [hp]; rfl,.inl rfl⟩)
  exact ⟨h.cpu,h.hash,h.queue,h.other,h.state⟩
lemma signalled_if {P : Prop} [Decidable P] (ht : P → Signalled p s t) : Signalled p s (if P then t else s) := by
  split_ifs with h
  · exact ht h
  · exact .refl p s

section
variable (s : State) (p : Slot)

lemma applyCont_signalled : Signalled p s (applyCont s p) := by
  unfold applyCont
  extract_lets s1
  have h1 : Signalled p s s1 := signalled_set (.inl rfl)
  exact h1.trans (signalled_if fun hst => (signalled_makeRunnable hst .signal).trans (signalled_set (.inl rfl)))

lemma applyStop_signalled (pending : Sigset) : Signalled p s (applyStop s p pending) := by
  unfold applyStop
  extract_lets s1 st
  have h1 : Signalled p s s1 := signalled_set (.inl rfl)
  refine h1.trans (signalled_if fun hst => signalled_set (.inr ⟨?_,.inr rfl⟩))
  rcases hst with hst | hst | hst <;> rw [show (s1.proc p).state=_ from hst] <;> rfl

lemma applyFatal_signalled (pending : Sigset) : Signalled p s (applyFatal s p pending) := by
  unfold applyFatal
  extract_lets termsig s1 s2
  have h1 : Signalled p s s1 := signalled_set (.inl rfl)
  have h2 : Signalled p s1 s2 := signalled_if fun hst => signalled_makeRunnable hst .signal
  exact h1.trans (h2.trans (signalled_set (.inl rfl)))

lemma applySignals_signalled : Signalled p s (procApplyPendingSignals s p) := by
  unfold procApplyPendingSignals
  extract_lets handled pending s1 s2 s3
  have h1 : Signalled p s s1 := signalled_set (.inl rfl)
  have h2 : Signalled p s1 s2 := signalled_if fun _ => applyCont_signalled s1 p
  have h3 : Signalled p s2 s3 := signalled_if fun _ => applyStop_signalled s2 p pending
  exact h1.trans (h2.trans (h3.trans (signalled_if fun _ => applyFatal_signalled s3 p pending)))

lemma applySignals_context : Keeps Proc.context s (procApplyPendingSignals s p) :=
  Keeps.trans (t := _) (keeps_setProc rfl) (SignalBlind.applySignals (fun _ _ _ _ _ _ _ => rfl) s p)

end

/-! ### The invariant -/

structure CurrentInv (s : State) : Prop where
  saved : ∀ p,s.OnCpu p → (s.proc p).context=.none
  live : ∀ p,s.OnCpu p → (s.proc p).state.requiresAddrspace=true
  once : ∀ c d p,s.cpu c=some p → s.cpu d=some p → c=d

lemma zeroState_currentInv : CurrentInv zeroState where
  saved _ hp := by cases hp.choose_spec
  live _ hp := by cases hp.choose_spec
  once _ _ _ hc := by cases hc

section
variable (h : CurrentInv s)
include h

lemma CurrentInv.keep (hcpu : t.cpu=s.cpu) (hctx : ∀ p,s.OnCpu p → (t.proc p).context=(s.proc p).context)
    (hlive : ∀ p,s.OnCpu p → (s.proc p).state.requiresAddrspace=true →
      (t.proc p).state.requiresAddrspace=true) : CurrentInv t := by
  have hon : ∀ p,t.OnCpu p → s.OnCpu p := fun p hp => by rwa [State.OnCpu,hcpu] at hp
  refine ⟨fun p hp => (hctx p (hon p hp)).trans (h.saved p (hon p hp)),
    fun p hp => hlive p (hon p hp) (h.live p (hon p hp)),?_⟩
  rw [hcpu]
  exact h.once

lemma CurrentInv.same (hcpu : t.cpu=s.cpu) (hctx : Keeps Proc.context s t)
    (hst : Keeps Proc.state s t) : CurrentInv t :=
  h.keep hcpu (fun p _ => hctx p) fun p _ hp => by rwa [hst p]

lemma CurrentInv.setProc {f : Proc → Proc} (hctx : (f (s.proc p)).context=(s.proc p).context)
    (hst : (f (s.proc p)).state=(s.proc p).state) : CurrentInv (s.setProc p f) :=
  h.same rfl (keeps_setProc hctx) (keeps_setProc hst)

lemma CurrentInv.not_current (hp : (s.proc p).state.requiresAddrspace=false) : ¬ s.OnCpu p :=
  fun hon => by simpa [hp] using h.live p hon

/-- A slot whose state needs no address space may be given any contents. -/
lemma CurrentInv.idle (hp : (s.proc p).state.requiresAddrspace=false) (hcpu : t.cpu=s.cpu)
    (hother : ∀ i,i≠p → t.proc i=s.proc i) : CurrentInv t := by
  have hne : ∀ i,s.OnCpu i → t.proc i=s.proc i := fun i hi => hother i fun hip => h.not_current hp (hip ▸ hi)
  exact h.keep hcpu (fun i hi => by rw [hne i hi]) fun i hi => by rw [hne i hi]; exact id

lemma CurrentInv.leave (hc : s.cpu c=some p) (hcpu : t.cpu=update s.cpu c none)
    (hother : ∀ i,i≠p → t.proc i=s.proc i) : CurrentInv t := by
  have hold : ∀ {d q},t.cpu d=some q → s.cpu d=some q ∧ q≠p := by
    intro d q hd
    rw [hcpu] at hd
    by_cases hdc : d=c
    · rw [hdc,update_self] at hd
      cases hd
    rw [update_of_ne hdc] at hd
    refine ⟨hd,?_⟩
    rintro rfl
    exact hdc (h.once d c q hd hc)
  refine ⟨fun q hq => ?_,fun q hq => ?_,fun d e q hd he => h.once d e q (hold hd).1 (hold he).1⟩
  · obtain ⟨hs,hne⟩:=hold hq.choose_spec
    rw [hother q hne]
    exact h.saved q ⟨_,hs⟩
  · obtain ⟨hs,hne⟩:=hold hq.choose_spec
    rw [hother q hne]
    exact h.live q ⟨_,hs⟩

lemma CurrentInv.take (hp : (s.proc p).context≠.none) (m : Mlfq) : CurrentInv (s.taken c p m) := by
  -- a process with a saved context is current nowhere
  have hoff : ∀ d,s.cpu d≠some p := fun d hd => hp (h.saved p ⟨d,hd⟩)
  have hcpu : ∀ d,(s.taken c p m).cpu d=if d=c then some p else s.cpu d := fun d => update_apply ..
  have hproc : ∀ q,q≠p → (s.taken c p m).proc q=s.proc q := fun q hq => setProc_of_ne _ _ hq
  have hself : (s.taken c p m).proc p=(s.proc p).dispatched := setProc_self ..
  have hold : ∀ {d q},(s.taken c p m).cpu d=some q → q≠p → s.cpu d=some q := by
    intro d q hd hq
    rw [hcpu] at hd
    split_ifs at hd with hdc
    · exact absurd (some.inj hd).symm hq
    · exact hd
  have honly : ∀ {d},(s.taken c p m).cpu d=some p → d=c := by
    intro d hd
    by_contra hdc
    rw [hcpu,if_neg hdc] at hd
    exact hoff d hd
  refine ⟨fun q hq => ?_,fun q hq => ?_,fun d e q hd he => ?_⟩
  · by_cases hqp : q=p
    · rw [hqp,hself]
    · rw [hproc q hqp]
      exact h.saved q ⟨_,hold hq.choose_spec hqp⟩
  · by_cases hqp : q=p
    · rw [hqp,hself]
      rfl
    · rw [hproc q hqp]
      exact h.live q ⟨_,hold hq.choose_spec hqp⟩
  · by_cases hqp : q=p
    · subst hqp
      rw [honly hd,honly he]
    · exact h.once d e q (hold hd hqp) (hold he hqp)

lemma CurrentInv.rouse (hcpu : t.cpu=s.cpu) (hr : Rouses s t) : CurrentInv t := by
  refine h.keep hcpu (fun i _ => hr.context i) fun i _ hi => ?_
  rcases hr.state i with hst | ⟨hst,-⟩
  · rwa [hst]
  · rw [hst]
    rfl

lemma CurrentInv.signalled (hp : Signalled p s t) (hctx : Keeps Proc.context s t) : CurrentInv t := by
  refine h.keep hp.cpu (fun i _ => hctx i) fun i _ hi => ?_
  by_cases hip : i=p
  · exact hip ▸ hp.live (hip ▸ hi)
  · rwa [hp.other i hip]

lemma CurrentInv.sleepReturn (chan : Chan) : CurrentInv (sleepReturn idx s p chan) :=
  h.same (sleepReturn_cpu chan) (sleepReturn_keeps (fun _ _ _ => rfl) s p chan) (sleepReturn_state s p chan)

lemma CurrentInv.waits {pid : Int} {options : WaitOptions} (hc : s.cpu c=some cur)
    (ht : WaitsTo idx s c cur pid options t) : CurrentInv t := by
  cases ht with
  | stays => exact h
  | event => exact h.same rfl (keeps_setProc rfl) (keeps_setProc rfl)
  | reap hz => exact h.idle (by rw [hz]; rfl) rfl fun j hj => setProc_of_ne _ _ hj
  | sleep => exact h.leave hc (sleepOn_cpu ..) fun i hi => sleepOn_other hi _ _

lemma CurrentInv.dispatch (hs : Dispatches idx s c t) : CurrentInv t := by
  cases hs with
  | idle => exact h
  | run _ hctx => exact h.take (by rcases hctx with hctx | hctx <;> simp [hctx]) _
  | sleep _ hctx => exact (h.take (by simp [hctx]) _).sleepReturn _
  | @waitpid p m _ _ _ _ hctx ht =>
    refine CurrentInv.waits ((h.take (c := c) (by simp [hctx]) m).sleepReturn (.slot p)) ?_ ht
    rw [sleepReturn_cpu]
    exact update_self ..

lemma CurrentInv.allocproc {o : Option Slot} (hs : allocproc s=some (o,t)) : CurrentInv t := by
  rcases allocproc_cases hs with ⟨rfl,rfl⟩ | ⟨np,pid,next,rfl,hst,-,-,-,rfl⟩
  · exact h
  · exact h.idle (by rw [hst]; rfl) rfl fun i hi => setProc_of_ne _ _ hi

lemma CurrentInv.publish (p : Slot) : CurrentInv (publish s p) := by
  have hrun : Keeps Proc.context s (Process.publish s p) :=
    keeps_setProc (s := s) (f := fun x => {x with state := .runnable}) rfl
  refine h.keep rfl (fun i _ => hrun i) fun i _ hi => ?_
  by_cases hip : i=p
  · simp [Process.publish,State.makeRunnable,hip,ProcState.requiresAddrspace]
  · simpa [Process.publish,State.makeRunnable,hip] using hi

lemma CurrentInv.exits (hc : s.cpu c=some cur) (init : Slot) (status : ℕ) :
    CurrentInv (s.exits idx c cur init status) := by
  have hpar:=h.rouse (exitReparent_cpu cur init) (exitReparent_rouses idx s cur init)
  have hon : (exitReparent idx s cur init).cpu c=some cur := by rw [exitReparent_cpu]; exact hc
  unfold State.exits
  generalize exitReparent idx s cur init=u at hpar hon ⊢
  exact hpar.leave hon rfl fun i hi => setProc_of_ne u _ hi

end

lemma step_currentInv (h : CurrentInv s) (hs : step idx s a=some t) : CurrentInv t := by
  cases step_stepsTo hs with
  | @userinit np u _ ha =>
    have hinit : CurrentInv {u with initproc := some np} := (h.allocproc ha).same rfl (fun _ => rfl) fun _ => rfl
    exact hinit.publish np
  | forkAlloc _ _ ha => exact (h.allocproc ha).setProc rfl rfl
  | @forkUndo _ p np _ _ hlive =>
    have h1 : CurrentInv (s.endFork p) := h.setProc rfl rfl
    refine h1.idle (p := np) ?_ rfl fun i hi => setProc_of_ne _ _ hi
    rwa [setProc_field s p _ Proc.state rfl np]
  | @forkPublish _ p np _ _ =>
    have h1 : CurrentInv (s.endFork p) := h.setProc rfl rfl
    exact h1.publish np
  | dispatch _ hs => exact h.dispatch hs
  | yield hc => exact h.leave hc rfl fun i hi => by simp [Process.yield,State.makeRunnable,hi]
  | sleep hc => exact h.leave hc (sleepOn_cpu ..) fun i hi => sleepOn_other hi _ _
  | wakeup => exact h.rouse (wakeup1_cpu _) (wakeup1_rouses s _)
  | kill =>
    exact h.rouse (wakes_composes.kill (note_wakes · · _) s _ _ _).cpu
      (rouses_composes.kill (note_rouses · · _) s _ _ _)
  | signalPgid =>
    exact h.rouse (wakes_composes.signalPgid (note_wakes · · _) s _).cpu
      (rouses_composes.signalPgid (note_rouses · · _) s _)
  | applySignals => exact h.signalled (applySignals_signalled s _) (applySignals_context s _)
  | maybeStop hc _ => exact h.leave hc rfl fun i hi => by simp [hi]
  | checkAlarms => exact h.rouse (wakes_composes.checkAlarms (alarmTurn_wakes _) s).cpu (checkAlarms_rouses s _)
  | boost => exact h.rouse (boost_wakes s _).cpu (boost_rouses s _)
  | timerCharge _ | tick | setBoostInterval => exact h.same rfl (fun _ => rfl) fun _ => rfl
  | exit hc => exact h.exits hc _ _
  | waitpid hc ht => exact h.waits hc ht
  | setAlarm _ =>
    exact h.same rfl (keeps_setAlarm (fun _ _ _ => rfl) s _ _ _) (keeps_setAlarm (fun _ _ _ => rfl) s _ _ _)
  | forkCopy | setSignals | setpgid | setsid => exact h.setProc rfl rfl
  | refused => exact h

end Auxv6.Process

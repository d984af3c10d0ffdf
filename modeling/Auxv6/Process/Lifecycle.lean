import Auxv6.Process.Fields
import Auxv6.Process.WaitSteps

/-!
# What one section does to a slot

Only `allocproc`, `fork`, a reap and the exit of the parent change the pid or the parent of a slot.
-/

namespace Auxv6.Process
open Machine

variable {idx : Chan → ℕ} {s t u : State} {a : Action} {c : ℕ} {p cur : Slot}

def Proc.life (x : Proc) : Int × Option Slot × ℕ × ℕ := (x.pid,x.parent,x.alarmTicks,x.alarmIntervalTicks)
def Proc.adoptedLife (x : Proc) (init : Slot) : Int × Option Slot × ℕ × ℕ :=
  (x.pid,some init,x.alarmTicks,x.alarmIntervalTicks)

lemma life_blind : Blind Proc.life := fun _ _ _ _ _ _ _ _ _ _ _ => rfl

def ProcState.Idle (st : ProcState) : Prop := st=.unused ∨ st=.embryo ∨ st=.zombie
def Action.ExitOf (a : Action) (s : State) (i : Slot) : Prop := ∃ c status,a=.exit c status ∧ s.cpu c=some i

inductive SlotStep (s : State) (a : Action) (i : Slot) (y : Proc) : Prop where
  | kept (hlife : y.life=(s.proc i).life)
      (hlive : y.state=.unused ↔ (s.proc i).state=.unused)
      (hidle : y.state.Idle → (s.proc i).state.Idle ∨ a.ExitOf s i)
  | undone (c : ℕ) (cur : Slot) (ha : a=.forkUndo c) (hc : s.cpu c=some cur)
      (hnp : (s.proc cur).np=some i) (hlife : y.life=(s.proc i).life)
      (hx : (s.proc i).state=.embryo) (hy : y.state=.unused)
  | reaped (hx : (s.proc i).state=.zombie) (hlife : y.life=(s.proc i).reaped.life)
      (hy : y.state=.unused)
  | allocated (pid : ℕ) (hx : (s.proc i).state=.unused)
      (hfresh : ∀ q,q≠i → (s.proc q).state≠.unused → (s.proc q).pid≠(pid : ℕ))
      (hfirst : ∀ q < i,(s.proc q).state≠.unused) (hpos : 0<s.nextpid → 0<pid)
      (hlife : y.life=((s.proc i).allocated pid).life) (hy : y.state≠.unused)
  | forked (cur : Slot) (hnp : (s.proc cur).np=some i) (hx : (s.proc i).state=.embryo)
      (hlife : y.life=(Proc.forked cur (s.proc cur) (s.proc i)).life) (hy : y.state≠.unused)
  | adopted (init : Slot) (hinit : s.initproc=some init) (hpar : (s.proc i).parent≠none)
      (hlife : y.life=(s.proc i).adoptedLife init)
      (hlive : y.state=.unused ↔ (s.proc i).state=.unused)
      (hidle : y.state.Idle → (s.proc i).state.Idle ∨ a.ExitOf s i)

structure StaysAt (x y : Proc) : Prop where
  life : y.life=x.life
  live : y.state=.unused ↔ x.state=.unused
  idle : y.state.Idle → x.state.Idle

def Stays (s t : State) : Prop := ∀ i,StaysAt (s.proc i) (t.proc i)

variable {y : Proc}

lemma StaysAt.slotStep {i : Slot} (h : StaysAt (s.proc i) y) : SlotStep s a i y :=
  .kept h.life h.live fun hi => .inl (h.idle hi)
lemma Stays.slotStep (h : Stays s t) (i : Slot) : SlotStep s a i (t.proc i) := (h i).slotStep
lemma Stays.refl (s : State) : Stays s s := fun _ => ⟨rfl,Iff.rfl,id⟩
lemma Stays.trans (h : Stays s t) (h' : Stays t u) : Stays s u := fun i =>
  ⟨(h' i).life.trans (h i).life,(h' i).live.trans (h i).live,(h i).idle ∘ (h' i).idle⟩

lemma Wakes.stays (h : Wakes s t) (hlife : Keeps Proc.life s t) : Stays s t := by
  refine fun i => ⟨hlife i,h.unused_iff i,fun hi => ?_⟩
  rcases h.state i with hst | ⟨hst,-⟩
  · rwa [hst] at hi
  · rw [hst] at hi
    simp [ProcState.Idle] at hi

lemma staysAt_of_eq {x : Proc} (h : y=x) : StaysAt x y := ⟨by rw [h],by rw [h],by rw [h]; exact id⟩
lemma staysAt_of_live {x : Proc} (hlife : y.life=x.life) (hold : x.state≠.unused)
    (hnew : ¬ y.state.Idle) : StaysAt x y :=
  ⟨hlife,iff_of_false (fun hu => hnew (.inl hu)) hold,fun hi => absurd hi hnew⟩

lemma stays_setProc {f : Proc → Proc} (hlife : (f (s.proc p)).life=(s.proc p).life)
    (hst : (f (s.proc p)).state=(s.proc p).state ∨
      (s.proc p).state≠.unused ∧ ¬ (f (s.proc p)).state.Idle) : Stays s (s.setProc p f) := by
  intro i
  by_cases hi : i=p
  · subst hi
    have heq : (s.setProc i f).proc i=f (s.proc i) := setProc_self s i f
    rcases hst with hst | ⟨hold,hnew⟩
    · exact ⟨by rw [heq,hlife],by rw [heq,hst],by rw [heq,hst]; exact id⟩
    · exact staysAt_of_live (by rw [heq,hlife]) hold (by rwa [heq])
  · exact staysAt_of_eq (setProc_of_ne s f hi)

lemma SchedInv.in_use (h : SchedInv s) (hc : s.OnCpu p) : (s.proc p).state≠.unused := by
  rcases h.current p hc with hst | hst <;> simp [hst]
lemma makeRunnable_stays (hp : (s.proc p).state≠.unused) (reason : SchedEnq) : Stays s (s.makeRunnable p reason) :=
  stays_setProc (s := s) (f := fun x => {x with state := .runnable}) rfl (.inr ⟨hp,by simp [ProcState.Idle]⟩)

lemma SchedInv.sleepOn_stays (h : SchedInv s) (hc : s.cpu c=some p) (chan : Chan)
    (context : Context) : Stays s (Process.sleepOn idx s c p chan context) := by
  intro i
  by_cases hi : i=p
  · subst hi
    have hst:=(sleepOn_self idx s c i chan context).1
    exact staysAt_of_live (life_blind.sleepOn s c i chan context i) (h.in_use ⟨c,hc⟩) (by simp [hst,ProcState.Idle])
  · exact staysAt_of_eq (sleepOn_other hi chan context)

def Reaps (s t : State) : Prop :=
  ∀ i,StaysAt (s.proc i) (t.proc i) ∨ ((s.proc i).state=.zombie ∧ (t.proc i).life=(s.proc i).reaped.life ∧
      (t.proc i).state=.unused)

lemma Reaps.slotStep (h : Reaps s t) (i : Slot) : SlotStep s a i (t.proc i) := by
  rcases h i with ⟨hlife,hlive,hidle⟩ | ⟨hz,hlife,hst⟩
  · exact .kept hlife hlive fun hi => .inl (hidle hi)
  · exact .reaped hz hlife hst
lemma Stays.reaps (h : Stays s t) : Reaps s t := fun i => .inl (h i)

lemma Stays.trans_reaps (h : Stays s t) (hz : ∀ i,(t.proc i).state=.zombie →
    (s.proc i).state=.zombie) (h' : Reaps t u) : Reaps s u := by
  intro i
  have hlife:=(h i).life
  rcases h' i with ⟨hl,hst,hi⟩ | ⟨hzi,hl,hst⟩
  · exact .inl ⟨hl.trans hlife,hst.trans (h i).live,(h i).idle ∘ hi⟩
  · refine .inr ⟨hz i hzi,hl.trans ?_,hst⟩
    simp only [Proc.life,Prod.mk.injEq] at hlife
    simp [Proc.life,Proc.reaped,hlife.2.2.1,hlife.2.2.2]

lemma SchedInv.waits_reaps (h : SchedInv s) (hc : s.cpu c=some cur) {pid : Int} {options : WaitOptions}
    (ht : WaitsTo idx s c cur pid options t) : Reaps s t := by
  cases ht with
  | stays => exact (Stays.refl s).reaps
  | event =>
    exact (stays_setProc (f := Proc.noEvent) rfl (.inl rfl)).reaps
  | @reap j hz =>
    intro i
    by_cases hij : i=j
    · subst hij
      have heq : (Process.reap s i).proc i=(s.proc i).reaped := setProc_self s i Proc.reaped
      exact .inr ⟨hz,congrArg Proc.life heq,congrArg Proc.state heq⟩
    · exact .inl (staysAt_of_eq (setProc_of_ne s Proc.reaped hij))
  | sleep => exact (h.sleepOn_stays hc _ _).reaps

lemma sleepReturn_stays (s : State) (p : Slot) (chan : Chan) : Stays s (sleepReturn idx s p chan) := fun i =>
  ⟨life_blind.sleepReturn s p chan i,by rw [sleepReturn_state s p chan i],
    by rw [sleepReturn_state s p chan i]; exact id⟩

lemma SchedInv.taken_stays (h : SchedInv s) {m : Mlfq} (hm : schedqPickNextLocked s.mlfq=(some p,m)) :
    Stays s (s.taken c p m) := by
  refine stays_setProc (s := State.setCpu {s with mlfq := m} c (some p))
    (f := Proc.dispatched) rfl (.inr ⟨?_,by simp [ProcState.Idle]⟩)
  rw [setCpu_proc]
  rw [show (s.proc p).state=.runnable from (h.pick hm).1]
  simp

lemma SchedInv.dispatch_reaps (h : SchedInv s) (hc : s.cpu c=none) (hs : Dispatches idx s c t) : Reaps s t := by
  cases hs with
  | idle => exact (Stays.refl s).reaps
  | run hm _ => exact (h.taken_stays hm).reaps
  | sleep hm _ => exact ((h.taken_stays hm).trans (sleepReturn_stays _ _ _)).reaps
  | @waitpid p m _ _ _ hm _ ht =>
    have hcpu : (s.taken c p m).cpu c=some p := Function.update_self ..
    have hret : Stays s (Process.sleepReturn idx (s.taken c p m) p (.slot p)) :=
      (h.taken_stays hm).trans (sleepReturn_stays _ _ _)
    refine hret.trans_reaps (fun i hi => ?_) ?_
    · rw [sleepReturn_state _ p (.slot p) i] at hi
      by_cases hip : i=p
      · subst hip
        simp [State.taken] at hi
      · simpa [State.taken,hip] using hi
    · exact ((h.take hc hm).sleepReturn p (.slot p)).waits_reaps (by rwa [sleepReturn_cpu]) ht

def Adopts (init : Slot) (s t : State) : Prop :=
  ∀ i,((t.proc i).life=(s.proc i).life ∨ (s.proc i).parent≠none ∧ (t.proc i).life=(s.proc i).adoptedLife init) ∧
    ((t.proc i).state=.unused ↔ (s.proc i).state=.unused) ∧ ((t.proc i).state.Idle → (s.proc i).state.Idle)

lemma Stays.adopts (h : Stays s t) (init : Slot) : Adopts init s t := fun i =>
  ⟨.inl (h i).life,(h i).live,(h i).idle⟩

lemma Adopts.trans {init : Slot} (h : Adopts init s t) (h' : Adopts init t u) : Adopts init s u := by
  refine fun i => ⟨?_,(h' i).2.1.trans (h i).2.1,(h i).2.2 ∘ (h' i).2.2⟩
  have hset : (t.proc i).adoptedLife init=(s.proc i).adoptedLife init := by
    have hrest : (t.proc i).life.1=(s.proc i).life.1 ∧ (t.proc i).life.2.2=(s.proc i).life.2.2 := by
      rcases (h i).1 with h1 | ⟨-,h1⟩ <;> exact ⟨congrArg (·.1) h1,congrArg (·.2.2) h1⟩
    exact Prod.ext hrest.1 (Prod.ext rfl hrest.2)
  rcases (h' i).1 with h2 | ⟨hp2,h2⟩ <;> rcases (h i).1 with h1 | ⟨hp1,h1⟩
  · exact .inl (h2.trans h1)
  · exact .inr ⟨hp1,h2.trans h1⟩
  · have hpar : (t.proc i).parent=(s.proc i).parent := congrArg (·.2.1) h1
    exact .inr ⟨hpar ▸ hp2,h2.trans hset⟩
  · exact .inr ⟨hp1,h2.trans hset⟩

lemma wakeup1_stays (s : State) (chan : Chan) : Stays s (wakeup1 idx s chan) :=
  (wakeup1_wakes s chan).stays (life_blind.wakeup1 s chan)

lemma reparentTurn_adopts (cur init : Slot) (s : State) (p : Slot) :
    Adopts init s (reparentTurn idx cur init s p) := by
  unfold reparentTurn
  dsimp only
  by_cases hp : (s.proc p).parent=some cur
  · rw [if_pos hp]
    have hpar : Adopts init s (s.setProc p (Proc.adopted init)) := by
      intro i
      by_cases hi : i=p
      · subst hi
        rw [setProc_self]
        exact ⟨.inr ⟨by simp [hp],rfl⟩,Iff.rfl,id⟩
      · rw [setProc_of_ne s _ hi]
        exact ⟨.inl rfl,Iff.rfl,id⟩
    split_ifs
    · exact hpar.trans ((wakeup1_stays _ _).adopts init)
    · exact hpar
  · rw [if_neg hp]
    exact (Stays.refl s).adopts init

variable (idx) in
lemma exitReparent_adopts (s : State) (cur init : Slot) : Adopts init s (exitReparent idx s cur init) := by
  unfold exitReparent
  have hfold : ∀ (l : List Slot) (u : State),Adopts init u (l.foldl (reparentTurn idx cur init) u) := by
    intro l
    induction l with
    | nil => exact fun u => (Stays.refl u).adopts init
    | cons p l ih => exact fun u => (reparentTurn_adopts cur init u p).trans (ih _)
  refine Adopts.trans (t := _) ?_ (hfold slots _)
  split
  · exact (wakeup1_stays s _).adopts init
  · exact (wakeup1_stays s _).adopts init

lemma SchedInv.exits_slotStep (h : SchedInv s) (hc : s.cpu c=some cur) {init : Slot}
    (hinit : s.initproc=some init) (status : ℕ) (i : Slot) :
    SlotStep s (.exit c status) i ((s.exits idx c cur init status).proc i) := by
  have hadopt:=exitReparent_adopts idx s cur init
  have hlife : ∀ u : State,Keeps Proc.life u (u.setProc cur (Proc.exited status)) := fun u => keeps_setProc rfl
  have heq : ((s.exits idx c cur init status).proc i).life = _ := hlife (Process.exitReparent idx s cur init) i
  -- only the exiting process falls idle, and it is in use
  have hlive : ((s.exits idx c cur init status).proc i).state=.unused ↔ (s.proc i).state=.unused := by
    by_cases hi : i=cur
    · subst hi
      refine iff_of_false ?_ (h.in_use ⟨c,hc⟩)
      rw [State.exits,setCpu_proc,setProc_self]
      simp [Proc.exited]
    · rw [State.exits,setCpu_proc,setProc_of_ne _ _ hi]
      exact (hadopt i).2.1
  have hidle : ((s.exits idx c cur init status).proc i).state.Idle →
      (s.proc i).state.Idle ∨ (Action.exit c status).ExitOf s i := by
    by_cases hi : i=cur
    · exact fun _ => .inr ⟨c,status,rfl,hi ▸ hc⟩
    · rw [State.exits,setCpu_proc,setProc_of_ne _ _ hi]
      exact fun hidle => .inl ((hadopt i).2.2 hidle)
  rcases (hadopt i).1 with hl | ⟨hpar,hl⟩
  · exact .kept (heq.trans hl) hlive hidle
  · exact .adopted init hinit hpar (heq.trans hl) hlive hidle

lemma allocproc_slotStep {o : Option Slot} (hs : allocproc s=some (o,t)) (i : Slot) : SlotStep s a i (t.proc i) := by
  rcases allocproc_cases hs with ⟨-,rfl⟩ | ⟨np,pid,next,-,hst,hfresh,hfirst,hpos,rfl⟩
  · exact (Stays.refl t).slotStep i
  by_cases hi : i=np
  · subst hi
    have heq:=setProc_self s i (Proc.allocated pid)
    exact .allocated pid hst hfresh hfirst (fun h => (hpos h).1) (congrArg Proc.life heq)
      (by rw [show _ = _ from congrArg Proc.state heq]; simp [Proc.allocated])
  · have heq:=setProc_of_ne s (Proc.allocated pid) hi
    exact (staysAt_of_eq heq).slotStep

lemma SlotStep.then_stays {i : Slot} (h : SlotStep s a i (t.proc i)) (h' : Stays t u) :
    SlotStep s a i (u.proc i) := by
  obtain ⟨hl,hst,hid⟩:=h' i
  cases h with
  | kept hlife hlive hidle =>
    exact .kept (hl.trans hlife) (hst.trans hlive) fun hi => hidle (hid hi)
  | undone c cur ha hc hnp hlife hx hy =>
    exact .undone c cur ha hc hnp (hl.trans hlife) hx (hst.mpr hy)
  | reaped hx hlife hy => exact .reaped hx (hl.trans hlife) (hst.mpr hy)
  | allocated pid hx hfresh hfirst hpos hlife hy =>
    exact .allocated pid hx hfresh hfirst hpos (hl.trans hlife) fun hu => hy (hst.mp hu)
  | forked cur hnp hx hlife hy =>
    exact .forked cur hnp hx (hl.trans hlife) fun hu => hy (hst.mp hu)
  | adopted init hinit hpar hlife hlive hidle =>
    exact .adopted init hinit hpar (hl.trans hlife) (hst.trans hlive) fun hi => hidle (hid hi)

lemma setNp_stays (s : State) (p : Slot) (o : Option Slot) : Stays s (s.setProc p fun x => {x with np := o}) :=
  stays_setProc rfl (.inl rfl)

variable {np : Slot}

lemma userinit_slotStep (ha : allocproc s=some (some np,t)) (i : Slot) :
    SlotStep s a i ((publish {t with initproc := some np} np).proc i) := by
  have hemb : (t.proc np).state=.embryo := by
    rcases allocproc_cases ha with ⟨ho,-⟩ | ⟨np',pid,next,ho,-,-,-,-,rfl⟩
    · cases ho
    · cases ho
      exact congrArg Proc.state (setProc_self s np (Proc.allocated pid))
  have hpub : Stays t (publish {t with initproc := some np} np) := makeRunnable_stays (s := t) (by simp [hemb]) .fork
  exact (allocproc_slotStep ha i).then_stays hpub

lemma SchedInv.forkUndo_slotStep (h : SchedInv s) (hc : s.cpu c=some cur)
    (hnp : (s.proc cur).np=some np) (i : Slot) : SlotStep s (.forkUndo c) i ((forkUndone cur s np).proc i) := by
  have hlife:=life_blind.forkUndo s cur np i
  by_cases hi : i=np
  · subst hi
    exact .undone c cur rfl hc hnp hlife (h.embryo cur i hnp) (by simp [forkUndone])
  have heq : (forkUndone cur s np).proc i = (s.endFork cur).proc i := setProc_of_ne _ _ hi
  have hstays:=setNp_stays s cur none i
  exact .kept hlife (by rw [heq]; exact hstays.live) fun hid => .inl (hstays.idle (heq ▸ hid))

lemma SchedInv.forkCopy_slotStep (h : SchedInv s) (hnp : (s.proc cur).np=some np)
    (i : Slot) : SlotStep s a i ((forkCopy s cur np).proc i) := by
  by_cases hi : i=np
  · subst hi
    have heq : (forkCopy s cur i).proc i = _ := setProc_self s i (Proc.forked cur (s.proc cur))
    rw [heq]
    exact .forked cur hnp (h.embryo cur i hnp) rfl
      (by rw [show (Proc.forked cur (s.proc cur) (s.proc i)).state=.embryo from h.embryo cur i hnp]
          simp)
  · have heq : (forkCopy s cur np).proc i = _ := setProc_of_ne s (Proc.forked cur (s.proc cur)) hi
    exact (staysAt_of_eq heq).slotStep

lemma SchedInv.forkPublish_stays (h : SchedInv s) (hnp : (s.proc cur).np=some np) :
    Stays s (Process.forkPublish cur s np) := by
  have h1:=setNp_stays s cur none
  have hemb : ((s.endFork cur).proc np).state≠.unused :=
    fun hu => by simpa [h.embryo cur np hnp] using (h1 np).live.mp hu
  have h2 : Stays (s.endFork cur) (Process.forkPublish cur s np) := makeRunnable_stays (s := s.endFork cur) hemb .fork
  exact h1.trans h2

lemma SchedInv.applySignals_stays (h : SchedInv s) (hc : s.cpu c=some p) (hok : ApplyOk s p) :
    Stays s (procApplyPendingSignals s p) := by
  have hlife : Keeps Proc.life s (procApplyPendingSignals s p) :=
    Keeps.trans (t := _) (keeps_setProc rfl) (life_blind.signal.applySignals s p)
  intro i
  have hstays:=hlife i
  rcases apply_cases (h.current p ⟨c,hc⟩) hok with ⟨f,hf,heq⟩ | ⟨-,-,f,heq,hf⟩
  · have hst:=setProc_field s p f Proc.state (hf _).2.1 i
    rw [heq] at hstays ⊢
    exact ⟨hstays,by rw [hst],by rw [hst]; exact id⟩
  rw [heq] at hstays ⊢
  by_cases hi : i=p
  · subst hi
    refine staysAt_of_live hstays (h.in_use ⟨c,hc⟩) ?_
    rw [setProc_self,(hf _).2.1]
    simp [ProcState.Idle]
  · exact staysAt_of_eq (setProc_of_ne s f hi)

def Action.setsAlarm : Action → Bool
  | .checkAlarms _ => true
  | .setAlarm _ _ _ => true
  | _ => false

lemma step_slots (h : SchedInv s) (hok : SignalsApart s a) (ha : a.setsAlarm=false)
    (hs : step idx s a=some t) (i : Slot) : SlotStep s a i (t.proc i) := by
  cases step_stepsTo hs with
  | userinit _ hal => exact userinit_slotStep hal i
  | forkAlloc _ _ hal => exact (allocproc_slotStep hal i).then_stays (setNp_stays _ _ _)
  | forkUndo hc hnp => exact h.forkUndo_slotStep hc hnp i
  | forkCopy _ hnp => exact h.forkCopy_slotStep hnp i
  | forkPublish _ hnp => exact (h.forkPublish_stays hnp).slotStep i
  | dispatch hc hs => exact (h.dispatch_reaps hc hs).slotStep i
  | @yield c p hc =>
    have hrun:=makeRunnable_stays (h.in_use ⟨c,hc⟩) .yield
    have hret : Stays (s.makeRunnable p .yield) ((s.makeRunnable p .yield).setProc p Proc.suspended) :=
      stays_setProc rfl (.inl rfl)
    exact (hrun.trans hret).slotStep i
  | sleep hc => exact (h.sleepOn_stays hc _ _).slotStep i
  | wakeup => exact (wakeup1_stays s _).slotStep i
  | kill =>
    exact Stays.slotStep (Wakes.stays (wakes_composes.kill (note_wakes · · _) s _ _ _)
      (life_blind.signal.kill s _ _ _ _)) i
  | signalPgid =>
    exact Stays.slotStep (Wakes.stays (wakes_composes.signalPgid (note_wakes · · _) s _)
      (life_blind.signal.signalPgid s _ _)) i
  | applySignals hc => exact (h.applySignals_stays hc (hok _ hc)).slotStep i
  | @maybeStop _ p _ _ =>
    have hstop : Stays s (s.setProc p Proc.suspended) := stays_setProc rfl (.inl rfl)
    exact hstop.slotStep i
  | checkAlarms => cases ha
  | boost =>
    rw [boost_proc]
    exact (Stays.refl s).slotStep i
  | timerCharge _ | tick | setBoostInterval | refused => exact (Stays.refl s).slotStep i
  | exit hc hi _ => exact h.exits_slotStep hc hi _ i
  | waitpid hc ht => exact (h.waits_reaps hc ht).slotStep i
  | setAlarm => cases ha
  | setSignals | setpgid | setsid => exact Stays.slotStep (stays_setProc rfl (.inl rfl)) i

def Proc.kin (x : Proc) : Int × Option Slot := (x.pid,x.parent)

lemma kin_blind : Blind Proc.kin := fun _ _ _ _ _ _ _ _ _ _ _ => rfl

lemma alarm_kin (ha : a.setsAlarm=true) (hs : step idx s a=some t) :
    Keeps Proc.kin s t ∧ ∀ i,(t.proc i).state=.unused ↔ (s.proc i).state=.unused := by
  cases step_stepsTo hs with
  | checkAlarms =>
    exact ⟨kin_blind.signal.checkAlarms (fun _ _ _ => rfl) s _,
      (wakes_composes.checkAlarms (alarmTurn_wakes _) s).unused_iff⟩
  | setAlarm _ =>
    have hst:=keeps_setAlarm (g := Proc.state) (fun _ _ _ => rfl) s
    exact ⟨keeps_setAlarm (fun _ _ _ => rfl) s _ _ _,fun i => by rw [hst _ _ _ i]⟩
  | refused => exact ⟨fun _ => rfl,fun _ => .rfl⟩
  | _ => cases ha

end Auxv6.Process

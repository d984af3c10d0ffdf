import Auxv6.Process.SchedSafety

/-!
# Fields that the scheduling sections do not write

A function of the fields that no section writes is `Blind` to them.
-/

namespace Auxv6.Process
open Machine

variable {α : Type} {g : Proc → α} {idx : Chan → ℕ} {s t u : State} {c : ℕ} {p cur : Slot}

def Blind (g : Proc → α) : Prop :=
  ∀ (x : Proc) state chan onTickq killed xstatus waitEvent waitStatus sigPending context np,g { x with
      state := state,chan := chan,onTickq := onTickq,killed := killed,xstatus := xstatus
      waitEvent := waitEvent,waitStatus := waitStatus,sigPending := sigPending
      context := context,np := np } = g x
def SignalBlind (g : Proc → α) : Prop :=
  ∀ (x : Proc) state killed xstatus waitEvent waitStatus sigPending,g { x with
      state := state,killed := killed,xstatus := xstatus,waitEvent := waitEvent
      waitStatus := waitStatus,sigPending := sigPending } = g x

lemma Blind.signal (hg : Blind g) : SignalBlind g :=
  fun x st killed xstatus waitEvent waitStatus sigPending =>
    hg x st x.chan x.onTickq killed xstatus waitEvent waitStatus sigPending x.context x.np

def Keeps (g : Proc → α) (s t : State) : Prop := ∀ i,g (t.proc i)=g (s.proc i)

lemma Keeps.refl (g : Proc → α) (s : State) : Keeps g s s := fun _ => rfl
lemma Keeps.trans (h : Keeps g s t) (h' : Keeps g t u) : Keeps g s u := fun i => (h' i).trans (h i)
lemma keeps_composes : Composes (Keeps g) := ⟨Keeps.refl g,Keeps.trans⟩
lemma keeps_setProc {f : Proc → Proc} (hf : g (f (s.proc p))=g (s.proc p)) : Keeps g s (s.setProc p f) :=
  setProc_field s p f g hf
lemma keeps_if {P : Prop} [Decidable P] (ht : P → Keeps g s t) (hu : ¬ P → Keeps g s u) :
    Keeps g s (if P then t else u) := by
  split_ifs with h
  · exact ht h
  · exact hu h

lemma keeps_setAlarm (halarm : ∀ x d i,g {x with alarmTicks := d,alarmIntervalTicks := i} = g x)
    (s : State) (p : Slot) (deadline interval : ℕ) : Keeps g s (procSetAlarmState s p deadline interval) :=
  keeps_setProc (s := s) (f := Proc.setAlarm deadline interval) (halarm ..)

lemma sleepReturn_keeps (hg : ∀ x chan onTickq,g {x with chan := chan,onTickq := onTickq} = g x)
    (s : State) (p : Slot) (chan : Chan) : Keeps g s (sleepReturn idx s p chan) := by
  unfold sleepReturn
  extract_lets s1 h s2
  have h1 : Keeps g s s1 := keeps_if (fun _ => keeps_if (fun _ => Keeps.refl _ s) fun _ =>
      keeps_setProc (s := s) (f := fun x => {x with onTickq := false}) (hg ..))
    fun _ => Keeps.refl _ s
  have h2 : Keeps g s1 s2 := fun _ => rfl
  exact h1.trans (h2.trans (keeps_setProc (hg ..)))
lemma sleepReturn_state (s : State) (p : Slot) (chan : Chan) : Keeps Proc.state s (sleepReturn idx s p chan) :=
  sleepReturn_keeps (fun _ _ _ => rfl) s p chan

namespace SignalBlind

variable (hg : SignalBlind g)
include hg

lemma makeRunnable (s : State) (p : Slot) (reason : SchedEnq) : Keeps g s (s.makeRunnable p reason) :=
  keeps_setProc (s := s) (f := fun x => {x with state := .runnable}) (hg ..)
lemma wakeOne (chan : Chan) (s : State) (p : Slot) : Keeps g s (wakeOne chan s p) :=
  keeps_if (fun _ => hg.makeRunnable s p .wake) fun _ => Keeps.refl g s

lemma note (s : State) (p : Slot) (signo : ℕ) : Keeps g s (procNoteSignalLocked s p signo) := by
  refine keeps_if (fun _ => Keeps.refl g s) fun _ => ?_
  extract_lets s1 s0 s2 s3
  have h1 : Keeps g s s1 := keeps_setProc (hg ..)
  have h0 : Keeps g s1 s0 := keeps_setProc (hg ..)
  have h2 : Keeps g s1 s2 := keeps_if
    (fun _ => h0.trans (keeps_if (fun _ => hg.makeRunnable s0 p .signal) fun _ => Keeps.refl g s0))
    fun _ => Keeps.refl g s1
  have h3 : Keeps g s2 s3 := keeps_if (fun _ => keeps_setProc (hg ..)) fun _ => Keeps.refl g s2
  exact h1.trans (h2.trans (h3.trans (keeps_if (fun _ => hg.makeRunnable s3 p .signal) fun _ => Keeps.refl g s3)))

lemma kill (s : State) (cur : Option Slot) (pid : Int) (signo : ℕ) (initHup : Bool) :
    Keeps g s (killWithSignal s cur pid signo initHup) :=
  keeps_composes.kill (hg.note · · signo) s cur pid initHup
lemma signalPgid (s : State) (pgid : Int) (signo : ℕ) : Keeps g s (procSignalPgid s pgid signo) :=
  keeps_composes.signalPgid (hg.note · · signo) s pgid

lemma applyCont (s : State) (p : Slot) : Keeps g s (applyCont s p) := by
  unfold Process.applyCont
  extract_lets s1
  have h1 : Keeps g s s1 := keeps_setProc (hg ..)
  exact h1.trans (keeps_if (fun _ => (hg.makeRunnable s1 p .signal).trans (keeps_setProc (hg ..)))
    fun _ => Keeps.refl g s1)

lemma applyStop (s : State) (p : Slot) (pending : Sigset) : Keeps g s (applyStop s p pending) := by
  unfold Process.applyStop
  extract_lets s1 st
  have h1 : Keeps g s s1 := keeps_setProc (hg ..)
  exact h1.trans (keeps_if (fun _ => keeps_setProc (hg ..)) fun _ => Keeps.refl g s1)

lemma applyFatal (s : State) (p : Slot) (pending : Sigset) : Keeps g s (applyFatal s p pending) := by
  unfold Process.applyFatal
  extract_lets termsig s1 s2
  have h1 : Keeps g s s1 := keeps_setProc (hg ..)
  have h2 : Keeps g s1 s2 := keeps_if (fun _ => hg.makeRunnable s1 p .signal) fun _ => Keeps.refl g s1
  exact h1.trans (h2.trans (keeps_setProc (hg ..)))

lemma applySignals (s : State) (p : Slot) : Keeps g (s.setProc p fun x => { x with
      sigCaught := x.sigCaught ||| (s.proc p).handled
      sigPending := x.sigPending &&& ~~~(s.proc p).handled }) (procApplyPendingSignals s p) := by
  unfold procApplyPendingSignals
  extract_lets handled pending s1 s2 s3
  have h2 : Keeps g s1 s2 := keeps_if (fun _ => hg.applyCont s1 p) fun _ => Keeps.refl g s1
  have h3 : Keeps g s2 s3 := keeps_if (fun _ => hg.applyStop s2 p _) fun _ => Keeps.refl g s2
  exact h2.trans (h3.trans (keeps_if (fun _ => hg.applyFatal s3 p _) fun _ => Keeps.refl g s3))

lemma alarmTurn (halarm : ∀ x d i,g {x with alarmTicks := d,alarmIntervalTicks := i} = g x)
    (now : ℕ) (s : State) (p : Slot) : Keeps g s (alarmTurn now s p) := by
  unfold Process.alarmTurn
  extract_lets x s1 s2
  have h1 : Keeps g s s1 := keeps_if (fun _ => keeps_setProc (halarm ..)) fun _ => keeps_setAlarm halarm s p 0 0
  have h2 : Keeps g s1 s2 := keeps_setProc (hg ..)
  exact keeps_if (fun _ => Keeps.refl g s) fun _ => h1.trans (h2.trans
    (keeps_if (fun _ => hg.makeRunnable s2 p .alarm) fun _ => Keeps.refl g s2))

lemma checkAlarms (halarm : ∀ x d i,g {x with alarmTicks := d,alarmIntervalTicks := i} = g x)
    (s : State) (now : ℕ) : Keeps g s (procCheckAlarms s now) :=
  keeps_composes.checkAlarms (hg.alarmTurn halarm now) s

end SignalBlind

namespace Blind

variable (hg : Blind g)
include hg

lemma tickAdd (s : State) (p : Slot) : Keeps g s (tickSleepqAddLocked s p) :=
  keeps_if (fun _ => Keeps.refl g s) fun _ =>
    keeps_setProc (s := s) (f := fun x => {x with onTickq := true}) (hg ..)
lemma tickRemove (s : State) (p : Slot) : Keeps g s (tickSleepqRemoveLocked s p) :=
  keeps_if (fun _ => Keeps.refl g s) fun _ =>
    keeps_setProc (s := s) (f := fun x => {x with onTickq := false}) (hg ..)
lemma wakeup1 (s : State) (chan : Chan) : Keeps g s (wakeup1 idx s chan) :=
  keeps_composes.wakeup1 hg.signal.wakeOne
    (fun s p => (hg.signal.wakeOne .ticks s p).trans (hg.tickRemove _ p)) idx s chan

lemma sleepOn (s : State) (c : ℕ) (p : Slot) (chan : Chan) (context : Context) :
    Keeps g s (sleepOn idx s c p chan context) := by
  unfold Process.sleepOn
  extract_lets h s1 s2 s3
  have h1 : Keeps g s s1 := fun _ => rfl
  have h2 : Keeps g s1 s2 := keeps_if (fun _ => hg.tickAdd s1 p) fun _ => Keeps.refl g s1
  have h3 : Keeps g s2 s3 := keeps_setProc (hg ..)
  exact h1.trans (h2.trans h3)

lemma sleepReturn (s : State) (p : Slot) (chan : Chan) : Keeps g s (sleepReturn idx s p chan) :=
  sleepReturn_keeps (fun _ _ _ => hg ..) s p chan
lemma yield (s : State) (c : ℕ) (p : Slot) : Keeps g s (yield s c p) :=
  (hg.signal.makeRunnable s p .yield).trans (keeps_setProc (f := Proc.suspended) (hg ..))
lemma exitReparent (hpar : ∀ x o,g {x with parent := o} = g x) (s : State) (cur init : Slot) :
    Keeps g s (exitReparent idx s cur init) :=
  keeps_composes.exitReparent hg.wakeup1 (fun _ _ => keeps_setProc (hpar ..)) s cur

lemma exits (hpar : ∀ x o,g {x with parent := o} = g x) (s : State) (c : ℕ) (cur init : Slot) (status : ℕ) :
    Keeps g s (s.exits idx c cur init status) := by
  have hrep : Keeps g s (Process.exitReparent idx s cur init) := hg.exitReparent hpar s cur init
  unfold State.exits
  generalize Process.exitReparent idx s cur init=u at hrep ⊢
  have hexit : Keeps g u (u.setProc cur (Proc.exited status)) := keeps_setProc (hg ..)
  exact hrep.trans hexit

lemma forkUndo (s : State) (cur np : Slot) : Keeps g s (forkUndone cur s np) :=
  (keeps_setProc (s := s) (p := cur) (f := fun x => {x with np := none}) (hg ..)).trans
    (keeps_setProc (f := fun x => {x with state := .unused}) (hg ..))
lemma forkPublish (s : State) (cur np : Slot) : Keeps g s (forkPublish cur s np) :=
  (keeps_setProc (s := s) (p := cur) (f := fun x => {x with np := none}) (hg ..)).trans
    (hg.signal.makeRunnable _ np .fork)
lemma reaped : Blind (g ∘ Proc.reaped) := fun x _ chan _ _ _ _ _ _ context np =>
  hg (Proc.reaped x) .unused chan false false 0 .none 0 0 context np

lemma waits {pid : Int} {options : WaitOptions} (ht : WaitsTo idx s c cur pid options t) (i : Slot) :
    g (t.proc i)=g (s.proc i) ∨ (s.proc i).state=.zombie ∧ t.proc i=(s.proc i).reaped := by
  cases ht with
  | stays => exact .inl rfl
  | event => exact .inl (keeps_setProc (f := Proc.noEvent) (hg ..) i)
  | @reap j hz =>
    by_cases hij : i=j
    · subst hij
      exact .inr ⟨hz,setProc_self s i Proc.reaped⟩
    · exact .inl (congrArg g (setProc_of_ne s Proc.reaped hij))
  | sleep => exact .inl (hg.sleepOn s c cur _ _ i)

lemma dispatch (hs : Dispatches idx s c t) (i : Slot) :
    g (t.proc i)=g (s.proc i) ∨ (s.proc i).state=.zombie ∧ g (t.proc i)=g (s.proc i).reaped := by
  have hrun : ∀ {β : Type} {g' : Proc → β} {p m},Blind g' → Keeps g' s (s.taken c p m) := fun hg' =>
    keeps_setProc (s := s) (f := Proc.dispatched) (hg' ..)
  cases hs with
  | idle => exact .inl rfl
  | run => exact .inl (hrun hg i)
  | sleep => exact .inl ((hrun hg).trans (hg.sleepReturn _ _ _) i)
  | @waitpid p m _ _ _ _ _ ht =>
    have hkeep : ∀ {β : Type} {g' : Proc → β},Blind g' →
        Keeps g' s (Process.sleepReturn idx (s.taken c p m) p (.slot p)) := fun hg' =>
      (hrun hg').trans (hg'.sleepReturn _ p _)
    rcases hg.waits ht i with h | ⟨hz,h⟩
    · exact .inl (h.trans (hkeep hg i))
    refine .inr ⟨?_,(congrArg g h).trans (hkeep hg.reaped i)⟩
    rw [sleepReturn_state _ p (.slot p) i] at hz
    by_cases hip : i=p
    · subst hip
      simp [State.taken] at hz
    · simpa [State.taken,hip] using hz

end Blind

lemma boostTurn_proc (s : State) (p : Slot) : (boostTurn s p).proc=s.proc := by
  unfold boostTurn
  cases (s.proc p).state <;> dsimp only <;> try split_ifs
  all_goals rfl

lemma boost_proc (s : State) (now : ℕ) : (mlfqApplyGlobalBoost s now).proc=s.proc := by
  have hfold : ∀ (l : List Slot) (u : State),(l.foldl boostTurn u).proc=u.proc := by
    intro l
    induction l with
    | nil => exact fun _ => rfl
    | cons p l ih => exact fun u => (ih _).trans (boostTurn_proc u p)
  unfold mlfqApplyGlobalBoost
  split_ifs
  · rfl
  · exact hfold slots _

end Auxv6.Process

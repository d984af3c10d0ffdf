import Auxv6.Process.Table

/-!
# Runs of the process system

An action is one section under `ptable.lock`, or one of the few writes to the table without it. A section
of the current process of a CPU can be entered at any time. Boot is a zeroed table, and `userinit` its first
action.
-/

namespace Auxv6.Process
open Machine Option

inductive Action where
  | userinit
  | forkAlloc (c : ℕ)
  | forkUndo (c : ℕ)
  | forkCopy (c : ℕ)
  | forkPublish (c : ℕ)
  | dispatch (c : ℕ)
  | yield (c : ℕ)
  | sleep (c : ℕ) (chan : Chan)
  | wakeup (chan : Chan)
  | kill (c : ℕ) (pid : Int) (signo : ℕ) (initHup : Bool)
  | signalPgid (pgid : Int) (signo : ℕ)
  | applySignals (c : ℕ)
  | maybeStop (c : ℕ)
  | checkAlarms (now : ℕ)
  | boost (now : ℕ)
  | timerCharge (c : ℕ)
  | tick
  | exit (c : ℕ) (status : ℕ)
  | waitpid (c : ℕ) (pid : Int) (options : WaitOptions)
  | setAlarm (c : ℕ) (deadline interval : ℕ)
  | setSignals (c : ℕ) (pending caught mask ignored : Sigset) (handler : ℕ → ℕ) (killed : Bool)
      (xstatus : ℕ)
  | setpgid (c : ℕ) (pid pgid : Int)
  | setsid (c : ℕ)
  | setBoostInterval (interval : ℕ)

def zeroProc : Proc where
  state := .unused
  pid := 0
  pgid := 0
  sid := 0
  parent := none
  chan := none
  onTickq := false
  killed := false
  xstatus := 0
  waitEvent := .none
  waitStatus := 0
  sigPending := 0
  sigCaught := 0
  sigMask := 0
  sigIgnored := 0
  sigHandler := fun _ => 0
  alarmTicks := 0
  alarmIntervalTicks := 0
  context := .none
  np := none

def zeroState : State where
  proc := fun _ => zeroProc
  mlfq := ⟨⟨fun _ => none,fun _ => none,fun _ => none,fun _ => none,fun _ => 0⟩,fun _ => ⟨0,false,0,0⟩⟩
  cpu := fun _ => none
  chanWaitHash := fun _ => 0
  tickSleepq := []
  ticks := 0
  nextpid := 1
  initproc := none
  activeAlarmCount := 0
  lastBoostTick := 0
  boostInterval := 200

/-- `proc_lifecycle.c:212-266`. -/
def userinit (s : State) : Option State :=
  match s.initproc, allocproc s with
  | none, some (some p,s) => some (publish {s with initproc := some p} p)
  | _, _ => none

def boostIntervalMin : ℕ := 10
def boostIntervalMax : ℕ := 5000

/-- `proc_sched.c:267-279`. -/
def mlfqSetBoostInterval (s : State) (interval : ℕ) : State :=
  if interval<boostIntervalMin ∨ boostIntervalMax < interval then s
  else {s with boostInterval := interval,lastBoostTick := s.ticks}

def State.current (s : State) (c : ℕ) (f : Slot → Option State) : Option State := (s.cpu c).bind f
def forkAlloc (s : State) (cur : Slot) : Option State :=
  match (s.proc cur).np, allocproc s with
  | none, some (np,s) => some (s.setProc cur fun x => {x with np := np})
  | _, _ => none
def State.forking (s : State) (cur : Slot) (f : State → Slot → State) : Option State :=
  (s.proc cur).np.map fun np => f s np
/-- `vm.c:36-51`. -/
def ProcState.requiresAddrspace : ProcState → Bool
  | .sleeping | .runnable | .running | .stopped => true
  | .unused | .embryo | .zombie => false
abbrev State.endFork (s : State) (cur : Slot) : State := s.setProc cur fun x => {x with np := none}
def forkUndone (cur : Slot) (s : State) (np : Slot) : State :=
  (s.endFork cur).setProc np fun x => {x with state := .unused}
/-- A fork that fails (`proc_lifecycle.c:182-195`, `:286-289`, `:329-336`). `switchuvm` panics for a child
without an address space, and `proc_clear_addrspace` for one that is live (`vm.c:87-95`). -/
def forkUndo (cur : Slot) (s : State) (np : Slot) : Option State :=
  if (s.proc np).state.requiresAddrspace then none else some (forkUndone cur s np)
def forkPublish (cur : Slot) (s : State) (np : Slot) : State := publish (s.endFork cur) np

def step (idx : Chan → ℕ) (s : State) : Action → Option State
  | .userinit => userinit s
  | .forkAlloc c => s.current c fun p => forkAlloc s p
  | .forkUndo c => s.current c fun p => (s.proc p).np.bind (forkUndo p s)
  | .forkCopy c => s.current c fun p => s.forking p fun s np => forkCopy s p np
  | .forkPublish c => s.current c fun p => s.forking p (forkPublish p)
  | .dispatch c => if s.cpu c=none then dispatch idx s c else none
  | .yield c => s.current c fun p => some (yield s c p)
  | .sleep c chan => s.current c fun p => some (sleepOn idx s c p chan (.sleep chan))
  | .wakeup chan => some (wakeup1 idx s chan)
  | .kill c pid signo initHup => some (killWithSignal s (s.cpu c) pid signo initHup)
  | .signalPgid pgid signo => some (procSignalPgid s pgid signo)
  | .applySignals c => s.current c fun p => some (procApplyPendingSignals s p)
  | .maybeStop c => s.current c fun p => some (procMaybeStopCurrent s c p)
  | .checkAlarms now => some (procCheckAlarms s now)
  | .boost now => some (mlfqApplyGlobalBoost s now)
  | .timerCharge c => s.current c fun p => some {s with mlfq := mlfqTimerCharge s.mlfq p}
  | .tick => some {s with ticks := uintAdd s.ticks 1}
  | .exit c status => s.current c fun p => exit idx s c p status
  | .waitpid c pid options => s.current c fun p => some (waitpidTurn idx s c p pid options).2
  | .setAlarm c deadline interval =>
    s.current c fun p => some (procSetAlarmState s p deadline interval)
  | .setSignals c pending caught mask ignored handler killed xstatus =>
    s.current c fun p => some (s.setProc p fun x => { x with
      sigPending := pending,sigCaught := caught,sigMask := mask,sigIgnored := ignored
      sigHandler := handler,killed := killed,xstatus := xstatus })
  | .setpgid c pid pgid => s.current c fun p => some (match setpgidTarget s p pid pgid with
    | none => s
    | some (t,g) => s.setProc t fun x => {x with pgid := g})
  | .setsid c => s.current c fun p => some (if setsidAllowed s p then
      s.setProc p fun x => {x with sid := x.pid,pgid := x.pid} else s)
  | .setBoostInterval interval => some (mlfqSetBoostInterval s interval)

/-! ### Loops over the table

A reflexive and transitive relation that one turn of a loop meets holds over the loop. -/

structure Composes (R : State → State → Prop) : Prop where
  refl : ∀ s,R s s
  trans : ∀ {s t u},R s t → R t u → R s u

namespace Composes

variable {R : State → State → Prop} (hR : Composes R) {signo : ℕ}
include hR

lemma foldl {α : Type} {f : State → α → State} (hf : ∀ s a,R s (f s a)) (l : List α)
    (s : State) : R s (l.foldl f s) := by
  induction l generalizing s with
  | nil => exact hR.refl s
  | cons a l ih => exact hR.trans (hf s a) (ih _)

lemma wakeup1 (hone : ∀ chan s p,R s (wakeOne chan s p))
    (htick : ∀ s p,R s (tickSleepqRemoveLocked (wakeOne .ticks s p) p)) (idx : Chan → ℕ)
    (s : State) (chan : Chan) : R s (wakeup1 idx s chan) := by
  unfold Process.wakeup1
  cases chan with
  | ticks => exact hR.foldl htick _ s
  | slot p =>
    split_ifs
    · exact hR.refl s
    · exact hone _ s p
  | addr a =>
    split_ifs
    · exact hR.refl s
    · exact hR.foldl (hone _) slots s

lemma exitReparent {idx : Chan → ℕ} {init : Slot} (hwake : ∀ s chan,R s (Process.wakeup1 idx s chan))
    (hpar : ∀ (s : State) p,R s (s.setProc p (Proc.adopted init))) (s : State)
    (cur : Slot) : R s (exitReparent idx s cur init) := by
  have hturn : ∀ s p,R s (reparentTurn idx cur init s p) := by
    intro s p
    unfold reparentTurn
    dsimp only
    split_ifs
    · exact hR.trans (hpar s p) (hwake _ _)
    · exact hpar s p
    · exact hR.refl s
  unfold Process.exitReparent
  cases (s.proc cur).parent with
  | none => exact hR.trans (hwake s _) (hR.foldl hturn slots _)
  | some parent => exact hR.trans (hwake s _) (hR.foldl hturn slots _)

section
variable (hnote : ∀ s i,R s (procNoteSignalLocked s i signo))
include hnote

lemma killLoop (cur : Option Slot) (pid : Int) (initHup : Bool) (l : List Slot) (s : State) :
    R s (killLoop cur pid signo initHup l s) := by
  induction l generalizing s with
  | nil => exact hR.refl s
  | cons i l ih =>
    unfold Process.killLoop
    split_ifs
    · exact hnote s i
    · exact hR.trans (hnote s i) (ih _)
    · exact ih s

lemma kill (s : State)
    (cur : Option Slot) (pid : Int) (initHup : Bool) : R s (killWithSignal s cur pid signo initHup) := by
  unfold killWithSignal
  split_ifs
  · exact hR.killLoop hnote cur pid initHup slots s
  · exact hR.refl s

lemma signalPgid (s : State) (pgid : Int) : R s (procSignalPgid s pgid signo) := by
  unfold procSignalPgid
  split_ifs
  · exact hR.refl s
  refine hR.foldl (fun s i => ?_) slots s
  split_ifs
  · exact hnote s i
  · exact hR.refl s

end

lemma checkAlarms {now : ℕ} (hturn : ∀ s p,R s (alarmTurn now s p)) (s : State) : R s (procCheckAlarms s now) := by
  unfold procCheckAlarms
  split_ifs
  · exact hR.refl s
  · exact hR.foldl hturn slots s

lemma boost {now : ℕ} (hclock : ∀ s,R s {s with lastBoostTick := now})
    (hturn : ∀ s p,R s (boostTurn s p)) (s : State) : R s (mlfqApplyGlobalBoost s now) := by
  unfold mlfqApplyGlobalBoost
  split_ifs
  · exact hR.refl s
  · exact hR.trans (hclock s) (hR.foldl hturn slots _)

end Composes

def State.taken (s : State) (c : ℕ) (p : Slot) (m : Mlfq) : State :=
  (State.setCpu {s with mlfq := m} c (some p)).setProc p Proc.dispatched
def State.exits (idx : Chan → ℕ) (s : State) (c : ℕ) (p init : Slot) (status : ℕ) : State :=
  ((exitReparent idx s p init).setProc p (Proc.exited status)).setCpu c none

inductive WaitsTo (idx : Chan → ℕ) (s : State) (c : ℕ) (p : Slot) (pid : Int) (options : WaitOptions) :
    State → Prop
  | stays : WaitsTo idx s c p pid options s
  | event {i} : WaitsTo idx s c p pid options (s.setProc i Proc.noEvent)
  | reap {i} (hz : (s.proc i).state=.zombie) : WaitsTo idx s c p pid options (reap s i)
  | sleep {l} (hscan : waitScan s p pid=.children l) (hnone : ∀ i∈l,(s.proc i).reportable options=false) :
    WaitsTo idx s c p pid options (sleepOn idx s c p (.slot p) (.waitpid pid options))

inductive Dispatches (idx : Chan → ℕ) (s : State) (c : ℕ) : State → Prop
  | idle : Dispatches idx s c s
  | run {p m} (hm : schedqPickNextLocked s.mlfq=(some p,m))
    (hctx : (s.proc p).context=.forkret ∨ (s.proc p).context=.ret) : Dispatches idx s c (s.taken c p m)
  | sleep {p m chan} (hm : schedqPickNextLocked s.mlfq=(some p,m)) (hctx : (s.proc p).context=.sleep chan) :
    Dispatches idx s c (sleepReturn idx (s.taken c p m) p chan)
  | waitpid {p m pid options t} (hm : schedqPickNextLocked s.mlfq=(some p,m))
    (hctx : (s.proc p).context=.waitpid pid options)
    (ht : WaitsTo idx (sleepReturn idx (s.taken c p m) p (.slot p)) c p pid options t) :
    Dispatches idx s c t

inductive StepsTo (idx : Chan → ℕ) (s : State) : Action → State → Prop
  | userinit {np u} (hi : s.initproc=none) (ha : allocproc s=some (some np,u)) :
    StepsTo idx s .userinit (publish {u with initproc := some np} np)
  | forkAlloc {c p np u} (hc : s.cpu c=some p) (hnp : (s.proc p).np=none)
    (ha : allocproc s=some (np,u)) : StepsTo idx s (.forkAlloc c) (u.setProc p fun x => {x with np := np})
  | forkUndo {c p np} (hc : s.cpu c=some p) (hnp : (s.proc p).np=some np)
    (hlive : (s.proc np).state.requiresAddrspace=false) : StepsTo idx s (.forkUndo c) (forkUndone p s np)
  | forkCopy {c p np} (hc : s.cpu c=some p) (hnp : (s.proc p).np=some np) :
    StepsTo idx s (.forkCopy c) (forkCopy s p np)
  | forkPublish {c p np} (hc : s.cpu c=some p) (hnp : (s.proc p).np=some np) :
    StepsTo idx s (.forkPublish c) (forkPublish p s np)
  | dispatch {c t} (hc : s.cpu c=none) (hs : Dispatches idx s c t) : StepsTo idx s (.dispatch c) t
  | yield {c p} (hc : s.cpu c=some p) : StepsTo idx s (.yield c) (yield s c p)
  | sleep {c p chan} (hc : s.cpu c=some p) :
    StepsTo idx s (.sleep c chan) (sleepOn idx s c p chan (.sleep chan))
  | wakeup {chan} : StepsTo idx s (.wakeup chan) (wakeup1 idx s chan)
  | kill {c pid signo initHup} :
    StepsTo idx s (.kill c pid signo initHup) (killWithSignal s (s.cpu c) pid signo initHup)
  | signalPgid {pgid signo} : StepsTo idx s (.signalPgid pgid signo) (procSignalPgid s pgid signo)
  | applySignals {c p} (hc : s.cpu c=some p) : StepsTo idx s (.applySignals c) (procApplyPendingSignals s p)
  | maybeStop {c p} (hc : s.cpu c=some p) (hst : (s.proc p).state=.stopped) :
    StepsTo idx s (.maybeStop c) ((s.setProc p Proc.suspended).setCpu c none)
  | checkAlarms {now} : StepsTo idx s (.checkAlarms now) (procCheckAlarms s now)
  | boost {now} : StepsTo idx s (.boost now) (mlfqApplyGlobalBoost s now)
  | timerCharge {c p} (hc : s.cpu c=some p) :
    StepsTo idx s (.timerCharge c) {s with mlfq := mlfqTimerCharge s.mlfq p}
  | tick : StepsTo idx s .tick {s with ticks := uintAdd s.ticks 1}
  | exit {c p init status} (hc : s.cpu c=some p) (hi : s.initproc=some init) (hne : p≠init) :
    StepsTo idx s (.exit c status) (s.exits idx c p init status)
  | waitpid {c p pid options t} (hc : s.cpu c=some p) (ht : WaitsTo idx s c p pid options t) :
    StepsTo idx s (.waitpid c pid options) t
  | setAlarm {c p deadline interval} (hc : s.cpu c=some p) :
    StepsTo idx s (.setAlarm c deadline interval) (procSetAlarmState s p deadline interval)
  | setSignals {c p pending caught mask ignored handler killed xstatus} (hc : s.cpu c=some p) :
    StepsTo idx s (.setSignals c pending caught mask ignored handler killed xstatus) (s.setProc p fun x => { x with
        sigPending := pending,sigCaught := caught,sigMask := mask,sigIgnored := ignored
        sigHandler := handler,killed := killed,xstatus := xstatus })
  | setpgid {c p pid pgid q g} (hc : s.cpu c=some p) (hq : setpgidTarget s p pid pgid=some (q,g)) :
    StepsTo idx s (.setpgid c pid pgid) (s.setProc q fun x => {x with pgid := g})
  | setsid {c p} (hc : s.cpu c=some p) (hp : setsidAllowed s p=true) :
    StepsTo idx s (.setsid c) (s.setProc p fun x => {x with sid := x.pid,pgid := x.pid})
  | setBoostInterval {interval} :
    StepsTo idx s (.setBoostInterval interval) {s with boostInterval := interval,lastBoostTick := s.ticks}
  | refused {a} : StepsTo idx s a s

variable {idx : Chan → ℕ} {s t : State} {a : Action}

lemma State.current_eq_some {c : ℕ} {f : Slot → Option State} (h : s.current c f=some t) :
    ∃ p,s.cpu c=some p ∧ f p=some t :=
  bind_eq_some_iff.mp h

variable (idx s) in
lemma waitpidTurn_waitsTo (c : ℕ) (p : Slot) (pid : Int) (options : WaitOptions) :
    WaitsTo idx s c p pid options (waitpidTurn idx s c p pid options).2 := by
  unfold waitpidTurn
  cases hscan : waitScan s p pid with
  | notChild => exact .stays
  | children l =>
    dsimp only
    cases hf : l.find? fun i => (s.proc i).reportable options with
    | some i =>
      have hrep:=List.find?_some (p := fun i => (s.proc i).reportable options) hf
      dsimp only [reportChild]
      split_ifs with hev
      · exact .event
      · exact .reap (by simpa [Proc.reportable,hev] using hrep)
    | none =>
      dsimp only
      split_ifs
      · exact .stays
      · exact .stays
      · exact .sleep hscan fun i hi => by simpa using List.find?_eq_none.mp hf i hi

lemma dispatch_dispatches {c : ℕ} (hs : dispatch idx s c=some t) : Dispatches idx s c t := by
  unfold dispatch at hs
  split at hs
  · exact some.inj hs ▸ .idle
  rename_i p m hm
  cases hctx : (s.proc p).context with
  | none => rw [hctx] at hs; cases hs
  | forkret => rw [hctx] at hs; exact some.inj hs ▸ .run hm (.inl hctx)
  | ret => rw [hctx] at hs; exact some.inj hs ▸ .run hm (.inr hctx)
  | sleep chan => rw [hctx] at hs; exact some.inj hs ▸ .sleep hm hctx
  | waitpid pid options => rw [hctx] at hs; exact some.inj hs ▸ .waitpid hm hctx (waitpidTurn_waitsTo ..)

lemma step_stepsTo (hs : step idx s a=some t) : StepsTo idx s a t := by
  cases a with
  | userinit =>
    simp only [step,userinit] at hs
    split at hs
    · cases hs
      exact .userinit ‹_› ‹_›
    · cases hs
  | forkAlloc c =>
    obtain ⟨p,hc,hp⟩:=State.current_eq_some hs
    unfold forkAlloc at hp
    split at hp
    · cases hp
      exact .forkAlloc hc ‹_› ‹_›
    · cases hp
  | forkUndo c =>
    obtain ⟨p,hc,hp⟩:=State.current_eq_some hs
    obtain ⟨np,hnp,hu⟩:=bind_eq_some_iff.mp hp
    unfold forkUndo at hu
    split_ifs at hu with hlive
    exact some.inj hu ▸ .forkUndo hc hnp (Bool.eq_false_of_not_eq_true hlive)
  | forkCopy c | forkPublish c =>
    obtain ⟨p,hc,hp⟩:=State.current_eq_some hs
    obtain ⟨np,hnp,rfl⟩:=map_eq_some_iff.mp hp
    constructor <;> assumption
  | dispatch c =>
    simp only [step] at hs
    split_ifs at hs with hc
    exact .dispatch hc (dispatch_dispatches hs)
  | exit c status =>
    obtain ⟨p,hc,hp⟩:=State.current_eq_some hs
    unfold exit at hp
    split at hp
    · cases hp
    · split_ifs at hp with hne
      exact some.inj hp ▸ .exit hc ‹_› hne
  | waitpid c pid options =>
    obtain ⟨p,hc,hp⟩:=State.current_eq_some hs
    exact some.inj hp ▸ .waitpid hc (waitpidTurn_waitsTo ..)
  | maybeStop c =>
    obtain ⟨p,hc,hp⟩:=State.current_eq_some hs
    cases hp
    unfold procMaybeStopCurrent
    split_ifs with hst
    · exact .maybeStop hc hst
    · exact .refused
  | setpgid c pid pgid =>
    obtain ⟨p,hc,hp⟩:=State.current_eq_some hs
    cases hp
    split
    · exact .refused
    · exact .setpgid hc ‹_›
  | setsid c =>
    obtain ⟨p,hc,hp⟩:=State.current_eq_some hs
    cases hp
    split_ifs with hallow
    · exact .setsid hc hallow
    · exact .refused
  | setBoostInterval interval =>
    cases hs
    unfold mlfqSetBoostInterval
    split_ifs
    · exact .refused
    · exact .setBoostInterval
  | wakeup _ | kill _ _ _ _ | signalPgid _ _ | checkAlarms _ | boost _ | tick =>
    cases hs
    constructor
  | _ =>
    obtain ⟨p,hc,hp⟩:=State.current_eq_some hs
    cases hp
    constructor
    exact hc

end Auxv6.Process

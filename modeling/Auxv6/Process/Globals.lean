import Auxv6.Process.Fields

/-! # Variables beside the process table -/

namespace Auxv6.Process
open Machine

variable {idx : Chan → ℕ} {s t : State} {a : Action} {c : ℕ} {p cur : Slot}

structure Globals where
  ticks : ℕ
  nextpid : ℕ
  initproc : Option Slot
  activeAlarmCount : Int
  lastBoostTick : ℕ
  boostInterval : ℕ

def State.globals (s : State) : Globals :=
  ⟨s.ticks,s.nextpid,s.initproc,s.activeAlarmCount,s.lastBoostTick,s.boostInterval⟩

lemma globals_composes : Composes fun s t => t.globals=s.globals := ⟨fun _ => rfl,fun h h' => h'.trans h⟩
lemma if_globals {P : Prop} [Decidable P] {u v : State} (ht : P → u.globals=s.globals)
    (hu : ¬ P → v.globals=s.globals) : (if P then u else v).globals=s.globals := by
  split_ifs with h
  · exact ht h
  · exact hu h
lemma wakeOne_globals (chan : Chan) (s : State) (p : Slot) : (wakeOne chan s p).globals=s.globals :=
  if_globals (fun _ => rfl) fun _ => rfl
lemma wakeup1_globals (s : State) (chan : Chan) : (wakeup1 idx s chan).globals=s.globals :=
  globals_composes.wakeup1 wakeOne_globals (fun s p => Eq.trans (b := (wakeOne .ticks s p).globals)
      (if_globals (fun _ => rfl) fun _ => rfl) (wakeOne_globals _ s p)) idx s chan
lemma sleepOn_globals (chan : Chan) (context : Context) : (sleepOn idx s c p chan context).globals=s.globals := by
  unfold sleepOn tickSleepqAddLocked
  dsimp only
  split_ifs <;> rfl
lemma sleepReturn_globals (s : State) (p : Slot) (chan : Chan) : (sleepReturn idx s p chan).globals=s.globals := by
  unfold sleepReturn tickSleepqRemoveLocked
  split_ifs <;> rfl
lemma waits_globals {pid : Int} {options : WaitOptions} (ht : WaitsTo idx s c cur pid options t) :
    t.globals=s.globals := by
  cases ht with
  | stays | event | reap => rfl
  | sleep => exact sleepOn_globals _ _
lemma dispatch_globals (hs : Dispatches idx s c t) : t.globals=s.globals := by
  cases hs with
  | idle | run => rfl
  | sleep => exact (sleepReturn_globals _ _ _).trans rfl
  | waitpid _ _ ht => rw [waits_globals ht,sleepReturn_globals]; rfl

lemma exits_globals (s : State) (c : ℕ) (cur init : Slot) (status : ℕ) :
    (s.exits idx c cur init status).globals=s.globals := by
  have hreparent : (exitReparent idx s cur init).globals=s.globals :=
    globals_composes.exitReparent wakeup1_globals (fun _ _ => rfl) s cur
  unfold State.exits
  generalize exitReparent idx s cur init=u at hreparent ⊢
  exact hreparent

lemma note_globals (s : State) (p : Slot) (signo : ℕ) : (procNoteSignalLocked s p signo).globals=s.globals := by
  unfold procNoteSignalLocked
  dsimp only
  split_ifs <;> rfl

lemma applySignals_globals (s : State) (p : Slot) : (procApplyPendingSignals s p).globals=s.globals := by
  have hcont : ∀ u : State,(applyCont u p).globals=u.globals := by
    intro u
    unfold applyCont
    dsimp only
    split_ifs <;> rfl
  have hstop : ∀ (u : State) pending,(applyStop u p pending).globals=u.globals := by
    intro u pending
    unfold applyStop
    dsimp only
    split_ifs <;> rfl
  have hfatal : ∀ (u : State) pending,(applyFatal u p pending).globals=u.globals := by
    intro u pending
    unfold applyFatal
    dsimp only
    split_ifs <;> rfl
  unfold procApplyPendingSignals
  extract_lets handled pending s1 s2 s3
  have h2 : s2.globals=s.globals := if_globals (fun _ => hcont s1) fun _ => rfl
  have h3 : s3.globals=s.globals := if_globals (fun _ => (hstop s2 _).trans h2) fun _ => h2
  exact if_globals (fun _ => (hfatal s3 _).trans h3) fun _ => h3

lemma boostTurn_globals (s : State) (p : Slot) : (boostTurn s p).globals=s.globals := by
  unfold boostTurn
  split
  · rfl
  · rfl
  · rfl
  · rfl
  · exact if_globals (fun _ => rfl) fun _ => rfl
  · exact if_globals (fun _ => rfl) fun _ => rfl
  · exact if_globals (fun _ => rfl) fun _ => rfl

def Action.setsGlobals : Action → Bool
  | .userinit | .forkAlloc _ | .checkAlarms _ | .boost _ | .tick | .setAlarm _ _ _
  | .setBoostInterval _ => true
  | _ => false

lemma step_globals (ha : a.setsGlobals=false) (hs : step idx s a=some t) : t.globals=s.globals := by
  cases step_stepsTo hs with
  | userinit | forkAlloc | checkAlarms | boost | tick | setAlarm | setBoostInterval => cases ha
  | dispatch _ hs => exact dispatch_globals hs
  | sleep _ => exact sleepOn_globals _ _
  | wakeup => exact wakeup1_globals s _
  | kill => exact globals_composes.kill (note_globals · · _) s _ _ _
  | signalPgid => exact globals_composes.signalPgid (note_globals · · _) s _
  | applySignals _ => exact applySignals_globals s _
  | exit => exact exits_globals ..
  | waitpid _ ht => exact waits_globals ht
  | _ => rfl

def Action.setsClock : Action → Bool
  | .checkAlarms _ | .tick | .setAlarm _ _ _ => true
  | _ => false

lemma step_clock (ha : a.setsClock=false) (hs : step idx s a=some t) :
    t.ticks=s.ticks ∧ t.activeAlarmCount=s.activeAlarmCount := by
  by_cases hglob : a.setsGlobals=true
  · cases step_stepsTo hs with
    | userinit _ hal | forkAlloc _ _ hal =>
      rcases allocproc_cases hal with ⟨-,rfl⟩ | ⟨np,pid,next,-,-,-,-,-,rfl⟩ <;> exact ⟨rfl,rfl⟩
    | @boost now =>
      unfold mlfqApplyGlobalBoost
      split_ifs
      · exact ⟨rfl,rfl⟩
      · have hloop:=globals_composes.foldl boostTurn_globals slots {s with lastBoostTick := now}
        generalize slots.foldl boostTurn {s with lastBoostTick := now} = u at hloop ⊢
        exact ⟨congrArg Globals.ticks hloop,congrArg Globals.activeAlarmCount hloop⟩
    | setBoostInterval | refused => exact ⟨rfl,rfl⟩
    | checkAlarms | tick | setAlarm => cases ha
    | _ => cases hglob
  · have hkept:=step_globals (by simpa using hglob) hs
    exact ⟨congrArg Globals.ticks hkept,congrArg Globals.activeAlarmCount hkept⟩

end Auxv6.Process

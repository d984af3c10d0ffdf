import Auxv6.Process.Globals
import Auxv6.Process.Lifecycle

/-!
# Alarms (core/proc.c, core/sysproc.c, core/timer.c)

An alarm is an absolute tick number, 0 for none. A timer interrupt on CPU 0 increments `ticks` under one lock
and calls `proc_check_alarms` under another; sections of other CPUs may come in between.
-/

namespace Auxv6.Process
open Machine Lib Lib.Transition List Option Finset Nat Transition Process

def itimerHz : ℕ := 100

/-- `sysproc.c:72-92`. -/
def itimerTimevalToTicks (sec usec : ℕ) : ℕ :=
  let total:=sec*1000000+usec
  if total=0 then 0
  else
    let ticks:=(total+(1000000/itimerHz-1))/(1000000/itimerHz)
    min (if ticks=0 then 1 else ticks) 0xffffffff

/-- `sysproc.c:390-424`: the seconds that were left, and the new state. -/
def sysAlarm (s : State) (p : Slot) (seconds : ℕ) : ℕ × State :=
  let old:=(s.proc p).alarmTicks
  let remaining:=if old=0 ∨ old ≤ s.ticks then 0
    else (old-s.ticks+(itimerHz-1))/itimerHz
  (remaining,if seconds=0 then procSetAlarmState s p 0 0
    else procSetAlarmState s p (uintAdd s.ticks (seconds*itimerHz%wordMod)) 0)

/-- The end of `sys_setitimer` (`sysproc.c:486-501`), for the ticks of the two times. -/
def sysSetitimer (s : State) (p : Slot) (value interval : ℕ) : State :=
  if value=0 then procSetAlarmState s p 0 0
  else procSetAlarmState s p (uintAdd s.ticks value) interval

structure Timer where
  table : State
  check : Option ℕ

inductive TimerAction where
  | table (a : Action)
  | tick
  | check
  | alarm (c seconds : ℕ)
  | setitimer (c vsec vusec isec iusec : ℕ)

def timerStep (idx : Chan → ℕ) (σ : Timer) : TimerAction → Option Timer
  | .table a => if a.setsClock then none
    else (step idx σ.table a).map fun t => {σ with table := t}
  | .tick =>
    if σ.check=none then
      let now:=uintAdd σ.table.ticks 1
      some ⟨{σ.table with ticks := now},some now⟩
    else none
  | .check => σ.check.map fun now => ⟨procCheckAlarms σ.table now,none⟩
  | .alarm c seconds => (σ.table.cpu c).map fun p =>
      {σ with table := (sysAlarm σ.table p seconds).2}
  | .setitimer c vsec vusec isec iusec => (σ.table.cpu c).map fun p =>
      let value:=itimerTimevalToTicks vsec vusec
      let interval:=itimerTimevalToTicks isec iusec
      {σ with table := sysSetitimer σ.table p value interval}

def bootTimer : Timer := ⟨zeroState,none⟩
def Proc.AlarmDue (x : Proc) (now : ℕ) : Prop := x.state≠.unused ∧ x.alarmTicks≠0 ∧ x.alarmTicks≤now
  deriving Decidable

def Proc.alarmed (now : ℕ) (x : Proc) : Proc :=
  if x.AlarmDue now then
    { x with
      alarmTicks := if x.alarmIntervalTicks≠0 then uintAdd now x.alarmIntervalTicks else 0
      sigPending := x.sigPending ||| sigbit sigalrm
      state := if x.state=.sleeping then .runnable else x.state }
  else x

section

variable {idx : Chan → ℕ} {s t : State} {now : ℕ} {p i : Slot}

lemma alarmDue_iff {x : Proc} : (x.state=.unused ∨ x.alarmTicks=0 ∨ now<x.alarmTicks) ↔ ¬ x.AlarmDue now := by
  rw [Proc.AlarmDue,not_and_or,not_and_or,not_ne_iff,not_ne_iff,not_le]

lemma alarmTurn_self (now : ℕ) (s : State) (p : Slot) : (alarmTurn now s p).proc p=(s.proc p).alarmed now := by
  unfold alarmTurn Proc.alarmed
  by_cases h : (s.proc p).AlarmDue now
  · rw [if_neg (fun hno => alarmDue_iff.mp hno h),if_pos h]
    by_cases hiv : (s.proc p).alarmIntervalTicks=0
    · by_cases hst : (s.proc p).state=.sleeping <;>
        simp [hiv,hst,procSetAlarmState,State.makeRunnable,State.setProc]
    · by_cases hst : (s.proc p).state=.sleeping <;>
        simp [hiv,hst,State.makeRunnable,State.setProc]
  · rw [if_pos (alarmDue_iff.mpr h),if_neg h]

lemma alarmTurn_other (h : i≠p) : (alarmTurn now s p).proc i=s.proc i := by
  unfold alarmTurn procSetAlarmState State.makeRunnable
  dsimp only
  split_ifs <;> simp [State.setProc,h]

lemma foldl_alarmTurn_proc (now : ℕ) {l : List Slot} (hl : l.Nodup) (s : State) (i : Slot) :
    (l.foldl (alarmTurn now) s).proc i=if i∈l then (s.proc i).alarmed now else s.proc i := by
  induction l generalizing s with
  | nil => rfl
  | cons p l ih =>
    obtain ⟨hp,hl⟩:=List.nodup_cons.mp hl
    rw [List.foldl_cons,ih hl]
    by_cases hip : i=p
    · subst hip
      rw [if_neg hp,if_pos (List.mem_cons_self ..),alarmTurn_self]
    · rw [alarmTurn_other hip]
      simp [hip]

def Posts (s : State) (now : ℕ) (p : Slot) : Prop := s.activeAlarmCount≠0 ∧ (s.proc p).AlarmDue now

lemma check_proc (s : State) (now : ℕ) (p : Slot) : (procCheckAlarms s now).proc p =
      if s.activeAlarmCount=0 then s.proc p else (s.proc p).alarmed now := by
  unfold procCheckAlarms
  split_ifs
  · rfl
  · rw [slots,foldl_alarmTurn_proc now (nodup_finRange nproc),if_pos (mem_finRange p)]

lemma check_skips (h : ¬ Posts s now p) : (procCheckAlarms s now).proc p=s.proc p := by
  rw [check_proc]
  by_cases hc : s.activeAlarmCount=0
  · rw [if_pos hc]
  · rw [if_neg hc,Proc.alarmed,if_neg fun hd => h ⟨hc,hd⟩]

def armedSlots (s : State) : Finset Slot := univ.filter fun i => (s.proc i).alarmTicks≠0

structure AlarmInv (s : State) : Prop where
  sched : SchedInv s
  live : ∀ i,(s.proc i).alarmTicks≠0 → ¬ (s.proc i).state.Idle
  count : s.activeAlarmCount=(armedSlots s).card

lemma mem_armedSlots : i∈armedSlots s ↔ (s.proc i).alarmTicks≠0 := by
  simp [armedSlots]
lemma AlarmInv.unused (h : AlarmInv s) (hi : (s.proc i).state.Idle) : (s.proc i).alarmTicks=0 :=
  by_contra fun hne => h.live i hne hi
lemma AlarmInv.count_pos (h : AlarmInv s) (hp : (s.proc p).alarmTicks≠0) : s.activeAlarmCount≠0 := by
  have hpos:=card_pos.mpr ⟨p,mem_armedSlots.mpr hp⟩
  rw [h.count]
  omega

lemma armedSlots_update {d : ℕ} (hother : ∀ i,i≠p →
    (t.proc i).alarmTicks=(s.proc i).alarmTicks) (hp : (t.proc p).alarmTicks=d) :
    armedSlots t=if d=0 then (armedSlots s).erase p else insert p (armedSlots s) := by
  ext i
  by_cases hip : i=p
  · subst hip
    split_ifs with hd <;> simp [mem_armedSlots,hp,hd]
  · split_ifs <;> simp [mem_armedSlots,hother i hip,hip]

lemma setAlarm_proc (s : State) (p : Slot) (deadline interval : ℕ) (i : Slot) :
    ((procSetAlarmState s p deadline interval).proc i).alarmTicks =
      if i=p then deadline else (s.proc i).alarmTicks := by
  unfold procSetAlarmState
  by_cases hip : i=p <;> simp [State.setProc,hip]

lemma setAlarm_count (s : State) (p : Slot) (deadline interval : ℕ) (h : s.activeAlarmCount=(armedSlots s).card) :
    (procSetAlarmState s p deadline interval).activeAlarmCount =
      (armedSlots (procSetAlarmState s p deadline interval)).card := by
  have harmed:=armedSlots_update (s := s) (t := procSetAlarmState s p deadline interval)
    (p := p) (d := deadline) (fun i hi => by rw [setAlarm_proc,if_neg hi])
    (by rw [setAlarm_proc,if_pos rfl])
  have hmem : p∈armedSlots s ↔ (s.proc p).alarmTicks≠0 := mem_armedSlots
  rw [harmed]
  unfold procSetAlarmState
  rw [h]
  by_cases hold : (s.proc p).alarmTicks=0 <;> by_cases hd : deadline=0 <;>
    simp only [hold,hd,ne_eq,not_true,not_false_eq_true,and_true,and_false,if_true,if_false]
  · rw [erase_eq_of_notMem (by simp [hmem,hold])]
  · rw [card_insert_of_notMem (by simp [hmem,hold])]
    rfl
  · rw [card_erase_of_mem (hmem.mpr hold)]
    have hpos:=card_pos.mpr ⟨p,hmem.mpr hold⟩
    omega
  · rw [insert_eq_of_mem (hmem.mpr hold)]

lemma AlarmInv.setAlarm (h : AlarmInv s) (hp : ¬ (s.proc p).state.Idle) (deadline interval : ℕ) :
    AlarmInv (procSetAlarmState s p deadline interval) where
  sched := h.sched.setAlarm p deadline interval
  live i hi := by
    have hst : ((procSetAlarmState s p deadline interval).proc i).state=(s.proc i).state :=
      keeps_setAlarm (g := Proc.state) (fun _ _ _ => rfl) s p deadline interval i
    rw [hst]
    rw [setAlarm_proc] at hi
    by_cases hip : i=p
    · exact hip ▸ hp
    · rw [if_neg hip] at hi
      exact h.live i hi
  count := setAlarm_count s p deadline interval h.count

def Proc.ReloadOk (now : ℕ) (x : Proc) : Prop :=
  x.AlarmDue now → x.alarmIntervalTicks≠0 → uintAdd now x.alarmIntervalTicks≠0

lemma alarmTurn_count (now : ℕ) (s : State) (p : Slot) : (alarmTurn now s p).activeAlarmCount =
      if (s.proc p).AlarmDue now ∧ (s.proc p).alarmIntervalTicks=0 then s.activeAlarmCount-1
      else s.activeAlarmCount := by
  unfold alarmTurn
  extract_lets x s1 s2
  by_cases h : (s.proc p).AlarmDue now
  · have hlast : (if (s2.proc p).state=.sleeping then s2.makeRunnable p .alarm
        else s2).activeAlarmCount=s1.activeAlarmCount := by
      split_ifs <;> rfl
    rw [if_neg (fun hno => alarmDue_iff.mp hno h),hlast]
    by_cases hiv : (s.proc p).alarmIntervalTicks=0
    · have h1 : s1=procSetAlarmState s p 0 0 := if_neg (not_not.mpr hiv)
      rw [h1,if_pos ⟨h,hiv⟩]
      simp [procSetAlarmState,h.2.1]
    have h1 : s1.activeAlarmCount=s.activeAlarmCount := by
      rw [show s1 = _ from if_pos hiv]
      rfl
    rw [h1,if_neg fun hh => hiv hh.2]
  · rw [if_pos (alarmDue_iff.mpr h),if_neg fun hh => h hh.1]

lemma alarmed_alarmTicks (hok : (s.proc p).ReloadOk now) : ((s.proc p).alarmed now).alarmTicks≠0 ↔
      (s.proc p).alarmTicks≠0 ∧ ¬ ((s.proc p).AlarmDue now ∧ (s.proc p).alarmIntervalTicks=0) := by
  unfold Proc.alarmed
  by_cases h : (s.proc p).AlarmDue now
  · rw [if_pos h]
    by_cases hiv : (s.proc p).alarmIntervalTicks=0
    · simp [h,hiv]
    · simp [h,h.2.1,hiv,hok h hiv]
  · simp [h]

lemma alarmed_live (h : (s.proc p).alarmTicks≠0 → ¬ (s.proc p).state.Idle)
    (hp : ((s.proc p).alarmed now).alarmTicks≠0) : ¬ ((s.proc p).alarmed now).state.Idle := by
  unfold Proc.alarmed at hp ⊢
  by_cases hdue : (s.proc p).AlarmDue now
  · rw [if_pos hdue]
    dsimp only
    split_ifs
    · simp [ProcState.Idle]
    · exact h hdue.2.1
  · rw [if_neg hdue] at hp ⊢
    exact h hp

lemma AlarmInv.alarmTurn (h : AlarmInv s) (hok : (s.proc p).ReloadOk now) : AlarmInv (alarmTurn now s p) where
  sched := h.sched.alarmTurn now p
  live i hi := by
    by_cases hip : i=p
    · subst hip
      rw [alarmTurn_self] at hi ⊢
      exact alarmed_live (h.live i) hi
    · rw [alarmTurn_other hip] at hi ⊢
      exact h.live i hi
  count := by
    have harmed:=armedSlots_update (s := s) (t := Process.alarmTurn now s p) (p := p)
      (fun i hi => by rw [alarmTurn_other hi]) rfl
    have hmem : p∈armedSlots s ↔ (s.proc p).alarmTicks≠0 := mem_armedSlots
    have hnew:=alarmed_alarmTicks hok
    rw [alarmTurn_self] at harmed
    rw [alarmTurn_count,harmed,h.count]
    by_cases hfire : (s.proc p).AlarmDue now ∧ (s.proc p).alarmIntervalTicks=0
    · have hp:=hmem.mpr hfire.1.2.1
      have hpos:=card_pos.mpr ⟨p,hp⟩
      rw [if_pos hfire,if_pos (by_contra fun hne => (hnew.mp hne).2 hfire),card_erase_of_mem hp]
      omega
    rw [if_neg hfire]
    by_cases hold : (s.proc p).alarmTicks=0
    · rw [if_pos (by_contra fun hne => (hnew.mp hne).1 hold),erase_eq_of_notMem (by simp [hmem,hold])]
    · rw [if_neg (hnew.mpr ⟨hold,hfire⟩),insert_eq_of_mem (hmem.mpr hold)]

lemma ReloadOk.alarmed {x : Proc} (h : x.ReloadOk now) : (x.alarmed now).ReloadOk now := by
  unfold Proc.alarmed
  by_cases hdue : x.AlarmDue now
  · rw [if_pos hdue]
    intro _ hiv
    exact h hdue hiv
  · rw [if_neg hdue]
    exact h

lemma AlarmInv.checkAlarms (h : AlarmInv s) (hok : ∀ i,(s.proc i).ReloadOk now) :
    AlarmInv (procCheckAlarms s now) := by
  have hloop : ∀ (l : List Slot) (u : State),AlarmInv u → (∀ i,(u.proc i).ReloadOk now) →
      AlarmInv (l.foldl (Process.alarmTurn now) u) := by
    intro l
    induction l with
    | nil => exact fun _ hu _ => hu
    | cons p l ih =>
      intro u hu huok
      refine ih _ (hu.alarmTurn (huok p)) fun i => ?_
      by_cases hip : i=p
      · subst hip
        rw [alarmTurn_self]
        exact ReloadOk.alarmed (huok i)
      · rw [alarmTurn_other hip]
        exact huok i
  unfold procCheckAlarms
  split_ifs
  · exact h
  · exact hloop slots s h hok

lemma AlarmInv.alarmTicks_eq {a : Action} (h : AlarmInv s) (hok : SignalsApart s a)
    (ha : a.setsClock=false) (hs : step idx s a=some t) (i : Slot) : (t.proc i).alarmTicks=(s.proc i).alarmTicks := by
  have hset : a.setsAlarm=false := by
    cases a <;> first | rfl | cases ha
  cases step_slots h.sched hok hset hs i with
  | kept hlife => exact congrArg (·.2.2.1) hlife
  | undone c cur ha hc hnp hlife => exact congrArg (·.2.2.1) hlife
  | reaped hx hlife => exact congrArg (·.2.2.1) hlife
  | allocated pid hx hfresh hfirst hpos hlife =>
    rw [h.unused (.inl hx)]
    exact congrArg (·.2.2.1) hlife
  | forked cur hnp hx hlife =>
    rw [h.unused (.inr (.inl hx))]
    exact congrArg (·.2.2.1) hlife
  | adopted init hinit hpar hlife => exact congrArg (·.2.2.1) hlife

def ExitsUnarmed (s : State) : Action → Prop
  | .exit c _ => ∀ p,s.cpu c=some p → (s.proc p).alarmTicks=0
  | _ => True

lemma AlarmInv.step {a : Action} (h : AlarmInv s) (hok : SignalsApart s a)
    (hexit : ExitsUnarmed s a) (ha : a.setsClock=false) (hs : step idx s a=some t) : AlarmInv t where
  sched := step_schedInv h.sched hok hs
  live i hi hidle := by
    have hset : a.setsAlarm=false := by
      cases a <;> first | rfl | cases ha
    have heq:=h.alarmTicks_eq hok ha hs i
    rw [heq] at hi
    have hlive:=h.live i hi
    have hkept : ((s.proc i).state.Idle ∨ a.ExitOf s i) → False := by
      rintro (hold | ⟨c,status,rfl,hc⟩)
      · exact hlive hold
      · exact hi (hexit i hc)
    cases step_slots h.sched hok hset hs i with
    | kept hlife hst hid => exact hkept (hid hidle)
    | undone c cur ha hc hnp hlife hx hy => exact hlive (.inr (.inl hx))
    | reaped hx hlife hy => exact hlive (.inr (.inr hx))
    | allocated pid hx => exact hlive (.inl hx)
    | forked cur hnp hx => exact hlive (.inr (.inl hx))
    | adopted init hinit hpar hlife hst hid => exact hkept (hid hidle)
  count := by
    have hsame : armedSlots t=armedSlots s := by
      ext i
      rw [mem_armedSlots,mem_armedSlots,h.alarmTicks_eq hok ha hs i]
    rw [(step_clock ha hs).2,hsame,h.count]

lemma check_ticks (s : State) (now : ℕ) : (procCheckAlarms s now).ticks=s.ticks := by
  have hturn : ∀ (u : State) (p : Slot),(alarmTurn now u p).ticks=u.ticks := by
    intro u p
    unfold alarmTurn
    dsimp only
    split_ifs <;> rfl
  have hloop : ∀ (l : List Slot) (u : State),(l.foldl (alarmTurn now) u).ticks=u.ticks := by
    intro l
    induction l with
    | nil => exact fun _ => rfl
    | cons p l ih => exact fun u => (ih _).trans (hturn u p)
  unfold procCheckAlarms
  split_ifs
  · rfl
  · exact hloop slots s

end

section

variable {idx : Chan → ℕ} {σ τ : Timer} {a : TimerAction} {p : Slot} {d interval c k : ℕ} {check : Option ℕ}

def AlarmGuard (σ : Timer) : TimerAction → Prop
  | .table a => SignalsApart σ.table a ∧ ExitsUnarmed σ.table a
  | .check => ∀ now,σ.check=some now → ∀ i,(σ.table.proc i).ReloadOk now
  | _ => True

structure TimerInv (σ : Timer) : Prop where
  alarms : AlarmInv σ.table
  word : σ.table.ticks<wordMod
  check : ∀ now,σ.check=some now → now=σ.table.ticks

lemma TimerInv.setAlarm (h : TimerInv σ) (hc : σ.table.cpu c=some p) (deadline interval : ℕ) :
    TimerInv {σ with table := procSetAlarmState σ.table p deadline interval} where
  alarms := h.alarms.setAlarm (by
    rcases h.alarms.sched.current p ⟨c,hc⟩ with hst | hst <;> simp [hst,ProcState.Idle]) _ _
  word := h.word
  check := h.check

def TimerAction.setter : TimerAction → Option ℕ
  | .alarm c _ => some c
  | .setitimer c _ _ _ _ => some c
  | _ => none
def TimerAction.isTick : TimerAction → Bool
  | .tick => true
  | _ => false

inductive TimerMove (idx : Chan → ℕ) (σ : Timer) (a : TimerAction) (τ : Timer) : Prop where
  | table (b : Action) (ha : a=.table b) (hclock : b.setsClock=false)
      (hs : step idx σ.table b=some τ.table) (hcheck : τ.check=σ.check)
  | tick (ha : a=.tick) (hnone : σ.check=none)
      (heq : τ=⟨{σ.table with ticks := uintAdd σ.table.ticks 1},some (uintAdd σ.table.ticks 1)⟩)
  | check (now : ℕ) (ha : a=.check) (hnow : σ.check=some now)
      (heq : τ=⟨procCheckAlarms σ.table now,none⟩)
  | set (c : ℕ) (q : Slot) (deadline interval : ℕ) (ha : a.setter=some c)
      (htick : a.isTick=false) (hc : σ.table.cpu c=some q)
      (heq : τ = {σ with table := procSetAlarmState σ.table q deadline interval})

lemma timerStep_move (hs : timerStep idx σ a=some τ) : TimerMove idx σ a τ := by
  cases a with
  | table b =>
    simp only [timerStep] at hs
    split_ifs at hs with hb
    obtain ⟨t,ht,rfl⟩:=map_eq_some_iff.mp hs
    exact .table b rfl (by simpa using hb) ht rfl
  | tick =>
    simp only [timerStep] at hs
    split_ifs at hs with hnone
    exact .tick rfl hnone (some.inj hs).symm
  | check =>
    obtain ⟨now,hnow,heq⟩:=map_eq_some_iff.mp hs
    exact .check now rfl hnow heq.symm
  | alarm c seconds =>
    obtain ⟨q,hc,heq⟩:=map_eq_some_iff.mp hs
    unfold sysAlarm at heq
    split_ifs at heq <;> exact .set c q _ _ rfl rfl hc heq.symm
  | setitimer c vsec vusec isec iusec =>
    obtain ⟨q,hc,heq⟩:=map_eq_some_iff.mp hs
    unfold sysSetitimer at heq
    dsimp only at heq
    split_ifs at heq <;> exact .set c q _ _ rfl rfl hc heq.symm

lemma TimerInv.step (h : TimerInv σ) (hok : AlarmGuard σ a) (hs : timerStep idx σ a=some τ) : TimerInv τ := by
  cases timerStep_move hs with
  | table b ha hclock hb hcheck =>
    subst ha
    have hticks:=(step_clock hclock hb).1
    refine ⟨h.alarms.step hok.1 hok.2 hclock hb,hticks ▸ h.word,fun now hnow => ?_⟩
    rw [hticks]
    exact h.check now (hcheck ▸ hnow)
  | tick ha hnone heq =>
    subst heq
    refine ⟨⟨?_,h.alarms.live,h.alarms.count⟩,mod_lt _ (by decide),fun now hnow => ?_⟩
    · exact h.alarms.sched.congr rfl rfl (fun _ => rfl) fun _ => rfl
    · exact (some.inj hnow).symm
  | check now ha hnow heq =>
    subst ha
    subst heq
    refine ⟨h.alarms.checkAlarms (hok now hnow),?_,fun _ hnone => by cases hnone⟩
    rw [check_ticks]
    exact h.word
  | set c q deadline interval ha htick hc heq =>
    subst heq
    exact h.setAlarm hc deadline interval

lemma bootTimer_inv : TimerInv bootTimer where
  alarms := ⟨zeroState_schedInv,fun _ hi => absurd rfl hi,by
    simp [armedSlots,bootTimer,zeroState,zeroProc]⟩
  word := by decide
  check := fun _ hnow => by cases hnow

def Timer.arm (σ : Timer) (p : Slot) (d interval : ℕ) : Timer :=
  {σ with table := procSetAlarmState σ.table p (uintAdd σ.table.ticks d) interval}
def LeavesAlarm (p : Slot) (σ : Timer) (a : TimerAction) : Prop :=
  AlarmGuard σ a ∧ ∀ c,a.setter=some c → σ.table.cpu c≠some p
def ticksIn (as : List TimerAction) : ℕ := as.countP TimerAction.isTick

structure OnTime (idx : Chan → ℕ) (σ : Timer) (p : Slot) (d interval : ℕ) : Prop where
  pending : ∀ as τ,Guarded (timerStep idx) (LeavesAlarm p) (σ.arm p d interval) as →
    run (timerStep idx) (σ.arm p d interval) as=some τ → ticksIn as<d →
      (τ.table.proc p).alarmTicks≠0 ∧ ∀ now,τ.check=some now → ¬ Posts τ.table now p
  posted : ∀ as τ,Guarded (timerStep idx) (LeavesAlarm p) (σ.arm p d interval) as →
    run (timerStep idx) (σ.arm p d interval) as=some τ → ticksIn as=d → ∀ now,τ.check=some now → Posts τ.table now p

/-- The deadline does not wrap, or `ticks` itself wraps at the next tick and the check of the
current tick is done. -/
def DeadlineOk (ticks : ℕ) (check : Option ℕ) (d : ℕ) : Prop := ticks+d<wordMod ∨ ticks+1=wordMod ∧ 2≤d ∧ check=none

lemma DeadlineOk.ne_zero {ticks : ℕ} (h : DeadlineOk ticks check d)
    (hd : 1≤d) (hlt : d<2^31) : uintAdd ticks d≠0 := by
  unfold uintAdd wordMod
  rcases h with h | ⟨h,h2,-⟩ <;> unfold wordMod at h <;> omega

lemma DeadlineOk.early {ticks : ℕ} (h : DeadlineOk ticks check d) (hlt : d<2^31) (hk : k<d)
    (hfirst : k=0 → check≠none) : uintAdd ticks k<uintAdd ticks d := by
  unfold uintAdd wordMod
  rcases h with h | ⟨h,h2,hnone⟩
  · unfold wordMod at h
    omega
  · have hk0 : k≠0 := fun hk0 => hfirst hk0 hnone
    unfold wordMod at h
    omega

structure Waiting (t : ℕ) (check : Option ℕ) (p : Slot) (d k : ℕ) (σ : Timer) : Prop where
  inv : TimerInv σ
  now : σ.table.ticks=uintAdd t k
  armed : k<d ∨ (k=d ∧ σ.check≠none) → (σ.table.proc p).alarmTicks=uintAdd t d
  first : k=0 → σ.check≠none → check≠none

lemma Waiting.not_posts {t : ℕ} (h : Waiting t check p d k σ) (hok : DeadlineOk t check d)
    (hlt : d<2^31) (hk : k<d) {now : ℕ} (hnow : σ.check=some now) : ¬ Posts σ.table now p := by
  rintro ⟨-,-,-,hdue⟩
  have hne : σ.check≠none := by simp [hnow]
  have hearly:=hok.early hlt hk fun hk0 => h.first hk0 hne
  rw [h.armed (.inl hk),h.inv.check now hnow,h.now] at hdue
  omega

lemma Waiting.step {t : ℕ} (h : Waiting t check p d k σ)
    (hok : DeadlineOk t check d) (hlt : d<2^31) (hguard : LeavesAlarm p σ a) (hs : timerStep idx σ a=some τ) :
    Waiting t check p d (k+if a.isTick then 1 else 0) τ := by
  have hinv:=h.inv.step hguard.1 hs
  cases timerStep_move hs with
  | table b ha hclock hb hcheck =>
    subst ha
    refine ⟨hinv,(step_clock hclock hb).1.trans h.now,fun hk => ?_,fun hk => ?_⟩
    · rw [h.inv.alarms.alarmTicks_eq hguard.1.1 hclock hb,h.armed (hcheck ▸ hk)]
    · rw [hcheck]
      exact h.first hk
  | tick ha hnone heq =>
    subst ha
    subst heq
    refine ⟨hinv,?_,fun hk => h.armed (.inl ?_),fun hk => by simp [TimerAction.isTick] at hk⟩
    · change uintAdd σ.table.ticks 1=uintAdd t (k+1)
      rw [h.now]
      unfold uintAdd
      rw [mod_add_mod,add_assoc]
    · simp only [TimerAction.isTick,if_true] at hk
      omega
  | check now ha hnow heq =>
    subst ha
    subst heq
    refine ⟨hinv,(check_ticks σ.table now).trans h.now,fun hk => ?_,fun _ hne => absurd rfl hne⟩
    have hk : k<d := hk.resolve_right fun hh => hh.2 rfl
    rw [check_skips (h.not_posts hok hlt hk hnow)]
    exact h.armed (.inl hk)
  | set c q deadline interval ha htick hc heq =>
    subst heq
    have hqp : p≠q := fun hpq => hguard.2 c ha (hpq ▸ hc)
    rw [htick]
    refine ⟨hinv,h.now,fun hk => ?_,h.first⟩
    rw [setAlarm_proc,if_neg hqp]
    exact h.armed hk

lemma Waiting.run {t : ℕ} (h : Waiting t check p d k σ) (hok : DeadlineOk t check d) (hlt : d<2^31)
    {as : List TimerAction} (hguard : Guarded (timerStep idx) (LeavesAlarm p) σ as)
    (hs : run (timerStep idx) σ as=some τ) : Waiting t check p d (k+ticksIn as) τ := by
  induction as generalizing σ k with
  | nil =>
    obtain rfl : σ=τ := some.inj hs
    exact h
  | cons a rest ih =>
    obtain ⟨m,hm,hrest⟩:=run_cons hs
    have hw:=ih (h.step hok hlt hguard.1 hm) (hguard.2 m hm) hrest
    have hcount : ticksIn (a::rest)=ticksIn rest+if a.isTick then 1 else 0 := countP_cons ..
    rwa [add_assoc,add_comm (ite _ _ _),← hcount] at hw

section
variable (h : TimerInv σ) (hc : σ.table.cpu c=some p)
include h hc

lemma TimerInv.waiting : Waiting σ.table.ticks σ.check p d 0 (σ.arm p d interval) where
  inv := h.setAlarm hc _ _
  now := (mod_eq_of_lt h.word).symm
  armed _ := by
    unfold Timer.arm
    rw [setAlarm_proc,if_pos rfl]
  first _ hne := hne

lemma TimerInv.onTime (hd : 1≤d)
    (hlt : d<2^31) (hok : DeadlineOk σ.table.ticks σ.check d) : OnTime idx σ p d interval where
  pending as τ hguard hs hk := by
    have hw:=(h.waiting (d := d) hc).run hok hlt hguard hs
    rw [zero_add] at hw
    refine ⟨?_,fun now hnow => hw.not_posts hok hlt hk hnow⟩
    rw [hw.armed (.inl hk)]
    exact hok.ne_zero hd hlt
  posted as τ hguard hs hk now hnow := by
    have hw:=(h.waiting (d := d) hc).run hok hlt hguard hs
    rw [zero_add] at hw
    have harmed:=hw.armed (.inr ⟨hk,by simp [hnow]⟩)
    have hne : (τ.table.proc p).alarmTicks≠0 := by
      rw [harmed]
      exact hok.ne_zero hd hlt
    refine ⟨hw.inv.alarms.count_pos hne,fun hu => hw.inv.alarms.live p hne (.inl hu),hne,?_⟩
    rw [harmed,hw.inv.check now hnow,hw.now,hk]

lemma TimerInv.arm_posts {now : ℕ} (hne : uintAdd σ.table.ticks d≠0) (hle : uintAdd σ.table.ticks d≤now) :
    Posts (σ.arm p d interval).table now p := by
  have hw : Waiting σ.table.ticks σ.check p d 0 (σ.arm p d interval) := h.waiting hc
  have harmed : ((σ.arm p d interval).table.proc p).alarmTicks=uintAdd σ.table.ticks d := by
    unfold Timer.arm
    rw [setAlarm_proc,if_pos rfl]
  have hne' : ((σ.arm p d interval).table.proc p).alarmTicks≠0 := by rwa [harmed]
  exact ⟨hw.inv.alarms.count_pos hne',fun hu => hw.inv.alarms.live p hne' (.inl hu),hne',by rwa [harmed]⟩

lemma TimerInv.deadlineOk (hd : 1≤d) (hlt : d<2^31)
    (hon : OnTime idx σ p d interval) : DeadlineOk σ.table.ticks σ.check d := by
  have hword : σ.table.ticks<2^32 := h.word
  by_contra hbad
  unfold DeadlineOk at hbad
  rw [not_or,not_lt] at hbad
  have hwrap : uintAdd σ.table.ticks d=σ.table.ticks+d-2^32 := by
    unfold uintAdd wordMod at *
    omega
  have hstart:=hon.pending [] (σ.arm p d interval) trivial rfl (by change 0<d; omega)
  have hne : uintAdd σ.table.ticks d≠0 := by
    have := hstart.1
    unfold Timer.arm at this
    rwa [setAlarm_proc,if_pos rfl] at this
  cases hcheck : σ.check with
  | some now =>
    -- the check of the current tick is still to come
    have hnow:=h.check now hcheck
    exact hstart.2 now hcheck (h.arm_posts hc hne (by unfold wordMod at hbad; omega))
  | none =>
    have hnext : σ.table.ticks+1<2^32 := by
      unfold wordMod at hbad
      by_contra hge
      have : d=1 := by
        by_contra hd1
        exact hbad.2 ⟨by omega,by omega,hcheck⟩
      omega
    have htick : timerStep idx (σ.arm p d interval) .tick =
        some ⟨{(σ.arm p d interval).table with ticks := uintAdd σ.table.ticks 1},some (uintAdd σ.table.ticks 1)⟩ := by
      simp only [timerStep,Timer.arm,hcheck,if_true]
      rfl
    have hone:=hon.pending [.tick] _ ⟨⟨trivial,fun _ hset => by cases hset⟩,fun _ _ => trivial⟩
      (by rw [run,htick]; rfl) (by change 1<d; unfold wordMod at hbad; omega)
    refine hone.2 _ rfl ?_
    have hle : uintAdd σ.table.ticks d≤uintAdd σ.table.ticks 1 := by
      unfold uintAdd wordMod at *
      omega
    exact h.arm_posts hc hne hle

end

end

def childAlarm : List TimerAction :=
  [.table .userinit,.table (.dispatch 0),.table (.forkAlloc 0),.table (.forkCopy 0),
    .table (.forkPublish 0),.table (.dispatch 1),.alarm 1 5]

lemma childAlarm_guarded : Guarded (timerStep fun _ => 0) AlarmGuard bootTimer childAlarm := by
  refine guarded_of_forall fun a ha s => ?_
  fin_cases ha <;> trivial

end Auxv6.Process

import Auxv6.Process.Fields
import Auxv6.Process.WaitSteps

/-!
# Quantum accounting

What one section does to the account of one process is said once, in `AccountStep`.
-/

namespace Auxv6.Process
open Machine Lib Function

variable {idx : Chan → ℕ} {s t u : State} {a : Action} {c : ℕ} {p i cur : Slot}

structure Account where
  state : ProcState
  level : ℕ
  expired : Bool
  left : ℕ

def State.account (s : State) (p : Slot) : Account :=
  ⟨(s.proc p).state,(s.mlfq.sched p).schedQ,(s.mlfq.sched p).budgetExpired,(s.mlfq.sched p).budgetLeft⟩
def ProcState.Live (st : ProcState) : Prop := st=.runnable ∨ st=.running
  deriving Decidable

def Account.Full (x : Account) (q : ℕ) : Prop := x.level=q ∧ x.expired=false ∧ x.left=mlfqQuanta q
  deriving Decidable

def Account.Renewed (x : Account) : Prop := x.state=.runnable ∧ ∃ q < mlfqNqueues,x.Full q
def Account.charge (x : Account) : Account :=
  if 1<x.left then {x with left := x.left-1} else {x with expired := true,left := 0}
def levelBelow (q : ℕ) : ℕ := min (q+1) (mlfqNqueues-1)
def Account.yield (x : Account) : Account :=
  if x.expired then ⟨.runnable,levelBelow x.level,false,mlfqQuanta (levelBelow x.level)⟩
  else {x with state := .runnable}
def State.Boosts (s : State) (now : ℕ) (p : Slot) : Prop :=
  ¬ uintSub now s.lastBoostTick<s.boostInterval ∧ (s.account p).state=.runnable ∧ 1<(s.account p).level

inductive AccountStep (s : State) (a : Action) (p : Slot) (y : Account) : Prop where
  | kept (h : y.state.Live → y=s.account p)
  | renewed (hx : ¬ (s.account p).state.Live) (hy : y.Renewed)
  | dispatched (hx : (s.account p).state=.runnable)
      (hy : y = {s.account p with state := .running})
  | yielded (c : ℕ) (ha : a=.yield c) (hc : s.cpu c=some p) (hy : y=(s.account p).yield)
  | charged (c : ℕ) (ha : a=.timerCharge c) (hc : s.cpu c=some p)
      (hy : y=(s.account p).charge)
  | boosted (now : ℕ) (ha : a=.boost now) (hx : s.Boosts now p) (hy : y.state=.runnable)
      (hfull : y.Full 1)

lemma schedqEnqueueLocked_sched (m : Mlfq) (now : ℕ) (p : Slot) (reason : SchedEnq) :
    (schedqEnqueueLocked m now p reason).sched=update m.sched p (enqueuePolicy now reason (m.sched p)) := by
  by_cases h : reason≠.yield ∧ mlfqIsQueued m p
  · simp only [schedqEnqueueLocked,if_pos h]
    rfl
  · simp only [schedqEnqueueLocked,if_neg h]
    rfl

variable {reason : SchedEnq}

lemma enqueuePolicy_yield (now : ℕ) {d : SchedData} (hlt : d.schedQ < mlfqNqueues) :
    ((enqueuePolicy now .yield d).schedQ,(enqueuePolicy now .yield d).budgetExpired,
      (enqueuePolicy now .yield d).budgetLeft) =
    if d.budgetExpired then (levelBelow d.schedQ,false,mlfqQuanta (levelBelow d.schedQ))
    else (d.schedQ,false,d.budgetLeft) := by
  have hmin : min d.schedQ (mlfqNqueues-1)=d.schedQ := by omega
  cases hexp : d.budgetExpired with
  | false => simp [enqueuePolicy,hexp,hmin]
  | true =>
    by_cases hlast : d.schedQ < mlfqNqueues-1
    · simp [enqueuePolicy,hexp,hlast,levelBelow]
    have hbelow : levelBelow d.schedQ=d.schedQ := by
      unfold levelBelow
      omega
    simp [enqueuePolicy,hexp,hlast,hmin,hbelow]

lemma account_of_eq (hproc : (t.proc i).state=(s.proc i).state)
    (hsched : t.mlfq.sched i=s.mlfq.sched i) : t.account i=s.account i := by
  simp only [State.account,hproc,hsched]
lemma makeRunnable_account_of_ne (hi : i≠p) (reason : SchedEnq) :
    (s.makeRunnable p reason).account i=s.account i := by
  refine account_of_eq ?_ ?_
  · simp [State.makeRunnable,hi]
  · simp only [State.makeRunnable,schedqEnqueueLocked_sched,update_of_ne hi]
lemma makeRunnable_renewed (hr : reason≠.yield) : ((s.makeRunnable p reason).account p).Renewed := by
  refine ⟨by simp [State.account,State.makeRunnable],_,enqueuePolicy_lt s.ticks reason (s.mlfq.sched p),?_⟩
  simp only [Account.Full,State.account,State.makeRunnable,schedqEnqueueLocked_sched,update_self]
  exact ⟨trivial,rfl,if_pos (.inr (.inr hr))⟩

def Renews (s t : State) : Prop := ∀ i,t.account i=s.account i ∨ (¬ (s.account i).state.Live ∧ (t.account i).Renewed)

lemma Renews.refl (s : State) : Renews s s := fun _ => .inl rfl

lemma Renews.trans (h : Renews s t) (h' : Renews t u) : Renews s u := by
  intro i
  rcases h i with h1 | ⟨hx,hy⟩
  · rw [← h1]
    exact h' i
  · rcases h' i with h2 | ⟨hx',hy'⟩
    · exact .inr ⟨hx,h2 ▸ hy⟩
    · exact .inr ⟨hx,hy'⟩

lemma renews_composes : Composes Renews := ⟨Renews.refl,Renews.trans⟩
lemma Renews.step (h : Renews s t) (i : Slot) : AccountStep s a i (t.account i) := by
  rcases h i with h | ⟨hx,hy⟩
  · exact .kept fun _ => h
  · exact .renewed hx hy

lemma makeRunnable_renews (hst : ¬ (s.account p).state.Live)
    (hr : reason≠.yield) : Renews s (s.makeRunnable p reason) := by
  intro i
  by_cases hi : i=p
  · subst hi
    exact .inr ⟨hst,makeRunnable_renewed hr⟩
  · exact .inl (makeRunnable_account_of_ne hi reason)

lemma not_live_of_asleep (hst : (s.proc p).state=.sleeping ∨ (s.proc p).state=.stopped) :
    ¬ (s.account p).state.Live := by
  rcases hst with hst | hst <;> simp [State.account,ProcState.Live,hst]

variable {f : Proc → Proc}

lemma renews_setProc (hf : (f (s.proc p)).state=(s.proc p).state) : Renews s (s.setProc p f) :=
  fun i => .inl (account_of_eq (setProc_field s p f Proc.state hf i) rfl)
lemma wakeOne_renews (chan : Chan) (s : State) (p : Slot) : Renews s (wakeOne chan s p) := by
  unfold wakeOne
  split_ifs with h
  · exact makeRunnable_renews (not_live_of_asleep (.inl h.1)) (by decide)
  · exact Renews.refl s
lemma tickRemove_account (s : State) (p i : Slot) : (tickSleepqRemoveLocked s p).account i=s.account i := by
  unfold tickSleepqRemoveLocked
  split_ifs
  · exact account_of_eq (setProc_field s p (fun x => {x with onTickq := false}) Proc.state rfl i) rfl
  · rfl
lemma wakeup1_renews (s : State) (chan : Chan) : Renews s (wakeup1 idx s chan) :=
  renews_composes.wakeup1 wakeOne_renews (fun s p => (wakeOne_renews .ticks s p).trans
    fun i => .inl (tickRemove_account _ p i)) idx s chan

lemma note_renews (s : State) (p : Slot) (signo : ℕ) : Renews s (procNoteSignalLocked s p signo) := by
  obtain ⟨f,hf,hs | ⟨hst,hs⟩⟩:=note_cases s p signo
  · rw [hs]
    exact renews_setProc (hf _).2.1
  rw [hs]
  refine (renews_setProc (hf _).2.1).trans (makeRunnable_renews (not_live_of_asleep ?_) (by decide))
  rw [setProc_field s p f Proc.state (hf _).2.1]
  exact hst.imp_right And.right

lemma alarmTurn_renews (now : ℕ) (s : State) (p : Slot) : Renews s (alarmTurn now s p) := by
  unfold alarmTurn
  extract_lets x s1 s2
  have h1 : Renews s s1 := by
    by_cases hi : x.alarmIntervalTicks≠0
    · simp only [s1,if_pos hi]
      exact renews_setProc rfl
    · simp only [s1,if_neg hi]
      exact fun i => .inl (account_of_eq (keeps_setAlarm (g := Proc.state) (fun _ _ _ => rfl) s p 0 0 i) rfl)
  have h2 : Renews s s2 := h1.trans (renews_setProc rfl)
  split_ifs with hskip hsl
  · exact Renews.refl s
  · exact h2.trans (makeRunnable_renews (not_live_of_asleep (.inl hsl)) (by decide))
  · exact h2

def Settles (s t : State) : Prop := ∀ i,(t.account i).state.Live → t.account i=s.account i

lemma Settles.refl (s : State) : Settles s s := fun _ _ => rfl
lemma Settles.trans (h : Settles s t) (h' : Settles t u) : Settles s u := by
  intro i hi
  have h2:=h' i hi
  rw [h2] at hi ⊢
  exact h i hi
lemma Settles.step (h : Settles s t) (i : Slot) : AccountStep s a i (t.account i) := .kept (h i)
lemma settles_of_account (h : ∀ i,t.account i=s.account i) : Settles s t := fun i _ => h i

lemma settles_put (hp : ¬ (t.proc p).state.Live) (hst : ∀ i,i≠p → (t.proc i).state=(s.proc i).state)
    (hsched : ∀ i,i≠p → t.mlfq.sched i=s.mlfq.sched i) : Settles s t := by
  intro i hi
  have hip : i≠p := by
    rintro rfl
    exact hp hi
  exact account_of_eq (hst i hip) (hsched i hip)

lemma settles_setProc (hf : ¬ (f (s.proc p)).state.Live ∨ (f (s.proc p)).state=(s.proc p).state) :
    Settles s (s.setProc p f) := by
  rcases hf with hf | hf
  · exact settles_put (p := p) (by rwa [setProc_self]) (fun i hi => by rw [setProc_of_ne s f hi]) fun _ _ => rfl
  · exact settles_of_account fun i => account_of_eq (setProc_field s p f Proc.state hf i) rfl

lemma sleepOn_settles (s : State) (c : ℕ) (p : Slot) (chan : Chan) (context : Context) :
    Settles s (sleepOn idx s c p chan context) := by
  have hst:=(sleepOn_self idx s c p chan context).1
  refine settles_put (p := p) (by simp [hst,ProcState.Live]) (fun i hi => by rw [sleepOn_other hi]) fun i hi => ?_
  unfold sleepOn tickSleepqAddLocked
  dsimp only
  split_ifs <;> exact update_of_ne hi ..

lemma reset_settles (hf : ¬ (f (s.proc p)).state.Live) {q : List Slot} {n : ℕ} (d : SchedData) :
      Settles s { s.setProc p f with nextpid := n,tickSleepq := q,mlfq := s.mlfq.reset p d } :=
  settles_put (p := p) (by simpa using hf) (fun i hi => by simp [hi]) fun i hi => update_of_ne hi ..

lemma waits_settles {pid : Int} {options : WaitOptions} (ht : WaitsTo idx s c cur pid options t) : Settles s t := by
  cases ht with
  | stays => exact Settles.refl s
  | event => exact settles_setProc (f := Proc.noEvent) (.inr rfl)
  | reap => exact reset_settles (by simp [Proc.reaped,ProcState.Live]) _
  | sleep => exact sleepOn_settles s c cur _ _

lemma sleepReturn_settles (s : State) (p : Slot) (chan : Chan) : Settles s (sleepReturn idx s p chan) := by
  refine settles_of_account fun i => account_of_eq (sleepReturn_state s p chan i) ?_
  unfold sleepReturn tickSleepqRemoveLocked
  split_ifs <;> rfl

lemma SchedInv.applySignals_settles (h : SchedInv s) (hc : s.cpu c=some p) (hok : ApplyOk s p) :
    Settles s (procApplyPendingSignals s p) := by
  rcases apply_cases (h.current p ⟨c,hc⟩) hok with ⟨f,hf,hs⟩ | ⟨-,-,f,hs,hf⟩
  · rw [hs]
    exact settles_setProc (.inr (hf _).2.1)
  · rw [hs]
    exact settles_setProc (.inl (by simp [(hf _).2.1,ProcState.Live]))

lemma allocproc_settles {o : Option Slot} (hs : allocproc s=some (o,t)) : Settles s t := by
  rcases allocproc_cases hs with ⟨-,rfl⟩ | ⟨np,pid,next,-,-,-,-,-,rfl⟩
  · exact Settles.refl t
  · exact reset_settles (by simp [Proc.allocated,ProcState.Live]) _

lemma Renews.exited_step (h : Renews s t) (status : ℕ) (i : Slot) :
    AccountStep s a i (((t.setProc p (Proc.exited status)).setCpu c none).account i) := by
  have hset : Settles t (t.setProc p (Proc.exited status)) :=
    settles_setProc (.inl (by simp [Proc.exited,ProcState.Live]))
  by_cases hl : ((t.setProc p (Proc.exited status)).account i).state.Live
  · have heq : ((t.setProc p (Proc.exited status)).setCpu c none).account i=t.account i := hset i hl
    rw [heq]
    exact h.step i
  · exact .kept fun hl' => absurd hl' hl

lemma publish_account_of_ne (hi : i≠p) : (publish s p).account i=s.account i := by
  unfold publish
  rw [makeRunnable_account_of_ne hi]
  exact account_of_eq rfl (update_of_ne hi ..)

lemma Settles.publish_step (h : Settles s t) {np : Slot} (hnp : ¬ (s.proc np).state.Live)
    (i : Slot) : AccountStep s a i ((publish t np).account i) := by
  by_cases hi : i=np
  · subst hi
    exact .renewed hnp (makeRunnable_renewed (by decide))
  · rw [publish_account_of_ne hi]
    exact h.step i

lemma userinit_account {np : Slot} (ha : allocproc s=some (some np,t)) (i : Slot) :
    AccountStep s a i ((publish {t with initproc := some np} np).account i) := by
  rcases allocproc_cases ha with ⟨hn,-⟩ | ⟨np',pid,next,hn,hst,-⟩
  · cases hn
  cases hn
  have hset : Settles s t := allocproc_settles ha
  have hinit : Settles s {t with initproc := some np} := hset
  exact hinit.publish_step (by simp [hst,ProcState.Live]) i

lemma pickFrom_sched (m : Mlfq) (n q : ℕ) : (pickFrom m n q).2.sched=m.sched := by
  induction n generalizing q with
  | zero => rfl
  | succ n ih =>
    unfold pickFrom
    split
    · exact ih (q+1)
    · rfl

lemma dispatch_settles (hs : Dispatches idx s c t) : t=s ∨
    ∃ p m,schedqPickNextLocked s.mlfq=(some p,m) ∧ Settles (s.taken c p m) t := by
  cases hs with
  | idle => exact .inl rfl
  | run hm _ => exact .inr ⟨_,_,hm,Settles.refl _⟩
  | sleep hm _ => exact .inr ⟨_,_,hm,sleepReturn_settles _ _ _⟩
  | waitpid hm _ ht => exact .inr ⟨_,_,hm,(sleepReturn_settles _ _ _).trans (waits_settles ht)⟩

lemma SchedInv.dispatch_account (h : SchedInv s) (hs : Dispatches idx s c t) (i : Slot) :
    AccountStep s a i (t.account i) := by
  obtain rfl | ⟨p,m,hm,hset⟩:=dispatch_settles hs
  · exact (Settles.refl t).step i
  have hsched : m.sched=s.mlfq.sched := by
    have := pickFrom_sched s.mlfq mlfqNqueues 0
    rwa [← schedqPickNextLocked,hm] at this
  by_cases hlive : (t.account i).state.Live
  · rw [hset i hlive]
    by_cases hi : i=p
    · subst hi
      refine .dispatched (h.pick hm).1 ?_
      simp only [State.account,State.taken,setProc_self,setProc_mlfq,setCpu_mlfq,hsched]
    · refine .kept fun _ => ?_
      simp only [State.account,State.taken,setProc_of_ne _ _ hi,setCpu_proc,setProc_mlfq,setCpu_mlfq,hsched]
  · exact .kept fun hl => absurd hl hlive

lemma SchedInv.yield_account (h : SchedInv s) (hc : s.cpu c=some p) (i : Slot) :
    AccountStep s (.yield c) i ((Process.yield s c p).account i) := by
  have hctx : (Process.yield s c p).account i=(s.makeRunnable p .yield).account i :=
    account_of_eq (setProc_field _ p Proc.suspended Proc.state rfl i) rfl
  rw [hctx]
  by_cases hi : i=p
  · subst hi
    refine .yielded c rfl hc ?_
    have hpol:=enqueuePolicy_yield s.ticks (h.queues.level_lt i)
    cases hexp : (s.mlfq.sched i).budgetExpired with
    | true | false =>
      simp only [hexp,reduceIte,Prod.mk.injEq,Bool.false_eq_true] at hpol
      simp [State.account,State.makeRunnable,schedqEnqueueLocked_sched,Account.yield,hpol,hexp]
  · exact .kept fun _ => makeRunnable_account_of_ne hi .yield

lemma charge_account_self (s : State) (p : Slot) :
    State.account {s with mlfq := mlfqTimerCharge s.mlfq p} p=(s.account p).charge := by
  by_cases hleft : 1<(s.mlfq.sched p).budgetLeft <;>
    simp [State.account,mlfqTimerCharge,Account.charge,Mlfq.setSched,hleft]

lemma charge_account (hc : s.cpu c=some p) (i : Slot) : AccountStep s (.timerCharge c) i
      (State.account {s with mlfq := mlfqTimerCharge s.mlfq p} i) := by
  by_cases hi : i=p
  · subst hi
    exact .charged c rfl hc (charge_account_self s i)
  · refine .kept fun _ => account_of_eq rfl ?_
    simp only [mlfqTimerCharge]
    split_ifs <;> exact update_of_ne hi ..

def BoostedTo (s t : State) : Prop :=
  ∀ i,(t.account i).state=(s.account i).state ∧ ((t.account i).state.Live → t.account i=s.account i ∨
      (s.account i).state=.runnable ∧ 1<(s.account i).level ∧ (t.account i).Full 1)

lemma BoostedTo.refl (s : State) : BoostedTo s s := fun _ => ⟨rfl,fun _ => .inl rfl⟩

lemma BoostedTo.trans (h : BoostedTo s t) (h' : BoostedTo t u) : BoostedTo s u := by
  intro i
  refine ⟨(h' i).1.trans (h i).1,fun hl => ?_⟩
  have hlt : (t.account i).state.Live := (h' i).1 ▸ hl
  rcases (h' i).2 hl with h2 | ⟨hr,hlev,hfull⟩
  · rw [h2]
    exact (h i).2 hlt
  · rcases (h i).2 hlt with h1 | ⟨-,-,hfull'⟩
    · exact .inr ⟨h1 ▸ hr,h1 ▸ hlev,hfull⟩
    · exact absurd hfull'.1 hlev.ne'

lemma boostTurn_boostedTo (s : State) (p : Slot) : BoostedTo s (boostTurn s p) := by
  have hother : ∀ d,∀ i,i≠p → State.account {s with mlfq := s.mlfq.setSched p d} i=s.account i := fun d i hi =>
    account_of_eq rfl (update_of_ne hi ..)
  unfold boostTurn
  cases hst : (s.proc p).state with
  | unused => exact BoostedTo.refl s
  | embryo => exact BoostedTo.refl s
  | running => exact BoostedTo.refl s
  | zombie => exact BoostedTo.refl s
  | runnable =>
    dsimp only
    split_ifs with hlev
    · exact BoostedTo.refl s
    refine fun i => ⟨rfl,fun _ => ?_⟩
    by_cases hi : i=p
    · subst hi
      refine .inr ⟨hst,not_le.mp hlev,?_⟩
      simp [Account.Full,State.account,boostQueued,mlfqListAppend,mlfqListRemove,Mlfq.setSched]
    · exact .inl (hother _ i hi)
  | sleeping | stopped =>
    dsimp only
    split_ifs
    · exact BoostedTo.refl s
    · refine fun i => ⟨rfl,fun hl => .inl (hother _ i ?_)⟩
      rintro rfl
      exact absurd hl (by simp [State.account,ProcState.Live,hst])

lemma boost_account (s : State) (now : ℕ) (i : Slot) :
    AccountStep s (.boost now) i ((mlfqApplyGlobalBoost s now).account i) := by
  unfold mlfqApplyGlobalBoost
  split_ifs with hint
  · exact (Settles.refl s).step i
  have hloop : ∀ (l : List Slot) (s : State),BoostedTo s (l.foldl boostTurn s) := by
    intro l
    induction l with
    | nil => exact BoostedTo.refl
    | cons p l ih => exact fun s => (boostTurn_boostedTo s p).trans (ih _)
  obtain ⟨hst,hlive⟩:=hloop slots {s with lastBoostTick := now} i
  by_cases hl : (State.account (slots.foldl boostTurn {s with lastBoostTick := now}) i).state.Live
  · rcases hlive hl with h | ⟨hr,hlev,hfull⟩
    · exact .kept fun _ => h
    · exact .boosted now rfl ⟨hint,hr,hlev⟩ (hst.trans hr) hfull
  · exact .kept fun h => absurd h hl

lemma step_account (h : SchedInv s) (hok : SignalsApart s a) (hs : step idx s a=some t)
    (i : Slot) : AccountStep s a i (t.account i) := by
  cases step_stepsTo hs with
  | userinit _ ha => exact userinit_account ha i
  | forkAlloc _ _ ha => exact ((allocproc_settles ha).trans (settles_setProc (.inr rfl))).step i
  | @forkUndo _ p _ _ _ =>
    refine Settles.step (Settles.trans (t := s.endFork p) ?_ ?_) i
    · exact settles_setProc (.inr rfl)
    · exact settles_setProc (.inl (by simp [ProcState.Live]))
  | @forkPublish _ p np _ hnp =>
    have hset : Settles s (s.endFork p) := settles_setProc (.inr rfl)
    exact hset.publish_step (by simp [h.embryo p np hnp,ProcState.Live]) i
  | dispatch hc hs => exact h.dispatch_account hs i
  | yield hc => exact h.yield_account hc i
  | sleep _ => exact (sleepOn_settles s _ _ _ _).step i
  | wakeup => exact (wakeup1_renews s _).step i
  | kill => exact (renews_composes.kill (note_renews · · _) s _ _ _).step i
  | signalPgid => exact (renews_composes.signalPgid (note_renews · · _) s _).step i
  | applySignals hc => exact (h.applySignals_settles hc (hok _ hc)).step i
  | @maybeStop _ p _ _ =>
    exact Settles.step (Settles.trans (t := s.setProc p Proc.suspended)
      (settles_setProc (.inr rfl)) (Settles.refl _)) i
  | checkAlarms => exact (renews_composes.checkAlarms (alarmTurn_renews _) s).step i
  | boost => exact boost_account s _ i
  | timerCharge hc => exact charge_account hc i
  | tick | setBoostInterval | refused => exact (Settles.refl s).step i
  | exit => exact (renews_composes.exitReparent wakeup1_renews (fun _ _ => renews_setProc rfl) s _).exited_step _ i
  | waitpid _ ht => exact (waits_settles ht).step i
  | setAlarm _ =>
    exact (settles_of_account fun i =>
      account_of_eq (keeps_setAlarm (g := Proc.state) (fun _ _ _ => rfl) s _ _ _ i) rfl).step i
  | forkCopy | setSignals | setpgid | setsid => exact (settles_setProc (.inr rfl)).step i

end Auxv6.Process

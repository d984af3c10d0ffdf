import Auxv6.Process.Globals
import Auxv6.Process.Lifecycle

/-!
# Pids

A slot given up by a failing `fork` keeps its pid, and the pid may be given again, to an earlier slot.
-/

namespace Auxv6.Process
open Machine Lib Lib.Transition Option

variable {idx : Chan → ℕ} {s t : State} {c : ℕ} {p cur : Slot}

structure PidTable (s : State) : Prop where
  pids : ∀ i j,i≠j → (s.proc j).state≠.unused → (s.proc i).pid=(s.proc j).pid → (s.proc i).state=.unused ∧ j < i
  pos : ∀ i,(s.proc i).state≠.unused → 0<(s.proc i).pid

structure PidInv (s : State) : Prop where
  sched : SchedInv s
  table : PidTable s
  next : 0<s.nextpid

lemma PidTable.congr (h : PidTable s) (hkin : Keeps Proc.kin s t)
    (hlive : ∀ i,(t.proc i).state=.unused ↔ (s.proc i).state=.unused) : PidTable t where
  pids i j hij hj heq := by
    rw [show (t.proc i).pid = _ from congrArg (·.1) (hkin i),
      show (t.proc j).pid = _ from congrArg (·.1) (hkin j)] at heq
    rw [hlive]
    exact h.pids i j hij (fun hu => hj ((hlive j).mpr hu)) heq
  pos i hi := by
    rw [show (t.proc i).pid = _ from congrArg (·.1) (hkin i)]
    exact h.pos i fun hu => hi ((hlive i).mpr hu)

lemma allocproc_nextpid {o : Option Slot} (hs : allocproc s=some (o,t)) (h : 0<s.nextpid) : 0<t.nextpid := by
  unfold allocproc at hs
  split at hs
  · obtain ⟨-,rfl⟩:=Prod.mk.inj (some.inj hs)
    exact h
  · obtain ⟨r,hr,ht⟩:=map_eq_some_iff.mp hs
    obtain ⟨-,rfl⟩:=Prod.mk.inj ht
    exact ((pidSearch_spec hr).2 h).2

variable {a : Action}

lemma step_nextpid (hs : step idx s a=some t) (h : 0<s.nextpid) : 0<t.nextpid := by
  by_cases ha : a.setsGlobals=true
  · cases step_stepsTo hs with
    | userinit _ hal | forkAlloc _ _ hal =>
      have hn:=allocproc_nextpid hal h
      exact hn
    | checkAlarms => rwa [(wakes_composes.checkAlarms (alarmTurn_wakes _) s).nextpid]
    | boost => rwa [(boost_wakes s _).nextpid]
    | tick | setAlarm | setBoostInterval | refused => exact h
    | _ => cases ha
  · have hkept:=congrArg Globals.nextpid (step_globals (by simpa using ha) hs)
    exact lt_of_lt_of_eq h hkept.symm

inductive PidStep (s : State) (i : Slot) (y : Proc) : Prop where
  | kept (hpid : y.pid=(s.proc i).pid) (hlive : y.state≠.unused → (s.proc i).state≠.unused)
  | freed (hpid : y.pid=0) (hst : y.state=.unused)
  | taken (pid : ℕ) (hpid : y.pid=pid) (hst : (s.proc i).state=.unused)
      (hfresh : ∀ q,q≠i → (s.proc q).state≠.unused → (s.proc q).pid≠(pid : ℕ))
      (hfirst : ∀ q < i,(s.proc q).state≠.unused) (hpos : 0<s.nextpid → 0<pid)

lemma SlotStep.pidStep {i : Slot} {y : Proc} (h : SlotStep s a i y) : PidStep s i y := by
  have hused : ∀ {st},(s.proc i).state=st → st≠.unused → (s.proc i).state≠.unused :=
    fun hx hne hu => hne (hx.symm.trans hu)
  cases h with
  | kept hlife hlive _ => exact .kept (congrArg (·.1) hlife) fun hy hu => hy (hlive.mpr hu)
  | undone c cur ha hc hnp hlife hx hy =>
    exact .kept (congrArg (·.1) hlife) fun _ => hused hx (by decide)
  | reaped hx hlife hy => exact .freed (congrArg (·.1) hlife) hy
  | allocated pid hx hfresh hfirst hpos hlife hy =>
    exact .taken pid (congrArg (·.1) hlife) hx hfresh hfirst hpos
  | forked cur hnp hx hlife hy =>
    exact .kept (congrArg (·.1) hlife) fun _ => hused hx (by decide)
  | adopted init hinit hpar hlife hlive _ =>
    exact .kept (congrArg (·.1) hlife) fun hy hu => hy (hlive.mpr hu)

lemma step_pids (h : SchedInv s) (hok : SignalsApart s a)
    (hs : step idx s a=some t) (i : Slot) : PidStep s i (t.proc i) := by
  by_cases ha : a.setsAlarm=true
  · obtain ⟨hkin,hlive⟩:=alarm_kin ha hs
    exact .kept (congrArg (·.1) (hkin i)) fun hy hu => hy ((hlive i).mpr hu)
  · exact (step_slots h hok (by simpa using ha) hs i).pidStep

lemma PidTable.step (h : PidTable s) (hnext : 0<s.nextpid) (hstep : ∀ i,PidStep s i (t.proc i)) : PidTable t where
  pids i j hij hj heq := by
    cases hstep j with
    | freed _ hst => exact absurd hst hj
    | kept hpj hlive =>
      have hjs:=hlive hj
      cases hstep i with
      | kept hpi hi =>
        obtain ⟨hu,hlt⟩:=h.pids i j hij hjs (by rw [← hpi,← hpj,heq])
        exact ⟨by_contra fun hy => hi hy hu,hlt⟩
      | freed hpi _ =>
        -- a slot in use has no pid 0
        have := h.pos j hjs
        omega
      | taken pid hpi _ hfresh _ _ =>
        exact absurd (by rw [← hpi,← hpj,heq]) (hfresh j hij.symm hjs)
    | taken pid hpj hju hfresh hfirst hpos =>
      have hlt : (s.proc i).state=.unused → j < i := fun hu =>
        (lt_or_gt_of_ne hij).resolve_left fun hij => hfirst i hij hu
      cases hstep i with
      | kept hpi hi =>
        have hu : (s.proc i).state=.unused := by_contra fun hu =>
          hfresh i hij hu (by rw [← hpi,← hpj,heq])
        exact ⟨by_contra fun hy => hi hy hu,hlt hu⟩
      | freed hpi _ =>
        omega
      | taken _ _ hiu _ hfirst' _ =>
        exact absurd hju (hfirst' j (hlt hiu))
  pos i hi := by
    cases hstep i with
    | kept hpi hlive => exact hpi ▸ h.pos i (hlive hi)
    | freed _ hst => exact absurd hst hi
    | taken pid hpi _ _ _ hpos =>
      omega

lemma step_pidInv (h : PidInv s) (hok : SignalsApart s a) (hs : step idx s a=some t) : PidInv t where
  sched := step_schedInv h.sched hok hs
  table := h.table.step h.next (step_pids h.sched hok hs)
  next := step_nextpid hs h.next
lemma zeroState_pidInv : PidInv zeroState where
  sched := zeroState_schedInv
  table := ⟨fun _ _ _ hj => absurd rfl hj,fun _ hi => absurd rfl hi⟩
  next := by decide

def NoAbandoned (s : State) : Prop := ∀ i,(s.proc i).state=.unused → (s.proc i).parent=none

/-- A `fork` that fails, fails before it sets the parent of the child. -/
def ForkFailsEarly (s : State) : Action → Prop
  | .forkUndo c => ∀ p np,s.cpu c=some p → (s.proc p).np=some np → (s.proc np).parent=none
  | _ => True

lemma step_noAbandoned (hinv : SchedInv s) (h : NoAbandoned s) (hok : SignalsApart s a)
    (hfork : ForkFailsEarly s a) (hs : step idx s a=some t) : NoAbandoned t := by
  by_cases ha : a.setsAlarm=true
  · obtain ⟨hkin,hlive⟩:=alarm_kin ha hs
    intro i hi
    rw [show (t.proc i).parent = _ from congrArg (·.2) (hkin i)]
    exact h i ((hlive i).mp hi)
  intro i hi
  cases step_slots hinv hok (by simpa using ha) hs i with
  | kept hlife hlive _ =>
    rw [show (t.proc i).parent = _ from congrArg (·.2.1) hlife]
    exact h i (hlive.mp hi)
  | undone c cur ha hc hnp hlife hx hy =>
    subst ha
    rw [show (t.proc i).parent = _ from congrArg (·.2.1) hlife]
    exact hfork cur i hc hnp
  | reaped hx hlife hy => exact congrArg (·.2.1) hlife
  | allocated pid hx hfresh hfirst hpos hlife hy => exact absurd hi hy
  | forked cur hnp hx hlife hy => exact absurd hi hy
  | adopted init hinit hpar hlife hlive _ => exact absurd (h i (hlive.mp hi)) hpar

/-- In every such run pids are unique, and no process is current on two CPUs. -/
theorem processes_apart (as : List Action) (hok : Guarded (step idx) SignalsApart zeroState as)
    (h : run (step idx) zeroState as=some s) : PidInv s :=
  run_guarded (fun _ _ _ h hok hs => step_pidInv h hok hs) zeroState_pidInv hok h

theorem processes_apart_child : ∃ s,run (step fun _ => 0) zeroState stopChild=some s ∧ PidInv s :=
  (isSome_iff_exists.mp (by decide +kernel)).imp fun _ h => ⟨h,processes_apart _ stopChild_guarded h⟩

end Auxv6.Process

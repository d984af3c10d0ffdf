import Auxv6.Process.SchedSafety

/-!
# The wait invariant

No process sleeps inside `proc_waitpid` next to a child it could report.
-/

namespace Auxv6.Process
open Machine Finset

def State.WaitsFor (s : State) (p : Slot) (pid : Int) (options : WaitOptions) : Prop :=
  (s.proc p).state=.sleeping ∧ (s.proc p).context=.waitpid pid options
def State.Awaited (s : State) (p : Slot) (pid : Int) (i : Slot) : Prop :=
  (s.proc i).parent=some p ∧ procWaitTargetMatch (s.proc p) (s.proc i) pid=true
def NoLostWait (s : State) : Prop :=
  ∀ p pid options i,s.WaitsFor p pid options → s.Awaited p pid i → (s.proc i).reportable options=false
def Context.sleepChan (p : Slot) : Context → Option Chan
  | .sleep chan => some chan
  | .waitpid _ _ => some (.slot p)
  | _ => Option.none
def sleepers (idx : Chan → ℕ) (s : State) (b : ℕ) : Finset Slot :=
  Finset.univ.filter fun p => ((s.proc p).context.sleepChan p).map idx=some b
def ProcState.Fresh (st : ProcState) : Prop := st=.unused ∨ st=.embryo

structure WaitInv (idx : Chan → ℕ) (s : State) : Prop where
  sched : SchedInv s
  ownChan : ∀ p pid options,s.WaitsFor p pid options → (s.proc p).chan=some (.slot p)
  hash : ∀ b,(sleepers idx s b).card ≤ s.chanWaitHash b
  pids : ∀ i j,i≠j → (s.proc j).state≠.unused → (s.proc j).pid≠0 →
    (s.proc i).pid=(s.proc j).pid → (s.proc i).state=.unused ∧ j < i
  event : ∀ p,(s.proc p).state.Fresh → (s.proc p).waitEvent=.none
  parent : ∀ p,(s.proc p).parent≠some p
  init : ∀ i,s.initproc=some i → (s.proc i).parent=none ∧ ¬ (s.proc i).state.Fresh ∧ (s.proc i).state≠.zombie
  boot : s.initproc=none → ∀ p,(s.proc p).state=.unused ∧ (s.proc p).parent=none
  noLost : NoLostWait s

structure Calms (s t : State) : Prop where
  initproc : t.initproc=s.initproc
  pid : ∀ i,(t.proc i).pid=(s.proc i).pid
  pgid : ∀ i,(t.proc i).pgid=(s.proc i).pgid
  parent : ∀ i,(t.proc i).parent=(s.proc i).parent
  waitEvent : ∀ i,(t.proc i).waitEvent=(s.proc i).waitEvent ∨ (t.proc i).waitEvent=.none
  context : ∀ i,(t.proc i).context=(s.proc i).context ∨ (t.proc i).context.sleepChan i=none
  asleep : ∀ i,(t.proc i).state=.sleeping → (s.proc i).state=.sleeping ∧
    (t.proc i).chan=(s.proc i).chan ∧ (t.proc i).context=(s.proc i).context
  zombie : ∀ i,(t.proc i).state=.zombie → (s.proc i).state=.zombie
  unused : ∀ i,(t.proc i).state=.unused ↔ (s.proc i).state=.unused
  embryo : ∀ i,(t.proc i).state=.embryo → (s.proc i).state=.embryo

section

variable {idx : Chan → ℕ} {s t : State} {p : Slot} {options : WaitOptions}

lemma Calms.waitsFor (h : Calms s t) {pid : Int} (hw : t.WaitsFor p pid options) : s.WaitsFor p pid options :=
  ⟨(h.asleep p hw.1).1,(h.asleep p hw.1).2.2 ▸ hw.2⟩
lemma procWaitTargetMatch_congr {cur cur' child child' : Proc} (pid : Int)
    (h1 : cur'.pgid=cur.pgid) (h2 : child'.pid=child.pid) (h3 : child'.pgid=child.pgid) :
    procWaitTargetMatch cur' child' pid=procWaitTargetMatch cur child pid := by
  simp only [procWaitTargetMatch,h1,h2,h3]
lemma Calms.awaited (h : Calms s t) {i : Slot} {pid : Int} : t.Awaited p pid i ↔ s.Awaited p pid i := by
  simp only [State.Awaited,h.parent,procWaitTargetMatch_congr pid (h.pgid p) (h.pid i) (h.pgid i)]

lemma Calms.reportable (h : Calms s t) {i : Slot}
    (hr : (s.proc i).reportable options=false) : (t.proc i).reportable options=false := by
  simp only [Proc.reportable,Proc.eventReportable,Bool.or_eq_false_iff,decide_eq_false_iff_not] at hr ⊢
  refine ⟨?_,fun hz => hr.2 (h.zombie i hz)⟩
  rcases h.waitEvent i with he | he
  · rw [he]
    exact hr.1
  · rw [he]
    simp

lemma Calms.sleepers (h : Calms s t) (b : ℕ) : sleepers idx t b ⊆ sleepers idx s b := by
  intro p hp
  simp only [Process.sleepers,mem_filter,mem_univ,true_and] at hp ⊢
  rcases h.context p with hc | hc
  · rwa [hc] at hp
  · rw [hc] at hp
    cases hp

lemma WaitInv.calm (h : WaitInv idx s) (hs : SchedInv t) (hc : Calms s t)
    (hhash : ∀ b,(Process.sleepers idx t b).card≤t.chanWaitHash b) : WaitInv idx t where
  sched := hs
  ownChan p pid options hw := by
    rw [(hc.asleep p hw.1).2.1]
    exact h.ownChan p pid options (hc.waitsFor hw)
  hash := hhash
  pids i j hij hj hpid heq := by
    rw [hc.pid] at hpid
    rw [hc.pid,hc.pid] at heq
    rw [hc.unused]
    exact h.pids i j hij (fun hu => hj ((hc.unused j).mpr hu)) hpid heq
  event p hf := by
    have hfs : (s.proc p).state.Fresh := hf.imp (hc.unused p).mp (hc.embryo p)
    rcases hc.waitEvent p with he | he
    · exact he.trans (h.event p hfs)
    · exact he
  parent p := by
    rw [hc.parent]
    exact h.parent p
  init i hi := by
    obtain ⟨h1,h2,h3⟩:=h.init i (hc.initproc ▸ hi)
    refine ⟨(hc.parent i).trans h1,fun hf => h2 (hf.imp (hc.unused i).mp (hc.embryo i)),fun hz => h3 (hc.zombie i hz)⟩
  boot hi p := by
    obtain ⟨h1,h2⟩:=h.boot (hc.initproc ▸ hi) p
    exact ⟨(hc.unused p).mpr h1,(hc.parent p).trans h2⟩
  noLost p pid options i hw ha := hc.reportable (h.noLost p pid options i (hc.waitsFor hw) (hc.awaited.mp ha))

lemma Wakes.calms (h : Wakes s t) : Calms s t where
  initproc := h.initproc
  pid := h.pid
  pgid := h.pgid
  parent i := congrArg (·.2.2.1) (h.links i)
  waitEvent i := .inl (h.waitEvent i)
  context i := .inl (congrArg (·.2.2.2.2.1) (h.links i))
  asleep i hi := by
    refine ⟨?_,congrArg (·.2.2.2.1) (h.links i),congrArg (·.2.2.2.2.1) (h.links i)⟩
    rcases h.state i with hs | ⟨hs,-⟩
    · exact hs ▸ hi
    · rw [hs] at hi
      cases hi
  zombie i hi := by
    rcases h.state i with hs | ⟨hs,-⟩
    · exact hs ▸ hi
    · rw [hs] at hi
      cases hi
  unused := h.unused_iff
  embryo i hi := by
    rcases h.state i with hs | ⟨hs,-⟩
    · exact hs ▸ hi
    · rw [hs] at hi
      cases hi

lemma WaitInv.hash_of_calms (h : WaitInv idx s) (hc : Calms s t) (heq : t.chanWaitHash=s.chanWaitHash) (b : ℕ) :
    (Process.sleepers idx t b).card≤t.chanWaitHash b := by
  rw [heq]
  exact (card_le_card (hc.sleepers b)).trans (h.hash b)
lemma WaitInv.wakes (h : WaitInv idx s) (hs : SchedInv t) (hw : Wakes s t) :
    WaitInv idx t := h.calm hs hw.calms (h.hash_of_calms hw.calms hw.chanWaitHash)

lemma calms_update (hother : ∀ i,i≠p → t.proc i=s.proc i) (hinit : t.initproc=s.initproc)
    (hpid : (t.proc p).pid=(s.proc p).pid) (hpgid : (t.proc p).pgid=(s.proc p).pgid)
    (hpar : (t.proc p).parent=(s.proc p).parent) (hev : (t.proc p).waitEvent=(s.proc p).waitEvent)
    (hctx : (t.proc p).context=(s.proc p).context ∨ (t.proc p).context.sleepChan p=none)
    (hst : (t.proc p).state=.runnable ∨ OnCpuState (t.proc p).state)
    (hold : (s.proc p).state≠.unused) : Calms s t := by
  have hfield : ∀ {α : Type} (g : Proc → α),g (t.proc p)=g (s.proc p) → ∀ i,g (t.proc i)=g (s.proc i) := by
    intro α g hg i
    by_cases hip : i=p
    · rw [hip,hg]
    · rw [hother i hip]
  have hstate : ∀ st,st≠.runnable → ¬ OnCpuState st → ∀ i,(t.proc i).state=st → i≠p ∧ (s.proc i).state=st := by
    intro st h1 h2 i hi
    have hip : i≠p := by
      rintro rfl
      rw [hi] at hst
      exact hst.elim h1 h2
    rw [hother i hip] at hi
    exact ⟨hip,hi⟩
  refine ⟨hinit,hfield Proc.pid hpid,hfield Proc.pgid hpgid,hfield Proc.parent hpar,
    fun i => .inl (hfield Proc.waitEvent hev i),fun i => ?_,fun i hi => ?_,
    fun i hi => ?_,fun i => ⟨fun hi => ?_,fun hi => ?_⟩,fun i hi => ?_⟩
  · by_cases hip : i=p
    · rw [hip]
      exact hctx
    · rw [hother i hip]
      exact .inl rfl
  · obtain ⟨hip,hi⟩:=hstate .sleeping (by decide) (by simp [OnCpuState]) i hi
    rw [hother i hip]
    exact ⟨hi,rfl,rfl⟩
  · exact (hstate .zombie (by decide) (by simp [OnCpuState]) i hi).2
  · exact (hstate .unused (by decide) (by simp [OnCpuState]) i hi).2
  · have hip : i≠p := fun hip => hold (hip ▸ hi)
    rw [hother i hip]
    exact hi
  · exact (hstate .embryo (by decide) (by simp [OnCpuState]) i hi).2

lemma WaitInv.booted (h : WaitInv idx s) {c : ℕ} (hc : s.cpu c=some p) : s.initproc≠none := by
  intro hi
  have hst:=(h.boot hi p).1
  rcases h.sched.current p ⟨c,hc⟩ with h' | h' <;> rw [h'] at hst <;> cases hst

lemma sleepers_subset (hother : ∀ i,i≠p → t.proc i=s.proc i)
    (hp : (t.proc p).context=(s.proc p).context ∨ (t.proc p).context.sleepChan p=none)
    (b : ℕ) : sleepers idx t b ⊆ sleepers idx s b := by
  intro i hi
  simp only [sleepers,mem_filter,mem_univ,true_and] at hi ⊢
  by_cases hip : i=p
  · subst hip
    rcases hp with hp | hp
    · rwa [hp] at hi
    · rw [hp] at hi
      cases hi
  · rwa [hother i hip] at hi

lemma WaitInv.update (h : WaitInv idx s) (hs : SchedInv t)
    (hother : ∀ i,i≠p → t.proc i=s.proc i) (hinit : t.initproc=s.initproc)
    (hboot : s.initproc≠none) (hhash : ∀ b,(sleepers idx t b).card≤t.chanWaitHash b)
    (hown : ∀ pid options,t.WaitsFor p pid options → (t.proc p).chan=some (.slot p))
    (hpids : ∀ j,j≠p → (t.proc p).pid=(s.proc j).pid → (s.proc j).pid≠0 →
      ((s.proc j).state≠.unused → (t.proc p).state=.unused ∧ j<p) ∧
      ((t.proc p).state≠.unused → (s.proc j).state=.unused ∧ p<j))
    (hevent : (t.proc p).state.Fresh → (t.proc p).waitEvent=.none)
    (hparent : (t.proc p).parent≠some p) (hinitp : s.initproc=some p →
      (t.proc p).parent=none ∧ ¬ (t.proc p).state.Fresh ∧ (t.proc p).state≠.zombie)
    (hwaiter : ∀ pid options i,t.WaitsFor p pid options → t.Awaited p pid i → (t.proc i).reportable options=false)
    (hchild : ∀ q pid options,q≠p → s.WaitsFor q pid options → t.Awaited q pid p →
      (t.proc p).reportable options=false) : WaitInv idx t where
  sched := hs
  ownChan q pid options hw := by
    by_cases hqp : q=p
    · subst hqp
      exact hown pid options hw
    · rw [State.WaitsFor,hother q hqp] at hw
      rw [hother q hqp]
      exact h.ownChan q pid options hw
  hash := hhash
  pids i j hij hj hpid heq := by
    by_cases hi : i=p
    · subst hi
      rw [hother j hij.symm] at hj hpid heq
      exact (hpids j hij.symm heq hpid).1 hj
    by_cases hj' : j=p
    · subst hj'
      rw [hother i hi] at heq ⊢
      exact (hpids i hi heq.symm (heq ▸ hpid)).2 hj
    · rw [hother j hj'] at hj hpid heq
      rw [hother i hi] at heq ⊢
      exact h.pids i j hij hj hpid heq
  event q := by
    by_cases hqp : q=p
    · subst hqp
      exact hevent
    · rw [hother q hqp]
      exact h.event q
  parent q := by
    by_cases hqp : q=p
    · subst hqp
      exact hparent
    · rw [hother q hqp]
      exact h.parent q
  init i hi := by
    rw [hinit] at hi
    by_cases hip : i=p
    · subst hip
      exact hinitp hi
    · rw [hother i hip]
      exact h.init i hi
  boot hi := absurd (hinit ▸ hi) hboot
  noLost q pid options i hw ha := by
    by_cases hqp : q=p
    · subst hqp
      exact hwaiter pid options i hw ha
    have hw' : s.WaitsFor q pid options := by
      rwa [State.WaitsFor,hother q hqp] at hw
    by_cases hip : i=p
    · subst hip
      exact hchild q pid options hqp hw' ha
    · rw [State.Awaited,hother q hqp,hother i hip] at ha
      rw [hother i hip]
      exact h.noLost q pid options i hw' ha

lemma WaitInv.pids_same (h : WaitInv idx s) {x : Proc} (hpid : x.pid=(s.proc p).pid)
    (hst : x.state=.unused ↔ (s.proc p).state=.unused) : ∀ j,j≠p → x.pid=(s.proc j).pid →
      (s.proc j).pid≠0 → ((s.proc j).state≠.unused → x.state=.unused ∧ j<p) ∧
      (x.state≠.unused → (s.proc j).state=.unused ∧ p<j) := by
  intro j hj heq hne
  rw [hpid] at heq
  rw [hst]
  refine ⟨fun hu => h.pids p j hj.symm hu hne heq,fun hu => ?_⟩
  exact h.pids j p hj (fun hx => hu (hst.mpr hx)) (heq ▸ hne) heq.symm

end

end Auxv6.Process

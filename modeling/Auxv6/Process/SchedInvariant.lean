import Auxv6.Process.Frame

/-!
# The scheduler invariant

The queues hold exactly the `RUNNABLE` processes.
-/

namespace Auxv6.Process
open Machine

def State.Runnable (s : State) (p : Slot) : Prop := (s.proc p).state=.runnable
def State.OnCpu (s : State) (p : Slot) : Prop := ∃ c,s.cpu c=some p
def OnCpuState (st : ProcState) : Prop := st=.running ∨ st=.stopped

structure SchedInv (s : State) : Prop where
  queues : QueueInv s.mlfq s.Runnable
  current : ∀ p,s.OnCpu p → OnCpuState (s.proc p).state
  oneCpu : ∀ c c' p,s.cpu c=some p → s.cpu c'=some p → c=c'
  embryo : ∀ p np,(s.proc p).np=some np → (s.proc np).state=.embryo
  oneFork : ∀ p p' np,(s.proc p).np=some np → (s.proc p').np=some np → p=p'

section

variable {s t : State} {p : Slot}

lemma SchedInv.congr (h : SchedInv s) (hq : t.mlfq=s.mlfq) (hc : t.cpu=s.cpu)
    (hst : ∀ i,(t.proc i).state=(s.proc i).state) (hnp : ∀ i,(t.proc i).np=(s.proc i).np) : SchedInv t where
  queues := by
    rw [hq]
    exact h.queues.congr fun i => by simp only [State.Runnable,hst]
  current := fun i ⟨c,hi⟩ => by
    rw [hst]
    exact h.current i ⟨c,hc ▸ hi⟩
  oneCpu := by
    rw [hc]
    exact h.oneCpu
  embryo := fun i np hi => by
    rw [hst]
    exact h.embryo i np (hnp i ▸ hi)
  oneFork := fun i j np hi hj => h.oneFork i j np (hnp i ▸ hi) (hnp j ▸ hj)

variable {f : Proc → Proc}

section
variable (h : SchedInv s)
include h

lemma SchedInv.setFields (hst : (f (s.proc p)).state=(s.proc p).state)
    (hnp : (f (s.proc p)).np=(s.proc p).np) : SchedInv (s.setProc p f) :=
  h.congr rfl rfl (setProc_field s p f Proc.state hst) (setProc_field s p f Proc.np hnp)

lemma SchedInv.setState (hnp : (f (s.proc p)).np=(s.proc p).np)
    (hrun : (f (s.proc p)).state=.runnable ↔ s.Runnable p) (hcur : s.OnCpu p → OnCpuState (f (s.proc p)).state)
    (hemb : ∀ i,(s.proc i).np≠some p) : SchedInv (s.setProc p f) where
  queues := h.queues.congr fun i => by
    by_cases hi : i=p
    · subst hi
      simp only [State.Runnable,setProc_self] at hrun ⊢
      exact hrun.symm
    · simp only [State.Runnable,setProc_of_ne s f hi]
  current := fun i hi => by
    by_cases hip : i=p
    · subst hip
      rw [setProc_self]
      exact hcur hi
    · rw [setProc_of_ne s f hip]
      exact h.current i hi
  oneCpu := h.oneCpu
  embryo := fun i np hi => by
    rw [setProc_field s p f Proc.np hnp] at hi
    have hne : np≠p := fun hne => hemb i (hne ▸ hi)
    rw [setProc_of_ne s f hne]
    exact h.embryo i np hi
  oneFork := fun i j np hi hj => by
    rw [setProc_field s p f Proc.np hnp] at hi hj
    exact h.oneFork i j np hi hj

lemma SchedInv.clearCpu (c : ℕ) : SchedInv (s.setCpu c none) where
  queues := h.queues
  current := fun p ⟨c',hp⟩ => by
    refine h.current p ⟨c',?_⟩
    by_cases hc : c'=c
    · simp [State.setCpu,hc] at hp
    · simpa [State.setCpu,hc] using hp
  oneCpu := fun c1 c2 p h1 h2 => by
    by_cases hc1 : c1=c
    · simp [State.setCpu,hc1] at h1
    by_cases hc2 : c2=c
    · simp [State.setCpu,hc2] at h2
    · exact h.oneCpu c1 c2 p (by simpa [State.setCpu,hc1] using h1) (by simpa [State.setCpu,hc2] using h2)
  embryo := h.embryo
  oneFork := h.oneFork

lemma SchedInv.onCpu_clearCpu {c : ℕ} (hc : s.cpu c=some p) : ¬ (s.setCpu c none).OnCpu p := by
  rintro ⟨c',hp⟩
  by_cases hcc : c'=c
  · simp [State.setCpu,hcc] at hp
  · exact hcc (h.oneCpu c' c p (by simpa [State.setCpu,hcc] using hp) hc)
lemma SchedInv.notOnCpu (hst : ¬ OnCpuState (s.proc p).state) : ¬ s.OnCpu p := fun hc => hst (h.current p hc)

lemma SchedInv.makeRunnable (hrun : ¬ s.Runnable p) (hcpu : ¬ s.OnCpu p)
    (hnp : ∀ i,(s.proc i).np≠some p) (reason : SchedEnq) : SchedInv (s.makeRunnable p reason) where
  queues := by
    refine (h.queues.enqueue hrun s.ticks reason).congr fun i => ?_
    by_cases hi : i=p
    · subst hi
      simp [State.Runnable,State.makeRunnable,State.setProc]
    · simp [State.Runnable,State.makeRunnable,State.setProc,hi]
  current := fun i hi => by
    have hip : i≠p := fun hip => hcpu (hip ▸ hi)
    simpa [State.makeRunnable,State.setProc,hip] using h.current i hi
  oneCpu := h.oneCpu
  embryo := fun i np hi => by
    rw [State.makeRunnable,setProc_field s p _ Proc.np rfl] at hi
    have hne : np≠p := fun hne => hnp i (hne ▸ hi)
    simpa [State.makeRunnable,State.setProc,hne] using h.embryo i np hi
  oneFork := fun i j np hi hj => by
    rw [State.makeRunnable,setProc_field s p _ Proc.np rfl] at hi hj
    exact h.oneFork i j np hi hj

lemma SchedInv.np_ne (hst : (s.proc p).state≠.embryo) (i : Slot) : (s.proc i).np≠some p :=
  fun hi => hst (h.embryo i p hi)

lemma SchedInv.wake (hst : (s.proc p).state=.sleeping) (reason : SchedEnq) : SchedInv (s.makeRunnable p reason) := by
  refine h.makeRunnable ?_ (h.notOnCpu ?_) (h.np_ne ?_) reason
  · simp [State.Runnable,hst]
  · simp [OnCpuState,hst]
  · simp [hst]

lemma SchedInv.continue_ (hst : (s.proc p).state=.stopped)
    (hcpu : ¬ s.OnCpu p) (reason : SchedEnq) : SchedInv (s.makeRunnable p reason) := by
  refine h.makeRunnable ?_ hcpu (h.np_ne ?_) reason
  · simp [State.Runnable,hst]
  · simp [hst]
lemma SchedInv.setSched {d : SchedData} (hlt : d.schedQ < mlfqNqueues)
    (hq : ¬ s.Runnable p ∨ d.schedQ=(s.mlfq.sched p).schedQ) : SchedInv {s with mlfq := s.mlfq.setSched p d} :=
  {h with queues := h.queues.setSched hlt hq}

end

lemma SchedInv.foldl {α : Type} {f : State → α → State} (hf : ∀ s a,SchedInv s → SchedInv (f s a))
    (l : List α) (h : SchedInv s) : SchedInv (l.foldl f s) := by
  induction l generalizing s with
  | nil => exact h
  | cons a l ih => exact ih (hf s a h)

end

end Auxv6.Process

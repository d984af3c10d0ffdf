import Auxv6.Process.Step

/-! # What the sections leave unchanged -/

namespace Auxv6.Process
open Machine

variable {idx : Chan → ℕ} {s t u : State} {c : ℕ} {p cur : Slot}

section

variable (s : State) (p : Slot) (f : Proc → Proc)

@[simp] lemma setProc_self : (s.setProc p f).proc p=f (s.proc p) := by
  simp [State.setProc]
@[simp] lemma setProc_of_ne {p i : Slot} (h : i≠p) : (s.setProc p f).proc i=s.proc i := by
  simp [State.setProc,h]
@[simp] lemma setProc_mlfq : (s.setProc p f).mlfq=s.mlfq := rfl
@[simp] lemma setProc_cpu : (s.setProc p f).cpu=s.cpu := rfl
@[simp] lemma setCpu_proc (c : ℕ) (o : Option Slot) : (s.setCpu c o).proc=s.proc := rfl
@[simp] lemma setCpu_mlfq (c : ℕ) (o : Option Slot) : (s.setCpu c o).mlfq=s.mlfq := rfl

lemma setProc_field {α : Type} (g : Proc → α) (hg : g (f (s.proc p))=g (s.proc p)) (i : Slot) :
    g ((s.setProc p f).proc i)=g (s.proc i) := by
  by_cases hi : i=p
  · subst hi
    rw [setProc_self,hg]
  · rw [setProc_of_ne s f hi]

end

def Proc.links (x : Proc) : Int × Int × Option Slot × Option Chan × Context × Option Slot :=
  (x.pid,x.pgid,x.parent,x.chan,x.context,x.np)

structure Wakes (s t : State) : Prop where
  cpu : t.cpu=s.cpu
  initproc : t.initproc=s.initproc
  nextpid : t.nextpid=s.nextpid
  chanWaitHash : t.chanWaitHash=s.chanWaitHash
  links : ∀ i,(t.proc i).links=(s.proc i).links
  waitEvent : ∀ i,(t.proc i).waitEvent=(s.proc i).waitEvent
  state : ∀ i,(t.proc i).state=(s.proc i).state ∨
    (t.proc i).state=.runnable ∧ ((s.proc i).state=.sleeping ∨ (s.proc i).state=.stopped)

lemma woken_trans {x y z : ProcState} (h : y=x ∨ y=.runnable ∧ (x=.sleeping ∨ x=.stopped))
    (h' : z=y ∨ z=.runnable ∧ (y=.sleeping ∨ y=.stopped)) : z=x ∨ z=.runnable ∧ (x=.sleeping ∨ x=.stopped) := by
  rcases h' with rfl | ⟨h1,h2⟩
  · exact h
  · rcases h with rfl | ⟨rfl,-⟩
    · exact .inr ⟨h1,h2⟩
    · rcases h2 with h2 | h2 <;> cases h2

lemma Wakes.refl (s : State) : Wakes s s := ⟨rfl,rfl,rfl,rfl,fun _ => rfl,fun _ => rfl,fun _ => .inl rfl⟩

lemma Wakes.trans (h : Wakes s t) (h' : Wakes t u) : Wakes s u where
  cpu := h'.cpu.trans h.cpu
  initproc := h'.initproc.trans h.initproc
  nextpid := h'.nextpid.trans h.nextpid
  chanWaitHash := h'.chanWaitHash.trans h.chanWaitHash
  links i := (h'.links i).trans (h.links i)
  waitEvent i := (h'.waitEvent i).trans (h.waitEvent i)
  state i := woken_trans (h.state i) (h'.state i)

lemma wakes_composes : Composes Wakes := ⟨Wakes.refl,Wakes.trans⟩

lemma makeRunnable_wakes (hst : (s.proc p).state=.sleeping ∨ (s.proc p).state=.stopped)
    (reason : SchedEnq) : Wakes s (s.makeRunnable p reason) := by
  let run : Proc → Proc:=fun x => {x with state := .runnable}
  refine ⟨rfl,rfl,rfl,rfl,setProc_field s p run Proc.links rfl,setProc_field s p run Proc.waitEvent rfl,fun i => ?_⟩
  by_cases hi : i=p
  · subst hi
    exact .inr ⟨by simp [State.makeRunnable],hst⟩
  · exact .inl (by simp [State.makeRunnable,hi])

lemma wakeOne_wakes (chan : Chan) (s : State) (p : Slot) : Wakes s (wakeOne chan s p) := by
  unfold wakeOne
  split_ifs with h
  · exact makeRunnable_wakes (.inl h.1) .wake
  · exact Wakes.refl s

def SignalOnly (f : Proc → Proc) : Prop := ∀ x,(f x).links=x.links ∧ (f x).state=x.state ∧ (f x).waitEvent=x.waitEvent

lemma SignalOnly.wakes {f : Proc → Proc} (hf : SignalOnly f) : Wakes s (s.setProc p f) :=
  ⟨rfl,rfl,rfl,rfl,setProc_field s p f Proc.links (hf _).1,setProc_field s p f Proc.waitEvent (hf _).2.2,
    fun i => .inl (setProc_field s p f Proc.state (hf _).2.1 i)⟩

lemma tickSleepqRemoveLocked_wakes (s : State) (p : Slot) : Wakes s (tickSleepqRemoveLocked s p) := by
  unfold tickSleepqRemoveLocked
  split_ifs
  · have h : Wakes s (s.setProc p fun x => {x with onTickq := false}) := SignalOnly.wakes fun x => ⟨rfl,rfl,rfl⟩
    exact ⟨h.cpu,h.initproc,h.nextpid,h.chanWaitHash,h.links,h.waitEvent,h.state⟩
  · exact Wakes.refl s

lemma wakeup1_wakes (s : State) (chan : Chan) : Wakes s (wakeup1 idx s chan) :=
  wakes_composes.wakeup1 wakeOne_wakes
    (fun s p => (wakeOne_wakes .ticks s p).trans (tickSleepqRemoveLocked_wakes _ p)) idx s chan
lemma setProc_setProc (f g : Proc → Proc) : (s.setProc p f).setProc p g=s.setProc p (g ∘ f) := by
  simp [State.setProc]

variable {g : Proc → Proc}

def SignalUpdate (s : State) (p : Slot) (t : State) : Prop := ∃ f,SignalOnly f ∧ t=s.setProc p f

lemma SignalUpdate.setProc (h : SignalUpdate s p t) (hg : SignalOnly g) : SignalUpdate s p (t.setProc p g) := by
  obtain ⟨f,hf,rfl⟩:=h
  exact ⟨g ∘ f,fun x => ⟨(hg (f x)).1.trans (hf x).1,(hg (f x)).2.1.trans (hf x).2.1,
    (hg (f x)).2.2.trans (hf x).2.2⟩,setProc_setProc f g⟩
lemma SignalUpdate.refl : SignalUpdate s p s :=
  ⟨id,fun x => ⟨rfl,rfl,rfl⟩,by rw [State.setProc,id,Function.update_eq_self]⟩
lemma SignalUpdate.state_eq (h : SignalUpdate s p t) : (t.proc p).state=(s.proc p).state := by
  obtain ⟨f,hf,rfl⟩:=h
  exact setProc_field s p f Proc.state (hf _).2.1 p

lemma wakeSleeper_cases {P : Prop} (hst : (t.proc p).state=(s.proc p).state) :
    (if (t.proc p).state=.sleeping then t.makeRunnable p .signal else t)=t ∨ ((s.proc p).state=.sleeping ∨ P) ∧
        (if (t.proc p).state=.sleeping then t.makeRunnable p .signal else t)=t.makeRunnable p .signal := by
  rw [hst]
  by_cases hs : (s.proc p).state=.sleeping
  · rw [if_pos hs]
    exact .inr ⟨.inl hs,rfl⟩
  · rw [if_neg hs]
    exact .inl rfl

lemma note_cases (s : State) (p : Slot) (signo : ℕ) :
    ∃ f,SignalOnly f ∧ (procNoteSignalLocked s p signo=s.setProc p f ∨
      ((s.proc p).state=.sleeping ∨ (signo=sigcont ∧ (s.proc p).state=.stopped)) ∧
        procNoteSignalLocked s p signo=(s.setProc p f).makeRunnable p .signal) := by
  by_cases hv : validSigno signo=true
  swap
  · obtain ⟨f,hf,hs⟩ : SignalUpdate s p s:=SignalUpdate.refl
    rw [procNoteSignalLocked,if_pos hv]
    exact ⟨f,hf,.inl hs⟩
  rw [procNoteSignalLocked,if_neg (not_not.mpr hv)]
  extract_lets s1 s0 s2 s3
  have h1 : SignalUpdate s p s1 := SignalUpdate.refl.setProc fun x => ⟨rfl,rfl,rfl⟩
  by_cases hcont : signo=sigcont
  · have hkill : signo≠sigkill := by rw [hcont]; decide
    obtain ⟨g,hg,hgs⟩ : SignalUpdate s p s0:=h1.setProc fun x => ⟨rfl,rfl,rfl⟩
    have hst : (s0.proc p).state=(s.proc p).state := SignalUpdate.state_eq ⟨g,hg,hgs⟩
    have h2 : s2=if (s0.proc p).state=.stopped then s0.makeRunnable p .signal else s0 := if_pos hcont
    have h3 : s3=s2 := if_neg hkill
    refine ⟨g,hg,?_⟩
    rw [h3,h2,← hgs,hst]
    by_cases hs : (s.proc p).state=.stopped
    · rw [if_pos hs,if_neg (by simp [State.makeRunnable])]
      exact .inr ⟨.inr ⟨hcont,hs⟩,rfl⟩
    · rw [if_neg hs]
      exact wakeSleeper_cases hst
  · have h2 : s2=s1 := if_neg hcont
    obtain ⟨g,hg,hgs⟩ : SignalUpdate s p s3 := by
      simp only [s3,h2]
      split_ifs
      · exact h1.setProc fun x => ⟨rfl,rfl,rfl⟩
      · exact h1
    refine ⟨g,hg,?_⟩
    rw [hgs]
    exact wakeSleeper_cases (setProc_field s p g Proc.state (hg _).2.1 p)

lemma note_wakes (s : State) (p : Slot) (signo : ℕ) : Wakes s (procNoteSignalLocked s p signo) := by
  obtain ⟨f,hf,hs | ⟨hst,hs⟩⟩:=note_cases s p signo
  · exact hs ▸ hf.wakes
  rw [hs]
  refine hf.wakes.trans (makeRunnable_wakes ?_ .signal)
  rw [setProc_field s p f Proc.state (hf _).2.1]
  exact hst.imp_right And.right

lemma alarmTurn_wakes (now : ℕ) (s : State) (p : Slot) : Wakes s (alarmTurn now s p) := by
  unfold alarmTurn
  extract_lets x s1 s2
  have h1 : Wakes s s1 := by
    by_cases hi : x.alarmIntervalTicks≠0
    · simp only [s1,if_pos hi]
      exact SignalOnly.wakes fun x => ⟨rfl,rfl,rfl⟩
    simp only [s1,if_neg hi]
    have h : Wakes s (s.setProc p fun x => {x with alarmTicks := 0,alarmIntervalTicks := 0}) :=
      SignalOnly.wakes fun x => ⟨rfl,rfl,rfl⟩
    exact ⟨h.cpu,h.initproc,h.nextpid,h.chanWaitHash,h.links,h.waitEvent,h.state⟩
  have h2 : Wakes s s2 := h1.trans (SignalOnly.wakes fun x => ⟨rfl,rfl,rfl⟩)
  split_ifs with hskip hsl
  · exact Wakes.refl s
  · exact h2.trans (makeRunnable_wakes (.inl hsl) .alarm)
  · exact h2

lemma boostTurn_wakes (s : State) (p : Slot) : Wakes s (boostTurn s p) := by
  have hm : ∀ m,Wakes s {s with mlfq := m} := fun m =>
    ⟨rfl,rfl,rfl,rfl,fun _ => rfl,fun _ => rfl,fun _ => .inl rfl⟩
  unfold boostTurn
  cases (s.proc p).state <;> dsimp only <;> try split_ifs
  all_goals first | exact Wakes.refl s | exact hm _

lemma boost_wakes (s : State) (now : ℕ) : Wakes s (mlfqApplyGlobalBoost s now) :=
  wakes_composes.boost (fun _ => ⟨rfl,rfl,rfl,rfl,fun _ => rfl,fun _ => rfl,fun _ => .inl rfl⟩)
    boostTurn_wakes s

end Auxv6.Process

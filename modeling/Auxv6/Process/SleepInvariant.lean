import Auxv6.Process.Fields
import Auxv6.Process.WaitSteps

/-!
# The sleep invariant

The sleep hash counts the processes inside `sleep`, and whoever sleeps on the tick counter is in the
tick queue.
-/

namespace Auxv6.Process
open Machine Finset

variable {idx : Chan → ℕ} {s t u : State} {c : ℕ} {p cur i : Slot}

def State.TickMarks (s : State) : Prop := s.tickSleepq.Nodup ∧ ∀ p,(s.proc p).onTickq=true ↔ p∈s.tickSleepq

structure SleepInv (idx : Chan → ℕ) (s : State) : Prop where
  hash : ∀ b,(sleepers idx s b).card ≤ s.chanWaitHash b
  asleep : ∀ p,(s.proc p).state=.sleeping →
    ∃ chan,(s.proc p).chan=some chan ∧ (s.proc p).context.sleepChan p=some chan
  own : ∀ p q,(s.proc p).context.sleepChan p=some (.slot q) → q=p
  inside : ∀ p,(s.proc p).context.sleepChan p≠none → (s.proc p).state=.sleeping ∨ (s.proc p).state=.runnable
  marks : s.TickMarks
  queued : ∀ p∈s.tickSleepq,(s.proc p).context=.sleep .ticks
  onTicks : ∀ p,(s.proc p).state=.sleeping → (s.proc p).context=.sleep .ticks → p∈s.tickSleepq

structure Rouses (s t : State) : Prop where
  hash : t.chanWaitHash=s.chanWaitHash
  chan : Keeps Proc.chan s t
  context : Keeps Proc.context s t
  state : ∀ i,(t.proc i).state=(s.proc i).state ∨
    (t.proc i).state=.runnable ∧ ((s.proc i).state=.sleeping ∨ (s.proc i).state=.stopped)
  marks : s.TickMarks → t.TickMarks
  sub : ∀ p∈t.tickSleepq,p∈s.tickSleepq
  drop : ∀ p∈s.tickSleepq,p∉t.tickSleepq → ¬ ((t.proc p).state=.sleeping ∧ (t.proc p).chan=some .ticks)

lemma Rouses.sleeping (h : Rouses s t) (hi : (t.proc i).state=.sleeping) : (s.proc i).state=.sleeping := by
  rcases h.state i with hs | ⟨hs,-⟩
  · exact hs ▸ hi
  · rw [hs] at hi
    cases hi

lemma Rouses.refl (s : State) : Rouses s s :=
  ⟨rfl,fun _ => rfl,fun _ => rfl,fun _ => .inl rfl,id,fun _ => id,fun _ h h' => absurd h h'⟩

lemma Rouses.trans (h : Rouses s t) (h' : Rouses t u) : Rouses s u where
  hash := h'.hash.trans h.hash
  chan := h.chan.trans h'.chan
  context := h.context.trans h'.context
  state i := woken_trans (h.state i) (h'.state i)
  marks := h'.marks ∘ h.marks
  sub p hp := h.sub p (h'.sub p hp)
  drop p hp hu := by
    by_cases ht : p∈t.tickSleepq
    · exact h'.drop p ht hu
    · rintro ⟨hst,hch⟩
      exact h.drop p hp ht ⟨h'.sleeping hst,h'.chan p ▸ hch⟩

lemma rouses_composes : Composes Rouses := ⟨Rouses.refl,Rouses.trans⟩

lemma Wakes.rouses (h : Wakes s t) (hon : Keeps Proc.onTickq s t) (hq : t.tickSleepq=s.tickSleepq) : Rouses s t where
  hash := h.chanWaitHash
  chan i := congrArg (·.2.2.2.1) (h.links i)
  context i := congrArg (·.2.2.2.2.1) (h.links i)
  state := h.state
  marks := fun ⟨hn,hm⟩ => ⟨hq ▸ hn,fun p => by rw [hon p,hq,hm p]⟩
  sub p hp := hq ▸ hp
  drop p hp hp' := absurd (hq ▸ hp) hp'

lemma onTickq_blind : SignalBlind Proc.onTickq := fun _ _ _ _ _ _ _ => rfl
lemma wakeOne_rouses (chan : Chan) (s : State) (p : Slot) : Rouses s (wakeOne chan s p) := by
  refine (wakeOne_wakes chan s p).rouses (onTickq_blind.wakeOne chan s p) ?_
  unfold wakeOne
  split_ifs <;> rfl

lemma wakeOne_awake (chan : Chan) (s : State) (p : Slot) :
    ¬ (((wakeOne chan s p).proc p).state=.sleeping ∧ ((wakeOne chan s p).proc p).chan=some chan) := by
  unfold wakeOne
  split_ifs with h
  · simp [State.makeRunnable]
  · exact h

lemma tickRemove_rouses (hp : ¬ ((s.proc p).state=.sleeping ∧ (s.proc p).chan=some .ticks)) :
    Rouses s (tickSleepqRemoveLocked s p) := by
  have hw:=tickSleepqRemoveLocked_wakes s p
  unfold tickSleepqRemoveLocked at hw ⊢
  by_cases hon : (s.proc p).onTickq=true
  swap
  · rw [if_pos hon]
    exact Rouses.refl s
  rw [if_neg (not_not.mpr hon)] at hw ⊢
  refine ⟨hw.chanWaitHash,fun i => congrArg (·.2.2.2.1) (hw.links i),
    fun i => congrArg (·.2.2.2.2.1) (hw.links i),hw.state,fun ⟨hn,hm⟩ => ?_,
    fun q hq => List.mem_of_mem_erase hq,fun q hq hq' => ?_⟩
  · refine ⟨hn.erase p,fun q => ?_⟩
    by_cases hqp : q=p
    · subst hqp
      exact iff_of_false (by simp) hn.not_mem_erase
    · have hmem : q∈s.tickSleepq.erase p ↔ q∈s.tickSleepq := List.mem_erase_of_ne hqp
      simpa [hqp,hmem] using hm q
  · obtain rfl : q=p := by
      by_contra hqp
      exact hq' ((List.mem_erase_of_ne hqp).mpr hq)
    simpa using hp

lemma wakeup1_rouses (s : State) (chan : Chan) : Rouses s (wakeup1 idx s chan) :=
  rouses_composes.wakeup1 wakeOne_rouses (fun s p => (wakeOne_rouses .ticks s p).trans
    (tickRemove_rouses (wakeOne_awake .ticks s p))) idx s chan
lemma note_rouses (s : State) (p : Slot) (signo : ℕ) : Rouses s (procNoteSignalLocked s p signo) := by
  refine (note_wakes s p signo).rouses (onTickq_blind.note s p signo) ?_
  unfold procNoteSignalLocked
  dsimp only
  split_ifs <;> rfl

lemma checkAlarms_rouses (s : State) (now : ℕ) : Rouses s (procCheckAlarms s now) := by
  refine rouses_composes.checkAlarms (fun s p => (alarmTurn_wakes now s p).rouses
    (onTickq_blind.alarmTurn (fun _ _ _ => rfl) now s p) ?_) s
  unfold alarmTurn
  dsimp only
  split_ifs <;> rfl

lemma boost_rouses (s : State) (now : ℕ) : Rouses s (mlfqApplyGlobalBoost s now) := by
  have hturn : ∀ (s : State) (p : Slot),Rouses s (boostTurn s p) := by
    intro s p
    refine (boostTurn_wakes s p).rouses (fun i => by rw [boostTurn_proc]) ?_
    unfold boostTurn
    cases (s.proc p).state <;> dsimp only <;> try split_ifs
    all_goals rfl
  exact rouses_composes.boost (fun _ => ⟨rfl,fun _ => rfl,fun _ => rfl,fun _ => .inl rfl,id,
    fun _ => id,fun _ h h' => absurd h h'⟩) hturn s

variable (idx) in
lemma exitReparent_rouses (s : State) (cur init : Slot) : Rouses s (exitReparent idx s cur init) := by
  have hparent : ∀ (s : State) (p : Slot),Rouses s (s.setProc p (Proc.adopted init)) :=
    fun s p => ⟨rfl,keeps_setProc rfl,keeps_setProc rfl,fun i => .inl (keeps_setProc rfl i),
      fun ⟨hn,hm⟩ => ⟨hn,fun q => by
        rw [keeps_setProc (g := Proc.onTickq) (f := Proc.adopted init) rfl q]
        exact hm q⟩,fun _ => id,fun _ h h' => absurd h h'⟩
  exact rouses_composes.exitReparent wakeup1_rouses hparent s cur

lemma sleepers_congr (hctx : Keeps Proc.context s t) (b : ℕ) : sleepers idx t b=sleepers idx s b := by
  exact filter_congr fun i _ => by rw [hctx i]

lemma SleepInv.rouse (h : SleepInv idx s) (hr : Rouses s t) : SleepInv idx t where
  hash b := by
    rw [sleepers_congr hr.context,hr.hash]
    exact h.hash b
  asleep p hp := by
    rw [hr.chan p,hr.context p]
    exact h.asleep p (hr.sleeping hp)
  own p q hp := h.own p q (hr.context p ▸ hp)
  inside p hp := by
    rw [hr.context p] at hp
    rcases hr.state p with hs | ⟨hs,-⟩
    · exact hs ▸ h.inside p hp
    · exact .inr hs
  marks := hr.marks h.marks
  queued p hp := (hr.context p).trans (h.queued p (hr.sub p hp))
  onTicks p hst hctx := by
    rw [hr.context p] at hctx
    obtain ⟨chan,hchan,hin⟩:=h.asleep p (hr.sleeping hst)
    obtain rfl : chan=.ticks := by
      rw [hctx] at hin
      exact (Option.some.inj hin).symm
    by_contra hout
    exact hr.drop p (h.onTicks p (hr.sleeping hst) hctx) hout ⟨hst,(hr.chan p).trans hchan⟩

def Proc.Outside (x : Proc) (i : Slot) : Prop := x.context.sleepChan i=none ∧ x.state≠.sleeping
def Proc.sleepFields (x : Proc) : ProcState × Option Chan × Context × Bool := (x.state,x.chan,x.context,x.onTickq)

structure ChangesOutside (s t : State) : Prop where
  hash : t.chanWaitHash=s.chanWaitHash
  queue : t.tickSleepq=s.tickSleepq
  slot : ∀ i,(t.proc i).sleepFields=(s.proc i).sleepFields ∨ (s.proc i).Outside i ∧ (t.proc i).Outside i ∧
      ((t.proc i).onTickq=true → (s.proc i).onTickq=true)

lemma SleepInv.not_queued (h : SleepInv idx s) (hp : (s.proc p).Outside p) : p∉s.tickSleepq := by
  intro hq
  have hout:=hp.1
  rw [h.queued p hq] at hout
  cases hout
lemma ChangesOutside.asleep (h : ChangesOutside s t)
    (hi : ¬ (t.proc i).Outside i) : (t.proc i).sleepFields=(s.proc i).sleepFields :=
  (h.slot i).resolve_right fun hx => hi hx.2.1
lemma ChangesOutside.sleepChan (h : ChangesOutside s t) (hi : (t.proc i).context.sleepChan i≠none) :
    (t.proc i).sleepFields=(s.proc i).sleepFields :=
  h.asleep fun hout => hi hout.1

lemma SleepInv.outside (h : SleepInv idx s) (hc : ChangesOutside s t) : SleepInv idx t where
  hash b := by
    rw [hc.hash]
    refine (card_le_card fun i hi => ?_).trans (h.hash b)
    simp only [sleepers,mem_filter,mem_univ,true_and] at hi ⊢
    have hf:=hc.sleepChan (i := i) (by
      intro hnone
      rw [hnone] at hi
      cases hi)
    rwa [show (t.proc i).context=(s.proc i).context from congrArg (·.2.2.1) hf] at hi
  asleep p hp := by
    have hf:=hc.asleep (i := p) fun hout => hout.2 hp
    rw [show (t.proc p).chan=(s.proc p).chan from congrArg (·.2.1) hf,
      show (t.proc p).context=(s.proc p).context from congrArg (·.2.2.1) hf]
    exact h.asleep p ((congrArg Prod.fst hf).symm.trans hp)
  own p q hp := by
    have hf:=hc.sleepChan (i := p) (by rw [hp]; exact Option.some_ne_none _)
    rw [show (t.proc p).context=(s.proc p).context from congrArg (·.2.2.1) hf] at hp
    exact h.own p q hp
  inside p hp := by
    have hf:=hc.sleepChan hp
    rw [show (t.proc p).context=(s.proc p).context from congrArg (·.2.2.1) hf] at hp
    rw [show (t.proc p).state=(s.proc p).state from congrArg Prod.fst hf]
    exact h.inside p hp
  marks := by
    refine ⟨hc.queue ▸ h.marks.1,fun p => ?_⟩
    rw [hc.queue,← h.marks.2 p]
    rcases hc.slot p with hf | ⟨hout,-,hon⟩
    · rw [show (t.proc p).onTickq=(s.proc p).onTickq from congrArg (·.2.2.2) hf]
    · exact ⟨hon,fun hs => absurd ((h.marks.2 p).mp hs) (h.not_queued hout)⟩
  queued p hp := by
    rw [hc.queue] at hp
    rcases hc.slot p with hf | ⟨hout,-⟩
    · exact (congrArg (·.2.2.1) hf).trans (h.queued p hp)
    · exact absurd hp (h.not_queued hout)
  onTicks p hst hctx := by
    have hf:=hc.asleep (i := p) fun hout => hout.2 hst
    rw [hc.queue]
    exact h.onTicks p ((congrArg Prod.fst hf).symm.trans hst) ((congrArg (·.2.2.1) hf).symm.trans hctx)

end Auxv6.Process

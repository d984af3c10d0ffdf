import Auxv6.Process.WaitInvariant

/-! # What each section does to the wait invariant -/

namespace Auxv6.Process
open Machine Function List Finset

variable {idx : Chan → ℕ} {s t : State} {c : ℕ} {p cur : Slot} {pid : Int}

lemma sleepOn_other {i : Slot} (hi : i≠p) (chan : Chan) (context : Context) :
    (sleepOn idx s c p chan context).proc i=s.proc i := by
  unfold sleepOn tickSleepqAddLocked
  dsimp only
  split_ifs <;> simp [State.setProc,State.setCpu,hi]

lemma sleepOn_self (idx : Chan → ℕ) (s : State) (c : ℕ) (p : Slot) (chan : Chan) (context : Context) :
    let x:=(sleepOn idx s c p chan context).proc p
    x.state=.sleeping ∧ x.chan=some chan ∧ x.context=context ∧
      x.pid=(s.proc p).pid ∧ x.pgid=(s.proc p).pgid ∧ x.parent=(s.proc p).parent ∧
      x.waitEvent=(s.proc p).waitEvent := by
  unfold sleepOn tickSleepqAddLocked
  dsimp only
  split_ifs <;> simp [State.setProc,State.setCpu]

lemma sleepOn_cpu (chan : Chan) (context : Context) : (sleepOn idx s c p chan context).cpu=update s.cpu c none := by
  unfold sleepOn tickSleepqAddLocked
  dsimp only
  split_ifs <;> rfl

lemma sleepOn_chanWaitHash (chan : Chan) (context : Context) : (sleepOn idx s c p chan context).chanWaitHash =
      update s.chanWaitHash (idx chan) (s.chanWaitHash (idx chan)+1) := by
  unfold sleepOn tickSleepqAddLocked
  dsimp only
  split_ifs <;> rfl

variable {chan : Chan}

lemma card_sleepers_add (hother : ∀ i,i≠p → t.proc i=s.proc i) (hp : (t.proc p).context.sleepChan p=some chan)
    (hs : ∀ b,(sleepers idx s b).card ≤ s.chanWaitHash b) (b : ℕ) :
    (sleepers idx t b).card≤update s.chanWaitHash (idx chan) (s.chanWaitHash (idx chan)+1) b := by
  have hsub : ∀ i∈sleepers idx t b,i=p ∧ b=idx chan ∨ i∈sleepers idx s b := by
    intro i hi
    simp only [sleepers,Finset.mem_filter,Finset.mem_univ,true_and] at hi ⊢
    by_cases hip : i=p
    · subst hip
      rw [hp] at hi
      exact .inl ⟨rfl,(Option.some.inj hi).symm⟩
    · rw [hother i hip] at hi
      exact .inr hi
  by_cases hb : b=idx chan
  · subst hb
    rw [update_self]
    have hle : sleepers idx t (idx chan) ⊆ insert p (sleepers idx s (idx chan)) :=
      fun i hi => Finset.mem_insert.mpr ((hsub i hi).imp And.left id)
    calc (sleepers idx t (idx chan)).card
        ≤ (insert p (sleepers idx s (idx chan))).card := Finset.card_le_card hle
      _ ≤ (sleepers idx s (idx chan)).card + 1 := Finset.card_insert_le ..
      _ ≤ s.chanWaitHash (idx chan) + 1 := Nat.succ_le_succ (hs _)
  · rw [update_of_ne hb]
    refine (Finset.card_le_card fun i hi => ?_).trans (hs b)
    exact (hsub i hi).resolve_left fun hx => hb hx.2

variable {options : WaitOptions}

lemma reportable_of_ne_zombie {x y : Proc} (hev : x.waitEvent=y.waitEvent) (hz : x.state≠.zombie)
    (hy : y.reportable options=false) : x.reportable options=false := by
  simp only [Proc.reportable,Proc.eventReportable,Bool.or_eq_false_iff,decide_eq_false_iff_not] at hy ⊢
  rw [hev]
  exact ⟨hy.1,hz⟩

lemma awaited_of_same (hother : ∀ i,i≠p → t.proc i=s.proc i) (hpid : (t.proc p).pid=(s.proc p).pid)
    (hpgid : (t.proc p).pgid=(s.proc p).pgid) (hpar : (t.proc p).parent=(s.proc p).parent) {q i : Slot}
    (ha : t.Awaited q pid i) : s.Awaited q pid i := by
  have hf : ∀ i,(t.proc i).pid=(s.proc i).pid ∧ (t.proc i).pgid=(s.proc i).pgid ∧
      (t.proc i).parent=(s.proc i).parent := by
    intro i
    by_cases hip : i=p
    · subst hip
      exact ⟨hpid,hpgid,hpar⟩
    · rw [hother i hip]
      exact ⟨rfl,rfl,rfl⟩
  refine ⟨(hf i).2.2.symm.trans ha.1,?_⟩
  rw [← ha.2]
  exact procWaitTargetMatch_congr pid (hf q).2.1.symm (hf i).1.symm (hf i).2.1.symm

lemma WaitInv.sleepOn (h : WaitInv idx s) (hc : s.cpu c=some p)
    {context : Context} (hctx : context.sleepChan p=some chan) (hwait : ∀ pid options,context=.waitpid pid options →
      ∀ i,s.Awaited p pid i → (s.proc i).reportable options=false) :
    WaitInv idx (sleepOn idx s c p chan context) := by
  obtain ⟨hst,hch,hcx,hpid,hpgid,hpar,hev⟩:=sleepOn_self idx s c p chan context
  have hother : ∀ i,i≠p → (Process.sleepOn idx s c p chan context).proc i=s.proc i :=
    fun i hi => sleepOn_other hi chan context
  have hold:=h.sched.current p ⟨c,hc⟩
  have haw : ∀ q pid i,(Process.sleepOn idx s c p chan context).Awaited q pid i →
      s.Awaited q pid i := fun _ _ _ => awaited_of_same hother hpid hpgid hpar
  have hrep : ∀ i options,(s.proc i).reportable options=false →
      ((Process.sleepOn idx s c p chan context).proc i).reportable options=false := by
    intro i options hi
    by_cases hip : i=p
    · subst hip
      exact reportable_of_ne_zombie hev (by rw [hst]; decide) hi
    · rwa [hother i hip]
  refine h.update (h.sched.sleepOn hc chan context) hother ?_ (h.booted hc) ?_ ?_ ?_ ?_ ?_ ?_ ?_ ?_
  · unfold Process.sleepOn tickSleepqAddLocked
    dsimp only
    split_ifs <;> rfl
  · rw [sleepOn_chanWaitHash]
    exact card_sleepers_add hother (by rw [hcx,hctx]) h.hash
  · intro pid options hw
    have hcw : context=.waitpid pid options := hcx.symm.trans hw.2
    rw [hcw] at hctx
    rw [hch,← hctx]
    rfl
  · refine h.pids_same hpid (iff_of_false (by rw [hst]; decide) ?_)
    rcases hold with h' | h' <;> simp [h']
  · rintro (hf | hf) <;> rw [hst] at hf <;> cases hf
  · rw [hpar]
    exact h.parent p
  · intro hi
    rw [hpar,hst]
    exact ⟨(h.init p hi).1,by simp [ProcState.Fresh],by decide⟩
  · intro pid options i hw ha
    exact hrep i options (hwait pid options (hcx.symm.trans hw.2) i (haw p pid i ha))
  · intro q pid options hq hw ha
    exact hrep p options (h.noLost q pid options p hw (haw q pid p ha))

lemma calms_consume (s : State) (p : Slot) : Calms s (s.setProc p Proc.noEvent) := by
  let f : Proc → Proc:=Proc.noEvent
  have hst:=setProc_field s p f Proc.state rfl
  refine ⟨rfl,setProc_field s p f Proc.pid rfl,setProc_field s p f Proc.pgid rfl,
    setProc_field s p f Proc.parent rfl,fun i => ?_,
    fun i => .inl (setProc_field s p f Proc.context rfl i),fun i hi => ?_,
    fun i hi => hst i ▸ hi,fun i => by rw [hst i],fun i hi => hst i ▸ hi⟩
  · by_cases hip : i=p
    · subst hip
      exact .inr (by rw [setProc_self])
    · exact .inl (by rw [setProc_of_ne _ _ hip])
  · exact ⟨hst i ▸ hi,setProc_field s p f Proc.chan rfl i,setProc_field s p f Proc.context rfl i⟩

lemma WaitInv.reap (h : WaitInv idx s) (hst : (s.proc p).state=.zombie)
    (hboot : s.initproc≠none) : WaitInv idx (reap s p) := by
  have hp : (Process.reap s p).proc p=(s.proc p).reaped := setProc_self ..
  have hother : ∀ i,i≠p → (Process.reap s p).proc i=s.proc i := fun i hi => setProc_of_ne _ _ hi
  refine h.update (h.sched.reap hst) hother rfl hboot (fun b => ?_) ?_ ?_ ?_ ?_ ?_ ?_ ?_
  · refine (card_le_card (sleepers_subset hother (.inl ?_) b)).trans (h.hash b)
    rw [hp]
    rfl
  · rintro pid options ⟨hs,-⟩
    rw [hp] at hs
    cases hs
  · intro j _ heq hne
    rw [hp] at heq
    exact absurd heq.symm hne
  · intro _
    rw [hp]
    rfl
  · rw [hp]
    simp [Proc.reaped]
  · intro hi
    exact absurd hst (h.init p hi).2.2
  · rintro pid options i ⟨hs,-⟩
    rw [hp] at hs
    cases hs
  · rintro q pid options - - ⟨ha,-⟩
    rw [hp] at ha
    cases ha

lemma WaitInv.waitScan (h : WaitInv idx s) {l : List Slot} (hscan : waitScan s cur pid=.children l)
    (hnone : ∀ i∈l,(s.proc i).reportable options=false) :
    ∀ i,s.Awaited cur pid i → (s.proc i).reportable options=false := by
  rintro i ⟨hpar,hmatch⟩
  unfold Process.waitScan at hscan
  by_cases hpid : 0<pid
  · rw [if_pos hpid] at hscan
    have hip : (s.proc i).pid=pid := by simpa [procWaitTargetMatch,hpid] using hmatch
    cases hf : slots.find? fun i => decide ((s.proc i).pid=pid) with
    | none =>
      have := List.find?_eq_none.mp hf i (mem_finRange i)
      simp [hip] at this
    | some j =>
      rw [hf] at hscan
      dsimp only at hscan
      split_ifs at hscan
      obtain rfl : [j]=l := WaitScan.children.inj hscan
      have hj : (s.proc j).pid=pid := by simpa using List.find?_some hf
      by_cases hij : i=j
      · exact hnone i (by simp [hij])
      -- `j` is the first slot with this pid, so a second one is unused
      by_cases hu : (s.proc i).state=.unused
      · have hev:=h.event i (.inl hu)
        simp [Proc.reportable,Proc.eventReportable,hu,hev]
      · have hlt:=(h.pids j i (Ne.symm hij) hu (by omega) (by omega)).2
        have := finRange_find?_lt hf hlt
        simp [hip] at this
  · rw [if_neg hpid] at hscan
    obtain rfl:=WaitScan.children.inj hscan
    refine hnone i (mem_filter.mpr ⟨mem_finRange i,?_⟩)
    simp [hpar,hmatch]

lemma WaitInv.waits (h : WaitInv idx s) (hc : s.cpu c=some cur)
    (ht : WaitsTo idx s c cur pid options t) : WaitInv idx t := by
  have hs:=h.sched.waits hc ht
  cases ht with
  | stays => exact h
  | @event i => exact h.calm hs (calms_consume s i) (h.hash_of_calms (calms_consume s i) rfl)
  | reap hz => exact h.reap hz (h.booted hc)
  | sleep hscan hnone =>
    refine h.sleepOn hc rfl fun pid' options' heq => ?_
    obtain ⟨rfl,rfl⟩:=Context.waitpid.inj heq
    exact h.waitScan hscan hnone

lemma sleepReturn_calms (hst : (s.proc p).state=.running) (chan : Chan) : Calms s (sleepReturn idx s p chan) := by
  obtain ⟨hother,hinit,hself⟩ : (∀ i,i≠p → (sleepReturn idx s p chan).proc i=s.proc i) ∧
      (sleepReturn idx s p chan).initproc=s.initproc ∧
      ∃ b,(sleepReturn idx s p chan).proc p = {s.proc p with chan := none,onTickq := b} := by
    unfold sleepReturn tickSleepqRemoveLocked
    split_ifs
    · exact ⟨fun i hi => by simp [State.setProc,hi],rfl,false,by simp [State.setProc]⟩
    · exact ⟨fun i hi => by simp [State.setProc,hi],rfl,(s.proc p).onTickq,by simp [State.setProc]⟩
    · exact ⟨fun i hi => by simp [State.setProc,hi],rfl,(s.proc p).onTickq,by simp [State.setProc]⟩
  obtain ⟨b,hself⟩:=hself
  refine calms_update hother hinit ?_ ?_ ?_ ?_ (.inl ?_) (.inr (.inl ?_)) (by rw [hst]; decide)
  all_goals rw [hself]
  exact hst

lemma WaitInv.sleepReturn (h : WaitInv idx s) (hst : (s.proc p).state=.running)
    (hcard : ∀ b,(sleepers idx s b).card≤Function.update s.chanWaitHash
      (idx chan) (s.chanWaitHash (idx chan)-1) b) : WaitInv idx (sleepReturn idx s p chan) := by
  have hc : Calms s (Process.sleepReturn idx s p chan) := sleepReturn_calms hst chan
  refine h.calm (h.sched.sleepReturn p chan) hc fun b => ?_
  have hhash : (Process.sleepReturn idx s p chan).chanWaitHash =
      Function.update s.chanWaitHash (idx chan) (s.chanWaitHash (idx chan)-1) := by
    unfold Process.sleepReturn tickSleepqRemoveLocked
    split_ifs <;> rfl
  rw [hhash]
  exact (card_le_card (hc.sleepers b)).trans (hcard b)

lemma card_sleepers_take (hs : ∀ b,(sleepers idx s b).card ≤ s.chanWaitHash b)
    (hother : ∀ i,i≠p → t.proc i=s.proc i) (hp : (t.proc p).context=.none)
    (hold : (s.proc p).context.sleepChan p=some chan) (b : ℕ) : (sleepers idx t b).card ≤
      update s.chanWaitHash (idx chan) (s.chanWaitHash (idx chan)-1) b := by
  have hsub : sleepers idx t b ⊆ (sleepers idx s b).erase p := by
    intro i hi
    have hip : i≠p := by
      rintro rfl
      simp [sleepers,hp,Context.sleepChan] at hi
    refine mem_erase.mpr ⟨hip,?_⟩
    simpa [sleepers,hother i hip] using hi
  have hle:=card_le_card hsub
  by_cases hb : b=idx chan
  · subst hb
    have hmem : p∈sleepers idx s (idx chan) := by simp [sleepers,hold]
    rw [card_erase_of_mem hmem] at hle
    rw [update_self]
    exact hle.trans (Nat.sub_le_sub_right (hs _) 1)
  · rw [update_of_ne hb]
    exact (hle.trans (card_le_card (erase_subset ..))).trans (hs b)

lemma WaitInv.take (h : WaitInv idx s) (hc : s.cpu c=none) {m : Mlfq}
    (hm : schedqPickNextLocked s.mlfq=(some p,m)) : WaitInv idx (s.taken c p m) := by
  have hother : ∀ i,i≠p → (s.taken c p m).proc i=s.proc i := fun i hi => setProc_of_ne _ _ hi
  have hself : (s.taken c p m).proc p = (s.proc p).dispatched := setProc_self ..
  have hcalm : Calms s (s.taken c p m) := by
    have hst : (s.proc p).state≠.unused := fun hu => absurd (hu.symm.trans (h.sched.pick hm).1) (by decide)
    refine calms_update hother rfl ?_ ?_ ?_ ?_ (.inr ?_) (.inr (.inl ?_)) hst <;> rw [hself]
    rfl
  exact h.calm (h.sched.take hc hm) hcalm (h.hash_of_calms hcalm rfl)

lemma WaitInv.dispatch (h : WaitInv idx s) (hc : s.cpu c=none) (hs : Dispatches idx s c t) : WaitInv idx t := by
  have hback : ∀ {p m chan},schedqPickNextLocked s.mlfq=(some p,m) →
      (s.proc p).context.sleepChan p=some chan → WaitInv idx (Process.sleepReturn idx (s.taken c p m) p chan) :=
    fun {p m chan} hm hold => by
      have hother : ∀ i,i≠p → (s.taken c p m).proc i=s.proc i := fun i hi => setProc_of_ne _ _ hi
      have hself : (s.taken c p m).proc p = (s.proc p).dispatched := setProc_self ..
      have hcard : ∀ b,(sleepers idx (s.taken c p m) b).card≤Function.update s.chanWaitHash (idx chan)
          (s.chanWaitHash (idx chan)-1) b :=
        card_sleepers_take h.hash hother (by rw [hself]) hold
      exact (h.take hc hm).sleepReturn (by rw [hself]) hcard
  cases hs with
  | idle => exact h
  | run hm _ => exact h.take hc hm
  | sleep hm hctx => exact hback hm (by rw [hctx]; rfl)
  | waitpid hm hctx ht =>
    exact (hback hm (by rw [hctx]; rfl)).waits (by rw [sleepReturn_cpu]; exact update_self ..) ht

lemma WaitInv.hash_pos (h : WaitInv idx s) (hw : s.WaitsFor p pid options) : 0<s.chanWaitHash (idx (.slot p)) := by
  refine lt_of_lt_of_le (card_pos.mpr ⟨p,?_⟩) (h.hash _)
  simp [sleepers,hw.2,Context.sleepChan]

lemma wakeup1_slot_awake (hp : ∀ pid options,s.WaitsFor p pid options →
      (s.proc p).chan=some (.slot p) ∧ 0<s.chanWaitHash (idx (.slot p))) :
    ¬ (wakeup1 idx s (.slot p)).WaitsFor p pid options := by
  intro hw
  have hs:=(wakeup1_wakes s (.slot p)).calms.waitsFor hw
  obtain ⟨hchan,hpos⟩:=hp pid options hs
  have hrun : wakeup1 idx s (.slot p)=s.makeRunnable p .wake := by
    simp only [wakeup1]
    rw [if_neg hpos.ne',wakeOne,if_pos ⟨hs.1,hchan⟩]
  rw [hrun] at hw
  have := hw.1
  simp [State.makeRunnable] at this

structure Reparents (cur init : Slot) (s u : State) : Prop where
  initproc : u.initproc=s.initproc
  chanWaitHash : u.chanWaitHash=s.chanWaitHash
  pid : ∀ i,(u.proc i).pid=(s.proc i).pid
  pgid : ∀ i,(u.proc i).pgid=(s.proc i).pgid
  chan : ∀ i,(u.proc i).chan=(s.proc i).chan
  context : ∀ i,(u.proc i).context=(s.proc i).context
  waitEvent : ∀ i,(u.proc i).waitEvent=(s.proc i).waitEvent
  state : ∀ i,(u.proc i).state=(s.proc i).state ∨
    (u.proc i).state=.runnable ∧ ((s.proc i).state=.sleeping ∨ (s.proc i).state=.stopped)
  parent : ∀ i,(u.proc i).parent=(s.proc i).parent ∨ (s.proc i).parent=some cur ∧ (u.proc i).parent=some init

def InitWoken (cur init : Slot) (s u : State) : Prop :=
  ∀ i,(s.proc i).parent=some cur → (s.proc i).state=.zombie →
    (u.proc i).parent≠some cur → ∀ pid options,¬ u.WaitsFor init pid options

section

variable {u v : State} {init : Slot}

lemma Reparents.refl : Reparents cur init s s :=
  ⟨rfl,rfl,fun _ => rfl,fun _ => rfl,fun _ => rfl,fun _ => rfl,fun _ => rfl,fun _ => .inl rfl,fun _ => .inl rfl⟩

section
variable (h : Reparents cur init s u)
include h

lemma Reparents.waitsFor (hw : u.WaitsFor p pid options) : s.WaitsFor p pid options := by
  refine ⟨?_,(h.context p).symm.trans hw.2⟩
  rcases h.state p with hs | ⟨hs,-⟩
  · exact hs.symm.trans hw.1
  · exact absurd (hs.symm.trans hw.1) (by decide)

lemma Reparents.wakes (hw : Wakes u v) : Reparents cur init s v where
  initproc := hw.initproc.trans h.initproc
  chanWaitHash := hw.chanWaitHash.trans h.chanWaitHash
  pid i := (hw.pid i).trans (h.pid i)
  pgid i := (hw.pgid i).trans (h.pgid i)
  chan i := (congrArg (·.2.2.2.1) (hw.links i)).trans (h.chan i)
  context i := (congrArg (·.2.2.2.2.1) (hw.links i)).trans (h.context i)
  waitEvent i := (hw.waitEvent i).trans (h.waitEvent i)
  state i := woken_trans (h.state i) (hw.state i)
  parent i := by
    rw [hw.calms.parent]
    exact h.parent i

lemma Reparents.setParent (hp : (s.proc p).parent=some cur) :
    Reparents cur init s (u.setProc p (Proc.adopted init)) := by
  let f : Proc → Proc:=Proc.adopted init
  refine ⟨h.initproc,h.chanWaitHash,fun i => ?_,fun i => ?_,fun i => ?_,fun i => ?_,
    fun i => ?_,fun i => ?_,fun i => ?_⟩
  · exact (setProc_field u p f Proc.pid rfl i).trans (h.pid i)
  · exact (setProc_field u p f Proc.pgid rfl i).trans (h.pgid i)
  · exact (setProc_field u p f Proc.chan rfl i).trans (h.chan i)
  · exact (setProc_field u p f Proc.context rfl i).trans (h.context i)
  · exact (setProc_field u p f Proc.waitEvent rfl i).trans (h.waitEvent i)
  · rw [setProc_field u p f Proc.state rfl i]
    exact h.state i
  · by_cases hip : i=p
    · subst hip
      exact .inr ⟨hp,by rw [setProc_self]⟩
    · rw [setProc_of_ne _ _ hip]
      exact h.parent i

lemma Reparents.zombie (hz : (s.proc p).state=.zombie) : (u.proc p).state=.zombie := by
  rcases h.state p with hs | ⟨-,hs | hs⟩
  · exact hs.trans hz
  · exact absurd (hs.symm.trans hz) (by decide)
  · exact absurd (hs.symm.trans hz) (by decide)

end

lemma Reparents.turn (hinv : WaitInv idx s) (h : Reparents cur init s u)
    (hw : InitWoken cur init s u) (hne : cur≠init) (p : Slot) : Reparents cur init s (reparentTurn idx cur init u p) ∧
      InitWoken cur init s (reparentTurn idx cur init u p) ∧
      ∀ i,((reparentTurn idx cur init u p).proc i).parent=some cur → i≠p ∧ (u.proc i).parent=some cur := by
  unfold reparentTurn
  by_cases hp : (u.proc p).parent=some cur
  swap
  · rw [if_neg hp]
    exact ⟨h,hw,fun i hi => ⟨fun hip => hp (hip ▸ hi),hi⟩⟩
  rw [if_pos hp]
  have hps : (s.proc p).parent=some cur := by
    rcases h.parent p with h' | ⟨h',-⟩
    · exact h'.symm.trans hp
    · exact h'
  have h1:=h.setParent hps
  have hpar : ∀ i,((u.setProc p (Proc.adopted init)).proc i).parent =
      some cur → i≠p ∧ (u.proc i).parent=some cur := by
    intro i hi
    by_cases hip : i=p
    · subst hip
      rw [setProc_self] at hi
      exact absurd (Option.some.inj hi).symm hne
    · rw [setProc_of_ne _ _ hip] at hi
      exact ⟨hip,hi⟩
  by_cases hz : ((u.setProc p (Proc.adopted init)).proc p).state=.zombie
  · rw [if_pos hz]
    have hwk : Wakes (u.setProc p (Proc.adopted init)) (wakeup1 idx (u.setProc p (Proc.adopted init)) (.slot init)) :=
      wakeup1_wakes _ (.slot init)
    refine ⟨h1.wakes hwk,fun i _ _ _ pid options => ?_,fun i hi => ?_⟩
    · refine wakeup1_slot_awake fun pid options hwait => ?_
      have hws:=h1.waitsFor hwait
      rw [h1.chan,h1.chanWaitHash]
      exact ⟨hinv.ownChan init pid options hws,hinv.hash_pos hws⟩
    · rw [hwk.calms.parent] at hi
      exact hpar i hi
  rw [if_neg hz]
  refine ⟨h1,fun i hi hzi hni pid options hwait => ?_,hpar⟩
  have hip : i≠p := by
    rintro rfl
    exact hz (h1.zombie hzi)
  rw [setProc_of_ne _ _ hip] at hni
  refine hw i hi hzi hni pid options ⟨?_,?_⟩
  · rw [← setProc_field u p (Proc.adopted init) Proc.state rfl]
    exact hwait.1
  · rw [← setProc_field u p (Proc.adopted init) Proc.context rfl]
    exact hwait.2

lemma Reparents.loop (hinv : WaitInv idx s) (hne : cur≠init) (l : List Slot)
    (h : Reparents cur init s u) (hw : InitWoken cur init s u) : let v:=l.foldl (reparentTurn idx cur init) u
    Reparents cur init s v ∧ InitWoken cur init s v ∧
      ∀ i,(v.proc i).parent=some cur → i∉l ∧ (u.proc i).parent=some cur := by
  induction l generalizing u with
  | nil => exact ⟨h,hw,fun i hi => ⟨not_mem_nil,hi⟩⟩
  | cons p l ih =>
    obtain ⟨h1,hw1,hpar1⟩:=h.turn hinv hw hne p
    obtain ⟨h2,hw2,hpar2⟩:=ih h1 hw1
    refine ⟨h2,hw2,fun i hi => ?_⟩
    obtain ⟨hil,hi1⟩:=hpar2 i hi
    obtain ⟨hip,hiu⟩:=hpar1 i hi1
    exact ⟨not_mem_cons_of_ne_of_not_mem hip hil,hiu⟩

end

end Auxv6.Process

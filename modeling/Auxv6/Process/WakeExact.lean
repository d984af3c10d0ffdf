import Auxv6.Process.Current

/-! # Exact wakeups -/

namespace Auxv6.Process
open Machine Lib List Option Finset Transition

variable {idx : Chan → ℕ} {s t : State} {a : Action} {c : ℕ} {p cur : Slot}

lemma SleepInv.outside_of_state (h : SleepInv idx s) (hs : (s.proc p).state≠.sleeping)
    (hr : (s.proc p).state≠.runnable) : (s.proc p).Outside p := by
  refine ⟨?_,hs⟩
  by_contra hin
  exact (h.inside p hin).elim hs hr
lemma SleepInv.outside_idle (h : SleepInv idx s) (hp : (s.proc p).state.requiresAddrspace=false) :
    (s.proc p).Outside p :=
  h.outside_of_state (fun hst => by simp [hst,ProcState.requiresAddrspace] at hp)
    fun hst => by simp [hst,ProcState.requiresAddrspace] at hp
lemma SleepInv.not_asleep (h : SleepInv idx s) (hctx : (s.proc p).context.sleepChan p=none) :
    (s.proc p).state≠.sleeping := by
  intro hst
  obtain ⟨chan,-,hin⟩:=h.asleep p hst
  rw [hctx] at hin
  cases hin
lemma SleepInv.outside_current (h : SleepInv idx s) (hs : CurrentInv s) (hc : s.OnCpu p) : (s.proc p).Outside p := by
  have hnone : (s.proc p).context.sleepChan p=none := by rw [hs.saved p hc]; rfl
  exact ⟨hnone,h.not_asleep hnone⟩
lemma ChangesOutside.of_same (hproc : ∀ i,(t.proc i).sleepFields=(s.proc i).sleepFields)
    (hh : t.chanWaitHash=s.chanWaitHash) (hq : t.tickSleepq=s.tickSleepq) : ChangesOutside s t :=
  ⟨hh,hq,fun i => .inl (hproc i)⟩

variable {f : Proc → Proc}

lemma SleepInv.setSame (h : SleepInv idx s)
    (hf : (f (s.proc p)).sleepFields=(s.proc p).sleepFields) : SleepInv idx (s.setProc p f) :=
  h.outside (.of_same (setProc_field s p f Proc.sleepFields hf) rfl rfl)

lemma SleepInv.setOutside (h : SleepInv idx s) (hp : (s.proc p).Outside p) (hf : (f (s.proc p)).Outside p)
    (hon : (f (s.proc p)).onTickq=true → (s.proc p).onTickq=true) : SleepInv idx (s.setProc p f) := by
  refine h.outside ⟨rfl,rfl,fun i => ?_⟩
  by_cases hi : i=p
  · subst hi
    rw [setProc_self]
    exact .inr ⟨hp,hf,hon⟩
  · rw [setProc_of_ne s f hi]
    exact .inl rfl

section
variable (h : SleepInv idx s)
include h

lemma SleepInv.setSlot (hp : (s.proc p).Outside p)
    (hf : (f (s.proc p)).Outside p) (hon : (f (s.proc p)).onTickq=false) {n : ℕ} {m : Mlfq} :
    SleepInv idx { s.setProc p f with nextpid := n,tickSleepq := tickSleepqCut s.tickSleepq p,mlfq := m } := by
  have hset : SleepInv idx (s.setProc p f) :=
    h.setOutside hp hf fun htrue => absurd (hon.symm.trans htrue) Bool.false_ne_true
  exact hset.outside (.of_same (fun _ => rfl) rfl (if_neg (h.not_queued hp)))

lemma SleepInv.allocproc {o : Option Slot} (hs : allocproc s=some (o,t)) : SleepInv idx t := by
  rcases allocproc_cases hs with ⟨rfl,rfl⟩ | ⟨np,pid,next,rfl,hst,-,-,-,rfl⟩
  · exact h
  · exact h.setSlot (h.outside_idle (by rw [hst]; rfl)) ⟨rfl,by simp [Proc.allocated]⟩ rfl

lemma SleepInv.publish (p : Slot) : SleepInv idx (publish s p) := by
  have hrun : SleepInv idx (s.makeRunnable p .fork) := by
    by_cases hst : (s.proc p).state=.sleeping
    · exact h.rouse ((makeRunnable_wakes (.inl hst) .fork).rouses (onTickq_blind.makeRunnable s p .fork) rfl)
    have hset : SleepInv idx (s.setProc p fun x => {x with state := .runnable}) := by
      by_cases hin : (s.proc p).context.sleepChan p=none
      · exact h.setOutside ⟨hin,hst⟩ ⟨hin,by simp⟩ id
      · -- woken and not yet back in `sleep`: it is RUNNABLE already
        refine h.setSame ?_
        simp [Proc.sleepFields,(h.inside p hin).resolve_left hst]
    exact hset.outside (.of_same (fun _ => rfl) rfl rfl)
  exact hrun.outside (.of_same (fun _ => rfl) rfl rfl)

end

variable (idx) in
lemma sleepOn_tickSleepq (hp : (s.proc p).onTickq=false) (chan : Chan) (context : Context) :
    (sleepOn idx s c p chan context).tickSleepq = (if chan=.ticks then p::s.tickSleepq else s.tickSleepq) ∧
      ((sleepOn idx s c p chan context).proc p).onTickq=decide (chan=.ticks) := by
  by_cases hch : chan=.ticks
  · simp [sleepOn,tickSleepqAddLocked,State.setProc,State.setCpu,hch,hp]
  · simp [sleepOn,State.setProc,State.setCpu,hch,hp]

lemma sleepChan_ticks {context : Context} (h : context.sleepChan p=some .ticks) : context=.sleep .ticks := by
  cases context with
  | sleep chan =>
    obtain rfl : chan=.ticks := some.inj h
    rfl
  | none => cases h
  | forkret => cases h
  | ret => cases h
  | waitpid pid options => cases h

variable {chan : Chan}

lemma SleepInv.sleepOn (h : SleepInv idx s) (hp : (s.proc p).Outside p)
    {context : Context} (hctx : context.sleepChan p=some chan) (hslot : ∀ q,chan=.slot q → q=p) :
    SleepInv idx (sleepOn idx s c p chan context) := by
  have hout:=h.not_queued hp
  have hoff : (s.proc p).onTickq=false := Bool.eq_false_of_not_eq_true fun hon => hout ((h.marks.2 p).mp hon)
  obtain ⟨hq,hon⟩:=sleepOn_tickSleepq idx (c := c) hoff chan context
  obtain ⟨hst,hch,hcx,-⟩:=sleepOn_self idx s c p chan context
  have hother : ∀ i,i≠p → (Process.sleepOn idx s c p chan context).proc i=s.proc i :=
    fun i hi => sleepOn_other hi chan context
  have hhash : ∀ b,(sleepers idx (Process.sleepOn idx s c p chan context) b).card ≤
      (Process.sleepOn idx s c p chan context).chanWaitHash b := by
    rw [sleepOn_chanWaitHash]
    exact card_sleepers_add hother (by rw [hcx]; exact hctx) h.hash
  generalize Process.sleepOn idx s c p chan context=t at hq hon hst hch hcx hother hhash ⊢
  have hmem : ∀ i,i∈t.tickSleepq ↔ i∈s.tickSleepq ∨ (i=p ∧ chan=.ticks) := by
    rw [hq]
    split_ifs with hticks
    · simp [hticks,or_comm]
    · simp [hticks]
  refine ⟨hhash,fun i hi => ?_,fun i q hi => ?_,fun i hi => ?_,⟨?_,fun i => ?_⟩,fun i hi => ?_,fun i hi hi' => ?_⟩
  · by_cases hip : i=p
    · subst hip
      exact ⟨chan,hch,by rw [hcx]; exact hctx⟩
    · rw [hother i hip] at hi ⊢
      exact h.asleep i hi
  · by_cases hip : i=p
    · subst hip
      rw [hcx,hctx] at hi
      exact hslot q (some.inj hi)
    · rw [hother i hip] at hi
      exact h.own i q hi
  · by_cases hip : i=p
    · subst hip
      exact .inl hst
    · rw [hother i hip] at hi ⊢
      exact h.inside i hi
  · rw [hq]
    split_ifs
    · exact h.marks.1.cons hout
    · exact h.marks.1
  · rw [hmem]
    by_cases hip : i=p
    · subst hip
      rw [hon,decide_eq_true_eq]
      simp [hout]
    · rw [hother i hip,h.marks.2 i]
      simp [hip]
  · rcases (hmem i).mp hi with hi | ⟨rfl,hticks⟩
    · have hip : i≠p := fun hip => hout (hip ▸ hi)
      rw [hother i hip]
      exact h.queued i hi
    · rw [hcx]
      exact sleepChan_ticks (hticks ▸ hctx)
  · refine (hmem i).mpr ?_
    by_cases hip : i=p
    · subst hip
      rw [hcx] at hi'
      rw [hi'] at hctx
      exact .inr ⟨rfl,(some.inj hctx).symm⟩
    · rw [hother i hip] at hi hi'
      exact .inl (h.onTicks i hi hi')

lemma SleepInv.waits (h : SleepInv idx s) (hp : (s.proc cur).Outside cur) {pid : Int} {options : WaitOptions}
    (ht : WaitsTo idx s c cur pid options t) : SleepInv idx t := by
  cases ht with
  | stays => exact h
  | event => exact h.setSame (f := Proc.noEvent) rfl
  | @reap i hz =>
    have hout:=h.outside_idle (p := i) (by rw [hz]; rfl)
    exact h.setSlot hout ⟨hout.1,by simp [Proc.reaped]⟩ rfl
  | sleep => exact h.sleepOn hp rfl fun q hq => (Chan.slot.inj hq).symm

structure Resumed (s t : State) (p : Slot) : Prop where
  other : ∀ i,i≠p → t.proc i=s.proc i
  self : t.proc p = (s.proc p).dispatched
  queue : t.tickSleepq=s.tickSleepq
  hash : t.chanWaitHash=s.chanWaitHash

lemma SleepInv.tickq_erase (h : SleepInv idx s) (hr : Resumed s t p)
    (hold : (s.proc p).context.sleepChan p=some chan) : (sleepReturn idx t p chan).tickSleepq=s.tickSleepq.erase p ∧
      ((sleepReturn idx t p chan).proc p).onTickq=false := by
  have hon : (t.proc p).onTickq=(s.proc p).onTickq := by rw [hr.self]
  by_cases hch : chan=.ticks
  · cases hs : (s.proc p).onTickq with
    | true =>
      simp [sleepReturn,tickSleepqRemoveLocked,hch,hon,hs,hr.queue,State.setProc]
    | false =>
      have hout : p∉s.tickSleepq := fun hin => by simp [(h.marks.2 p).mpr hin] at hs
      simp [sleepReturn,tickSleepqRemoveLocked,hch,hon,hs,hr.queue,State.setProc, erase_of_not_mem hout]
  have hout : p∉s.tickSleepq := by
    intro hin
    rw [h.queued p hin] at hold
    exact hch (some.inj hold).symm
  have hs : (s.proc p).onTickq=false := Bool.eq_false_of_not_eq_true fun hin => hout ((h.marks.2 p).mp hin)
  simp [sleepReturn,hch,hon,hs,hr.queue,State.setProc,erase_of_not_mem hout]

variable (idx) in
lemma sleepReturn_proc (hr : Resumed s t p) (chan : Chan) : (∀ i,i≠p → (sleepReturn idx t p chan).proc i=s.proc i) ∧
      ((sleepReturn idx t p chan).proc p).state=.running ∧ ((sleepReturn idx t p chan).proc p).context=.none ∧
      (sleepReturn idx t p chan).chanWaitHash =
        Function.update s.chanWaitHash (idx chan) (s.chanWaitHash (idx chan)-1) := by
  rw [← hr.hash]
  have hst : (t.proc p).state=.running := by rw [hr.self]
  have hctx : (t.proc p).context=.none := by rw [hr.self]
  unfold sleepReturn tickSleepqRemoveLocked
  dsimp only
  split_ifs
  all_goals
    refine ⟨fun i hi => ?_,?_,?_,rfl⟩
    · simp [State.setProc,hi,hr.other i hi]
    · simp [State.setProc,hst]
    · simp [State.setProc,hctx]

section
variable (h : SleepInv idx s)
include h

lemma SleepInv.sleepReturn (hr : Resumed s t p) (hold : (s.proc p).context.sleepChan p=some chan) :
    SleepInv idx (sleepReturn idx t p chan) ∧ ((Process.sleepReturn idx t p chan).proc p).Outside p := by
  obtain ⟨hq,hon⟩:=h.tickq_erase hr hold
  obtain ⟨hother,hst,hctx,hh⟩:=sleepReturn_proc idx hr chan
  have hhash : ∀ b,(sleepers idx (Process.sleepReturn idx t p chan) b).card ≤
      (Process.sleepReturn idx t p chan).chanWaitHash b := by
    rw [hh]
    exact card_sleepers_take h.hash hother hctx hold
  generalize Process.sleepReturn idx t p chan=u at hq hon hother hst hctx hhash ⊢
  have hout : (u.proc p).Outside p := ⟨by rw [hctx]; rfl,by simp [hst]⟩
  refine ⟨⟨hhash,fun i hi => ?_,fun i q hi => ?_,fun i hi => ?_,⟨?_,fun i => ?_⟩,
    fun i hi => ?_,fun i hi hi' => ?_⟩,hout⟩
  · have hip : i≠p := fun hip => hout.2 (hip ▸ hi)
    rw [hother i hip] at hi ⊢
    exact h.asleep i hi
  · have hip : i≠p := by
      rintro rfl
      rw [hout.1] at hi
      cases hi
    rw [hother i hip] at hi
    exact h.own i q hi
  · have hip : i≠p := by
      rintro rfl
      exact hi hout.1
    rw [hother i hip] at hi ⊢
    exact h.inside i hi
  · rw [hq]
    exact h.marks.1.erase p
  · rw [hq,h.marks.1.mem_erase_iff]
    by_cases hip : i=p
    · subst hip
      simp [hon]
    · rw [hother i hip,h.marks.2 i]
      simp [hip]
  · rw [hq,h.marks.1.mem_erase_iff] at hi
    rw [hother i hi.1]
    exact h.queued i hi.2
  · have hip : i≠p := fun hip => hout.2 (hip ▸ hi)
    rw [hother i hip] at hi hi'
    rw [hq,h.marks.1.mem_erase_iff]
    exact ⟨hip,h.onTicks i hi hi'⟩

lemma SleepInv.dispatch (hs : Dispatches idx s c t) : SleepInv idx t := by
  have hres : ∀ {p m},Resumed s (s.taken c p m) p := ⟨fun i hi => setProc_of_ne _ _ hi,setProc_self ..,rfl,rfl⟩
  cases hs with
  | idle => exact h
  | @run p m hm hctx =>
    -- a process that was not inside `sleep`
    have hnone : (s.proc p).context.sleepChan p=none := by rcases hctx with hctx | hctx <;> rw [hctx] <;> rfl
    have hset : SleepInv idx (s.setProc p Proc.dispatched) := h.setOutside ⟨hnone,h.not_asleep hnone⟩ ⟨rfl,by simp⟩ id
    exact hset.outside (.of_same (fun _ => rfl) rfl rfl)
  | sleep hm hctx => exact (h.sleepReturn hres (by rw [hctx]; rfl)).1
  | waitpid hm hctx ht =>
    obtain ⟨h2,hp2⟩:=h.sleepReturn hres (by rw [hctx]; rfl)
    exact h2.waits hp2 ht

lemma SleepInv.exits (hcur : CurrentInv s) (hc : s.cpu c=some cur) (init : Slot)
    (status : ℕ) : SleepInv idx (s.exits idx c cur init status) := by
  have hinv:=h.rouse (exitReparent_rouses idx s cur init)
  have hon : (exitReparent idx s cur init).OnCpu cur := ⟨c,by rw [exitReparent_cpu]; exact hc⟩
  have hout:=hinv.outside_current (hcur.rouse (exitReparent_cpu cur init) (exitReparent_rouses idx s cur init)) hon
  unfold State.exits
  generalize exitReparent idx s cur init=u at hinv hout ⊢
  have hdead : SleepInv idx (u.setProc cur (Proc.exited status)) :=
    hinv.setOutside hout ⟨rfl,by simp [Proc.exited]⟩ id
  exact hdead.outside (.of_same (fun _ => rfl) rfl rfl)

lemma SleepInv.applySignals (hcur : CurrentInv s) (hc : s.cpu c=some p) :
    SleepInv idx (procApplyPendingSignals s p) := by
  have hout:=h.outside_current hcur ⟨c,hc⟩
  have hon : Keeps Proc.onTickq s (procApplyPendingSignals s p) :=
    Keeps.trans (t := _) (keeps_setProc rfl) (onTickq_blind.applySignals s p)
  have hsig:=applySignals_signalled s p
  refine h.outside ⟨hsig.hash,hsig.queue,fun i => ?_⟩
  by_cases hi : i=p
  · subst hi
    refine .inr ⟨hout,⟨by rw [applySignals_context s i i]; exact hout.1,?_⟩,(hon i).le⟩
    rcases hsig.state with hst | ⟨-,hst | hst⟩
    · rw [hst]
      exact hout.2
    all_goals simp [hst]
  · exact .inl (by rw [hsig.other i hi])

end

def NoSlotSleep : Action → Prop
  | .sleep _ (.slot _) => False
  | _ => True

lemma step_sleepInv (h : SleepInv idx s) (hcurr : CurrentInv s) (hok : NoSlotSleep a)
    (hs : step idx s a=some t) : SleepInv idx t := by
  have hcur : ∀ {c : ℕ} {p : Slot},s.cpu c=some p → (s.proc p).Outside p := fun hc =>
    h.outside_current hcurr ⟨_,hc⟩
  cases step_stepsTo hs with
  | @userinit np u _ ha =>
    have hinit : SleepInv idx {u with initproc := some np} :=
      (h.allocproc ha).outside (.of_same (fun _ => rfl) rfl rfl)
    exact hinit.publish np
  | forkAlloc _ _ ha => exact (h.allocproc ha).setSame rfl
  | @forkUndo _ p np _ _ hlive =>
    have h1 : SleepInv idx (s.endFork p) := h.setSame rfl
    have hout:=h1.outside_idle (p := np) (by rwa [setProc_field s p _ Proc.state rfl np])
    exact h1.setOutside hout ⟨hout.1,by simp⟩ id
  | @forkPublish _ p np _ _ =>
    have h1 : SleepInv idx (s.endFork p) := h.setSame rfl
    exact h1.publish np
  | dispatch _ hs => exact h.dispatch hs
  | @yield _ p hc =>
    have hset : SleepInv idx (s.setProc p fun x => {x with state := .runnable,context := .ret}) :=
      h.setOutside (hcur hc) ⟨rfl,by simp⟩ id
    refine hset.outside (.of_same (fun i => ?_) rfl rfl)
    by_cases hi : i=p
    · subst hi
      simp [Process.yield,State.makeRunnable,State.setProc,State.setCpu]
    · simp [Process.yield,State.makeRunnable,State.setProc,State.setCpu,hi]
  | sleep hc =>
    refine h.sleepOn (hcur hc) rfl ?_
    rintro q rfl
    exact hok.elim
  | wakeup => exact h.rouse (wakeup1_rouses s _)
  | kill => exact h.rouse (rouses_composes.kill (note_rouses · · _) s _ _ _)
  | signalPgid => exact h.rouse (rouses_composes.signalPgid (note_rouses · · _) s _)
  | applySignals hc => exact h.applySignals hcurr hc
  | @maybeStop _ p hc _ =>
    have hset : SleepInv idx (s.setProc p Proc.suspended) :=
      h.setOutside (hcur hc) ⟨rfl,(hcur hc).2⟩ id
    exact hset.outside (.of_same (fun _ => rfl) rfl rfl)
  | checkAlarms => exact h.rouse (checkAlarms_rouses s _)
  | boost => exact h.rouse (boost_rouses s _)
  | timerCharge _ | tick | setBoostInterval => exact h.outside (.of_same (fun _ => rfl) rfl rfl)
  | exit hc => exact h.exits hcurr hc _ _
  | waitpid hc ht => exact h.waits (hcur hc) ht
  | setAlarm _ => exact h.outside (.of_same (keeps_setAlarm (fun _ _ _ => rfl) s _ _ _) rfl rfl)
  | forkCopy | setSignals | setpgid | setsid => exact h.setSame rfl
  | refused => exact h

lemma foldl_wakes_exact {f : State → Slot → State} (hchan : ∀ s i,Keeps Proc.chan s (f s i))
    (hstate : ∀ s i p,((f s i).proc p).state =
      if p=i ∧ (s.proc p).state=.sleeping ∧ (s.proc p).chan=some chan then .runnable
      else (s.proc p).state) (l : List Slot) (s : State) (p : Slot) : ((l.foldl f s).proc p).state =
      if p∈l ∧ (s.proc p).state=.sleeping ∧ (s.proc p).chan=some chan then .runnable else (s.proc p).state := by
  induction l generalizing s with
  | nil => simp
  | cons i l ih =>
    rw [foldl_cons,ih,hchan s i p,hstate s i p]
    by_cases hw : (s.proc p).state=.sleeping ∧ (s.proc p).chan=some chan
    · by_cases hi : p=i
      · subst hi
        simp [hw]
      · simp [hw,hi]
    · simp [hw]

lemma wakeOne_chan (chan : Chan) (s : State) (i : Slot) : Keeps Proc.chan s (wakeOne chan s i) :=
  (wakeOne_rouses chan s i).chan

lemma wakeOne_state (chan : Chan) (s : State) (i p : Slot) : ((wakeOne chan s i).proc p).state =
      if p=i ∧ (s.proc p).state=.sleeping ∧ (s.proc p).chan=some chan then .runnable else (s.proc p).state := by
  by_cases hi : p=i
  · subst hi
    by_cases hw : (s.proc p).state=.sleeping ∧ (s.proc p).chan=some chan
    · simp [wakeOne,hw,State.makeRunnable]
    · simp [wakeOne,hw]
  rw [if_neg fun hc => hi hc.1]
  unfold wakeOne
  split_ifs
  · simp [State.makeRunnable,hi]
  · rfl

lemma tickRemove_state (s : State) (i : Slot) : Keeps Proc.state s (tickSleepqRemoveLocked s i) :=
  keeps_if (fun _ => Keeps.refl _ s) fun _ =>
    keeps_setProc (s := s) (f := fun x => {x with onTickq := false}) rfl
lemma tickRemove_chan (s : State) (i : Slot) : Keeps Proc.chan s (tickSleepqRemoveLocked s i) :=
  keeps_if (fun _ => Keeps.refl _ s) fun _ =>
    keeps_setProc (s := s) (f := fun x => {x with onTickq := false}) rfl

lemma SleepInv.hash_ne_zero (h : SleepInv idx s) (hst : (s.proc p).state=.sleeping)
    (hch : (s.proc p).chan=some chan) : s.chanWaitHash (idx chan)≠0 := by
  obtain ⟨chan',hch',hin⟩:=h.asleep p hst
  obtain rfl : chan'=chan := some.inj (hch'.symm.trans hch)
  have hmem : p∈sleepers idx s (idx chan') := by simp [sleepers,hin]
  have := h.hash (idx chan')
  have := card_pos.mpr ⟨p,hmem⟩
  omega

lemma SleepInv.mem_tickSleepq (h : SleepInv idx s) (hst : (s.proc p).state=.sleeping)
    (hch : (s.proc p).chan=some .ticks) : p∈s.tickSleepq := by
  obtain ⟨chan,hch',hin⟩:=h.asleep p hst
  obtain rfl : chan=.ticks := some.inj (hch'.symm.trans hch)
  exact h.onTicks p hst (sleepChan_ticks hin)

def scanTable (s : State) (chan : Chan) : State := slots.foldl (wakeOne chan) s

lemma scanTable_state (s : State) (chan : Chan) (p : Slot) : ((scanTable s chan).proc p).state =
      if (s.proc p).state=.sleeping ∧ (s.proc p).chan=some chan then .runnable else (s.proc p).state := by
  have hmem : p∈slots := mem_finRange p
  rw [scanTable,foldl_wakes_exact (wakeOne_chan chan) (wakeOne_state chan)]
  simp only [hmem,true_and]

lemma SleepInv.wakeup1_state (h : SleepInv idx s) (chan : Chan) (p : Slot) :
      ((wakeup1 idx s chan).proc p).state = if (s.proc p).state=.sleeping ∧
      (s.proc p).chan=some chan then .runnable else (s.proc p).state := by
  -- an empty bucket: nobody sleeps on the channel
  have hempty : s.chanWaitHash (idx chan)=0 →
      ¬ ((s.proc p).state=.sleeping ∧ (s.proc p).chan=some chan) := fun hz hw =>
    h.hash_ne_zero hw.1 hw.2 hz
  cases chan with
  | ticks =>
    have hq : (p∈s.tickSleepq ∧ (s.proc p).state=.sleeping ∧ (s.proc p).chan=some .ticks) ↔
        (s.proc p).state=.sleeping ∧ (s.proc p).chan=some .ticks :=
      and_iff_right_of_imp fun hw => h.mem_tickSleepq hw.1 hw.2
    have hfold:=foldl_wakes_exact (fun s i => (wakeOne_chan .ticks s i).trans (tickRemove_chan _ i))
      (fun s i p => (tickRemove_state _ i p).trans (wakeOne_state .ticks s i p)) s.tickSleepq s p
    simp only [hq] at hfold
    exact hfold
  | slot q =>
    unfold wakeup1
    dsimp only
    split_ifs with hz hw hw
    · exact absurd hw (hempty hz)
    · rfl
    · obtain ⟨chan,hch,hin⟩:=h.asleep p hw.1
      have hqp : q=p := h.own p q (hin.trans (hch.symm.trans hw.2))
      rw [wakeOne_state,if_pos ⟨hqp.symm,hw⟩]
    · rw [wakeOne_state,if_neg fun hc => hw hc.2]
  | addr b =>
    have hscan:=scanTable_state s (.addr b) p
    rw [scanTable] at hscan
    unfold wakeup1
    by_cases hz : s.chanWaitHash (idx (.addr b))=0
    · rw [if_pos hz,if_neg (hempty hz)]
    · rw [if_neg hz,hscan]

structure WakeExact (idx : Chan → ℕ) (s : State) : Prop where
  woken : ∀ chan p,((wakeup1 idx s chan).proc p).state =
    if (s.proc p).state=.sleeping ∧ (s.proc p).chan=some chan then .runnable
    else (s.proc p).state
  scan : ∀ chan p,((wakeup1 idx s chan).proc p).state=((scanTable s chan).proc p).state
  hash : ∀ b,(Finset.univ.filter fun p => (s.proc p).state=.sleeping ∧
    (s.proc p).chan.map idx=some b).card ≤ s.chanWaitHash b
  ticks : ∀ p,(s.proc p).state=.sleeping → (s.proc p).chan=some .ticks → p∈s.tickSleepq

lemma SleepInv.wakeExact (h : SleepInv idx s) : WakeExact idx s where
  woken := h.wakeup1_state
  scan chan p := (h.wakeup1_state chan p).trans (scanTable_state s chan p).symm
  hash b := by
    refine (Finset.card_le_card fun p hp => ?_).trans (h.hash b)
    simp only [sleepers,Finset.mem_filter,Finset.mem_univ,true_and] at hp ⊢
    obtain ⟨chan,hch,hin⟩:=h.asleep p hp.1
    rw [hin,← hch]
    exact hp.2
  ticks _ hst hch := h.mem_tickSleepq hst hch

lemma zeroState_sleepInv (idx : Chan → ℕ) : SleepInv idx zeroState where
  hash b := by simp [sleepers,zeroState,zeroProc,Context.sleepChan]
  asleep p hp := by cases hp
  own p q hp := by cases hp
  inside p hp := absurd rfl hp
  marks := ⟨nodup_nil,fun p => iff_of_false (by simp [zeroState,zeroProc]) not_mem_nil⟩
  queued p hp := by cases hp
  onTicks p hp := by cases hp

/-- The first child gets `SIGTSTP` and `SIGTERM` in one pass, which queues it while it is current, and then
sleeps on the tick counter: it is dispatched asleep. -/
def childSleeps : List Action :=
  [.userinit,.dispatch 0,.forkAlloc 0,.forkCopy 0,.forkPublish 0,.dispatch 1,.kill 0 2 sigtstp false,
    .kill 0 2 15 false,.applySignals 1,.sleep 1 .ticks,.dispatch 1,.sleep 1 .ticks,
    .waitpid 0 (-1) ⟨false,false,false⟩]

end Auxv6.Process

import Auxv6.Process.SchedInvariant

/-! # What each section does to the scheduler invariant -/

namespace Auxv6.Process
open Machine Option

variable {idx : Chan → ℕ} {s t : State} {c : ℕ} {p cur : Slot}

section
variable (h : SchedInv s)
include h

lemma SchedInv.wakeOne (chan : Chan) (p : Slot) : SchedInv (wakeOne chan s p) := by
  unfold Process.wakeOne
  split_ifs with hc
  · exact h.wake hc.1 .wake
  · exact h

lemma SchedInv.tickAdd (p : Slot) : SchedInv (tickSleepqAddLocked s p) := by
  unfold tickSleepqAddLocked
  split_ifs
  · exact h
  · exact (h.setFields (f := fun x => {x with onTickq := true}) rfl rfl).congr rfl rfl (fun _ => rfl) fun _ => rfl

lemma SchedInv.tickRemove (p : Slot) : SchedInv (tickSleepqRemoveLocked s p) := by
  unfold tickSleepqRemoveLocked
  split_ifs
  · exact (h.setFields (f := fun x => {x with onTickq := false}) rfl rfl).congr rfl rfl (fun _ => rfl) fun _ => rfl
  · exact h

lemma SchedInv.wakeup1 (chan : Chan) : SchedInv (wakeup1 idx s chan) := by
  unfold Process.wakeup1
  cases chan with
  | ticks => exact SchedInv.foldl (fun s p hs => (hs.wakeOne .ticks p).tickRemove p) _ h
  | slot p =>
    split_ifs
    · exact h
    · exact h.wakeOne _ p
  | addr a =>
    split_ifs
    · exact h
    · exact SchedInv.foldl (fun s p hs => hs.wakeOne (.addr a) p) _ h

lemma SchedInv.not_runnable (hc : s.OnCpu p) : ¬ s.Runnable p := by
  intro hr
  rcases h.current p hc with hst | hst <;> rw [State.Runnable,hst] at hr <;> cases hr
lemma SchedInv.not_embryo (hc : s.OnCpu p) : (s.proc p).state≠.embryo := by
  intro hr
  rcases h.current p hc with hst | hst <;> rw [hst] at hr <;> cases hr
lemma SchedInv.leaveCpu (hc : s.cpu c=some p) {f : Proc → Proc} (hst : (f (s.proc p)).state≠.runnable)
    (hnp : (f (s.proc p)).np=(s.proc p).np) : SchedInv ((s.setProc p f).setCpu c none) := by
  have hcl:=h.onCpu_clearCpu hc
  exact (h.clearCpu c).setState hnp (iff_of_false hst (h.not_runnable ⟨c,hc⟩))
    (fun ho => absurd ho hcl) (h.np_ne (h.not_embryo ⟨c,hc⟩))
lemma SchedInv.setHash (f : ℕ → ℕ) : SchedInv {s with chanWaitHash := f} :=
  h.congr rfl rfl (fun _ => rfl) fun _ => rfl

end

lemma tickSleepqAddLocked_cpu : (tickSleepqAddLocked s p).cpu=s.cpu := by
  unfold tickSleepqAddLocked
  split_ifs <;> rfl

lemma SchedInv.sleepOn (h : SchedInv s) (hc : s.cpu c=some p) (chan : Chan)
    (context : Context) : SchedInv (sleepOn idx s c p chan context) := by
  unfold Process.sleepOn
  extract_lets _ s1 s2 s3
  have h1 : SchedInv s1 := h.setHash _
  obtain ⟨h2,hc2⟩ : SchedInv s2 ∧ s2.cpu c=some p := by
    by_cases hch : chan=.ticks
    · simp only [s2,if_pos hch]
      exact ⟨h1.tickAdd p,by rw [tickSleepqAddLocked_cpu]; exact hc⟩
    · simp only [s2,if_neg hch]
      exact ⟨h1,hc⟩
  have h3 : SchedInv (s3.setCpu c none) := h2.leaveCpu hc2 (by simp) rfl
  exact h3.setSched (h3.queues.level_lt p) (.inr rfl)

lemma SchedInv.sleepReturn (h : SchedInv s) (p : Slot) (chan : Chan) : SchedInv (sleepReturn idx s p chan) := by
  unfold Process.sleepReturn
  refine SchedInv.setFields (SchedInv.setHash ?_ _) rfl rfl
  split_ifs
  · exact h.tickRemove p
  · exact h

lemma SchedInv.yield (h : SchedInv s) (hc : s.cpu c=some p) : SchedInv (yield s c p) := by
  have hrun : SchedInv ((s.setCpu c none).makeRunnable p .yield) :=
    (h.clearCpu c).makeRunnable (h.not_runnable ⟨c,hc⟩) (h.onCpu_clearCpu hc) (h.np_ne (h.not_embryo ⟨c,hc⟩)) .yield
  exact hrun.setFields (f := Proc.suspended) rfl rfl
@[simp] lemma sleepReturn_cpu (chan : Chan) : (Process.sleepReturn idx s p chan).cpu=s.cpu := by
  unfold Process.sleepReturn tickSleepqRemoveLocked
  split_ifs <;> rfl

section
variable (h : SchedInv s)
include h

lemma SchedInv.reap (hst : (s.proc p).state=.zombie) : SchedInv (reap s p) := by
  have hr : ¬ s.Runnable p := by simp [State.Runnable,hst]
  have hz : SchedInv (s.setProc p Proc.reaped) := by
    refine h.setState rfl (iff_of_false (by simp [Proc.reaped]) hr) (fun ho => ?_) (h.np_ne (by simp [hst]))
    exact absurd (h.current p ho) (by simp [OnCpuState,hst])
  exact {hz with queues := hz.queues.reset (by simp [State.Runnable,Proc.reaped]) (by decide)}

lemma SchedInv.waits (hc : s.cpu c=some cur) {pid : Int} {options : WaitOptions}
    (ht : WaitsTo idx s c cur pid options t) : SchedInv t := by
  cases ht with
  | stays => exact h
  | event => exact h.setFields (f := Proc.noEvent) rfl rfl
  | reap hz => exact h.reap hz
  | sleep => exact h.sleepOn hc _ _

lemma SchedInv.pick {m : Mlfq} (hm : schedqPickNextLocked s.mlfq=(some p,m)) :
    s.Runnable p ∧ QueueInv m fun x => s.Runnable x ∧ x≠p := by
  unfold schedqPickNextLocked at hm
  have hpick:=h.queues.pickFrom mlfqNqueues 0
  rw [hm] at hpick
  obtain ⟨h1,-⟩ | ⟨q,h1,hp,hq⟩:=hpick
  · cases h1
  · cases h1
    exact ⟨hp,hq⟩

lemma SchedInv.take (hc : s.cpu c=none) {m : Mlfq}
    (hm : schedqPickNextLocked s.mlfq=(some p,m)) : SchedInv (s.taken c p m) where
  queues := (h.pick hm).2.congr fun i => by
    by_cases hi : i=p
    · subst hi
      simp [State.Runnable,State.taken]
    · simp [State.Runnable,State.taken,hi]
  current := by
    rintro i ⟨c',hi⟩
    by_cases hip : i=p
    · subst hip
      simp [OnCpuState,State.taken]
    have hcc : c'≠c := by
      rintro rfl
      simp [State.taken,State.setCpu,Ne.symm hip] at hi
    rw [State.taken,setProc_of_ne _ _ hip]
    exact h.current i ⟨c',by simpa [State.taken,State.setCpu,hcc] using hi⟩
  oneCpu := by
    -- a runnable process is on no CPU yet
    have hnew : ∀ c',s.cpu c'≠some p := fun c' hc' => h.not_runnable ⟨c',hc'⟩ (h.pick hm).1
    intro c1 c2 i h1 h2
    rw [State.taken] at h1 h2
    by_cases hc1 : c1=c <;> by_cases hc2 : c2=c
    · rw [hc1,hc2]
    · simp [State.setCpu,hc1,hc2] at h1 h2
      exact absurd (h1 ▸ h2) (hnew c2)
    · simp [State.setCpu,hc1,hc2] at h1 h2
      exact absurd (h2 ▸ h1) (hnew c1)
    · simp [State.setCpu,hc1,hc2] at h1 h2
      exact h.oneCpu c1 c2 i h1 h2
  embryo := fun i np hi => by
    rw [State.taken,setProc_field _ p _ Proc.np rfl] at hi
    have hst:=h.embryo i np hi
    have hne : np≠p := by
      rintro rfl
      exact absurd (hst.symm.trans (h.pick hm).1) (by decide)
    rw [State.taken,setProc_of_ne _ _ hne]
    exact hst
  oneFork := fun i j np hi hj => by
    rw [State.taken,setProc_field _ p _ Proc.np rfl] at hi hj
    exact h.oneFork i j np hi hj

lemma SchedInv.dispatch (hc : s.cpu c=none) (hs : Dispatches idx s c t) : SchedInv t := by
  have hcpu : ∀ {p m},(s.taken c p m).cpu c=some p := Function.update_self ..
  cases hs with
  | idle => exact h
  | run hm _ => exact h.take hc hm
  | sleep hm _ => exact (h.take hc hm).sleepReturn _ _
  | waitpid hm _ ht => exact ((h.take hc hm).sleepReturn _ _).waits (by rw [sleepReturn_cpu,hcpu]) ht

lemma SchedInv.reparentTurn (cur init p : Slot) : SchedInv (reparentTurn idx cur init s p) := by
  unfold Process.reparentTurn
  dsimp only
  have hpar : SchedInv (s.setProc p (Proc.adopted init)) := h.setFields rfl rfl
  split_ifs
  · exact hpar.wakeup1 _
  · exact hpar
  · exact h

end

@[simp] lemma wakeup1_cpu (chan : Chan) : (wakeup1 idx s chan).cpu=s.cpu := (wakeup1_wakes s chan).cpu
@[simp] lemma reparentTurn_cpu (cur init : Slot) : (reparentTurn idx cur init s p).cpu=s.cpu := by
  unfold reparentTurn
  dsimp only
  split_ifs <;> simp
lemma foldl_reparentTurn_cpu (cur init : Slot) (l : List Slot) :
    (l.foldl (reparentTurn idx cur init) s).cpu=s.cpu := by
  induction l generalizing s with
  | nil => rfl
  | cons p l ih => exact ih.trans (reparentTurn_cpu cur init)

lemma SchedInv.exitReparent (h : SchedInv s) (cur init : Slot) : SchedInv (exitReparent idx s cur init) := by
  refine SchedInv.foldl (fun s p hs => hs.reparentTurn cur init p) _ ?_
  cases (s.proc cur).parent with
  | none => exact h.wakeup1 _
  | some parent => exact h.wakeup1 _

@[simp] lemma exitReparent_cpu (cur init : Slot) : (exitReparent idx s cur init).cpu=s.cpu := by
  unfold exitReparent
  rw [foldl_reparentTurn_cpu]
  cases (s.proc cur).parent with
  | none => exact wakeup1_cpu _
  | some parent => exact wakeup1_cpu _

lemma Proc.exited_np (status : ℕ) (x : Proc) : (x.exited status).np=x.np := rfl
lemma SchedInv.exits (h : SchedInv s) (hc : s.cpu c=some cur) (init : Slot) (status : ℕ) :
    SchedInv (s.exits idx c cur init status) :=
  (h.exitReparent cur _).leaveCpu (by simpa using hc) (by simp [Proc.exited]) (Proc.exited_np _ _)

lemma pidSearch_spec {taken : ℕ → Bool} {tries nextpid pid next : ℕ}
    (h : pidSearch taken tries nextpid=some (pid,next)) : taken pid=false ∧ (0<nextpid → 0<pid ∧ 0<next) := by
  induction tries generalizing nextpid with
  | zero => cases h
  | succ tries ih =>
    have hnext : 0 < if pidMax≤nextpid then 2 else nextpid+1 := by split_ifs <;> omega
    by_cases ht : taken nextpid=true
    · rw [pidSearch,if_pos ht] at h
      exact ⟨(ih h).1,fun _ => (ih h).2 hnext⟩
    · rw [pidSearch,if_neg ht] at h
      obtain ⟨rfl,rfl⟩:=Prod.mk.inj (some.inj h)
      exact ⟨by simpa using ht,fun hpos => ⟨hpos,hnext⟩⟩

variable {o : Option Slot}

lemma allocproc_cases (hs : allocproc s=some (o,t)) :
    (o=none ∧ t=s) ∨ ∃ np pid next,o=some np ∧ (s.proc np).state=.unused ∧
      (∀ q,q≠np → (s.proc q).state≠.unused → (s.proc q).pid≠(pid : ℕ)) ∧
      (∀ q<np,(s.proc q).state≠.unused) ∧ (0<s.nextpid → 0<pid ∧ 0<next) ∧
      t = { s.setProc np (Proc.allocated pid) with
        nextpid := next
        tickSleepq := tickSleepqCut s.tickSleepq np
        mlfq := s.mlfq.reset np ⟨mlfqForkStartQ,false,mlfqQuanta 1,0⟩ } := by
  unfold allocproc at hs
  split at hs
  · obtain ⟨rfl,rfl⟩:=Prod.mk.inj (some.inj hs)
    exact .inl ⟨rfl,rfl⟩
  rename_i np hnp
  obtain ⟨⟨pid,next⟩,hpid,ht⟩:=map_eq_some_iff.mp hs
  obtain ⟨rfl,rfl⟩:=Prod.mk.inj ht
  obtain ⟨hfree,hpos⟩:=pidSearch_spec hpid
  refine .inr ⟨np,pid,next,rfl,by simpa using List.find?_some hnp,?_,?_,hpos,rfl⟩
  · intro q hq hst heq
    have hall:=List.any_eq_false.mp hfree q (List.mem_finRange q)
    exact hall (by simp [hq,hst,heq])
  · intro q hq
    simpa using finRange_find?_lt hnp hq

lemma SchedInv.allocproc (h : SchedInv s) (hs : allocproc s=some (o,t)) : SchedInv t ∧ t.cpu=s.cpu ∧
      ∀ np,o=some np → (t.proc np).state=.embryo ∧ (∀ i,(t.proc i).np≠some np) ∧ ¬ s.OnCpu np := by
  rcases allocproc_cases hs with ⟨rfl,rfl⟩ | ⟨np,pid,next,rfl,hst,-,-,-,rfl⟩
  · exact ⟨h,rfl,fun np hnp => by cases hnp⟩
  have hcpu : ¬ s.OnCpu np := h.notOnCpu (by simp [OnCpuState,hst])
  have hno : ∀ i,(s.proc i).np≠some np := h.np_ne (by simp [hst])
  have hnp : ∀ i j,((s.setProc np (Proc.allocated pid)).proc i).np=some j → (s.proc i).np=some j := by
    intro i j hi
    by_cases hin : i=np
    · subst hin
      simp [Proc.allocated] at hi
    · rwa [setProc_of_ne _ _ hin] at hi
  refine ⟨⟨?_,?_,h.oneCpu,?_,?_⟩,rfl,?_⟩
  · refine QueueInv.reset (h.queues.congr fun i => ?_) ?_ (by decide)
    · by_cases hi : i=np
      · subst hi
        simp [State.Runnable,Proc.allocated,hst]
      · simp [State.Runnable,hi]
    · simp [State.Runnable,Proc.allocated]
  · intro i hi
    have hin : i≠np := fun hin => hcpu (hin ▸ hi)
    simpa [hin] using h.current i hi
  · intro i j hi
    have hj:=hnp i j hi
    have hjn : j≠np := fun hjn => hno i (hjn ▸ hj)
    simpa [hjn] using h.embryo i j hj
  · exact fun i i' j hi hi' => h.oneFork i i' j (hnp i j hi) (hnp i' j hi')
  · rintro j hj
    cases hj
    exact ⟨by simp [Proc.allocated],fun i hi => hno i (hnp i np hi),hcpu⟩

lemma SchedInv.forkAlloc (h : SchedInv s) (ha : Process.allocproc s=some (o,t)) :
    SchedInv (t.setProc cur fun x => {x with np := o}) := by
  obtain ⟨h',hcpu,hnew⟩:=h.allocproc ha
  have hup : ∀ i j,(((t.setProc cur fun x => {x with np := o}).proc i).np=some j) →
      (i=cur ∧ o=some j) ∨ (i≠cur ∧ (t.proc i).np=some j) := by
    intro i j hi
    by_cases hic : i=cur
    · subst hic
      exact .inl ⟨rfl,by simpa using hi⟩
    · exact .inr ⟨hic,by rwa [setProc_of_ne _ _ hic] at hi⟩
  have hst:=setProc_field t cur (fun x => {x with np := o}) Proc.state rfl
  refine ⟨h'.queues.congr fun i => ?_,fun i hi => ?_,h'.oneCpu,fun i j hi => ?_,fun i i' j hi hi' => ?_⟩
  · simp only [State.Runnable,hst]
  · rw [hst]
    exact h'.current i hi
  · rw [hst]
    rcases hup i j hi with ⟨-,ho⟩ | ⟨-,hi⟩
    · exact (hnew j ho).1
    · exact h'.embryo i j hi
  · rcases hup i j hi with ⟨rfl,ho⟩ | ⟨-,hi⟩ <;> rcases hup i' j hi' with ⟨rfl,ho'⟩ | ⟨-,hi'⟩
    · rfl
    · exact absurd (by assumption) ((hnew j ho).2.1 i')
    · exact absurd (by assumption) ((hnew j ho').2.1 i)
    · exact h'.oneFork i i' j hi hi'

variable {np : Slot}

section
variable (h : SchedInv s)
include h

lemma SchedInv.endFork (hnp : (s.proc cur).np=some np) : SchedInv (s.endFork cur) ∧
      ∀ i,((s.endFork cur).proc i).np≠some np := by
  have hst:=setProc_field s cur (fun x => {x with np := none}) Proc.state rfl
  have hup : ∀ i j,((s.endFork cur).proc i).np=some j → i≠cur ∧ (s.proc i).np=some j := by
    intro i j hi
    by_cases hic : i=cur
    · subst hic
      simp at hi
    · exact ⟨hic,by rwa [setProc_of_ne _ _ hic] at hi⟩
  refine ⟨⟨h.queues.congr fun i => ?_,fun i hi => ?_,h.oneCpu,fun i j hi => ?_,
    fun i i' j hi hi' => ?_⟩,fun i hi => ?_⟩
  · simp only [State.Runnable,hst]
  · rw [hst]
    exact h.current i hi
  · rw [hst]
    exact h.embryo i j (hup i j hi).2
  · exact h.oneFork i i' j (hup i j hi).2 (hup i' j hi').2
  · exact (hup i np hi).1 (h.oneFork i cur np (hup i np hi).2 hnp)

lemma SchedInv.forkUndo (hnp : (s.proc cur).np=some np) : SchedInv (forkUndone cur s np) := by
  obtain ⟨h',hno⟩:=h.endFork hnp
  have hst : ((s.endFork cur).proc np).state=.embryo := by
    rw [setProc_field s cur _ Proc.state rfl]
    exact h.embryo cur np hnp
  refine h'.setState (f := fun x => {x with state := .unused}) rfl ?_ (fun ho => ?_) hno
  · exact iff_of_false (by simp) (by simp only [State.Runnable,hst]; decide)
  · exact absurd (h'.current np ho) (by simp [OnCpuState,hst])

lemma SchedInv.publish (hst : (s.proc p).state=.embryo)
    (hnp : ∀ i,(s.proc i).np≠some p) : SchedInv (publish s p) := by
  have hr : ¬ s.Runnable p := by simp [State.Runnable,hst]
  have hq:=h.setSched (d := {s.mlfq.sched p with schedQ := mlfqForkStartQ})
    (show mlfqForkStartQ < mlfqNqueues by decide) (.inl hr)
  exact hq.makeRunnable hr (hq.notOnCpu (by simp [OnCpuState,hst])) hnp .fork

lemma SchedInv.userinit (ha : Process.allocproc s=some (some np,t)) :
    SchedInv (Process.publish {t with initproc := some np} np) := by
  obtain ⟨h',-,hnew⟩:=h.allocproc ha
  obtain ⟨hst,hnp,-⟩:=hnew np rfl
  exact SchedInv.publish (h'.congr rfl rfl (fun _ => rfl) fun _ => rfl) hst hnp
lemma SchedInv.forkPublish (hnp : (s.proc cur).np=some np) : SchedInv (forkPublish cur s np) := by
  obtain ⟨h',hno⟩:=h.endFork hnp
  refine h'.publish ?_ hno
  rw [setProc_field s cur _ Proc.state rfl]
  exact h.embryo cur np hnp
lemma SchedInv.setAlarm (p : Slot) (deadline interval : ℕ) : SchedInv (procSetAlarmState s p deadline interval) :=
  (h.setFields (f := Proc.setAlarm deadline interval) rfl rfl).congr rfl rfl (fun _ => rfl) fun _ => rfl

lemma SchedInv.alarmTurn (now : ℕ) (p : Slot) : SchedInv (alarmTurn now s p) := by
  unfold Process.alarmTurn
  extract_lets x s1 s2
  split_ifs with hskip hsl
  · exact h
  all_goals
    have h1 : SchedInv s1 := by
      by_cases hi : x.alarmIntervalTicks≠0
      · simp only [s1,if_pos hi]
        exact h.setFields (f := fun x => { x with
          alarmTicks := uintAdd now x.alarmIntervalTicks }) rfl rfl
      · simp only [s1,if_neg hi]
        exact h.setAlarm p 0 0
    have h2 : SchedInv s2 := h1.setFields (f := fun x => { x with
      sigPending := x.sigPending ||| sigbit sigalrm }) rfl rfl
  · exact h2.wake hsl .alarm
  · exact h2

lemma SchedInv.boostTurn (p : Slot) : SchedInv (boostTurn s p) := by
  have hreset : ¬ s.Runnable p → SchedInv { s with
      mlfq := s.mlfq.setSched p {s.mlfq.sched p with schedQ := 1,budgetExpired := false} } :=
    fun hr => h.setSched (show 1 < mlfqNqueues by decide) (.inl hr)
  unfold Process.boostTurn
  cases hst : (s.proc p).state with
  | unused => exact h
  | embryo => exact h
  | running => exact h
  | zombie => exact h
  | runnable =>
    dsimp only
    split_ifs
    · exact h
    · exact {h with queues := h.queues.boost hst}
  | sleeping | stopped =>
    dsimp only
    split_ifs
    · exact h
    · exact hreset (by simp [State.Runnable,hst])

end

end Auxv6.Process

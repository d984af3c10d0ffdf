import Auxv6.Process.WaitSteps

/-!
# Wait notifications

`proc_apply_pending_signals` records a stop without waking the parent, and a child handed to init or to
another process group with an event on record wakes nobody.
-/

namespace Auxv6.Process
open Machine Lib Option Finset Transition

variable {idx : Chan → ℕ} {s t u : State} {c : ℕ} {p cur init : Slot}

def ExitOk (s : State) (cur : Slot) : Prop :=
  ∀ init pid options i,s.initproc=some init → s.WaitsFor init pid options → (s.proc cur).parent≠some init →
    (∀ j,(s.proc j).parent=some cur → (s.proc j).state≠.zombie) →
    (s.proc i).parent=some cur → procWaitTargetMatch (s.proc init) (s.proc i) pid=true →
    (s.proc i).eventReportable options=false

lemma WaitInv.reparented (h : WaitInv idx s) (hs : SchedInv u)
    (hr : Reparents cur init s u) (hw : InitWoken cur init s u)
    (hdone : ∀ i,(u.proc i).parent≠some cur) (hinit : s.initproc=some init)
    (hok : ∀ pid options i,u.WaitsFor init pid options → (∀ j,(s.proc j).parent=some cur → (s.proc j).state≠.zombie) →
      (s.proc i).parent=some cur → procWaitTargetMatch (s.proc init) (s.proc i) pid=true →
      (s.proc i).eventReportable options=false) : WaitInv idx u := by
  have hunused : ∀ i,(u.proc i).state=.unused ↔ (s.proc i).state=.unused := by
    intro i
    rcases hr.state i with h1 | ⟨h1,h2 | h2⟩ <;> simp [h1]
    all_goals simp [h2]
  have hback : ∀ st,st≠.runnable → ∀ i,(u.proc i).state=st → (s.proc i).state=st := by
    intro st hst i hi
    rcases hr.state i with h1 | ⟨h1,-⟩
    · exact h1.symm.trans hi
    · exact absurd (hi.symm.trans h1) hst
  have hfresh : ∀ i,(u.proc i).state.Fresh → (s.proc i).state.Fresh := fun i =>
    Or.imp (hback .unused (by decide) i) (hback .embryo (by decide) i)
  have hpari : (s.proc init).parent=none := (h.init init hinit).1
  refine ⟨hs,fun p pid options hwait => ?_,fun b => ?_,fun i j hij hj hpid heq => ?_,
    fun p hf => ?_,fun p => ?_,fun i hi => ?_,fun hi => ?_,fun p pid options i hwait ha => ?_⟩
  · rw [hr.chan]
    exact h.ownChan p pid options (hr.waitsFor hwait)
  · rw [hr.chanWaitHash]
    refine (card_le_card fun i hi => ?_).trans (h.hash b)
    simpa only [sleepers,hr.context] using hi
  · rw [hr.pid] at hpid
    rw [hr.pid,hr.pid] at heq
    rw [hunused]
    exact h.pids i j hij (fun hu => hj ((hunused j).mpr hu)) hpid heq
  · rw [hr.waitEvent]
    exact h.event p (hfresh p hf)
  · rcases hr.parent p with hp | ⟨hp,hp'⟩
    · rw [hp]
      exact h.parent p
    -- a child handed to init is not init itself
    rw [hp']
    rintro heq
    obtain rfl : init=p := some.inj heq
    rw [hpari] at hp
    cases hp
  · rw [hr.initproc] at hi
    obtain ⟨h1,h2,h3⟩:=h.init i hi
    refine ⟨?_,fun hf => h2 (hfresh i hf),fun hz => h3 (hback .zombie (by decide) i hz)⟩
    rcases hr.parent i with hp | ⟨hp,-⟩
    · exact hp.trans h1
    · rw [h1] at hp
      cases hp
  · rw [hr.initproc,hinit] at hi
    cases hi
  · have hws:=hr.waitsFor hwait
    have hmatch : procWaitTargetMatch (s.proc p) (s.proc i) pid=true := by
      rw [← ha.2]
      exact procWaitTargetMatch_congr pid (hr.pgid p).symm (hr.pid i).symm (hr.pgid i).symm
    have hrep : (s.proc i).reportable options=false → (u.proc i).reportable options=false := by
      intro hf
      have hz : (s.proc i).state≠.zombie := fun hz => by
        simp [Proc.reportable,hz] at hf
      exact reportable_of_ne_zombie (hr.waitEvent i) (fun hzu => hz (hback .zombie (by decide) i hzu)) hf
    rcases hr.parent i with hp | ⟨hp,hp'⟩
    · exact hrep (h.noLost p pid options i hws ⟨hp ▸ ha.1,hmatch⟩)
    obtain rfl : init=p := some.inj (hp'.symm.trans ha.1)
    have hnoz : ∀ j,(s.proc j).parent=some cur → (s.proc j).state≠.zombie :=
      fun j hj hz => hw j hj hz (hdone j) pid options hwait
    refine hrep ?_
    simp only [Proc.reportable,Bool.or_eq_false_iff,decide_eq_false_iff_not]
    exact ⟨hok pid options i hwait hnoz hp hmatch,hnoz i hp⟩

lemma WaitInv.exited (h : WaitInv idx s) (hc : s.cpu c=some cur) (hinit : s.initproc≠some cur)
    (hpar : ∀ q,(s.proc cur).parent=some q → ∀ pid options,¬ s.WaitsFor q pid options)
    (status : ℕ) : WaitInv idx ((s.setProc cur (Proc.exited status)).setCpu c none) := by
  have hself : ((s.setProc cur (Proc.exited status)).setCpu c none).proc cur =
      (s.proc cur).exited status := by rw [setCpu_proc,setProc_self]
  have hother : ∀ i,i≠cur → ((s.setProc cur (Proc.exited status)).setCpu c none).proc i=s.proc i :=
    fun i hi => by rw [setCpu_proc,setProc_of_ne _ _ hi]
  have hst : (((s.setProc cur (Proc.exited status)).setCpu c none).proc cur).state=.zombie := by
    rw [hself]
    rfl
  have hold:=h.sched.current cur ⟨c,hc⟩
  refine h.update (h.sched.leaveCpu hc (by simp [Proc.exited]) (Proc.exited_np _ _)) hother rfl
    (h.booted hc) (fun b => ?_) ?_ (h.pids_same ?_ ?_) ?_ ?_ (fun hi => absurd hi hinit) ?_ ?_
  · refine (card_le_card (sleepers_subset hother (.inr ?_) b)).trans (h.hash b)
    rw [hself]
    rfl
  · exact fun pid options hw => absurd (hst.symm.trans hw.1) (by decide)
  · rw [hself]
    rfl
  · rw [hst]
    rcases hold with h' | h' <;> simp [h']
  · rintro (hf | hf) <;> exact absurd (hst.symm.trans hf) (by decide)
  · rw [hself]
    exact h.parent cur
  · exact fun pid options i hw _ => absurd (hst.symm.trans hw.1) (by decide)
  · rintro q pid options hq hwait ⟨hp,-⟩
    rw [hself] at hp
    exact absurd hwait (hpar q hp pid options)

lemma WaitInv.exits (h : WaitInv idx s) (hc : s.cpu c=some cur) (hok : ExitOk s cur) {init : Slot}
    (hinit : s.initproc=some init) (hne : cur≠init) (status : ℕ) : WaitInv idx (s.exits idx c cur init status) := by
  -- the parent is awake after the first wakeup
  obtain ⟨u0,hu0,hs0,hwk,hpw⟩ : ∃ u0,exitReparent idx s cur init =
      slots.foldl (reparentTurn idx cur init) u0 ∧ SchedInv u0 ∧ Wakes s u0 ∧
      ∀ q pid options,(s.proc cur).parent=some q → ¬ u0.WaitsFor q pid options := by
    unfold exitReparent
    cases hpar : (s.proc cur).parent with
    | none =>
      exact ⟨_,rfl,h.sched.wakeup1 _,wakeup1_wakes s (.addr 0),fun q _ _ hq => by cases hq⟩
    | some q =>
      refine ⟨_,rfl,h.sched.wakeup1 _,wakeup1_wakes s (.slot q),fun q' pid options hq => ?_⟩
      cases hq
      exact wakeup1_slot_awake fun pid options hw => ⟨h.ownChan q pid options hw,h.hash_pos hw⟩
  have h0 : WaitInv idx u0 := h.wakes hs0 hwk
  obtain ⟨hr,hwok,hpar⟩:=Reparents.loop h0 hne slots Reparents.refl fun i hp _ hn => absurd hp hn
  rw [← hu0] at hr hwok hpar
  have hdone : ∀ i,((exitReparent idx s cur init).proc i).parent≠some cur :=
    fun i hi => (hpar i hi).1 (List.mem_finRange i)
  have hu : WaitInv idx (exitReparent idx s cur init) := by
    refine h0.reparented (h.sched.exitReparent cur init) hr hwok hdone
      (hwk.initproc.trans hinit) fun pid options i hwait hnoz hp hmatch => ?_
    have hws:=hr.waitsFor hwait
    have hcalm:=hwk.calms
    have hev : (s.proc i).eventReportable options=false := by
      refine hok init pid options i hinit (hcalm.waitsFor hws)
        (fun hq => hpw init pid options hq hws) (fun j hj hz => ?_) ?_ ?_
      · refine hnoz j ((hcalm.parent j).trans hj) ?_
        rcases hwk.state j with h' | ⟨-,h' | h'⟩
        · exact h'.trans hz
        · exact absurd (h'.symm.trans hz) (by decide)
        · exact absurd (h'.symm.trans hz) (by decide)
      · exact (hcalm.parent i).symm.trans hp
      · rw [← hmatch]
        exact procWaitTargetMatch_congr pid (hcalm.pgid init).symm (hcalm.pid i).symm (hcalm.pgid i).symm
    simpa only [Proc.eventReportable,hwk.waitEvent] using hev
  refine hu.exited (by simpa using hc) (fun hi => ?_) (fun q hp pid options hwait => ?_) status
  · rw [hr.initproc,hwk.initproc,hinit] at hi
    exact absurd (some.inj hi).symm hne
  have hps : (s.proc cur).parent=some q := by
    rcases hr.parent cur with h' | ⟨h',-⟩
    · exact (hwk.calms.parent cur).symm.trans (h'.symm.trans hp)
    · exact absurd h' (h0.parent cur)
  exact hpw q pid options hps (hr.waitsFor hwait)

lemma reportable_of_none {x : Proc} (hev : x.waitEvent=.none) (hz : x.state≠.zombie)
    (options : WaitOptions) : x.reportable options=false := by
  simp [Proc.reportable,Proc.eventReportable,hev,hz]

variable {o : Option Slot}

lemma WaitInv.allocproc (h : WaitInv idx s) (hboot : s.initproc≠none)
    (hs : allocproc s=some (o,t)) : WaitInv idx t ∧ t.initproc=s.initproc := by
  have hsched:=(h.sched.allocproc hs).1
  rcases allocproc_cases hs with ⟨-,rfl⟩ | ⟨np,pid,next,rfl,hst,hfree,hfirst,-,rfl⟩
  · exact ⟨h,rfl⟩
  refine ⟨?_,rfl⟩
  have hself : (s.setProc np (Proc.allocated pid)).proc np=(s.proc np).allocated pid := setProc_self ..
  have hother : ∀ i,i≠np → (s.setProc np (Proc.allocated pid)).proc i=s.proc i := fun i hi => setProc_of_ne _ _ hi
  have hemb : ((s.setProc np (Proc.allocated pid)).proc np).state=.embryo := by
    rw [hself]
    rfl
  refine h.update hsched hother rfl hboot (fun b => ?_) ?_ ?_ ?_ ?_ ?_ ?_ ?_
  · refine (card_le_card (sleepers_subset hother (.inr ?_) b)).trans (h.hash b)
    rw [hself]
    rfl
  · exact fun pid options hw => absurd (hemb.symm.trans hw.1) (by decide)
  · intro j hj heq hne
    have hju : (s.proc j).state=.unused := by
      by_contra hju
      exact hfree j hj hju (heq.symm.trans (by rw [hself]; rfl))
    refine ⟨fun hn => absurd hju hn,fun _ => ⟨hju,?_⟩⟩
    exact lt_of_le_of_ne (not_lt.mp fun hlt => hfirst j hlt hju) hj.symm
  · intro _
    rw [hself]
    rfl
  · rw [hself]
    exact h.parent np
  · exact fun hi => absurd (.inl hst) (h.init np hi).2.1
  · exact fun pid options i hw _ => absurd (hemb.symm.trans hw.1) (by decide)
  · intro q pid' options _ _ _
    exact reportable_of_none (by rw [hself]; rfl) (by rw [hemb]; decide) options

lemma WaitInv.setNp (h : WaitInv idx s) (hc : s.OnCpu p) (o : Option Slot)
    (hs : SchedInv (s.setProc p fun x => {x with np := o})) :
    WaitInv idx (s.setProc p fun x => {x with np := o}) := by
  have hst:=h.sched.current p hc
  have hcalm : Calms s (s.setProc p fun x => {x with np := o}) := by
    refine calms_update (fun i hi => setProc_of_ne _ _ hi) rfl ?_ ?_ ?_ ?_ (.inl ?_) (.inr ?_) ?_
    all_goals try rw [setProc_self]
    · exact hst
    · rcases hst with h' | h' <;> simp [h']
  exact h.calm hs hcalm (h.hash_of_calms hcalm rfl)

lemma WaitInv.forkAlloc (h : WaitInv idx s) (hc : s.cpu c=some cur) (ha : Process.allocproc s=some (o,t)) :
    WaitInv idx (t.setProc cur fun x => {x with np := o}) := by
  obtain ⟨-,hcpu,-⟩:=h.sched.allocproc ha
  obtain ⟨h',-⟩:=h.allocproc (h.booted hc) ha
  exact h'.setNp ⟨c,by rw [hcpu,hc]⟩ o (h.sched.forkAlloc ha)

variable {f : Proc → Proc}

lemma WaitInv.setEmbryo (h : WaitInv idx s) (hboot : s.initproc≠none)
    (hst : (s.proc p).state=.embryo) (hs : SchedInv t)
    (hother : ∀ i,i≠p → t.proc i=s.proc i) (hself : t.proc p=f (s.proc p))
    (hinit : t.initproc=s.initproc) (hhash : t.chanWaitHash=s.chanWaitHash)
    (hpid : ∀ x,(f x).pid=x.pid) (hctx : ∀ x,(f x).context=x.context)
    (hev : ∀ x,x.waitEvent=.none → (f x).waitEvent=.none)
    (hstate : (f (s.proc p)).state=.unused ∨ (f (s.proc p)).state=.embryo ∨ (f (s.proc p)).state=.runnable)
    (hpar : (f (s.proc p)).parent≠some p) : WaitInv idx t := by
  have hnone : (t.proc p).waitEvent=.none := by
    rw [hself]
    exact hev _ (h.event p (.inr hst))
  have hnot : ∀ st,st≠.unused → st≠.embryo → st≠.runnable → (t.proc p).state≠st := by
    rintro st h1 h2 h3 rfl
    rw [hself] at h1 h2 h3
    rcases hstate with h' | h' | h'
    · exact h1 h'
    · exact h2 h'
    · exact h3 h'
  have hsl : (t.proc p).state≠.sleeping := hnot _ (by decide) (by decide) (by decide)
  refine h.update hs hother hinit hboot (fun b => ?_) ?_ ?_ (fun _ => hnone) ?_ ?_ ?_ ?_
  · rw [hhash]
    refine (card_le_card (sleepers_subset hother (.inl ?_) b)).trans (h.hash b)
    rw [hself,hctx]
  · exact fun pid options hw => absurd hw.1 hsl
  · -- an `EMBRYO` shares its pid with no process in use
    intro j hj heq hne
    rw [hself,hpid] at heq
    have hnu : (s.proc p).state≠.unused := by rw [hst]; decide
    obtain ⟨hju,hlt⟩:=h.pids j p hj hnu (heq ▸ hne) heq.symm
    exact ⟨fun hn => absurd hju hn,fun _ => ⟨hju,hlt⟩⟩
  · rw [hself]
    exact hpar
  · exact fun hi => absurd (.inr hst) (h.init p hi).2.1
  · exact fun pid options i hw _ => absurd hw.1 hsl
  · intro q pid options _ _ _
    exact reportable_of_none hnone (hnot _ (by decide) (by decide) (by decide)) options

variable {np : Slot}

section
variable (h : WaitInv idx s)
include h

section
variable (hc : s.cpu c=some cur) (hnp : (s.proc cur).np=some np)
include hc hnp

lemma WaitInv.endFork : WaitInv idx (s.endFork cur) ∧ ((s.endFork cur).proc np).state=.embryo := by
  refine ⟨h.setNp ⟨c,hc⟩ none (h.sched.endFork hnp).1,?_⟩
  rw [setProc_field s cur _ Proc.state rfl]
  exact h.sched.embryo cur np hnp

lemma WaitInv.forkUndo : WaitInv idx (forkUndone cur s np) := by
  obtain ⟨h',hst⟩:=h.endFork hc hnp
  exact h'.setEmbryo (h.booted hc) hst (f := fun x => {x with state := .unused})
    (h.sched.forkUndo hnp) (fun i hi => setProc_of_ne _ _ hi) (setProc_self ..) rfl rfl
    (fun _ => rfl) (fun _ => rfl) (fun _ he => he) (.inl rfl) (h'.parent np)

lemma WaitInv.forkPublish : WaitInv idx (forkPublish cur s np) := by
  obtain ⟨h',hst⟩:=h.endFork hc hnp
  exact h'.setEmbryo (h.booted hc) hst (f := fun x => {x with state := .runnable}) (h.sched.forkPublish hnp)
    (fun i hi => by simp [Process.forkPublish,publish,State.makeRunnable,State.setProc,hi])
    (by simp [Process.forkPublish,publish,State.makeRunnable,State.setProc]) rfl rfl
    (fun _ => rfl) (fun _ => rfl) (fun _ he => he) (.inr (.inr rfl)) (h'.parent np)

lemma WaitInv.forkCopy : WaitInv idx (forkCopy s cur np) := by
  have hst:=h.sched.embryo cur np hnp
  have hne : cur≠np := fun heq => h.sched.not_embryo ⟨c,hc⟩ (heq ▸ hst)
  refine h.setEmbryo (h.booted hc) hst (f := Proc.forked cur (s.proc cur))
    (h.sched.setFields rfl rfl) (fun i hi => setProc_of_ne _ _ hi) (setProc_self ..) rfl rfl
    (fun _ => rfl) (fun _ => rfl) (fun _ _ => rfl) (.inr (.inl hst)) ?_
  exact fun heq => hne (some.inj heq)

end

lemma WaitInv.userinit (hinit : s.initproc=none) (ha : Process.allocproc s=some (some np,u))
    (ht : Process.publish {u with initproc := some np} np=t) : WaitInv idx t := by
  have hsched : SchedInv t := ht ▸ h.sched.userinit ha
  rcases allocproc_cases ha with ⟨hn,-⟩ | ⟨np',pid,next,heq,hst,-,hfirst,-,hs'⟩
  · cases hn
  obtain rfl : np=np' := some.inj heq
  have hboot:=h.boot hinit
  obtain ⟨hself,hother,hhash,hip⟩ : t.proc np = { (s.proc np).allocated pid with
        state := .runnable } ∧ (∀ i,i≠np → t.proc i=s.proc i) ∧
      t.chanWaitHash=s.chanWaitHash ∧ t.initproc=some np := by
    rw [← ht,hs']
    refine ⟨?_,fun i hi => ?_,rfl,rfl⟩
    · simp [publish,State.makeRunnable,State.setProc]
    · simp [publish,State.makeRunnable,State.setProc,hi]
  have hstate : ∀ i,(t.proc i).state=.runnable ∧ i=np ∨ (t.proc i).state=.unused := by
    intro i
    by_cases hi : i=np
    · subst hi
      exact .inl ⟨by rw [hself],rfl⟩
    · rw [hother i hi]
      exact .inr (hboot i).1
  have hnowait : ∀ p pid options,¬ t.WaitsFor p pid options := by
    rintro p pid options ⟨hsl,-⟩
    rcases hstate p with ⟨h',-⟩ | h' <;> exact absurd (h'.symm.trans hsl) (by decide)
  have hparent : ∀ i,(t.proc i).parent=none := by
    intro i
    by_cases hi : i=np
    · subst hi
      rw [hself]
      exact (hboot i).2
    · rw [hother i hi]
      exact (hboot i).2
  refine ⟨hsched,fun p pid options hw => absurd hw (hnowait p pid options),fun b => ?_,
    fun i j hij hj hpid heq => ?_,fun p hf => ?_,fun p => ?_,fun i hi => ?_,fun hi => ?_,
    fun p pid options i hw => absurd hw (hnowait p pid options)⟩
  · rw [hhash]
    refine (card_le_card (sleepers_subset hother (.inr ?_) b)).trans (h.hash b)
    rw [hself]
    rfl
  · obtain rfl : j=np := ((hstate j).resolve_right hj).2
    rw [hother i hij]
    refine ⟨(hboot i).1,lt_of_le_of_ne (not_lt.mp fun hlt => hfirst i hlt (hboot i).1) hij.symm⟩
  · by_cases hp : p=np
    · subst hp
      rw [hself]
      rfl
    · rw [hother p hp] at hf ⊢
      exact h.event p hf
  · rw [hparent]
    exact some_ne_none p |>.symm
  · obtain rfl : np=i := some.inj (hip.symm.trans hi)
    rw [hparent,hself]
    exact ⟨rfl,by simp [ProcState.Fresh],by simp⟩
  · rw [hip] at hi
    cases hi

end

def StopOk (s : State) (p : Slot) : Prop :=
  (s.proc p).state=.running → (s.proc p).defaultPending &&& stopSet≠0 →
    ∀ q pid options,s.WaitsFor q pid options → s.Awaited q pid p → options.wuntraced=false

lemma WaitInv.applySignals (h : WaitInv idx s) (hc : s.cpu c=some p) (hok : ApplyOk s p)
    (hstop : StopOk s p) : WaitInv idx (procApplyPendingSignals s p) := by
  have hcur:=h.sched.current p ⟨c,hc⟩
  have hsched:=h.sched.applySignals hc hok
  rcases apply_cases hcur hok with ⟨f,hf,hs⟩ | ⟨hrun,hpend,f,hs,hf⟩
  · rw [hs] at hsched ⊢
    exact h.wakes hsched hf.wakes
  rw [hs] at hsched ⊢
  have hother : ∀ i,i≠p → (s.setProc p f).proc i=s.proc i := fun i hi => setProc_of_ne _ _ hi
  have hself : (s.setProc p f).proc p=f (s.proc p) := setProc_self ..
  obtain ⟨hlinks,hst,hev⟩:=hf (s.proc p)
  rw [← hself] at hlinks hst hev
  have hpid : ((s.setProc p f).proc p).pid=(s.proc p).pid := congrArg Prod.fst hlinks
  have hpgid : ((s.setProc p f).proc p).pgid=(s.proc p).pgid := congrArg (·.2.1) hlinks
  have hpar : ((s.setProc p f).proc p).parent=(s.proc p).parent := congrArg (·.2.2.1) hlinks
  refine h.update hsched hother rfl (h.booted hc) (fun b => ?_) ?_ (h.pids_same hpid ?_) ?_ ?_ ?_ ?_ ?_
  · exact (card_le_card (sleepers_subset hother (.inl (congrArg (·.2.2.2.2.1) hlinks)) b)).trans (h.hash b)
  · exact fun pid options hw => absurd (hst.symm.trans hw.1) (by decide)
  · rw [hst,hrun]
    decide
  · rintro (hf | hf) <;> exact absurd (hst.symm.trans hf) (by decide)
  · rw [hpar]
    exact h.parent p
  · intro hi
    rw [hpar,hst]
    exact ⟨(h.init p hi).1,by simp [ProcState.Fresh],by decide⟩
  · exact fun pid options i hw _ => absurd (hst.symm.trans hw.1) (by decide)
  · intro q pid options hq hwait ha
    have hun:=hstop hrun hpend q pid options hwait (awaited_of_same hother hpid hpgid hpar ha)
    simp only [Proc.reportable,Proc.eventReportable,hst,hev,hun]
    cases options.wcontinued <;> rfl

def RegroupOk (s : State) (p : Slot) (g : Int) : Prop :=
  (∀ q pid options,s.WaitsFor q pid options → (s.proc p).parent=some q →
    procWaitTargetMatch (s.proc q) {s.proc p with pgid := g} pid=true → (s.proc p).reportable options=false) ∧
  ∀ options i,s.WaitsFor p 0 options → (s.proc i).parent=some p → (s.proc i).pgid=g →
    (s.proc i).reportable options=false

lemma WaitInv.regroup (h : WaitInv idx s) (hboot : s.initproc≠none) {g : Int}
    (hok : RegroupOk s p g) (hf : ∃ sid,f (s.proc p) = {s.proc p with pgid := g,sid := sid}) :
    WaitInv idx (s.setProc p f) := by
  obtain ⟨sid,hfp⟩:=hf
  have hother : ∀ i,i≠p → (s.setProc p f).proc i=s.proc i := fun i hi => setProc_of_ne _ _ hi
  have hself : (s.setProc p f).proc p = {s.proc p with pgid := g,sid := sid} := by
    rw [setProc_self,hfp]
  have hsched : SchedInv (s.setProc p f) := h.sched.setFields (by rw [hfp]) (by rw [hfp])
  refine h.update hsched hother rfl hboot (fun b => ?_) (fun pid options hw => ?_)
    (h.pids_same ?_ ?_) (fun hfr => ?_) ?_ (fun hi => ?_) (fun pid options i hw ha => ?_)
    fun q pid options hq hwait ha => ?_
  · exact (card_le_card (sleepers_subset hother (.inl (by rw [hself])) b)).trans (h.hash b)
  · rw [State.WaitsFor,hself] at hw
    rw [hself]
    exact h.ownChan p pid options hw
  · rw [hself]
  · rw [hself]
  · rw [hself] at hfr ⊢
    exact h.event p hfr
  · rw [hself]
    exact h.parent p
  · rw [hself]
    exact h.init p hi
  · rw [State.WaitsFor,hself] at hw
    have hip : i≠p := by
      rintro rfl
      have := ha.1
      rw [hself] at this
      exact h.parent i this
    rw [hother i hip]
    rw [State.Awaited,hother i hip,hself] at ha
    by_cases hpid : pid=0
    · subst hpid
      refine hok.2 options i hw ha.1 ?_
      simpa [procWaitTargetMatch] using ha.2
    -- only `pid = 0` compares with the group of the waiting process
    refine h.noLost p pid options i hw ⟨ha.1,?_⟩
    rw [← ha.2]
    simp only [procWaitTargetMatch,if_neg hpid]
  · rw [State.Awaited,hother q hq,hself] at ha
    rw [hself]
    exact hok.1 q pid options hwait ha.1 ha.2

def NotifiesApart (s : State) : Action → Prop
  | .applySignals c => ∀ p,s.cpu c=some p → StopOk s p
  | .exit c _ => ∀ p,s.cpu c=some p → ExitOk s p
  | .setpgid c pid pgid => ∀ p q g,s.cpu c=some p → setpgidTarget s p pid pgid=some (q,g) → RegroupOk s q g
  | .setsid c => ∀ p,s.cpu c=some p → setsidAllowed s p=true → RegroupOk s p (s.proc p).pid
  | _ => True

lemma WaitInv.onCpu (h : WaitInv idx s) (hc : s.OnCpu p) (hs : SchedInv t)
    (hother : ∀ i,i≠p → t.proc i=s.proc i) (hinit : t.initproc=s.initproc)
    (hhash : t.chanWaitHash=s.chanWaitHash) (st : ProcState)
    (hself : t.proc p = {s.proc p with state := st,context := .ret})
    (hst : st=.runnable ∨ OnCpuState st) : WaitInv idx t := by
  have hcalm : Calms s t := by
    refine calms_update hother hinit ?_ ?_ ?_ ?_ (.inr ?_) ?_ ?_
    any_goals rw [hself]
    · rfl
    · exact hst
    · rcases h.sched.current p hc with h' | h' <;> simp [h']
  exact h.calm hs hcalm (h.hash_of_calms hcalm hhash)

lemma step_waitInv {a : Action} (h : WaitInv idx s) (hsig : SignalsApart s a)
    (hok : NotifiesApart s a) (hs : step idx s a=some t) : WaitInv idx t := by
  have hsched:=step_schedInv h.sched hsig hs
  cases step_stepsTo hs with
  | userinit hi ha => exact h.userinit hi ha rfl
  | forkAlloc hc _ ha => exact h.forkAlloc hc ha
  | forkUndo hc hnp => exact h.forkUndo hc hnp
  | forkCopy hc hnp => exact h.forkCopy hc hnp
  | forkPublish hc hnp => exact h.forkPublish hc hnp
  | dispatch hc hs => exact h.dispatch hc hs
  | yield hc =>
    exact h.onCpu ⟨_,hc⟩ hsched (fun i hi => by simp [Process.yield,State.makeRunnable,State.setProc,hi]) rfl rfl
      .runnable (by simp [Process.yield,State.makeRunnable,State.setProc]) (.inl rfl)
  | sleep hc => exact h.sleepOn hc rfl fun _ _ heq => by cases heq
  | wakeup => exact h.wakes hsched (wakeup1_wakes s _)
  | kill => exact h.wakes hsched (wakes_composes.kill (note_wakes · · _) s _ _ _)
  | signalPgid => exact h.wakes hsched (wakes_composes.signalPgid (note_wakes · · _) s _)
  | applySignals hc => exact h.applySignals hc (hsig _ hc) (hok _ hc)
  | maybeStop hc hst =>
    exact h.onCpu ⟨_,hc⟩ hsched (fun i hi => by simp [hi]) rfl rfl .stopped (by simp [← hst]) (.inr (.inr rfl))
  | checkAlarms => exact h.wakes hsched (wakes_composes.checkAlarms (alarmTurn_wakes _) s)
  | boost => exact h.wakes hsched (boost_wakes s _)
  | timerCharge _ | tick | setBoostInterval =>
    exact h.wakes hsched ⟨rfl,rfl,rfl,rfl,fun _ => rfl,fun _ => rfl,fun _ => .inl rfl⟩
  | exit hc hi hne => exact h.exits hc (hok _ hc) hi hne _
  | waitpid hc ht => exact h.waits hc ht
  | @setAlarm _ p deadline interval _ =>
    have hw : Wakes s (s.setProc p (Proc.setAlarm deadline interval)) := SignalOnly.wakes fun x => ⟨rfl,rfl,rfl⟩
    exact h.wakes hsched ⟨hw.cpu,hw.initproc,hw.nextpid,hw.chanWaitHash,hw.links,hw.waitEvent,hw.state⟩
  | setSignals _ => exact h.wakes hsched (SignalOnly.wakes fun x => ⟨rfl,rfl,rfl⟩)
  | setpgid hc hq => exact h.regroup (h.booted hc) (hok _ _ _ hc hq) ⟨_,rfl⟩
  | setsid hc hp => exact h.regroup (h.booted hc) (hok _ hc hp) ⟨_,rfl⟩
  | refused => exact h

lemma zeroState_waitInv (idx : Chan → ℕ) : WaitInv idx zeroState where
  sched := zeroState_schedInv
  ownChan p pid options hw := by cases hw.1
  hash b := by simp [sleepers,zeroState,zeroProc,Context.sleepChan]
  pids i j _ hj := absurd rfl hj
  event p _ := rfl
  parent p := by simp [zeroState,zeroProc]
  init i hi := by cases hi
  boot _ p := ⟨rfl,rfl⟩
  noLost p pid options i hw := by cases hw.1

/-- No wait notification is lost in any state of any run from boot that meets both
conditions at every step. -/
theorem wait_notified_of_apart (idx : Chan → ℕ) (as : List Action) (s : State)
    (hok : Guarded (step idx) (fun s a => SignalsApart s a ∧ NotifiesApart s a) zeroState as)
    (h : run (step idx) zeroState as=some s) : NoLostWait s :=
  (run_guarded (fun _ _ _ hs hok hst => step_waitInv hs hok.1 hok.2 hst) (zeroState_waitInv idx) hok h).noLost

def initSlot : Slot := ⟨0,nproc_pos⟩
def waitForChild : List Action :=
  [.userinit,.dispatch 0,.forkAlloc 0,.forkCopy 0,.forkPublish 0,.waitpid 0 (-1) ⟨false,false,false⟩,.dispatch 0]

theorem wait_notified_of_exit : ∃ s,run (step fun _ => 0) zeroState (waitForChild++[.exit 0 0,.dispatch 0]) =
      some s ∧ NoLostWait s := by
  have hrun : (run (step fun _ => 0) zeroState (waitForChild++[.exit 0 0,.dispatch 0])).isSome=true := by
    decide +kernel
  obtain ⟨s,hs⟩:=isSome_iff_exists.mp hrun
  refine ⟨s,hs,wait_notified_of_apart _ _ s (Guarded.append ?_ fun t ht => ?_) hs⟩
  · refine guarded_of_forall fun a ha s => ?_
    fin_cases ha <;> exact ⟨trivial,trivial⟩
  refine ⟨⟨trivial,fun p hp => ?_⟩,fun _ _ => ⟨⟨trivial,trivial⟩,fun _ _ => trivial⟩⟩
  -- the parent of the exiting process is init itself
  have hpre : (run (step fun _ => 0) zeroState waitForChild).map (fun t =>
      (t.cpu 0,decide ((t.proc childSlot).parent=t.initproc)))=some (some childSlot,true) := by
    decide +kernel
  rw [ht] at hpre
  obtain ⟨hcpu,hpar⟩:=Prod.mk.inj (some.inj hpre)
  obtain rfl : childSlot=p := some.inj (hcpu.symm.trans hp)
  intro init pid options i hinit _ hne
  exact absurd ((of_decide_eq_true hpar).trans hinit) hne

theorem wait_stop_not_notified : ∃ s,run (step fun _ => 0) zeroState
      (stopChild++[.waitpid 0 2 ⟨false,true,false⟩,.applySignals 1])=some s ∧ ¬ NoLostWait s := by
  obtain ⟨s,hs,hst,hctx,hpar,hmatch,hrep⟩ : ∃ s,run (step fun _ => 0) zeroState
      (stopChild++[.waitpid 0 2 ⟨false,true,false⟩,.applySignals 1])=some s ∧
      (s.proc initSlot).state=.sleeping ∧ (s.proc initSlot).context=.waitpid 2 ⟨false,true,false⟩ ∧
      (s.proc childSlot).parent=some initSlot ∧ procWaitTargetMatch (s.proc initSlot) (s.proc childSlot) 2=true ∧
      (s.proc childSlot).reportable ⟨false,true,false⟩=true := by
    decide +kernel
  refine ⟨s,hs,fun hno => ?_⟩
  have := hno initSlot 2 ⟨false,true,false⟩ childSlot ⟨hst,hctx⟩ ⟨hpar,hmatch⟩
  rw [hrep] at this
  cases this

end Auxv6.Process

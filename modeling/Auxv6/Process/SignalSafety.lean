import Auxv6.Process.SignalInvariant

/-!
# What a process can do about its signals

A caught signal is delivered whatever the mask is by then.
-/

namespace Auxv6.Process
open Machine Lib Lib.Transition List Option Transition

variable {b : Sigset} {signo : ℕ}

lemma and_eq_zero_iff {a : Sigset} : a &&& b=0 ↔ ∀ i,a.getLsbD i=true → b.getLsbD i=false := by
  constructor
  · intro h i ha
    simpa [ha] using congrArg (BitVec.getLsbD · i) h
  intro h
  refine BitVec.eq_of_getLsbD_eq fun i _ => ?_
  cases ha : a.getLsbD i with
  | false => simp [ha]
  | true => simp [ha,h i ha]

lemma getLsbD_sigbit (signo i : ℕ) : (sigbit signo).getLsbD i=(decide (signo-1<32) && decide (signo-1=i)) := by
  rw [sigbit,← BitVec.twoPow_eq,BitVec.getLsbD_twoPow]

lemma sigbit_and_eq_zero {a : Sigset} (ha : a &&& sigbit signo≠0) (hab : a &&& b=0) : sigbit signo &&& b=0 := by
  rw [and_eq_zero_iff] at hab ⊢
  intro i hi
  refine hab i ?_
  by_contra hai
  refine ha (and_eq_zero_iff.mpr fun j hj => ?_)
  by_contra hsj
  rw [getLsbD_sigbit] at hi hsj
  simp only [Bool.and_eq_true,decide_eq_true_eq,Bool.not_eq_false] at hi hsj
  exact hai (hi.2 ▸ hsj.2 ▸ hj)

lemma or_and_eq_zero {a d : Sigset} (ha : a &&& d=0) (hb : b &&& d=0) : (a ||| b) &&& d=0 := by
  rw [and_eq_zero_iff] at *
  intro i hi
  rw [BitVec.getLsbD_or,Bool.or_eq_true] at hi
  exact hi.elim (ha i) (hb i)
lemma and_and_eq_zero {a d : Sigset} (ha : a &&& d=0) : (a &&& b) &&& d=0 := by
  rw [and_eq_zero_iff] at *
  intro i hi
  rw [BitVec.getLsbD_and,Bool.and_eq_true] at hi
  exact ha i hi.1
lemma and_not_and_eq_zero (a b : Sigset) : (a &&& ~~~b) &&& b=0 := by
  rw [and_eq_zero_iff]
  intro i hi
  simp only [BitVec.getLsbD_and,BitVec.getLsbD_not,Bool.and_eq_true,Bool.not_eq_true'] at hi
  exact hi.2.2

lemma sigUnion_and_eq_zero {l : List ℕ} (h : ∀ n∈l,sigbit n &&& b=0) : sigUnion l &&& b=0 := by
  have hfold : ∀ (l : List ℕ) (acc : Sigset),acc &&& b=0 → (∀ n∈l,sigbit n &&& b=0) →
      l.foldl (fun acc n => acc ||| sigbit n) acc &&& b=0 := by
    intro l
    induction l with
    | nil => exact fun _ hacc _ => hacc
    | cons n l ih =>
      intro acc hacc hl
      exact ih _ (or_and_eq_zero hacc (hl n (mem_cons_self ..))) fun m hm => hl m (mem_cons_of_mem n hm)
  exact hfold l 0 (by simp) h

lemma sigbit_unblockable (hvalid : validSigno signo=true) (hkill : signo≠sigkill)
    (hstop : signo≠sigstop) : sigbit signo &&& unblockable=0 := by
  have hall : ∀ n∈List.range 32,validSigno n=true → n≠sigkill → n≠sigstop → sigbit n &&& unblockable=0 := by
    decide
  have hlt : 0<signo ∧ signo<nsig := of_decide_eq_true hvalid
  exact hall signo (mem_range.mpr hlt.2) hvalid hkill hstop

lemma handled_apart (x : Proc) : x.handled &&& x.sigMask=0 ∧ x.handled &&& unblockable=0 := by
  refine ⟨sigUnion_and_eq_zero fun n hn => ?_,sigUnion_and_eq_zero fun n hn => ?_⟩ <;>
    obtain ⟨hmem,hn⟩:=mem_filter.mp hn <;>
    obtain ⟨hdel,hkill,hstop,-⟩:=of_decide_eq_true hn
  · refine sigbit_and_eq_zero hdel ?_
    exact and_and_eq_zero (and_not_and_eq_zero x.sigPending x.sigMask)
  · refine sigbit_unblockable ?_ hkill hstop
    have hrange:=mem_range'_1.mp hmem
    exact decide_eq_true ⟨by omega,by simp only [nsig] at hrange ⊢; omega⟩

structure Proc.Unblocked (x : Proc) : Prop where
  mask : x.sigMask &&& unblockable=0
  ignored : x.sigIgnored &&& unblockable=0
  caught : x.sigCaught &&& unblockable=0
  kill : x.sigHandler sigkill=0
  stop : x.sigHandler sigstop=0

lemma Proc.Unblocked.congr {x y : Proc} (h : x.Unblocked) (heq : y.sigs=x.sigs) : y.Unblocked := by
  obtain ⟨h1,h2,h3,h4⟩ : y.sigCaught=x.sigCaught ∧ y.sigMask=x.sigMask ∧
      y.sigIgnored=x.sigIgnored ∧ y.sigHandler=x.sigHandler := by
    simpa only [Proc.sigs,Prod.mk.injEq] using heq
  constructor
  · rw [h2]; exact h.mask
  · rw [h3]; exact h.ignored
  · rw [h1]; exact h.caught
  · rw [h4]; exact h.kill
  · rw [h4]; exact h.stop

lemma zeroProc_unblocked : zeroProc.Unblocked := ⟨by decide,by decide,by decide,rfl,rfl⟩

section

variable {M : Type} {U : UserMem M} {idx : Chan → ℕ} {s t : System M} {a : SigAction M}

lemma sigStep_unblocked (h : ∀ i,(s.table.proc i).Unblocked)
    (hs : sigStep U idx s a=some t) (i : Slot) : (t.table.proc i).Unblocked := by
  have hi:=h i
  cases sigStep_sigs hs i with
  | table htable =>
    cases htable with
    | kept heq => exact hi.congr heq
    | cleared heq =>
      exact Proc.Unblocked.congr (x := zeroProc) zeroProc_unblocked heq
    | caught heq =>
      refine Proc.Unblocked.congr (x := { s.table.proc i with
        sigCaught := (s.table.proc i).sigCaught ||| (s.table.proc i).handled }) ?_ heq
      exact ⟨hi.mask,hi.ignored,or_and_eq_zero hi.caught (handled_apart _).2,hi.kill,hi.stop⟩
  | forked j heq =>
    refine Proc.Unblocked.congr (x := {s.table.proc j with sigCaught := 0}) ?_ heq
    exact ⟨(h j).mask,(h j).ignored,by simp,(h j).kill,(h j).stop⟩
  | action signo handler hvalid hkill hstop heq =>
    refine Proc.Unblocked.congr (x := (s.table.proc i).withHandler signo handler) ⟨hi.mask,?_,hi.caught,?_,?_⟩ heq
    · have hbit:=sigbit_unblockable hvalid hkill hstop
      unfold Proc.withHandler
      split_ifs
      · exact or_and_eq_zero hi.ignored hbit
      · exact and_and_eq_zero hi.ignored
    · exact (Function.update_of_ne (Ne.symm hkill) ..).trans hi.kill
    · exact (Function.update_of_ne (Ne.symm hstop) ..).trans hi.stop
  | masked c how setAddr oldsetAddr b mask ha hc hb hm heq =>
    refine Proc.Unblocked.congr (x := { s.table.proc i with
      sigMask := mask &&& ~~~unblockable }) ?_ heq
    exact ⟨and_not_and_eq_zero _ _,hi.ignored,hi.caught,hi.kill,hi.stop⟩
  | dropped signo heq =>
    refine Proc.Unblocked.congr (x := { s.table.proc i with
      sigCaught := (s.table.proc i).sigCaught &&& ~~~sigbit signo }) ?_ heq
    exact ⟨hi.mask,hi.ignored,and_and_eq_zero hi.caught,hi.kill,hi.stop⟩
  | entered c signo ha hc hfirst hhandler heq =>
    refine Proc.Unblocked.congr (x := (s.table.proc i).entered signo ((s.task i).sigActmask signo)) ?_ heq
    exact ⟨and_not_and_eq_zero _ _,hi.ignored,and_and_eq_zero hi.caught,hi.kill,hi.stop⟩
  | returned c b ha hc hb heq =>
    refine Proc.Unblocked.congr (x := { s.table.proc i with
      sigMask := (Sigframe.decode b).sfOldmask &&& ~~~unblockable }) ?_ heq
    exact ⟨and_not_and_eq_zero _ _,hi.ignored,hi.caught,hi.kill,hi.stop⟩

lemma run_unblocked {task : Slot → Task M} {as : List (SigAction M)}
    (h : run (sigStep U idx) (bootSystem task) as=some s) (i : Slot) : (s.table.proc i).Unblocked :=
  run_invariant (I := fun s : System M => ∀ i,(s.table.proc i).Unblocked)
    (fun _ _ _ hinv hst => sigStep_unblocked hinv hst)
    (fun _ => zeroProc_unblocked) h i

variable {p : Slot}

lemma PidInv.signalOnly {s : State} (h : PidInv s) {f : Proc → Proc}
    (hf : SignalOnly f) : PidInv (s.setProc p f) where
  sched := h.sched.signalOnly hf
  table := h.table.congr (keeps_setProc (congrArg (fun l => (l.1,l.2.2.1)) (hf _).1))
    fun i => by rw [setProc_field s p f Proc.state (hf _).2.1]
  next := h.next

def SigApart (s : System M) : SigAction M → Prop
  | .table a => SignalsApart s.table a
  | _ => True

lemma sigStep_pidInv (h : PidInv s.table) (hok : SigApart s a) (hs : sigStep U idx s a=some t) : PidInv t.table := by
  cases a with
  | table a => exact step_pidInv h hok (sigStep_table hs).2
  | forkCopy c =>
    obtain ⟨p,hc,hp⟩:=bind_eq_some_iff.mp hs
    obtain ⟨np,hnp,rfl⟩:=map_eq_some_iff.mp hp
    have hstep : step idx s.table (.forkCopy c)=some (forkCopy s.table p np) := by
      simp [step,State.current,State.forking,hc,hnp]
    exact step_pidInv (a := .forkCopy c) h trivial hstep
  | post c signo =>
    obtain ⟨p,-,rfl⟩:=System.current_eq_some hs
    exact h.signalOnly (f := fun x => {x with sigPending := x.sigPending ||| sigbit signo}) fun _ => ⟨rfl,rfl,rfl⟩
  | trapKill c =>
    obtain ⟨p,-,rfl⟩:=System.current_eq_some hs
    exact h.signalOnly (f := fun x => {x with killed := true}) fun _ => ⟨rfl,rfl,rfl⟩
  | sigaction c signo actAddr oldactAddr =>
    obtain ⟨p,-,rfl⟩:=System.current_eq_some hs
    rcases procSigaction_table (U := U) s p signo actAddr oldactAddr with heq | ⟨-,-,-,act,heq⟩
    · exact heq ▸ h
    · rw [heq,setAction_table]
      exact h.signalOnly fun _ => ⟨rfl,rfl,rfl⟩
  | sigprocmask c how setAddr oldsetAddr =>
    obtain ⟨p,-,rfl⟩:=System.current_eq_some hs
    rcases procSigprocmask_table (U := U) s p how setAddr oldsetAddr with heq | ⟨b,mask,-,-,heq⟩
    · exact heq ▸ h
    · rw [heq]
      exact h.signalOnly fun _ => ⟨rfl,rfl,rfl⟩
  | deliver c =>
    obtain ⟨p,-,rfl⟩:=System.current_eq_some hs
    rcases procDeliverSignal_table (U := U) s p with heq | ⟨signo,-,heq | ⟨-,f,hf,-,heq⟩⟩
    · exact heq ▸ h
    · rw [heq]
      exact h.signalOnly fun _ => ⟨rfl,rfl,rfl⟩
    rw [heq]
    have henter : PidInv (s.table.setProc p fun x =>
        x.entered signo ((s.task p).sigActmask signo)) := h.signalOnly fun _ => ⟨rfl,rfl,rfl⟩
    exact henter.signalOnly hf
  | sigreturn c =>
    obtain ⟨p,-,rfl⟩:=System.current_eq_some hs
    rcases syscallSigreturn_table (U := U) s p with heq | ⟨b,-,heq⟩
    · exact heq ▸ h
    · rw [heq]
      exact h.signalOnly fun _ => ⟨rfl,rfl,rfl⟩
  | user c tf mem sz =>
    obtain ⟨p,-,hp⟩:=bind_eq_some_iff.mp hs
    split_ifs at hp
    exact some.inj hp ▸ h

lemma killLoop_single {s : State} {cur : Option Slot} {pid : Int} {initHup : Bool}
    (hpid : 0<pid) (hp : killTarget s cur pid signo initHup p=true)
    (hone : ∀ i,killTarget s cur pid signo initHup i=true → i=p) {l : List Slot}
    (hmem : p∈l) : killLoop cur pid signo initHup l s=procNoteSignalLocked s p signo := by
  induction l with
  | nil => cases hmem
  | cons i rest ih =>
    unfold killLoop
    by_cases hi : killTarget s cur pid signo initHup i=true
    · rw [if_pos hi,if_pos hpid,hone i hi]
    rw [if_neg hi]
    rcases mem_cons.mp hmem with rfl | hmem
    · exact absurd hp hi
    · exact ih hmem

lemma note_sigkill (s : State) (p : Slot) : ((procNoteSignalLocked s p sigkill).proc p).killed=true ∧
      ((procNoteSignalLocked s p sigkill).proc p).state =
        if (s.proc p).state=.sleeping then .runnable else (s.proc p).state := by
  have heq : procNoteSignalLocked s p sigkill =
      let t:=(s.setProc p fun x => {x with sigPending := x.sigPending ||| sigbit sigkill}).setProc
        p fun x => {x with killed := true}
      if (t.proc p).state=.sleeping then t.makeRunnable p .signal else t := rfl
  rw [heq]
  by_cases hst : (s.proc p).state=.sleeping
  · simp [hst,State.makeRunnable]
  · simp [hst]

lemma PidInv.kill_eq {s : State} (h : PidInv s) (hinit : s.initproc≠some p)
    (hst : (s.proc p).state≠.unused) (cur : Option Slot) (initHup : Bool) :
    killWithSignal s cur (s.proc p).pid sigkill initHup=procNoteSignalLocked s p sigkill := by
  have hpos:=h.table.pos p hst
  have htarget : ∀ i,killTarget s cur (s.proc p).pid sigkill initHup i=true ↔
      (s.proc i).state≠.unused ∧ (s.proc i).pid≠0 ∧ s.initproc≠some i ∧ (s.proc i).pid=(s.proc p).pid := by
    simp [killTarget,hpos,sigkill,sighup,and_assoc]
  unfold killWithSignal
  rw [if_neg (by decide)]
  refine killLoop_single hpos ((htarget p).mpr ⟨hst,by omega,hinit,rfl⟩) (fun i hi => ?_) (mem_finRange p)
  obtain ⟨hused,-,-,hpid⟩:=(htarget i).mp hi
  by_contra hne
  exact hused (h.table.pids i p hne hst hpid).1

/-- `SIGKILL` and `SIGSTOP` cannot be blocked, ignored or handled. A `SIGKILL` for a process
that is not init, `UNUSED` or `ZOMBIE` marks it killed, and leaves it neither asleep nor
stopped exactly if it is not `STOPPED`. -/
theorem sigkill_acts_unless_stopped (U : UserMem M) (idx : Chan → ℕ) (task : Slot → Task M)
    (as : List (SigAction M)) (s : System M) (h : run (sigStep U idx) (bootSystem task) as=some s) :
    (∀ i,(s.table.proc i).Unblocked) ∧ (Guarded (sigStep U idx) SigApart (bootSystem task) as →
      ∀ (p : Slot) (cur : Option Slot) (initHup : Bool),s.table.initproc≠some p →
        (s.table.proc p).state≠.unused → (s.table.proc p).state≠.zombie →
        (((killWithSignal s.table cur (s.table.proc p).pid sigkill initHup).proc p).killed=true ∧
          ((killWithSignal s.table cur (s.table.proc p).pid sigkill initHup).proc p).state ∉
            [ProcState.sleeping,.stopped] ↔ (s.table.proc p).state≠.stopped)) := by
  refine ⟨run_unblocked h,fun hok p cur initHup hinit hused _ => ?_⟩
  have hinv : PidInv s.table :=
    run_guarded (I := fun s : System M => PidInv s.table)
      (fun _ _ _ hs hok hst => sigStep_pidInv hs hok hst) zeroState_pidInv hok h
  obtain ⟨hkilled,hst⟩:=note_sigkill s.table p
  rw [hinv.kill_eq hinit hused,hkilled,hst]
  by_cases hsleep : (s.table.proc p).state=.sleeping
  · simp [hsleep]
  · simp [hsleep]

end

def flatMem : UserMem (List Byte) where
  copyin m _ n := some (m.take n)
  copyout m _ _ := (true,m)

def idleTask : Task (List Byte) where
  sigActmask := fun _ => 0
  sigActflags := fun _ => 0
  tf := ⟨0,0,0,0,0,0,0,0,flIf,0x2000⟩
  mem := []
  sz := 0x3000

def forkChild : List (SigAction (List Byte)) :=
  [.table .userinit,.table (.dispatch 0),.table (.forkAlloc 0),.forkCopy 0,
    .table (.forkPublish 0),.table (.dispatch 1)]

abbrev flatRun : List (SigAction (List Byte)) → Option (System (List Byte)) :=
  run (sigStep flatMem fun _ => 0) (bootSystem fun _ => idleTask)

lemma forkChild_guarded : Guarded (sigStep flatMem fun _ => 0) SigApart (bootSystem fun _ => idleTask) forkChild := by
  refine guarded_of_forall fun a ha s => ?_
  fin_cases ha <;> trivial

theorem sigkill_acts_forkChild : ∃ s,flatRun forkChild=some s ∧ (∀ i,(s.table.proc i).Unblocked) ∧
      ((killWithSignal s.table (s.table.cpu 0) (s.table.proc childSlot).pid sigkill false).proc
        childSlot).killed=true := by
  obtain ⟨s,hs,hinit,hst⟩ : ∃ s,flatRun forkChild=some s ∧ s.table.initproc≠some childSlot ∧
      (s.table.proc childSlot).state=.running := by
    decide +kernel
  obtain ⟨hall,hkill⟩:=sigkill_acts_unless_stopped flatMem (fun _ => 0) _ _ s hs
  refine ⟨s,hs,hall,?_⟩
  have hiff:=hkill forkChild_guarded childSlot (s.table.cpu 0) false hinit (by simp [hst]) (by simp [hst])
  exact (hiff.mpr (by simp [hst])).1

theorem sigkill_leaves_stopped : ∃ s,flatRun (forkChild ++
      [.table (.kill 0 2 sigtstp false),.table (.applySignals 1),.table (.maybeStop 1)])=some s ∧
    s.table.initproc≠some childSlot ∧ (s.table.proc childSlot).pid=2 ∧ (s.table.proc childSlot).state=.stopped ∧
    ((killWithSignal s.table (s.table.cpu 0) 2 sigkill false).proc childSlot).state=.stopped := by
  decide +kernel

section

variable {M : Type} {U : UserMem M} {idx : Chan → ℕ} {s t : System M} {a : SigAction M}

/-- No step masks a signal that is already caught: not the set given to `sigprocmask`, not the
mask of the handler entered, and not the mask that `sigreturn` reads from the frame. -/
def MasksApart (U : UserMem M) (s : System M) : SigAction M → Prop
  | .sigprocmask c how setAddr _ => ∀ p b,s.table.cpu c=some p →
      U.copyin (s.task p).mem setAddr 4=some b → how=0 ∨ how=2 → (s.table.proc p).sigCaught &&& wordAt b 0=0
  | .deliver c => ∀ p signo,s.table.cpu c=some p → (s.table.proc p).firstCaught=some signo →
      1<(s.table.proc p).sigHandler signo →
        (s.table.proc p).sigCaught &&& ~~~sigbit signo &&& (s.task p).sigActmask signo=0
  | .sigreturn c => ∀ p b,s.table.cpu c=some p → U.copyin (s.task p).mem ((s.task p).tf.esp-4) sigframeSize=some b →
        (s.table.proc p).sigCaught &&& (Sigframe.decode b).sfOldmask=0
  | _ => True

lemma and_comm_eq_zero {a : Sigset} (h : a &&& b=0) : b &&& a=0 := by
  rwa [BitVec.and_comm]

def CaughtUnblocked (s : System M) : Prop := ∀ i,(s.table.proc i).sigCaught &&& (s.table.proc i).sigMask=0

lemma newMask_apart {how : Int} {old set mask caught : Sigset} (hm : newMask how old set=some mask)
    (hold : caught &&& old=0) (hset : how=0 ∨ how=2 → caught &&& set=0) : caught &&& mask=0 := by
  unfold newMask at hm
  split_ifs at hm with h0 h1 h2
  · rw [← some.inj hm]
    exact and_comm_eq_zero (or_and_eq_zero (and_comm_eq_zero hold) (and_comm_eq_zero (hset (.inl h0))))
  · rw [← some.inj hm]
    exact and_comm_eq_zero (and_and_eq_zero (and_comm_eq_zero hold))
  · exact some.inj hm ▸ hset (.inr h2)

lemma sigStep_caughtUnblocked (h : CaughtUnblocked s) (hok : MasksApart U s a)
    (hs : sigStep U idx s a=some t) : CaughtUnblocked t := by
  intro i
  -- both sets are functions of the signal fields
  have hset : ∀ {caught mask : Sigset} {rest : Sigset × (ℕ → ℕ)},
      (t.table.proc i).sigs=(caught,mask,rest) → caught &&& mask=0 →
        (t.table.proc i).sigCaught &&& (t.table.proc i).sigMask=0 := by
    intro caught mask rest heq hand
    obtain ⟨h1,h2,-⟩ : (t.table.proc i).sigCaught=caught ∧ (t.table.proc i).sigMask=mask ∧
        (t.table.proc i).sigs.2.2=rest := by
      rw [heq]
      exact ⟨congrArg (·.1) heq,congrArg (·.2.1) heq,rfl⟩
    rwa [h1,h2]
  have hmask : ∀ {a b : Sigset},a &&& b=0 → a &&& (b &&& ~~~unblockable)=0 := fun hab =>
    and_comm_eq_zero (and_and_eq_zero (and_comm_eq_zero hab))
  cases sigStep_sigs hs i with
  | table htable =>
    cases htable with
    | kept heq => exact hset heq (h i)
    | cleared heq => exact hset heq (by decide)
    | caught heq => exact hset heq (or_and_eq_zero (h i) (handled_apart _).1)
  | forked j heq => exact hset heq (by simp)
  | action signo handler hvalid hkill hstop heq => exact hset heq (h i)
  | masked c how setAddr oldsetAddr b mask ha hc hb hm heq =>
    subst ha
    exact hset heq (hmask (newMask_apart hm (h i) (hok i b hc hb)))
  | dropped signo heq => exact hset heq (and_and_eq_zero (h i))
  | entered c signo ha hc hfirst hhandler heq =>
    subst ha
    refine hset heq (hmask (and_comm_eq_zero (or_and_eq_zero (or_and_eq_zero ?_ ?_) ?_)))
    · exact and_comm_eq_zero (and_and_eq_zero (h i))
    · exact and_comm_eq_zero (hok i signo hc hfirst hhandler)
    · exact and_comm_eq_zero (and_not_and_eq_zero _ _)
  | returned c b ha hc hb heq =>
    subst ha
    exact hset heq (hmask (hok i b hc hb))

def DeliversUnblocked (U : UserMem M) (s : System M) (p : Slot) : Prop :=
  (procDeliverSignal U s p).1=true → ∃ signo,(s.table.proc p).firstCaught=some signo ∧
    ((procDeliverSignal U s p).2.task p).tf.eip=BitVec.ofNat 32 ((s.table.proc p).sigHandler signo) ∧
    (s.table.proc p).sigMask &&& sigbit signo=0

lemma caughtUnblocked_delivers (h : CaughtUnblocked s) (p : Slot) : DeliversUnblocked U s p := by
  intro hdel
  obtain ⟨signo,hfirst,htask⟩:=procDeliverSignal_true hdel
  refine ⟨signo,hfirst,by rw [htask],?_⟩
  exact and_comm_eq_zero (sigbit_and_eq_zero (by simpa using List.find?_some hfirst) (h p))

/-- In every run whose steps mask no caught signal, no handler is entered for a blocked one. -/
theorem deliver_respects_mask (U : UserMem M) (idx : Chan → ℕ) (task : Slot → Task M)
    (as : List (SigAction M)) (s : System M) (hok : Guarded (sigStep U idx) (MasksApart U) (bootSystem task) as)
    (h : run (sigStep U idx) (bootSystem task) as=some s) (p : Slot) : DeliversUnblocked U s p :=
  caughtUnblocked_delivers (run_guarded (fun _ _ _ hinv hok hst => sigStep_caughtUnblocked hinv hok hst)
    (I := CaughtUnblocked) (fun _ => by simp [bootSystem,zeroState,zeroProc]) hok h) p

end

def catchTwo : List (SigAction (List Byte)) :=
  forkChild++[.user 1 idleTask.tf (wordBytes 0x1000++wordBytes (sigbit 12)++wordBytes 0) 0x3000,
    .sigaction 1 10 4 0,.sigaction 1 12 4 0,
    .table (.kill 0 2 10 false),.table (.kill 0 2 12 false),.table (.applySignals 1)]

lemma catchTwo_guarded : Guarded (sigStep flatMem fun _ => 0) (MasksApart flatMem)
    (bootSystem fun _ => idleTask) catchTwo := by
  refine guarded_of_forall fun a ha s => ?_
  fin_cases ha <;> trivial

theorem deliver_respects_mask_catchTwo : ∃ s,flatRun catchTwo=some s ∧
      (procDeliverSignal flatMem s childSlot).1=true ∧ DeliversUnblocked flatMem s childSlot := by
  obtain ⟨s,hs,hdel⟩ : ∃ s,flatRun catchTwo=some s ∧ (procDeliverSignal flatMem s childSlot).1=true := by
    decide +kernel
  exact ⟨s,hs,hdel,deliver_respects_mask flatMem _ _ _ s catchTwo_guarded hs childSlot⟩

theorem deliver_enters_blocked : ∃ s,flatRun (catchTwo++[.deliver 1])=some s ∧
      (procDeliverSignal flatMem s childSlot).1=true ∧
      (s.table.proc childSlot).firstCaught=some 12 ∧ (s.table.proc childSlot).sigMask &&& sigbit 12≠0 := by
  decide +kernel

end Auxv6.Process

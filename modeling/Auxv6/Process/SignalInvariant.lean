import Auxv6.Process.Signals
import Auxv6.Process.PidInvariant

/-!
# The signal fields of a process

What one step does to the caught signals, the mask, the ignored set and the handlers of a process.
-/

namespace Auxv6.Process
open Machine Lib Option

def Proc.sigs (x : Proc) : Sigset × Sigset × Sigset × (ℕ → ℕ) := (x.sigCaught,x.sigMask,x.sigIgnored,x.sigHandler)

lemma sigs_blind : Blind Proc.sigs := fun _ _ _ _ _ _ _ _ _ _ _ => rfl

inductive TableSigs (x y : Proc) : Prop where
  | kept (h : y.sigs=x.sigs)
  | cleared (h : y.sigs=(0,0,0,fun _ => 0))
  | caught (h : y.sigs=(x.sigCaught ||| x.handled,x.sigMask,x.sigIgnored,x.sigHandler))

def Action.setsSignals : Action → Bool
  | .forkCopy _ => true
  | .setSignals _ _ _ _ _ _ _ _ => true
  | _ => false

section

variable {idx : Chan → ℕ} {s t : State} {a : Action} {c : ℕ} {p cur : Slot}

lemma Keeps.tableSigs (h : Keeps Proc.sigs s t) (i : Slot) : TableSigs (s.proc i) (t.proc i) := .kept (h i)

lemma allocproc_sigs {o : Option Slot} (hs : allocproc s=some (o,t)) (i : Slot) :
    TableSigs (s.proc i) (t.proc i) := by
  rcases allocproc_cases hs with ⟨-,rfl⟩ | ⟨np,pid,next,-,-,-,-,-,rfl⟩
  · exact .kept rfl
  by_cases hi : i=np
  · subst hi
    exact .cleared (congrArg Proc.sigs (setProc_self s i (Proc.allocated pid)))
  · exact .kept (congrArg Proc.sigs (setProc_of_ne s (Proc.allocated pid) hi))

lemma TableSigs.then_keeps {i : Slot} {u : State} (h : TableSigs (s.proc i) (t.proc i))
    (h' : Keeps Proc.sigs t u) : TableSigs (s.proc i) (u.proc i) := by
  cases h with
  | kept h => exact .kept ((h' i).trans h)
  | cleared h => exact .cleared ((h' i).trans h)
  | caught h => exact .caught ((h' i).trans h)

lemma applySignals_sigs (s : State) (p i : Slot) : TableSigs (s.proc i) ((procApplyPendingSignals s p).proc i) := by
  have hrest:=sigs_blind.signal.applySignals s p i
  by_cases hi : i=p
  · subst hi
    rw [setProc_self] at hrest
    exact .caught hrest
  · rw [setProc_of_ne s _ hi] at hrest
    exact .kept hrest

lemma step_sigs (ha : a.setsSignals=false) (hs : step idx s a=some t) (i : Slot) :
    TableSigs (s.proc i) (t.proc i) := by
  have hset : ∀ {p : Slot} {f : Proc → Proc},(∀ x,(f x).sigs=x.sigs) →
      TableSigs (s.proc i) ((s.setProc p f).proc i) := fun hf => (keeps_setProc (hf _)).tableSigs i
  cases step_stepsTo hs with
  | userinit _ hal =>
    exact (allocproc_sigs hal i).then_keeps (sigs_blind.signal.makeRunnable _ _ .fork)
  | forkAlloc _ _ hal => exact (allocproc_sigs hal i).then_keeps (keeps_setProc rfl)
  | forkUndo _ _ => exact (sigs_blind.forkUndo s _ _).tableSigs i
  | forkCopy | setSignals => cases ha
  | forkPublish _ _ => exact (sigs_blind.forkPublish s _ _).tableSigs i
  | dispatch _ hs =>
    rcases sigs_blind.dispatch hs i with h | ⟨-,h⟩
    · exact .kept h
    · exact .cleared h
  | yield _ => exact (sigs_blind.yield s _ _).tableSigs i
  | sleep _ => exact (sigs_blind.sleepOn s _ _ _ _).tableSigs i
  | wakeup => exact (sigs_blind.wakeup1 s _).tableSigs i
  | kill => exact (sigs_blind.signal.kill s _ _ _ _).tableSigs i
  | signalPgid => exact (sigs_blind.signal.signalPgid s _ _).tableSigs i
  | applySignals _ => exact applySignals_sigs s _ i
  | checkAlarms => exact (sigs_blind.signal.checkAlarms (fun _ _ _ => rfl) s _).tableSigs i
  | boost =>
    rw [boost_proc]
    exact .kept rfl
  | timerCharge _ | tick | setBoostInterval | refused => exact .kept rfl
  | exit => exact (sigs_blind.exits (fun _ _ => rfl) s _ _ _ _).tableSigs i
  | waitpid _ ht =>
    rcases sigs_blind.waits ht i with h | ⟨-,h⟩
    · exact .kept h
    · exact .cleared (congrArg Proc.sigs h)
  | setAlarm _ => exact (keeps_setAlarm (fun _ _ _ => rfl) s _ _ _).tableSigs i
  | maybeStop => exact hset (f := Proc.suspended) fun _ => rfl
  | setpgid | setsid => exact hset fun _ => rfl

end

def Proc.withHandler (x : Proc) (signo : ℕ) (handler : Word) : Proc :=
  { x with
    sigHandler := Function.update x.sigHandler signo handler.toNat
    sigIgnored := if handler=1 then x.sigIgnored ||| sigbit signo
      else x.sigIgnored &&& ~~~sigbit signo }

section

variable {M : Type} {U : UserMem M} {idx : Chan → ℕ} {s t : System M} {a : SigAction M} {c : ℕ} {p : Slot}

inductive SigsStep (U : UserMem M) (s : System M) (a : SigAction M) (i : Slot) (y : Proc) :
    Prop where
  | table (h : TableSigs (s.table.proc i) y)
  | forked (j : Slot) (h : y.sigs=(0,(s.table.proc j).sigs.2))
  | action (signo : ℕ) (handler : Word) (hvalid : validSigno signo=true)
      (hkill : signo≠sigkill) (hstop : signo≠sigstop)
      (h : y.sigs=((s.table.proc i).withHandler signo handler).sigs)
  | masked (c : ℕ) (how : Int) (setAddr oldsetAddr : Word) (b : List Byte) (mask : Sigset)
      (ha : a=.sigprocmask c how setAddr oldsetAddr) (hc : s.table.cpu c=some i)
      (hb : U.copyin (s.task i).mem setAddr 4=some b)
      (hm : newMask how (s.table.proc i).sigMask (wordAt b 0)=some mask)
      (h : y.sigs=((s.table.proc i).sigCaught,mask &&& ~~~unblockable,(s.table.proc i).sigs.2.2))
  | dropped (signo : ℕ)
      (h : y.sigs=((s.table.proc i).sigCaught &&& ~~~sigbit signo,(s.table.proc i).sigs.2))
  | entered (c signo : ℕ) (ha : a=.deliver c) (hc : s.table.cpu c=some i)
      (hfirst : (s.table.proc i).firstCaught=some signo)
      (hhandler : 1<(s.table.proc i).sigHandler signo)
      (h : y.sigs=((s.table.proc i).entered signo ((s.task i).sigActmask signo)).sigs)
  | returned (c : ℕ) (b : List Byte) (ha : a=.sigreturn c) (hc : s.table.cpu c=some i)
      (hb : U.copyin (s.task i).mem ((s.task i).tf.esp-4) sigframeSize=some b)
      (h : y.sigs=((s.table.proc i).sigCaught,(Sigframe.decode b).sfOldmask &&& ~~~unblockable,
        (s.table.proc i).sigs.2.2))

lemma System.current_eq_some {f : Slot → System M} (h : s.current c f=some t) : ∃ p,s.table.cpu c=some p ∧ f p=t :=
  map_eq_some_iff.mp h

lemma sigStep_table {a : Action} (h : sigStep U idx s (.table a)=some t) :
    a.setsSignals=false ∧ step idx s.table a=some t.table := by
  have hstep : ∀ {a : Action},((step idx s.table a).map fun t' =>
      (⟨t',syncTask s.table t' s.task⟩ : System M))=some t → step idx s.table a=some t.table := by
    intro a ha
    obtain ⟨t',ht',rfl⟩:=map_eq_some_iff.mp ha
    exact ht'
  cases a with
  | forkCopy c => cases h
  | setSignals c pending caught mask ignored handler killed xstatus => cases h
  | _ => exact ⟨rfl,hstep h⟩

@[simp] lemma copyOld_table (s : System M) (p : Slot) (addr : Word) (old : List Byte) :
    (copyOld U s p addr old).2.table=s.table := by
  unfold copyOld
  split_ifs <;> rfl
lemma setAction_table (s : System M) (p : Slot) (signo : ℕ) (act : List Byte) :
    (setAction s p signo act).table=s.table.setProc p fun x => x.withHandler signo (wordAt act 0) := rfl

lemma procSigaction_table (s : System M) (p : Slot) (signo : ℕ) (actAddr oldactAddr : Word) :
    (procSigaction U s p signo actAddr oldactAddr).2.table=s.table ∨
      validSigno signo=true ∧ signo≠sigkill ∧ signo≠sigstop ∧
        ∃ act,(procSigaction U s p signo actAddr oldactAddr).2.table=(setAction s p signo act).table := by
  unfold procSigaction
  by_cases hvalid : validSigno signo=true
  · rw [if_neg (not_not.mpr hvalid)]
    by_cases hact : actAddr=0
    · rw [if_pos hact]
      exact .inl (copyOld_table ..)
    rw [if_neg hact]
    cases U.copyin (s.task p).mem actAddr 12 with
    | none => exact .inl rfl
    | some act =>
      split_ifs with hkill
      · exact .inl rfl
      · exact .inr ⟨hvalid,fun h => hkill (.inl h),fun h => hkill (.inr h),act,copyOld_table ..⟩
  · rw [if_pos hvalid]
    exact .inl rfl

lemma procSigprocmask_table (s : System M) (p : Slot) (how : Int) (setAddr oldsetAddr : Word) :
    (procSigprocmask U s p how setAddr oldsetAddr).2.table=s.table ∨
      ∃ b mask,U.copyin (s.task p).mem setAddr 4=some b ∧
        newMask how (s.table.proc p).sigMask (wordAt b 0)=some mask ∧
        (procSigprocmask U s p how setAddr oldsetAddr).2.table =
          s.table.setProc p fun x => {x with sigMask := mask &&& ~~~unblockable} := by
  unfold procSigprocmask
  dsimp only
  split_ifs
  · exact .inl (copyOld_table ..)
  split
  · exact .inl rfl
  rename_i b hb
  split
  · exact .inl rfl
  · rename_i mask hm
    exact .inr ⟨b,mask,hb,hm,copyOld_table ..⟩

lemma procDeliverSignal_table (s : System M) (p : Slot) : (procDeliverSignal U s p).2.table=s.table ∨
    ∃ signo,(s.table.proc p).firstCaught=some signo ∧ ((procDeliverSignal U s p).2.table =
          s.table.setProc p (fun x => {x with sigCaught := x.sigCaught &&& ~~~sigbit signo}) ∨
        1<(s.table.proc p).sigHandler signo ∧ ∃ f,SignalOnly f ∧ (∀ x,(f x).sigs=x.sigs) ∧
          (procDeliverSignal U s p).2.table=(s.table.setProc p fun x =>
            x.entered signo ((s.task p).sigActmask signo)).setProc p f) := by
  unfold procDeliverSignal
  dsimp only
  cases hfirst : (s.table.proc p).firstCaught with
  | none => exact .inl rfl
  | some signo =>
    refine .inr ⟨signo,rfl,?_⟩
    dsimp only
    by_cases hh : (s.table.proc p).sigHandler signo≤1
    · rw [if_pos hh]
      exact .inl rfl
    rw [if_neg hh]
    refine .inr ⟨by omega,?_⟩
    have hfailed : SignalOnly (Proc.failed signo) := fun _ => ⟨rfl,rfl,rfl⟩
    split_ifs
    · exact ⟨Proc.failed signo,hfailed,fun _ => rfl,rfl⟩
    · refine ⟨id,fun _ => ⟨rfl,rfl,rfl⟩,fun _ => rfl,?_⟩
      rw [setProc_setProc]
      rfl
    · exact ⟨Proc.failed signo,hfailed,fun _ => rfl,rfl⟩

lemma procDeliverSignal_true (h : (procDeliverSignal U s p).1=true) :
    ∃ signo,(s.table.proc p).firstCaught=some signo ∧ (procDeliverSignal U s p).2.task p = { s.task p with
        mem := (U.copyout (s.task p).mem (frameSp (s.task p).tf)
          (sigframeOf (s.table.proc p) (s.task p).tf signo (frameSp (s.task p).tf)).encode).2
        tf := { (s.task p).tf with
          eip := BitVec.ofNat 32 ((s.table.proc p).sigHandler signo)
          esp := frameSp (s.task p).tf } } := by
  unfold procDeliverSignal at h ⊢
  dsimp only at h ⊢
  cases hfirst : (s.table.proc p).firstCaught with
  | none =>
    rw [hfirst] at h
    cases h
  | some signo =>
    rw [hfirst] at h
    dsimp only at h ⊢
    split_ifs at h ⊢
    exact ⟨signo,rfl,by simp [System.setTask,System.setProc]⟩

lemma syscallSigreturn_table (s : System M) (p : Slot) : (syscallSigreturn U s p).table=s.table ∨
      ∃ b,U.copyin (s.task p).mem ((s.task p).tf.esp-4) sigframeSize=some b ∧
        (syscallSigreturn U s p).table=s.table.setProc p fun x =>
          {x with sigMask := (Sigframe.decode b).sfOldmask &&& ~~~unblockable} := by
  unfold syscallSigreturn sysSigreturn
  dsimp only
  split
  · exact .inl rfl
  · rename_i b hb
    exact .inr ⟨b,hb,rfl⟩

lemma sigStep_sigs (h : sigStep U idx s a=some t) (i : Slot) : SigsStep U s a i (t.table.proc i) := by
  have hsame : ∀ {u : State},u=s.table → SigsStep U s a i (u.proc i) := fun hu => .table (.kept (by rw [hu]))
  -- the current process is the only one that changes
  have hcur : ∀ {p : Slot} {f : Proc → Proc} {u : State},u=s.table.setProc p f →
      (i=p → SigsStep U s a i (f (s.table.proc i))) → SigsStep U s a i (u.proc i) := by
    intro p f u hu hp
    rw [hu]
    by_cases hi : i=p
    · subst hi
      rw [setProc_self]
      exact hp rfl
    · rw [setProc_of_ne _ _ hi]
      exact .table (.kept rfl)
  cases a with
  | table a =>
    obtain ⟨ha,hs⟩:=sigStep_table h
    exact .table (step_sigs ha hs i)
  | forkCopy c =>
    obtain ⟨p,-,hp⟩:=bind_eq_some_iff.mp h
    obtain ⟨np,-,rfl⟩:=map_eq_some_iff.mp hp
    exact hcur (f := Proc.forked p (s.table.proc p)) rfl fun _ => .forked p rfl
  | post c signo =>
    obtain ⟨p,-,rfl⟩:=System.current_eq_some h
    exact hcur (f := fun x => {x with sigPending := x.sigPending ||| sigbit signo}) rfl fun _ => .table (.kept rfl)
  | trapKill c =>
    obtain ⟨p,-,rfl⟩:=System.current_eq_some h
    exact hcur (f := fun x => {x with killed := true}) rfl fun _ => .table (.kept rfl)
  | sigaction c signo actAddr oldactAddr =>
    obtain ⟨p,-,rfl⟩:=System.current_eq_some h
    rcases procSigaction_table (U := U) s p signo actAddr oldactAddr with heq | ⟨hvalid,hkill,hstop,act,heq⟩
    · exact hsame heq
    · rw [setAction_table] at heq
      exact hcur heq fun _ => .action signo (wordAt act 0) hvalid hkill hstop rfl
  | sigprocmask c how setAddr oldsetAddr =>
    obtain ⟨p,hc,rfl⟩:=System.current_eq_some h
    rcases procSigprocmask_table (U := U) s p how setAddr oldsetAddr with heq | ⟨b,mask,hb,hm,heq⟩
    · exact hsame heq
    · refine hcur heq fun hi => ?_
      subst hi
      exact .masked c how setAddr oldsetAddr b mask rfl hc hb hm rfl
  | deliver c =>
    obtain ⟨p,hc,rfl⟩:=System.current_eq_some h
    rcases procDeliverSignal_table (U := U) s p with heq | ⟨signo,hfirst,heq | ⟨hhandler,f,-,hf,heq⟩⟩
    · exact hsame heq
    · exact hcur heq fun _ => .dropped signo rfl
    rw [setProc_setProc] at heq
    refine hcur heq fun hi => ?_
    subst hi
    exact .entered c signo rfl hc hfirst hhandler (hf _)
  | sigreturn c =>
    obtain ⟨p,hc,rfl⟩:=System.current_eq_some h
    rcases syscallSigreturn_table (U := U) s p with heq | ⟨b,hb,heq⟩
    · exact hsame heq
    · refine hcur heq fun hi => ?_
      subst hi
      exact .returned c b rfl hc hb rfl
  | user c tf mem sz =>
    obtain ⟨p,-,hp⟩:=bind_eq_some_iff.mp h
    split_ifs at hp
    rw [← some.inj hp]
    exact hsame rfl

end

end Auxv6.Process

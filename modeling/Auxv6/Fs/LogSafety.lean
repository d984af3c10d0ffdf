import Auxv6.Fs.LogOps

/-! # The log is atomic across crashes -/

namespace Auxv6.Fs.Log
open Lib Lib.Transition List Transition

variable {start size : ℕ} {S0 : ℕ → Block} {s t : State}

variable (start size) in
/-- A system call edits home blocks, logs at most `MAXOPBLOCKS` different ones, and does not
log a block again while the log is full. -/
def Sound (s : State) : Action → Prop
  | .edit _ b _ => Home start size b
  | .logCheck i => ∀ b logged,s.ops[i]? = some ⟨.editing b,logged⟩ →
      (insert b logged).card ≤ maxOpBlocks ∧ (b∈s.header → s.n<logSize)
  | _ => True

lemma LogInv.step (hsize : logSize<size) (h : LogInv start size S0 s) {a : Action}
    (hok : Sound start size s a) (hs : Log.step start size s a=some t) : LogInv start size S0 t := by
  cases a with
  | beginOp => exact h.beginOp hs
  | edit i b data => exact h.edit hok hs
  | logCheck i => exact h.logCheck (fun b logged hi => (hok b logged hi).1) hs
  | logAppend i => exact h.logAppend hs
  | endOp i => exact h.endOp hs
  | read b =>
    simp only [Log.step] at hs
    split_ifs at hs with hp
    cases hs
    exact h.read (by simpa using hp)
  | evict b =>
    simp only [Log.step] at hs
    split_ifs at hs with hd
    cases hs
    simp only [Bool.or_eq_true,not_or,Bool.not_eq_true] at hd
    exact h.evict hd.1
  | advance => exact h.advance hsize hs
  | crash =>
    cases hs
    exact powerOn_logInv h.covers h.headSmall h.returned

variable (start size S0) in
structure LogSafe (s : State) : Prop where
  /-- Outside a commit the home blocks are those after the committed groups. -/
  home : s.phase=.ready → ∀ b,Home start size b → s.disk b=Redo.applyAll s.groups S0 b
  returned : s.returned <+: s.groups
  whole : s.phase≠.ready → ∀ op∈s.ops,op.stage=.done
  /-- After a crash here the recovery comes to its end, at the committed groups. -/
  recovers : ∃ m t,run (Log.step start size) s (.crash::replicate m .advance)=some t ∧
    t.phase=.ready ∧ t.groups=s.groups ∧ ∀ b,Home start size b → t.disk b=Redo.applyAll s.groups S0 b
  space : ∀ (i b : ℕ) (logged : Finset ℕ),s.ops[i]? = some ⟨.editing b,logged⟩ →
    (insert b logged).card ≤ maxOpBlocks → (b∈s.header → s.n<logSize) → logWritePanics size s=false

lemma LogInv.home_ready (h : LogInv start size S0 s) (hp : s.phase=.ready) :
    ∀ b,Home start size b → s.disk b=Redo.applyAll s.groups S0 b := by
  have ho : Open start size s := by simpa [hp,PhaseInv] using h.phase
  exact h.home_stable ho.head

lemma LogInv.quiet (h : LogInv start size S0 s) (hp : s.phase≠.ready) : Quiet s := by
  have hph:=h.phase
  cases hs : s.phase with
  | ready => exact absurd hs hp
  | writeLog tail => rw [hs] at hph; exact hph.2.1
  | install tail boot => rw [hs] at hph; exact hph.1
  | returning => rw [hs] at hph; exact hph.1
  | readHead => rw [hs] at hph; exact hph.1

variable (start size) in
lemma install_completes (k : ℕ) {tail : ℕ} (hp : s.phase=.install tail true)
    (hk : s.n=tail+k) : ∃ t,run (Log.step start size) s
      (replicate (k+1) .advance)=some t ∧ t.phase=.ready ∧ t.groups=s.groups := by
  induction k generalizing s tail with
  | zero =>
    have hs : Log.advance start s=some { writeHead start {s with n := 0} with phase := .ready } := by
      simp [Log.advance,hp,hk]
    exact ⟨_,congrArg (Option.bind · some) hs,rfl,rfl⟩
  | succ k ih =>
    have hs : Log.advance start s=some { copyBlock s (start+tail+1) (s.block tail) with
        phase := .install (tail+1) true } := by
      simp [Log.advance,hp,hk]
    obtain ⟨t,ht,hready,hgroups⟩:=ih (s := { copyBlock s (start+tail+1) (s.block tail) with
      phase := .install (tail+1) true }) rfl (show s.n = _ by omega)
    refine ⟨t,?_,hready,hgroups⟩
    rw [replicate_succ,run]
    show (Log.advance start s).bind _ = _
    rw [hs]
    exact ht

variable (start size) in
lemma crash_recovers (s : State) : ∃ m t,run (Log.step start size) s
    (.crash::replicate m .advance)=some t ∧ t.phase=.ready ∧ t.groups=s.groups := by
  obtain ⟨t,ht,hready,hgroups⟩:=install_completes start size (s.disk start 0) (s := { Log.readHead start
      {powerOn s.disk with groups := s.groups,returned := s.returned} with
      phase := .install 0 true }) rfl (by simp [Log.readHead,powerOn,State.bread,State.buf])
  refine ⟨s.disk start 0+2,t,?_,hready,hgroups⟩
  rw [replicate_succ]
  exact ht

section
variable (hsize : logSize<size) (h : LogInv start size S0 s)
include hsize h

lemma LogInv.run {as : List Action} (hok : Guarded (Log.step start size) (Sound start size) s as)
    (hrun : run (Log.step start size) s as=some t) : LogInv start size S0 t :=
  run_guarded (fun _ _ _ h hok hs => h.step hsize hok hs) h hok hrun

lemma LogInv.space {i b : ℕ} {logged : Finset ℕ}
    (hi : s.ops[i]? = some ⟨.editing b,logged⟩) (hfit : (insert b logged).card ≤ maxOpBlocks)
    (hfull : b∈s.header → s.n<logSize) : logWritePanics size s=false := by
  obtain ⟨_,ho⟩:=h.phase_ready hi (by simp)
  have hactive:=sum_map_set Op.active hi ⟨.done,logged⟩
  have hone : (⟨.editing b,logged⟩ : Op).active=1 := rfl
  have hcount:=ho.count
  have hn : s.n<logSize := by
    by_cases hb : b∈s.header
    · exact hfull hb
    -- the call has reserved room for a block it has not logged yet
    have hb : b∉logged := fun hm => hb (ho.logged _ (mem_of_getElem? hi) (by simp) b hm)
    rw [Finset.card_insert_of_notMem hb] at hfit
    have hsum:=sum_map_set Op.spare hi ⟨.done,logged⟩
    have hspare : (⟨.editing b,logged⟩ : Op).spare=maxOpBlocks-logged.card := by
      simp [Op.spare,Op.active]
    have hdone : (⟨.done,logged⟩ : Op).spare=0 := Nat.zero_mul _
    have hroom:=ho.room
    omega
  have hnone : (⟨.done,logged⟩ : Op).active=0 := rfl
  simp only [logWritePanics,Bool.or_eq_false_iff,decide_eq_false_iff_not]
  omega

lemma LogInv.safe : LogSafe start size S0 s := by
  refine ⟨h.home_ready,h.returned,fun hp => (h.quiet hp).ops,?_,
    fun _ _ _ hi hfit hfull => h.space hsize hi hfit hfull⟩
  obtain ⟨m,t,hrun,hready,hgroups⟩:=crash_recovers start size s
  refine ⟨m,t,hrun,hready,hgroups,?_⟩
  have ht : LogInv start size S0 t := by
    refine h.run hsize (guarded_of_forall fun a ha _ => ?_) hrun
    rcases mem_cons.mp ha with rfl | ha
    · trivial
    · cases (mem_replicate.mp ha).2
      trivial
  rw [← hgroups]
  exact ht.home_ready hready

end

theorem log_atomic (hsize : logSize<size) {disk : ℕ → Block} (hd : disk start 0=0) {as : List Action}
    (hok : Guarded (Log.step start size) (Sound start size) (powerOn disk) as)
    (hrun : run (Log.step start size) (powerOn disk) as=some s) : LogSafe start size disk s := by
  have hcovers : Redo.Covers (Home start size) (onDisk start disk) disk (Redo.applyAll [] disk) := by
    rw [onDisk_empty hd]
    exact Redo.covers_nil fun _ _ => rfl
  have hinit : LogInv start size disk (powerOn disk) := powerOn_logInv hcovers (by omega) prefix_rfl
  exact (hinit.run hsize hok hrun).safe hsize

def zeros : Block := fun _ => 0
def bootUp : List Action := [.advance,.advance]
def crashAfterHead : List Action :=
  bootUp++[.beginOp,.edit 0 100 (fun _ => 7),.logCheck 0,.logAppend 0,.endOp 0,.advance,.advance,.crash]

theorem log_atomic_crash : ∃ s,run (Log.step 2 31) (powerOn fun _ => zeros) crashAfterHead
    = some s ∧ s.groups.length=1 ∧ s.returned=[] ∧ LogSafe 2 31 (fun _ => zeros) s := by
  have hrun : (run (Log.step 2 31) (powerOn fun _ => zeros) crashAfterHead).map
      (fun s => (s.groups.length,s.returned.length))=some (1,0) := by
    decide +kernel
  obtain ⟨s,hs,hv⟩:=Option.map_eq_some_iff.mp hrun
  have hsound : Guarded (Log.step 2 31) (Sound 2 31) (powerOn fun _ => zeros)
      crashAfterHead := by
    refine ⟨trivial,fun _ h => ?_⟩; cases h
    refine ⟨trivial,fun _ h => ?_⟩; cases h
    refine ⟨trivial,fun _ h => ?_⟩; cases h
    refine ⟨.inr (by decide),fun _ h => ?_⟩; cases h
    refine ⟨fun b logged hi => ?_,fun _ h => ?_⟩
    · cases hi
      exact ⟨by decide,fun _ => by decide⟩
    refine ⟨trivial,fun _ _ => ⟨trivial,fun _ _ => ⟨trivial,fun _ _ => ⟨trivial,fun _ _ => ?_⟩⟩⟩⟩
    exact ⟨trivial,fun _ _ => trivial⟩
  exact ⟨s,hs,congrArg Prod.fst hv,length_eq_zero_iff.mp (congrArg Prod.snd hv),log_atomic (by decide) rfl hsound hs⟩

def logTen (i : ℕ) : List Action :=
  (range maxOpBlocks).flatMap fun j => [.edit i (100+10*i+j) zeros,.logCheck i,.logAppend i]

theorem log_write_panics_on_full_log : ∃ s,run (Log.step 2 31) (powerOn fun _ => zeros)
      (bootUp++[.beginOp,.beginOp,.beginOp]++logTen 0++logTen 1++logTen 2 ++ [.edit 0 100 zeros])=some s ∧
    (∀ op∈s.ops,op.logged.card ≤ maxOpBlocks) ∧ (∃ op,s.ops[0]? = some op ∧ op.stage.holds 100=true ∧ 100∈op.logged) ∧
    logWritePanics 31 s=true := by
  decide +kernel

end Auxv6.Fs.Log

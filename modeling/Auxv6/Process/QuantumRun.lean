import Auxv6.Process.Quantum

/-! # Quanta along a run -/

namespace Auxv6.Process
open Machine Lib Lib.Transition Option Nat Bool Transition

variable {idx : Chan → ℕ} {s t : State} {a : Action} {c n q : ℕ} {p : Slot}

def YieldsRunning (s : State) : Action → Prop
  | .yield c => ∀ p,s.cpu c=some p → (s.proc p).state=.running
  | _ => True
def QuantumGuard (s : State) (a : Action) : Prop := SignalsApart s a ∧ YieldsRunning s a

/-- A queued process has some of its quantum left. The mark of a running process is set
exactly when nothing is left. -/
def Account.Sound (x : Account) : Prop :=
  x.state.Live → x.level < mlfqNqueues ∧ x.left ≤ mlfqQuanta x.level ∧
    (x.expired=true ↔ x.left=0) ∧ (x.state=.runnable → x.expired=false)

structure QuantumInv (s : State) : Prop where
  sched : SchedInv s
  sound : ∀ p,(s.account p).Sound

lemma mlfqQuanta_pos (q : ℕ) : 0 < mlfqQuanta q := Nat.two_pow_pos q

variable {x : Account}

lemma Account.Full.sound (h : x.Full q) (hq : q < mlfqNqueues) : x.Sound := by
  obtain ⟨rfl,hexp,hleft⟩:=h
  have hpos:=mlfqQuanta_pos x.level
  refine fun _ => ⟨hq,hleft.le,?_,fun _ => hexp⟩
  rw [hexp]
  exact iff_of_false false_ne_true (by omega)

lemma Account.yield_full (hexp : x.expired=true) : x.yield.Full (levelBelow x.level) := by
  rw [Account.yield,if_pos hexp]
  exact ⟨rfl,rfl,rfl⟩
lemma Account.yield_kept (hexp : x.expired=false) : x.yield = {x with state := .runnable} := by
  rw [Account.yield,if_neg (by simp [hexp])]

lemma Account.Sound.charge (h : x.Sound) (hrun : x.state≠.runnable) : x.charge.Sound := by
  intro hl
  by_cases hlast : 1<x.left
  · rw [Account.charge,if_pos hlast] at hl ⊢
    obtain ⟨hlt,hle,hexp,-⟩:=h hl
    refine ⟨hlt,(sub_le _ _).trans hle,?_,fun hr => absurd hr hrun⟩
    refine iff_of_false (fun he => ?_) (by dsimp only; omega)
    have := hexp.mp he
    omega
  · rw [Account.charge,if_neg hlast] at hl ⊢
    obtain ⟨hlt,-,-,-⟩:=h hl
    exact ⟨hlt,zero_le _,iff_of_true rfl rfl,fun hr => absurd hr hrun⟩

lemma Account.Sound.yield (h : x.Sound) (hrun : x.state=.running) : x.yield.Sound := by
  cases hexp : x.expired with
  | true => exact (Account.yield_full hexp).sound (by simp only [levelBelow,mlfqNqueues]; omega)
  | false =>
    obtain ⟨hlt,hle,hmark,-⟩:=h (.inr hrun)
    rw [Account.yield_kept hexp]
    exact fun _ => ⟨hlt,hle,hmark,fun _ => hexp⟩

lemma AccountStep.sound {y : Account} (hs : AccountStep s a p y) (h : QuantumInv s)
    (hok : YieldsRunning s a) : y.Sound := by
  have hx:=h.sound p
  cases hs with
  | kept hy =>
    intro hl
    have heq:=hy hl
    rw [heq] at hl ⊢
    exact hx hl
  | renewed _ hy =>
    obtain ⟨-,q,hq,hfull⟩:=hy
    exact hfull.sound hq
  | dispatched hr hy =>
    obtain ⟨hlt,hle,hmark,-⟩:=hx (.inl hr)
    rw [hy]
    exact fun _ => ⟨hlt,hle,hmark,fun hr => by cases hr⟩
  | yielded c ha hc hy =>
    subst ha
    rw [hy]
    exact hx.yield (hok p hc)
  | charged c ha hc hy =>
    rw [hy]
    exact hx.charge (h.sched.not_runnable ⟨c,hc⟩)
  | boosted now ha hb hr hfull => exact hfull.sound (by decide)

lemma step_quantumInv (h : QuantumInv s) (hok : QuantumGuard s a) (hs : step idx s a=some t) : QuantumInv t where
  sched := step_schedInv h.sched hok.1 hs
  sound p := (step_account h.sched hok.1 hs p).sound h hok.2
lemma zeroState_quantumInv : QuantumInv zeroState where
  sched := zeroState_schedInv
  sound := fun p hl => absurd hl (by simp [State.account,zeroState,zeroProc,ProcState.Live])

def Action.chargesTo (s : State) (p : Slot) : Action → Bool
  | .timerCharge c => decide (s.cpu c=some p)
  | _ => false
def chargedTicks (idx : Chan → ℕ) (p : Slot) : State → List Action → ℕ
  | _, [] => 0
  | s, a::rest => (if a.chargesTo s p then 1 else 0) + ((step idx s a).map fun t => chargedTicks idx p t rest).getD 0
def Undisturbed (p : Slot) (s : State) (a : Action) : Prop :=
  (s.proc p).state.Live ∧ ∀ now,a=.boost now → ¬ s.Boosts now p

/-- Where a process is after `n` charged ticks from a whole quantum of level `q`. After the
last one it is marked until it yields, which moves it down. -/
def Account.Spent (q n : ℕ) (x : Account) : Prop :=
  x.state.Live → (n < mlfqQuanta q ∧ x.level=q ∧ x.expired=false ∧ x.left=mlfqQuanta q-n) ∨
    (n=mlfqQuanta q ∧ x.level=q ∧ x.expired=true ∧ x.state=.running) ∨ (n=mlfqQuanta q ∧ x.Full (levelBelow q))

lemma Account.Full.spent (h : x.Full q) : x.Spent q 0 := fun _ =>
  .inl ⟨mlfqQuanta_pos q,h.1,h.2.1,h.2.2⟩

lemma Account.Spent.charge (h : x.Spent q n) (hrun : x.state≠.runnable)
    (hn : n+1 ≤ mlfqQuanta q) : x.charge.Spent q (n+1) := by
  intro hl
  by_cases hlast : 1<x.left
  · rw [Account.charge,if_pos hlast] at hl ⊢
    rcases h hl with ⟨-,hlev,hexp,hleft⟩ | ⟨hq,-⟩ | ⟨hq,-⟩
    · exact .inl ⟨by omega,hlev,hexp,by dsimp only; omega⟩
    · omega
    · omega
  rw [Account.charge,if_neg hlast] at hl ⊢
  rcases h hl with ⟨-,hlev,hexp,hleft⟩ | ⟨hq,-⟩ | ⟨hq,-⟩
  · exact .inr (.inl ⟨by omega,hlev,rfl,hl.resolve_left hrun⟩)
  · omega
  · omega

lemma Account.Spent.yield (h : x.Spent q n) (hl : x.state.Live) : x.yield.Spent q n := by
  intro _
  rcases h hl with ⟨hlt,hlev,hexp,hleft⟩ | ⟨hq,hlev,hexp,-⟩ | ⟨hq,hfull⟩
  · rw [Account.yield_kept hexp]
    exact .inl ⟨hlt,hlev,hexp,hleft⟩
  · exact .inr (.inr ⟨hq,hlev ▸ Account.yield_full hexp⟩)
  · rw [Account.yield_kept hfull.2.1]
    exact .inr (.inr ⟨hq,hfull⟩)

lemma Account.Spent.dispatch (h : x.Spent q n) (hr : x.state=.runnable) :
    Account.Spent q n {x with state := .running} := by
  intro _
  rcases h (.inl hr) with h | ⟨-,-,-,hrun⟩ | h
  · exact .inl h
  · rw [hr] at hrun
    cases hrun
  · exact .inr (.inr h)

lemma AccountStep.spent {y : Account} (hs : AccountStep s a p y) (hok : Undisturbed p s a)
    (hnot : a.chargesTo s p=false) (hx : (s.account p).Spent q n) : y.Spent q n := by
  cases hs with
  | kept hy =>
    intro hl
    have heq:=hy hl
    rw [heq] at hl ⊢
    exact hx hl
  | renewed hdown _ => exact absurd hok.1 hdown
  | dispatched hr hy =>
    rw [hy]
    exact hx.dispatch hr
  | yielded c ha hc hy =>
    rw [hy]
    exact hx.yield hok.1
  | charged c ha hc hy =>
    subst ha
    simp [Action.chargesTo,hc] at hnot
  | boosted now ha hb hr hfull => exact absurd hb (hok.2 now ha)

lemma step_spent (h : SchedInv s) (hsig : SignalsApart s a) (hok : Undisturbed p s a)
    (hs : step idx s a=some t) (hx : (s.account p).Spent q n)
    (hn : n+(if a.chargesTo s p then 1 else 0) ≤ mlfqQuanta q) :
    (t.account p).Spent q (n+if a.chargesTo s p then 1 else 0) := by
  by_cases hch : a.chargesTo s p=true
  · rw [if_pos hch] at hn ⊢
    cases a with
    | timerCharge c =>
      have hc : s.cpu c=some p := of_decide_eq_true hch
      obtain ⟨p',hc',hp⟩:=State.current_eq_some hs
      obtain rfl : p=p' := some.inj (hc.symm.trans hc')
      rw [← some.inj hp,charge_account_self]
      exact hx.charge (h.not_runnable ⟨c,hc⟩) hn
    | _ => cases hch
  · rw [if_neg hch,add_zero]
    exact (step_account h hsig hs p).spent hok (eq_false_of_not_eq_true hch) hx

lemma run_spent {as : List Action} (h : QuantumInv s)
    (hok : Guarded (step idx) (fun s a => QuantumGuard s a ∧ Undisturbed p s a) s as)
    (hrun : run (step idx) s as=some t) (hx : (s.account p).Spent q n)
    (hn : n+chargedTicks idx p s as ≤ mlfqQuanta q) : (t.account p).Spent q (n+chargedTicks idx p s as) := by
  induction as generalizing s n with
  | nil =>
    obtain rfl : s=t := some.inj hrun
    exact hx
  | cons a rest ih =>
    obtain ⟨m,hm,hrest⟩:=run_cons hrun
    obtain ⟨⟨hguard,hund⟩,hnext⟩:=hok
    have hticks : chargedTicks idx p s (a::rest) = (if a.chargesTo s p then 1 else 0)+chargedTicks idx p m rest := by
      simp only [chargedTicks,hm,map_some,getD_some]
    rw [hticks,← add_assoc] at hn ⊢
    exact ih (step_quantumInv h hguard hm) (hnext m hm) hrest (step_spent h.sched hguard.1 hund hm hx (by omega)) hn

def QuantumLeft (s : State) (p : Slot) : Prop :=
  (s.mlfq.sched p).budgetExpired=false ∧ 1≤(s.mlfq.sched p).budgetLeft ∧
    (s.mlfq.sched p).budgetLeft ≤ mlfqQuanta (s.mlfq.sched p).schedQ ∧ (s.mlfq.sched p).schedQ < mlfqNqueues

lemma QuantumInv.quantumLeft (h : QuantumInv s) (hp : p∈queueList s.mlfq q) : QuantumLeft s p := by
  have hr : (s.proc p).state=.runnable := (((h.sched.queues.queueList p).1 q).mp hp).1
  obtain ⟨hlt,hle,hmark,hexp⟩:=h.sound p (.inl hr)
  have hfalse : (s.mlfq.sched p).budgetExpired=false := hexp hr
  refine ⟨hfalse,one_le_iff_ne_zero.mpr fun hzero => ?_,hle,hlt⟩
  exact false_ne_true (hfalse.symm.trans (hmark.mpr hzero))

/-- In every guarded run a queued process has some quantum left. From a whole quantum of level `q`, one that is
neither put to sleep nor boosted stays on `q` for fewer than `mlfqQuanta q` charged ticks, and is queued one
level lower after as many. -/
theorem quantum_accounting (idx : Chan → ℕ) (as : List Action) (s : State)
    (hok : Guarded (step idx) QuantumGuard zeroState as)
    (h : run (step idx) zeroState as=some s) : (∀ p q,p∈queueList s.mlfq q → QuantumLeft s p) ∧
    ∀ p q bs t,(s.account p).Full q → Guarded (step idx) (fun s a => QuantumGuard s a ∧ Undisturbed p s a) s bs →
      run (step idx) s bs=some t → (t.proc p).state.Live →
      (chargedTicks idx p s bs < mlfqQuanta q → (t.mlfq.sched p).schedQ=q ∧
        (t.mlfq.sched p).budgetLeft=mlfqQuanta q-chargedTicks idx p s bs) ∧
      (chargedTicks idx p s bs=mlfqQuanta q → (∃ l,p∈queueList t.mlfq l) →
        (t.account p).Full (min (q+1) (mlfqNqueues-1))) := by
  have hinv : QuantumInv s := run_guarded
    (fun _ _ _ hs hok hst => step_quantumInv hs hok hst) zeroState_quantumInv hok h
  refine ⟨fun p q hp => hinv.quantumLeft hp,fun p q bs t hfull hund hrun hlive => ⟨?_,?_⟩⟩
  · intro hlt
    have hspent:=run_spent hinv hund hrun hfull.spent (by omega)
    rw [Nat.zero_add] at hspent
    rcases hspent hlive with ⟨-,hlev,-,hleft⟩ | ⟨heq,-⟩ | ⟨heq,-⟩
    · exact ⟨hlev,hleft⟩
    · omega
    · omega
  rintro heq ⟨l,hl⟩
  have hspent:=run_spent hinv hund hrun hfull.spent (by omega)
  have hguard : Guarded (step idx) QuantumGuard s bs := hund.mono fun _ _ => And.left
  have hinvt : QuantumInv t := run_guarded (fun _ _ _ hs hok hst => step_quantumInv hs hok hst) hinv hguard hrun
  have hr : (t.proc p).state=.runnable := (((hinvt.sched.queues.queueList p).1 l).mp hl).1
  rcases hspent hlive with ⟨hlt,-⟩ | ⟨-,-,-,hrun'⟩ | ⟨-,hdown⟩
  · omega
  · exact absurd (hr.symm.trans hrun') (by decide)
  · exact hdown

def quantumTest (s : State) : Action → Bool
  | .kill _ _ signo _ => decide (signo≠sigcont)
  | .signalPgid _ _ => false
  | .applySignals _ => false
  | .boost _ => false
  | .yield c => (s.cpu c).all fun p => decide ((s.proc p).state=.running)
  | _ => true

lemma quantumTest_guard (s : State) (a : Action) (h : quantumTest s a=true) : QuantumGuard s a := by
  cases a with
  | kill c pid signo initHup =>
    exact ⟨fun i _ hsig => absurd hsig (of_decide_eq_true h),trivial⟩
  | signalPgid pgid signo => cases h
  | applySignals c => cases h
  | yield c =>
    refine ⟨trivial,fun p hp => ?_⟩
    simpa [quantumTest,hp] using h
  | _ => exact ⟨trivial,trivial⟩

def twoTicks : List Action := [.timerCharge 1,.yield 1,.dispatch 1,.timerCharge 1,.yield 1]

lemma twoTicks_undisturbed (s : State) (a : Action)
    (h : (quantumTest s a && decide ((s.proc childSlot).state.Live))=true) :
    QuantumGuard s a ∧ Undisturbed childSlot s a := by
  rw [and_eq_true] at h
  refine ⟨quantumTest_guard s a h.1,of_decide_eq_true h.2,?_⟩
  rintro now rfl
  cases h.1

/-- A new child is on level 1, whose quantum is two ticks: after them it is on level 2. -/
theorem quantum_accounting_twoTicks : ∃ s t,run (step fun _ => 0) zeroState stopChild=some s ∧
      run (step fun _ => 0) s twoTicks=some t ∧ QuantumLeft t childSlot ∧ (t.account childSlot).Full 2 := by
  obtain ⟨hcheck,s,hs,hfull,hticks,hund,t,ht,hmem,hlive⟩ :
      check (step fun _ => 0) quantumTest zeroState (stopChild++twoTicks)=true ∧
      ∃ s,run (step fun _ => 0) zeroState stopChild=some s ∧ (s.account childSlot).Full 1 ∧
        chargedTicks (fun _ => 0) childSlot s twoTicks=2 ∧
        check (step fun _ => 0) (fun s a => quantumTest s a && decide ((s.proc childSlot).state.Live)) s
          twoTicks=true ∧ ∃ t,run (step fun _ => 0) s twoTicks=some t ∧ childSlot∈queueList t.mlfq 2 ∧
          (t.proc childSlot).state.Live := by
    decide +kernel
  have hrun : run (step fun _ => 0) zeroState (stopChild++twoTicks)=some t := by
    rw [run_append,hs]
    exact ht
  have hguard : Guarded (step fun _ => 0) QuantumGuard zeroState stopChild :=
    guarded_of_check quantumTest_guard (by decide +kernel)
  refine ⟨s,t,hs,ht,?_,?_⟩
  · exact (quantum_accounting _ _ t (guarded_of_check quantumTest_guard hcheck) hrun).1
      childSlot 2 hmem
  · exact ((quantum_accounting _ _ s hguard hs).2 childSlot 1 twoTicks t hfull
      (guarded_of_check twoTicks_undisturbed hund) ht hlive).2 hticks ⟨2,hmem⟩

theorem quantum_charged_while_queued : ∃ s,run (step fun _ => 0) zeroState (stopChild++[.applySignals 1,
      .kill 0 2 sigcont false,.maybeStop 1,.timerCharge 1,.timerCharge 1])=some s ∧
      childSlot∈queueList s.mlfq 1 ∧ (s.mlfq.sched childSlot).budgetExpired=true ∧
      (s.mlfq.sched childSlot).budgetLeft=0 := by
  decide +kernel

end Auxv6.Process

import Auxv6.Lib.Dll
import Auxv6.Machine

/-!
# The MLFQ run queues (core/proc_sched.c)

The links of the process table, the heads and tails of `mlfq_qs` and its counts are a pool of intrusive
lists. Tick stamps and counters that no branch reads are left out.
-/

namespace Auxv6.Process
open Machine Lib Function List

def nproc : ℕ := 128

lemma nproc_pos : 0<nproc := by decide

abbrev Slot := Fin nproc

def mlfqNqueues : ℕ := 5
def mlfqPromoteMinSleep : ℕ := 2
def mlfqForkStartQ : ℕ := 1
def mlfqQuanta (q : ℕ) : ℕ := 2^q

structure SchedData where
  schedQ : ℕ
  budgetExpired : Bool
  budgetLeft : ℕ
  lastBlockTick : ℕ
  deriving DecidableEq

structure Mlfq where
  lists : Dll.Pool Slot ℕ
  sched : Slot → SchedData

inductive SchedEnq where
  | fork
  | wake
  | yield
  | signal
  | alarm
  deriving DecidableEq

def Mlfq.setSched (m : Mlfq) (p : Slot) (d : SchedData) : Mlfq := {m with sched := update m.sched p d}
def Mlfq.reset (m : Mlfq) (p : Slot) (d : SchedData) : Mlfq :=
  { lists := { m.lists with
      next := update m.lists.next p none
      prev := update m.lists.prev p none }
    sched := update m.sched p d }

/-- `proc_sched.c:49-60`. -/
def mlfqListAppend (m : Mlfq) (q : ℕ) (p : Slot) : Mlfq := {m with lists := m.lists.append q p}

/-- `proc_sched.c:64-79`. -/
def mlfqListRemove (m : Mlfq) (q : ℕ) (p : Slot) : Mlfq := {m with lists := m.lists.remove q p}

/-- `proc_sched.c:82-93`. -/
def mlfqIsQueued (m : Mlfq) (p : Slot) : Bool :=
  (m.lists.next p).isSome || (m.lists.prev p).isSome ||
    decide ((m.sched p).schedQ < mlfqNqueues ∧ m.lists.head (m.sched p).schedQ=some p)

/-- The policy part of `schedq_enqueue_locked` (`proc_sched.c:121-163`): demotion on an
expired quantum, promotion after a sleep, the clamp, and the quantum of the level. -/
def enqueuePolicy (now : ℕ) (reason : SchedEnq) (d : SchedData) : SchedData :=
  let demoted:=if d.budgetExpired ∧ reason=.yield ∧ d.schedQ < mlfqNqueues-1
    then d.schedQ+1 else d.schedQ
  let woken:=reason=.wake ∨ reason=.alarm ∨ reason=.signal
  let promoted:=if woken ∧ mlfqPromoteMinSleep≤uintSub now d.lastBlockTick ∧ 0<demoted
    then demoted-1 else demoted
  let q:=min promoted (mlfqNqueues-1)
  { d with
    schedQ := q
    budgetExpired := false
    budgetLeft := if q≠d.schedQ ∨ d.budgetExpired ∨ reason≠.yield then mlfqQuanta q
      else d.budgetLeft }

/-- `proc_sched.c:102-166`. -/
def schedqEnqueueLocked (m : Mlfq) (now : ℕ) (p : Slot) (reason : SchedEnq) : Mlfq :=
  -- a yield skips the membership check
  let m:=if reason≠.yield ∧ mlfqIsQueued m p then mlfqListRemove m (m.sched p).schedQ p else m
  let d:=enqueuePolicy now reason (m.sched p)
  mlfqListAppend (m.setSched p d) d.schedQ p

/-- The loop of `schedq_pick_next_locked` (`proc_sched.c:181-195`) from level `q` on. -/
def pickFrom (m : Mlfq) : ℕ → ℕ → Option Slot × Mlfq
  | 0, _ => (none,m)
  | n+1, q =>
    match m.lists.head q with
    | none => pickFrom m n (q+1)
    | some p => (some p,mlfqListRemove m q p)

def schedqPickNextLocked (m : Mlfq) : Option Slot × Mlfq := pickFrom m mlfqNqueues 0

/-- `proc_sched.c:202-216`. -/
def mlfqTimerCharge (m : Mlfq) (p : Slot) : Mlfq :=
  let d:=m.sched p
  if 1<d.budgetLeft then m.setSched p {d with budgetLeft := d.budgetLeft-1}
  else m.setSched p {d with budgetLeft := 0,budgetExpired := true}

/-- The turn of `mlfq_apply_global_boost` for a queued process (`proc_sched.c:244-251`). -/
def boostQueued (m : Mlfq) (p : Slot) : Mlfq :=
  let m:=mlfqListRemove m (m.sched p).schedQ p
  let m:=m.setSched p { m.sched p with
    schedQ := 1,budgetLeft := mlfqQuanta 1,budgetExpired := false }
  mlfqListAppend m 1 p

def queueList (m : Mlfq) (q : ℕ) : List Slot := Dll.walk m.lists.next (nproc+1) (m.lists.head q)

structure Queues (m : Mlfq) (Q : ℕ → List Slot) : Prop where
  rep : Dll.Rep m.lists Q
  level : ∀ q p,p∈Q q → (m.sched p).schedQ=q
  lt : ∀ p,(m.sched p).schedQ < mlfqNqueues

def Queued (Q : ℕ → List Slot) (p : Slot) : Prop := ∃ q,p∈Q q

section

variable {m : Mlfq} {Q : ℕ → List Slot} {p x : Slot} {q : ℕ}

lemma Queues.mem_iff (h : Queues m Q) : p∈Q q ↔ Queued Q p ∧ (m.sched p).schedQ=q := by
  constructor
  · exact fun hp => ⟨⟨q,hp⟩,h.level q p hp⟩
  · rintro ⟨⟨q',hp⟩,rfl⟩
    rwa [h.level q' p hp]

lemma Queues.queueList_eq (h : Queues m Q) (q : ℕ) : queueList m q=Q q := by
  rw [queueList,h.rep.head q]
  refine (h.rep.chain q).walk ?_
  have := (h.rep.nodup q).length_le_card
  rw [Fintype.card_fin] at this
  omega

lemma Queues.isQueued_iff (h : Queues m Q) : mlfqIsQueued m p=true ↔ Queued Q p := by
  constructor
  · intro hq
    by_contra hn
    have hfree : ∀ q,p∉Q q := fun q hp => hn ⟨q,hp⟩
    obtain ⟨hnx,hpv⟩:=h.rep.free p hfree
    simp only [mlfqIsQueued,hnx,hpv,Option.isSome_none,Bool.false_or,decide_eq_true_eq] at hq
    rw [h.rep.head] at hq
    exact hfree _ (mem_of_mem_head? hq.2)
  rintro ⟨q,hp⟩
  obtain ⟨l1,l2,hQ⟩:=append_of_mem hp
  obtain ⟨hpv,hnx⟩:=h.rep.links hQ
  have hlev:=h.level q p hp
  have hlt:=h.lt p
  simp only [mlfqIsQueued,hpv,hnx,Bool.or_eq_true,decide_eq_true_eq]
  cases l1 with
  | nil => exact .inr ⟨hlt,by rw [hlev,h.rep.head q,hQ]; rfl⟩
  | cons y l => exact .inl (.inr (by simp [List.getLast?_eq_some_getLast]))

lemma Queues.setSched (h : Queues m Q) {d : SchedData} (hlt : d.schedQ < mlfqNqueues)
    (hq : ¬ Queued Q p ∨ d.schedQ=(m.sched p).schedQ) : Queues (m.setSched p d) Q := by
  refine ⟨h.rep,fun q x hx => ?_,fun x => ?_⟩
  · by_cases hxp : x=p
    · subst hxp
      simp only [Mlfq.setSched,update_self]
      rcases hq with hq | hq
      · exact absurd ⟨q,hx⟩ hq
      · exact hq.trans (h.level q x hx)
    · simp only [Mlfq.setSched,update_of_ne hxp]
      exact h.level q x hx
  · by_cases hxp : x=p
    · subst hxp
      simpa only [Mlfq.setSched,update_self] using hlt
    · simpa only [Mlfq.setSched,update_of_ne hxp] using h.lt x

lemma mem_update_append {q' : ℕ} : x∈update Q q (Q q++[p]) q' ↔ x∈Q q' ∨ (x=p ∧ q'=q) := by
  by_cases hq : q'=q
  · subst hq
    simp
  · simp [hq]

lemma Queues.append (h : Queues m Q) (hp : ¬ Queued Q p) (hq : (m.sched p).schedQ=q) :
    Queues (mlfqListAppend m q p) (update Q q (Q q++[p])) := by
  refine ⟨h.rep.append q fun q' hp' => hp ⟨q',hp'⟩,fun q' x hx => ?_,h.lt⟩
  rcases mem_update_append.mp hx with hx | ⟨rfl,rfl⟩
  · exact h.level q' x hx
  · exact hq

lemma queued_append : Queued (update Q q (Q q++[p])) x ↔ Queued Q x ∨ x=p := by
  simp only [Queued,mem_update_append]
  constructor
  · rintro ⟨q',hx | ⟨hx,_⟩⟩
    · exact .inl ⟨q',hx⟩
    · exact .inr hx
  · rintro (⟨q',hx⟩ | hx)
    · exact ⟨q',.inl hx⟩
    · exact ⟨q,.inr ⟨hx,rfl⟩⟩

lemma Queues.mem_remove (h : Queues m Q) {q' : ℕ} (hp : p∈Q q) : x∈update Q q ((Q q).erase p) q' ↔ x∈Q q' ∧ x≠p := by
  by_cases hq : q'=q
  · subst hq
    rw [update_self,(h.rep.nodup q').mem_erase_iff,and_comm]
  rw [update_of_ne hq]
  refine ⟨fun hx => ⟨hx,?_⟩,And.left⟩
  rintro rfl
  exact hq (h.rep.disjoint q' q x hx hp)

lemma Queues.remove (h : Queues m Q) (hp : p∈Q q) : Queues (mlfqListRemove m q p) (update Q q ((Q q).erase p)) :=
  ⟨h.rep.remove hp,fun q' x hx => h.level q' x ((h.mem_remove hp).mp hx).1,h.lt⟩

lemma Queues.queued_remove (h : Queues m Q) (hp : p∈Q q) :
    Queued (update Q q ((Q q).erase p)) x ↔ Queued Q x ∧ x≠p := by
  simp only [Queued,h.mem_remove hp]
  constructor
  · rintro ⟨q',hx,hne⟩
    exact ⟨⟨q',hx⟩,hne⟩
  · rintro ⟨⟨q',hx⟩,hne⟩
    exact ⟨q',hx,hne⟩

lemma enqueuePolicy_lt (now : ℕ) (reason : SchedEnq) (d : SchedData) :
    (enqueuePolicy now reason d).schedQ < mlfqNqueues := by
  simp only [enqueuePolicy,mlfqNqueues]
  omega

end

def QueueInv (m : Mlfq) (R : Slot → Prop) : Prop := ∃ Q,Queues m Q ∧ ∀ p,Queued Q p ↔ R p

section

variable {m : Mlfq} {R : Slot → Prop} {p : Slot}

lemma QueueInv.congr {R' : Slot → Prop} (h : QueueInv m R) (hR : ∀ p,R p ↔ R' p) : QueueInv m R' := by
  obtain ⟨Q,hQ,hq⟩:=h
  exact ⟨Q,hQ,fun p => (hq p).trans (hR p)⟩

variable {d : SchedData}

section
variable (h : QueueInv m R)
include h

lemma QueueInv.setSched (hlt : d.schedQ < mlfqNqueues)
    (hq : ¬ R p ∨ d.schedQ=(m.sched p).schedQ) : QueueInv (m.setSched p d) R := by
  obtain ⟨Q,hQ,hR⟩:=h
  exact ⟨Q,hQ.setSched hlt (hq.imp_left fun hn hq => hn ((hR p).mp hq)),hR⟩

lemma QueueInv.enqueue (hp : ¬ R p) (now : ℕ) (reason : SchedEnq) :
    QueueInv (schedqEnqueueLocked m now p reason) fun x => R x ∨ x=p := by
  obtain ⟨Q,hQ,hR⟩:=h
  have hnq : ¬ Queued Q p := fun hq => hp ((hR p).mp hq)
  have hchk : ¬ (reason≠.yield ∧ mlfqIsQueued m p=true) := fun hc =>
    hnq (hQ.isQueued_iff.mp hc.2)
  simp only [schedqEnqueueLocked,if_neg hchk]
  refine ⟨_,(hQ.setSched (enqueuePolicy_lt now reason _) (.inl hnq)).append hnq ?_,fun x => ?_⟩
  · simp [Mlfq.setSched]
  · rw [queued_append,hR x]

lemma QueueInv.pickFrom (n q : ℕ) : ((pickFrom m n q).1=none ∧ (pickFrom m n q).2=m) ∨
    ∃ p,(pickFrom m n q).1=some p ∧ R p ∧ QueueInv (pickFrom m n q).2 fun x => R x ∧ x≠p := by
  induction n generalizing q with
  | zero => exact .inl ⟨rfl,rfl⟩
  | succ n ih =>
    simp only [Process.pickFrom]
    cases hh : m.lists.head q with
    | none => exact ih (q+1)
    | some p =>
      obtain ⟨Q,hQ,hR⟩:=h
      have hp : p∈Q q := mem_of_mem_head? (by rw [← hQ.rep.head q,hh]; rfl)
      refine .inr ⟨p,rfl,(hR p).mp ⟨q,hp⟩,_,hQ.remove hp,fun x => ?_⟩
      rw [hQ.queued_remove hp,hR x]

lemma QueueInv.boost (hp : R p) : QueueInv (boostQueued m p) R := by
  obtain ⟨Q,hQ,hR⟩:=h
  have hmem : p∈Q (m.sched p).schedQ := hQ.mem_iff.mpr ⟨(hR p).mpr hp,rfl⟩
  have hrem:=hQ.remove hmem
  have hout : ¬ Queued (update Q (m.sched p).schedQ ((Q (m.sched p).schedQ).erase p)) p :=
    fun hq => ((hQ.queued_remove hmem).mp hq).2 rfl
  refine ⟨_,(hrem.setSched (show 1 < mlfqNqueues by decide) (.inl hout)).append hout ?_,fun x => ?_⟩
  · simp [Mlfq.setSched]
  · rw [queued_append,hQ.queued_remove hmem,hR x]
    by_cases hx : x=p <;> simp [hx,hp]

lemma QueueInv.timerCharge (p : Slot) : QueueInv (mlfqTimerCharge m p) R := by
  obtain ⟨Q,hQ,hR⟩:=h
  simp only [mlfqTimerCharge]
  split_ifs
  · exact ⟨Q,hQ.setSched (hQ.lt p) (.inr rfl),hR⟩
  · exact ⟨Q,hQ.setSched (hQ.lt p) (.inr rfl),hR⟩

lemma QueueInv.level_lt (p : Slot) : (m.sched p).schedQ < mlfqNqueues := by
  obtain ⟨Q,hQ,-⟩:=h
  exact hQ.lt p

lemma QueueInv.reset (hp : ¬ R p) (hlt : d.schedQ < mlfqNqueues) : QueueInv (m.reset p d) R := by
  obtain ⟨Q,hQ,hR⟩:=h.setSched hlt (.inl hp)
  obtain ⟨hnx,hpv⟩:=hQ.rep.free p fun q hq => hp ((hR p).mp ⟨q,hq⟩)
  have hn : update m.lists.next p none=m.lists.next := update_eq_self_iff.mpr (Eq.symm hnx)
  have hv : update m.lists.prev p none=m.lists.prev := update_eq_self_iff.mpr (Eq.symm hpv)
  have hlists : (m.reset p d).lists=m.lists := by
    simp only [Mlfq.reset,hn,hv]
  exact ⟨Q,⟨hlists ▸ hQ.rep,hQ.level,hQ.lt⟩,hR⟩

lemma QueueInv.queueList (p : Slot) : (∀ q,p∈queueList m q ↔ R p ∧ (m.sched p).schedQ=q) ∧
    (∀ q,(queueList m q).count p≤1) ∧ (m.sched p).schedQ < mlfqNqueues := by
  obtain ⟨Q,hQ,hR⟩:=h
  refine ⟨fun q => ?_,fun q => ?_,hQ.lt p⟩
  · rw [hQ.queueList_eq,hQ.mem_iff,hR]
  · rw [hQ.queueList_eq]
    exact nodup_iff_count_le_one.mp (hQ.rep.nodup q) p

end

end

end Auxv6.Process

import Auxv6.Ipc.PipeSafety

/-!
# Poll and the calls it stands for

`pipe_writable` compares the wrapping counters in order where `pipewrite` tests them for equality.
-/

namespace Auxv6.Ipc
open Machine Lib Lib.Transition List Option Nat Transition

def Pipe.boundWrapped (p : Pipe) : Bool :=
  p.readopen && decide (p.nread≤p.nwrite) && decide (wordMod≤p.nread+pipeCapacity)

variable {s : State}

lemma piperead_returns_iff (h : PipeInv s) {p : ℕ} (hk : s.killed p=false) (n : ℕ) :
    (∃ r t,piperead s p n=some (some r,t)) ↔ pipeReadable s.pipe=true := by
  have hready : pipeReadable s.pipe=true ↔ ¬ (s.pipe.empty=true ∧ s.pipe.writeopen=true) := by
    simp only [pipeReadable,Pipe.empty,Bool.or_eq_true,decide_eq_true_eq,Bool.not_eq_true']
    rw [not_and_or,Bool.not_eq_true]
  rw [hready]
  unfold piperead
  by_cases hwait : s.pipe.empty=true ∧ s.pipe.writeopen=true
  · rw [if_pos hwait,hk]
    simp [hwait]
  · rw [if_neg hwait]
    obtain ⟨_,t,heq,-⟩:=pipereadLoop_spec p n (n+1) [] s h (by simp)
    exact ⟨fun _ => hwait,fun _ => ⟨_,t,heq⟩⟩

lemma pipewrite_returns_iff (h : PipeInv s) {p : ℕ} (hk : s.killed p=false) (b : Byte) :
    (∃ r t,pipewrite s p [b]=some (some r,t)) ↔ ¬ (s.pipe.full=true ∧ s.pipe.readopen=true) := by
  unfold pipewrite
  cases ho : s.pipe.readopen with
  | false => simp
  | true =>
    have hnot : ¬ (true=false) := by decide
    have hlen : ¬ [b].length≤0 := by simp
    have hfuel : [b].length+1=0+1+1 := rfl
    rw [if_neg hnot,hfuel,pipewriteLoop,if_neg hlen]
    cases hf : s.pipe.full with
    | true => simp [hk,ho]
    | false =>
      obtain ⟨hpos,hle,-,-⟩:=h.writeChunk 1 one_pos hf
      have hone : s.pipe.writeChunk ([b].length-0)=1 := le_antisymm hle hpos
      rw [if_neg (by decide)]
      rw [hone,pipewriteLoop,if_pos (by simp)]
      exact ⟨(fun _ hc => by cases hc.1),fun _ => ⟨_,_,rfl⟩⟩

lemma pipeWritable_iff (h : PipeInv s) : (pipeWritable s.pipe=true ↔ ¬ (s.pipe.full=true ∧ s.pipe.readopen=true)) ↔
      s.pipe.boundWrapped=false := by
  have hfit:=h.rep.fits
  have hle:=h.rep.length_le
  have hr : s.pipe.nread=s.delivered.length%wordMod := h.rep.rd
  have hw : s.pipe.nwrite=s.appended.length%wordMod := h.rep.wr
  cases ho : s.pipe.readopen with
  | false => simp [pipeWritable,Pipe.boundWrapped,ho]
  | true =>
    -- `k` bytes are in the pipe, and `nread` stands `d` below the next multiple of 2^32
    have hbound : s.pipe.boundWrapped=false ↔
        ¬ (s.pipe.nread ≤ s.pipe.nwrite ∧ wordMod ≤ s.pipe.nread+pipeCapacity) := by
      simp [Pipe.boundWrapped,ho]
    have hready : pipeWritable s.pipe=true ↔ s.pipe.nwrite<(s.pipe.nread+pipeCapacity)%wordMod := by
      rw [pipeWritable,ho,Bool.not_true,Bool.or_false,decide_eq_true_iff,uintAdd]
    have hfull : s.pipe.full=true ↔ s.pipe.nwrite=(s.pipe.nread+pipeCapacity)%wordMod := by
      rw [Pipe.full,decide_eq_true_iff,uintAdd]
    rw [hbound,hready,hfull]
    simp only [and_true,hr,hw,pipeCapacity,wordMod] at *
    omega

/-- In every state of every run, for a process not killed: poll reports the pipe readable exactly where
`piperead` would not sleep, and writable exactly where a one-byte `pipewrite` would not, unless the bound it
compares with has wrapped alone. -/
theorem pipe_poll_agrees (as : List Action) (s : State) (h : run step pipealloc as=some s)
    (p : ℕ) (hk : s.killed p=false) : (∀ n,pipeReadable s.pipe=true ↔ ∃ r t,piperead s p n=some (some r,t)) ∧
      ∀ b,((pipeWritable s.pipe=true ↔ ∃ r t,pipewrite s p [b]=some (some r,t)) ↔ s.pipe.boundWrapped=false) := by
  have hinv : PipeInv s := run_invariant (fun _ _ _ hs hst => step_pipeInv hs hst) pipealloc_pipeInv h
  refine ⟨fun n => (piperead_returns_iff hinv hk n).symm,fun b => ?_⟩
  rw [pipewrite_returns_iff hinv hk b]
  exact pipeWritable_iff hinv

theorem pipe_poll_agrees_written : ∃ s,run step pipealloc [.write 0 [104,105]]=some s ∧ s.killed 0=false ∧
      (pipeReadable s.pipe=true ↔ ∃ r t,piperead s 0 4=some (some r,t)) ∧
      (pipeWritable s.pipe=true ↔ ∃ r t,pipewrite s 0 [106]=some (some r,t)) := by
  obtain ⟨s,hs,hlive,hbound⟩ : ∃ s,run step pipealloc [.write 0 [104,105]]=some s ∧ s.killed 0=false ∧
      s.pipe.boundWrapped=false := by
    decide +kernel
  obtain ⟨hr,hw⟩:=pipe_poll_agrees _ s hs 0 hlive
  exact ⟨s,hs,hlive,hr 4,(hw 106).mpr hbound⟩

structure Passed (n : ℕ) (s : State) : Prop where
  inv : PipeInv s
  appended : s.appended.length=n
  delivered : s.delivered.length=n
  readopen : s.pipe.readopen=true
  writeopen : s.pipe.writeopen=true
  idle : ∀ p,s.task p=.idle
  alive : ∀ p,s.killed p=false

lemma setTask_idle (h : ∀ p,s.task p=.idle) (p : ℕ) : s.setTask p .idle=s := by
  rw [State.setTask,← h p,Function.update_eq_self]
lemma wakeupReaders_idle (h : ∀ p,s.task p=.idle) : wakeupReaders s=s := by
  have htask : (wakeupReaders s).task=s.task := by
    funext q
    simp only [wakeupReaders,h q]
  exact congrArg (fun f => {s with task := f}) htask

lemma Passed.write {n : ℕ} (h : Passed n s) : step s (.write 0 [0]) =
    some {s with pipe := s.pipe.store [0],appended := s.appended++[0]} := by
  have hempty : s.pipe.empty=true := h.inv.empty_iff.mpr (by rw [h.appended,h.delivered])
  have hfull : s.pipe.full=false := by
    rw [Bool.eq_false_iff,Ne,h.inv.full_iff,h.appended,h.delivered,pipeCapacity]
    omega
  obtain ⟨hpos,hle,-,-⟩:=h.inv.writeChunk 1 one_pos hfull
  have hone : s.pipe.writeChunk ([(0 : Byte)].length-0)=1 := le_antisymm hle hpos
  have hfreed : ¬ (s.pipe.freed=true ∨ ¬ Enabled s (.write 0 [0])=true) := by
    simp [Pipe.freed,h.readopen,Enabled,h.idle 0]
  have hfuel : [(0 : Byte)].length+1=0+1+1 := rfl
  have hidle : ∀ p,({s with pipe := s.pipe.store [0],appended := s.appended++[0]} : State).task p=.idle := h.idle
  rw [step,if_neg hfreed,perform,pipewrite,if_neg (by rw [h.readopen]; decide),hfuel,pipewriteLoop,
    if_neg (by decide),hfull,if_neg (by decide)]
  dsimp only
  rw [hone,hempty,if_pos rfl,pipewriteLoop,if_pos (by decide)]
  simp only [drop_zero,take_succ_cons,take_zero,map_some]
  rw [wakeupReaders_idle hidle,setTask_idle hidle]

lemma Passed.next {n : ℕ} (h : Passed n s) : ∃ t,run step s [.write 0 [0],.read 1 1]=some t ∧ Passed (n+1) t := by
  generalize hs1 : ({s with pipe := s.pipe.store [0],appended := s.appended++[0]} : State)=s1
  have hwrite:=h.write
  rw [hs1] at hwrite
  have hinv1:=step_pipeInv h.inv hwrite
  have happ : s1.appended.length=n+1 := by
    rw [← hs1,length_append,h.appended,length_singleton]
  have hdel : s1.delivered.length=n := by
    rw [← hs1]
    exact h.delivered
  have hidle : ∀ p,s1.task p=.idle := hs1 ▸ h.idle
  have hro : s1.pipe.readopen=true := hs1 ▸ h.readopen
  have hwo : s1.pipe.writeopen=true := hs1 ▸ h.writeopen
  have halive : ∀ p,s1.killed p=false := hs1 ▸ h.alive
  have hempty : s1.pipe.empty=false := by
    rw [Bool.eq_false_iff,Ne,hinv1.empty_iff,happ,hdel]
    omega
  have hfull : s1.pipe.full=false := by
    rw [Bool.eq_false_iff,Ne,hinv1.full_iff,happ,hdel,pipeCapacity]
    omega
  obtain ⟨hpos,hle,-,-⟩:=hinv1.readChunk 1 one_pos hempty
  have hone : s1.pipe.readChunk (1-([] : List Byte).length)=1 := le_antisymm hle hpos
  generalize hs2 : ({ s1 with
    pipe := {s1.pipe with nread := uintAdd s1.pipe.nread 1}
    delivered := s1.delivered++s1.pipe.load 1 } : State)=s2
  have hidle2 : ∀ p,s2.task p=.idle := hs2 ▸ hidle
  have hread : step s1 (.read 1 1)=some s2 := by
    have hfreed : ¬ (s1.pipe.freed=true ∨ ¬ Enabled s1 (.read 1 1)=true) := by
      simp [Pipe.freed,hro,Enabled,hidle 1]
    rw [step,if_neg hfreed,perform,piperead,hempty,if_neg (by simp),pipereadLoop,hempty,if_neg (by simp)]
    dsimp only
    rw [hone,hfull,if_neg (by decide),hs2,pipereadLoop,if_pos (.inl (by simp [Pipe.load]))]
    rw [setTask_idle hidle2]
    rfl
  refine ⟨s2,?_,step_pipeInv hinv1 hread,?_,?_,?_,?_,hidle2,?_⟩
  · rw [run,hwrite,bind_some,run,hread]
    rfl
  · rw [← hs2]
    exact happ
  · rw [← hs2,length_append,hdel]
    simp [Pipe.load]
  · rw [← hs2]
    exact hro
  · rw [← hs2]
    exact hwo
  · rw [← hs2]
    exact halive

lemma exists_passed (n : ℕ) : ∃ as s,run step pipealloc as=some s ∧ Passed n s := by
  induction n with
  | zero =>
    exact ⟨[],pipealloc,rfl,pipealloc_pipeInv,rfl,rfl,rfl,rfl,fun _ => rfl,fun _ => rfl⟩
  | succ n ih =>
    obtain ⟨as,s,hs,hp⟩:=ih
    obtain ⟨t,ht,hnext⟩:=hp.next
    refine ⟨as++[.write 0 [0],.read 1 1],t,?_,hnext⟩
    rw [run_append,hs,bind_some]
    exact ht

theorem pipe_poll_disagrees : ∃ as s,run step pipealloc as=some s ∧ s.killed 0=false ∧
    pipeWritable s.pipe=false ∧ ∃ r t,pipewrite s 0 [0]=some (some r,t) := by
  obtain ⟨as,s,hs,hp⟩:=exists_passed (2^32-1)
  have hr : s.pipe.nread=2^32-1 := hp.inv.rep.rd.trans (by rw [hp.delivered]; decide)
  have hw : s.pipe.nwrite=2^32-1 := hp.inv.rep.wr.trans (by rw [hp.appended]; decide)
  refine ⟨as,s,hs,hp.alive 0,?_,(pipewrite_returns_iff hp.inv (hp.alive 0) 0).mpr fun hc => ?_⟩
  · rw [pipeWritable,hr,hw,hp.readopen]
    decide
  · have hfull:=hp.inv.full_iff.mp hc.1
    rw [hp.appended,hp.delivered,pipeCapacity] at hfull
    omega

end Auxv6.Ipc

import Auxv6.File.FileWrite
import Auxv6.Lib.Transition

/-!
# Writes through O_APPEND descriptors (core/sysfile.c, fs/file.c)

Processes write one file through open files of their own or shared ones. A step is one transaction
of `filewrite`, which holds the lock of the inode; `log` records the calls. Every transaction succeeds.
-/

namespace Auxv6.FileWrite.Append
open Function Lib.Transition List

structure Call where
  file : ℕ
  buf : List UInt8
  done : ℕ
  short : done<buf.length

structure State where
  data : List UInt8
  off : ℕ → ℕ
  call : ℕ → Option Call
  log : List (ℕ × List UInt8)

def store (data : List UInt8) (off : ℕ) (src : List UInt8) : List UInt8 :=
  data.take off++replicate (off-data.length) 0++src++data.drop (off+src.length)

/-- The size of the next transaction (`sysfile.c:1080-1082`, `file.c:379-381`). -/
def piece (n done : ℕ) : ℕ :=
  let cap:=if 512<n then 4096 else 512
  min (min (n-(done-done%cap)) cap-done%cap) maxWrite

def Call.advance (c : Call) (k : ℕ) : Option Call :=
  if h : c.done+k<c.buf.length then some ⟨c.file,c.buf,c.done+k,h⟩ else none

inductive Action where
  | sysOpen (f : ℕ)
  | lseek (f pos : ℕ)
  | write (p f : ℕ) (buf : List UInt8)
  | transact (p : ℕ)

/-- `O_APPEND` counts in `sys_open` only (`sysfile.c:1692`); `filewrite` takes the offset of the
open file (`file.c:383-401`). -/
def step (s : State) : Action → Option State
  | .sysOpen f => some {s with off := update s.off f s.data.length}
  | .lseek f pos => some {s with off := update s.off f pos}
  | .write p f buf =>
    if h : 0<buf.length then
      if (s.call p).isSome then none
      else some {s with call := update s.call p (some ⟨f,buf,0,h⟩),log := s.log++[(p,buf)]}
    else some s
  | .transact p => (s.call p).map fun c =>
    let k:=piece c.buf.length c.done
    let src:=(c.buf.drop c.done).take k
    { s with
      data := store s.data (s.off c.file) src
      off := update s.off c.file (s.off c.file+src.length)
      call := update s.call p (c.advance k) }

def start (data : List UInt8) (off : ℕ → ℕ) : State := ⟨data,off,fun _ => none,[]⟩

/-- The buffers of the calls follow `init`: each process's once and in its own order. -/
def Appended (init : List UInt8) (s : State) : Prop :=
  ∃ l : List (ℕ × List UInt8),(∀ p,l.filter (·.1=p)=s.log.filter (·.1=p)) ∧ s.data=init++l.flatMap (·.2)

/-- A transaction is made at the end of the file, while no other call is half done. -/
def AtEnd (s : State) : Action → Prop
  | .transact p => ∀ c,s.call p=some c → s.off c.file=s.data.length ∧ ∀ q d,q≠p → s.call q=some d → d.done=0
  | _ => True

lemma store_length (data src : List UInt8) : store data data.length src=data++src := by
  simp [store]
lemma piece_pos {n done : ℕ} (h : done<n) : 0<piece n done := by
  simp only [piece,maxWrite]
  split <;> omega

def State.waiting (s : State) (p : ℕ) : List (ℕ × List UInt8) :=
  match s.call p with
  | some c => if c.done=0 then [(p,c.buf)] else []
  | none => []

/-- The calls of `l` have begun, in this order. -/
structure Begun (init : List UInt8) (s : State) (l : List (ℕ × List UInt8)) : Prop where
  order : ∀ p,l.filter (·.1=p)++s.waiting p=s.log.filter (·.1=p)
  idle : (∀ p c,s.call p=some c → c.done=0) → s.data=init++l.flatMap (·.2)
  half : ∀ p c,s.call p=some c → 0<c.done → s.data++c.buf.drop c.done=init++l.flatMap (·.2)

variable {init : List UInt8} {s : State} {p : ℕ} {c : Call} {l : List (ℕ × List UInt8)}

lemma Begun.write (h : Begun init s l) (hc : c.done=0) (hp : s.call p=none) :
    Begun init {s with call := update s.call p (some c),log := s.log++[(p,c.buf)]} l := by
  have hother : ∀ {q},q≠p → update s.call p (some c) q=s.call q := fun hq => update_of_ne hq ..
  refine ⟨fun q => ?_,fun hidle => h.idle fun q d hd => hidle q d ?_,fun q d hd hpos => ?_⟩
  · have horder:=h.order q
    by_cases hq : q=p
    · subst hq
      simp only [State.waiting,hp,update_self] at horder ⊢
      simpa [hc] using horder
    · simp only [State.waiting,hother hq] at horder ⊢
      simpa [Ne.symm hq] using horder
  · rw [← hd]
    exact hother fun hq => by simp [hq ▸ hd] at hp
  · by_cases hq : q=p
    · subst hq
      simp only [update_self,Option.some.injEq] at hd
      exact absurd hc (hd ▸ hpos.ne')
    · exact h.half q d ((hother hq).symm.trans hd) hpos

/-- With its first transaction a call joins the order. -/
lemma Begun.joined (h : Begun init s l) (hc : s.call p=some c) (hothers : ∀ q d,q≠p → s.call q=some d → d.done=0) :
    ∃ l : List (ℕ × List UInt8),(∀ q,l.filter (·.1=q)++(if q=p then [] else s.waiting q) =
      s.log.filter (·.1=q)) ∧ s.data++c.buf.drop c.done=init++l.flatMap (·.2) := by
  by_cases hd : c.done=0
  · refine ⟨l++[(p,c.buf)],fun q => ?_,?_⟩
    · rw [← h.order q]
      by_cases hq : q=p
      · subst hq
        simp [State.waiting,hc,hd]
      · simp [hq,Ne.symm hq]
    rw [h.idle fun q d hq => ?_]
    · simp [hd]
    by_cases hqp : q=p
    · subst hqp
      cases hc.symm.trans hq
      exact hd
    · exact hothers q d hqp hq
  · refine ⟨l,fun q => ?_,h.half p c hc (Nat.pos_of_ne_zero hd)⟩
    rw [← h.order q]
    by_cases hq : q=p
    · subst hq
      simp [State.waiting,hc,hd]
    · rw [if_neg hq]

lemma Begun.step {t : State} {a : Action} (h : Begun init s l) (hok : AtEnd s a)
    (hs : step s a=some t) : ∃ l,Begun init t l := by
  cases a with
  | sysOpen f =>
    cases hs
    exact ⟨l,h.order,h.idle,h.half⟩
  | lseek f pos =>
    cases hs
    exact ⟨l,h.order,h.idle,h.half⟩
  | write p f buf =>
    simp only [Append.step] at hs
    split_ifs at hs with hbuf hp <;> cases hs
    · exact ⟨l,h.write (c := ⟨f,buf,0,hbuf⟩) rfl (by simpa using hp)⟩
    · exact ⟨l,h⟩
  | transact p =>
    obtain ⟨c,hc,rfl⟩:=Option.map_eq_some_iff.mp hs
    obtain ⟨hoff,hothers⟩:=hok c hc
    obtain ⟨l',horder,hbytes⟩:=h.joined hc hothers
    have hpos:=piece_pos c.short
    generalize piece c.buf.length c.done=k at hpos
    have hall : store s.data (s.off c.file) ((c.buf.drop c.done).take k)++c.buf.drop (c.done+k) =
        init++l'.flatMap (·.2) := by
      rw [hoff,store_length,← hbytes,append_assoc,← drop_drop,take_append_drop]
    refine ⟨l',fun q => ?_,fun hidle => ?_,fun q d hd hdone => ?_⟩
    · rw [← horder q]
      by_cases hq : q=p
      · subst hq
        simp only [State.waiting,update_self,Call.advance]
        split_ifs <;> simp [hpos.ne']
      · simp only [State.waiting,update_of_ne hq,if_neg hq]
    · have hend : c.buf.length≤c.done+k := by
        by_contra hlt
        have := hidle p _ ((update_self ..).trans (dif_pos (not_le.mp hlt)))
        dsimp only at this
        omega
      rw [← hall,drop_of_length_le hend,append_nil]
    · by_cases hq : q=p
      · subst hq
        simp only [update_self,Call.advance] at hd
        split_ifs at hd
        cases hd
        exact hall
      · simp only [update_of_ne hq] at hd
        exact absurd (hothers q d hq hd) hdone.ne'

end Auxv6.FileWrite.Append

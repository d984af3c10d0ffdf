import Auxv6.Ipc.Pipe

/-!
# Pipes deliver once, in order, and lose no wakeup

The ring represents the bytes that were appended and not yet delivered.
-/

namespace Auxv6.Ipc
open Machine Lib Function List Nat Transition Ring

def Pipe.ring (p : Pipe) : Buf Byte := ⟨p.data,p.nread,p.nwrite⟩

structure PipeInv (s : State) : Prop where
  rep : Rep pipeCapacity wordMod s.pipe.ring s.delivered s.appended
  reader : ∀ p n,s.task p=.reading n true → s.pipe.empty=true ∧ s.pipe.writeopen=true
  writer : ∀ p buf i,s.task p=.writing buf i true → s.pipe.full=true ∧ s.pipe.readopen=true

variable {s t : State}

lemma pipeCapacity_lt : pipeCapacity<wordMod := by decide
lemma pipeCapacity_dvd : pipeCapacity ∣ wordMod := by decide

section
variable (h : PipeInv s)
include h

lemma PipeInv.empty_iff : s.pipe.empty=true ↔ s.appended.length=s.delivered.length := by
  rw [Pipe.empty,decide_eq_true_iff]
  exact h.rep.empty_iff pipeCapacity_lt
lemma PipeInv.full_iff : s.pipe.full=true ↔ s.appended.length=s.delivered.length+pipeCapacity := by
  rw [Pipe.full,decide_eq_true_iff]
  exact h.rep.full_iff pipeCapacity_lt
lemma PipeInv.used : uintSub s.pipe.nwrite s.pipe.nread = s.appended.length-s.delivered.length :=
  h.rep.used_eq pipeCapacity_lt

lemma PipeInv.used_int : uintToInt (uintSub s.pipe.nwrite s.pipe.nread) =
    ((s.appended.length-s.delivered.length : ℕ) : Int) := by
  have hfit:=h.rep.fits
  have hcap : pipeCapacity<2^31 := by decide
  rw [h.used]
  exact uintToInt_of_lt (by omega)

lemma PipeInv.nwrite_mod : s.pipe.nwrite%pipeCapacity=s.appended.length%pipeCapacity := h.rep.wr_mod pipeCapacity_dvd
lemma PipeInv.nread_mod : s.pipe.nread%pipeCapacity=s.delivered.length%pipeCapacity := h.rep.rd_mod pipeCapacity_dvd

end

lemma chunkSize_spec {rest room : ℕ} (hrest : 0<rest) (hroom : 0<room) (hle : room≤pipeCapacity)
    (counter : ℕ) : let chunk:=chunkSize rest (room : Int) counter
    0<chunk ∧ chunk≤rest ∧ chunk≤room ∧ counter%pipeCapacity+chunk≤pipeCapacity := by
  have hoff : counter%pipeCapacity<pipeCapacity := mod_lt _ (by decide)
  have hcap:=pipeCapacity_lt
  obtain ⟨m,hm,hmr,hmo,hpos⟩ : ∃ m : ℕ,(if (room : Int)<(rest : Int) then (room : Int) else (rest : Int))=(m : Int) ∧
      m≤rest ∧ m≤room ∧ 0 < m := by
    split_ifs with hlt
    · exact ⟨room,rfl,by omega,le_rfl,hroom⟩
    · exact ⟨rest,rfl,le_rfl,by omega,hrest⟩
  have hmod : ((m : Int)%(wordMod : Int)).toNat=m := by
    rw [← Int.natCast_mod,Int.toNat_natCast,mod_eq_of_lt (by omega)]
  simp only [chunkSize,hm,hmod,Int.toNat_natCast]
  split_ifs with hlt <;> omega

lemma PipeInv.writeChunk (h : PipeInv s) (rest : ℕ) (hrest : 0<rest) (hfull : s.pipe.full=false) :
    let chunk:=s.pipe.writeChunk rest
    0<chunk ∧ chunk≤rest ∧ s.appended.length+chunk ≤ s.delivered.length+pipeCapacity ∧
      s.appended.length%pipeCapacity+chunk≤pipeCapacity := by
  have hfit:=h.rep.fits
  have hlen:=h.rep.length_le
  have hne : s.appended.length≠s.delivered.length+pipeCapacity := fun heq => by
    rw [h.full_iff.mpr heq] at hfull
    cases hfull
  have hroom : (pipeCapacity : Int)-uintToInt (uintSub s.pipe.nwrite s.pipe.nread) =
      ((pipeCapacity-(s.appended.length-s.delivered.length) : ℕ) : Int) := by
    rw [h.used_int]
    omega
  have hspec:=chunkSize_spec hrest (show 0<pipeCapacity-(s.appended.length-s.delivered.length) by omega) (by omega)
    s.pipe.nwrite
  rw [← hroom,h.nwrite_mod] at hspec
  obtain ⟨h1,h2,h3,h4⟩:=hspec
  exact ⟨h1,h2,by rw [Pipe.writeChunk]; omega,h4⟩

lemma PipeInv.readChunk (h : PipeInv s) (rest : ℕ) (hrest : 0<rest) (hempty : s.pipe.empty=false) :
    let chunk:=s.pipe.readChunk rest
    0<chunk ∧ chunk≤rest ∧ s.delivered.length+chunk ≤ s.appended.length ∧
      s.delivered.length%pipeCapacity+chunk≤pipeCapacity := by
  have hfit:=h.rep.fits
  have hlen:=h.rep.length_le
  have hne : s.appended.length≠s.delivered.length := fun heq => by
    rw [h.empty_iff.mpr heq] at hempty
    cases hempty
  have hspec:=chunkSize_spec hrest (show 0<s.appended.length-s.delivered.length by omega) (by omega) s.pipe.nread
  rw [← h.used_int,h.nread_mod] at hspec
  obtain ⟨h1,h2,h3,h4⟩:=hspec
  exact ⟨h1,h2,by rw [Pipe.readChunk]; omega,h4⟩

lemma wakeupReaders_reading (p n : ℕ) : (wakeupReaders s).task p≠.reading n true := by
  intro heq
  simp only [wakeupReaders] at heq
  split at heq
  · cases heq
  · rename_i hne
    exact hne n true heq

lemma wakeupReaders_writing {p i : ℕ} {buf : List Byte}
    (h : (wakeupReaders s).task p=.writing buf i true) : s.task p=.writing buf i true := by
  simp only [wakeupReaders] at h
  split at h
  · cases h
  · exact h

lemma wakeupWriters_writing (p i : ℕ) (buf : List Byte) : (wakeupWriters s).task p≠.writing buf i true := by
  intro heq
  simp only [wakeupWriters] at heq
  split at heq
  · cases heq
  · rename_i hne
    exact hne buf i true heq

lemma wakeupWriters_reading {p n : ℕ} (h : (wakeupWriters s).task p=.reading n true) : s.task p=.reading n true := by
  simp only [wakeupWriters] at h
  split at h
  · cases h
  · exact h

lemma PipeInv.setAwake (h : PipeInv s) (p : ℕ) {t : Task} (hr : ∀ n,t≠.reading n true)
    (hw : ∀ buf i,t≠.writing buf i true) : PipeInv (s.setTask p t) where
  rep := h.rep
  reader q n hq := by
    by_cases hqp : q=p
    · subst hqp
      simp only [State.setTask,update_self] at hq
      exact absurd hq (hr n)
    · simp only [State.setTask,update_of_ne hqp] at hq
      exact h.reader q n hq
  writer q buf i hq := by
    by_cases hqp : q=p
    · subst hqp
      simp only [State.setTask,update_self] at hq
      exact absurd hq (hw buf i)
    · simp only [State.setTask,update_of_ne hqp] at hq
      exact h.writer q buf i hq

lemma PipeInv.setIdle (h : PipeInv s) (p : ℕ) : PipeInv (s.setTask p .idle) :=
  h.setAwake p (fun _ hc => by cases hc) fun _ _ hc => by cases hc

lemma PipeInv.store (h : PipeInv s) {bytes : List Byte} (hfull : s.pipe.full=false)
    (hspace : s.appended.length+bytes.length ≤ s.delivered.length+pipeCapacity)
    (hwrap : s.appended.length%pipeCapacity+bytes.length≤pipeCapacity) :
    let t : State := {s with pipe := s.pipe.store bytes,appended := s.appended++bytes}
    PipeInv (if s.pipe.empty then wakeupReaders t else t) := by
  have hrep : Rep pipeCapacity wordMod (s.pipe.store bytes).ring s.delivered
      (s.appended++bytes) := h.rep.put pipeCapacity_dvd hspace hwrap
  have hnw : ∀ p buf i,s.task p≠.writing buf i true := fun p buf i hp => by
    rw [(h.writer p buf i hp).1] at hfull
    cases hfull
  split_ifs with hempty
  · exact ⟨hrep,fun p n hp => absurd hp (wakeupReaders_reading p n),
      fun p buf i hp => absurd (wakeupReaders_writing hp) (hnw p buf i)⟩
  · refine ⟨hrep,fun p n hp => ?_,fun p buf i hp => absurd hp (hnw p buf i)⟩
    exact absurd (h.reader p n hp).1 hempty

/-- A section of a write of `buf` from `i` on appends the next bytes of `buf`: up to where it sleeps, up to an
error, or all of them. -/
structure Appends (p : ℕ) (buf : List Byte) (i : ℕ) (s : State) (r : Option Int) (t : State) : Prop where
  kept : t.delivered=s.delivered
  part : ∃ k,t.appended=s.appended++(buf.drop i).take k ∧ (r=none ∧ t.task p=.writing buf (i+k) true ∨
    r=some (-1) ∨ r=some (buf.length : Int) ∧ buf.length ≤ i+k)

/-- A section of a read delivers what the call returns. -/
structure Delivers (s : State) (r : Result) (t : State) : Prop where
  kept : t.appended=s.appended
  part : t.delivered=s.delivered++(r.elim [] Prod.snd)
  count : ∀ v out,r=some (v,out) → v = -1 ∧ out=[] ∨ v=out.length

lemma Appends.after {p i k : ℕ} {buf : List Byte} {r : Option Int} {u : State} (hd : t.delivered=s.delivered)
    (ha : t.appended=s.appended++(buf.drop i).take k) (h : Appends p buf (i+k) t r u) : Appends p buf i s r u := by
  obtain ⟨m,hm,hr⟩:=h.part
  refine ⟨h.kept.trans hd,k+m,?_,by rwa [← add_assoc]⟩
  rw [hm,ha,append_assoc,take_add,drop_drop]

lemma pipewriteLoop_spec (p : ℕ) (buf : List Byte) (fuel i : ℕ) (s : State) (h : PipeInv s)
    (hfuel : buf.length-i<fuel) :
    ∃ r t,pipewriteLoop p buf fuel i s=some (r,t) ∧ PipeInv t ∧ Appends p buf i s r t := by
  induction fuel generalizing i s with
  | zero => omega
  | succ fuel ih =>
    unfold pipewriteLoop
    split_ifs with hdone hfull hret
    · exact ⟨_,_,rfl,h.setIdle p,rfl,0,by simp [State.setTask],.inr (.inr ⟨rfl,hdone⟩)⟩
    · exact ⟨_,_,rfl,h.setIdle p,rfl,0,by simp [State.setTask],.inr (.inl rfl)⟩
    · refine ⟨_,_,rfl,⟨h.rep,fun q n hq => ?_,fun q b j hq => ?_⟩,rfl,0,by simp [State.setTask,wakeupReaders],
        .inl ⟨rfl,by simp [State.setTask]⟩⟩
      · by_cases hqp : q=p
        · subst hqp
          simp [State.setTask] at hq
        · simp only [State.setTask,update_of_ne hqp] at hq
          exact absurd hq (wakeupReaders_reading q n)
      · rw [not_or,Bool.not_eq_false] at hret
        exact ⟨hfull,hret.1⟩
    · have hf : s.pipe.full=false := by simpa using hfull
      obtain ⟨hpos,hle,hspace,hwrap⟩:=h.writeChunk (buf.length-i) (by omega) hf
      have hlen : ((buf.drop i).take (s.pipe.writeChunk (buf.length-i))).length =
          s.pipe.writeChunk (buf.length-i) := by
        rw [length_take,length_drop]
        omega
      obtain ⟨r,t,heq,ht,ha⟩:=ih _ _ (h.store hf (by rw [hlen]; exact hspace) (by rw [hlen]; exact hwrap))
        (by omega : buf.length-(i+s.pipe.writeChunk (buf.length-i))<fuel)
      refine ⟨r,t,heq,ht,ha.after ?_ ?_⟩ <;> split_ifs <;> rfl

lemma pipewrite_spec (p : ℕ) (buf : List Byte) (h : PipeInv s) :
    ∃ r t,pipewrite s p buf=some (r,t) ∧ PipeInv t ∧ Appends p buf 0 s r t := by
  unfold pipewrite
  split_ifs
  · exact ⟨_,_,rfl,h,rfl,0,by simp,.inr (.inl rfl)⟩
  · exact pipewriteLoop_spec p buf _ 0 s h (by omega)

lemma PipeInv.load (h : PipeInv s) {chunk : ℕ} (hempty : s.pipe.empty=false)
    (havail : s.delivered.length+chunk ≤ s.appended.length)
    (hwrap : s.delivered.length%pipeCapacity+chunk≤pipeCapacity) :
    let t : State := { s with
      pipe := {s.pipe with nread := uintAdd s.pipe.nread chunk}
      delivered := s.delivered++s.pipe.load chunk }
    PipeInv (if s.pipe.full then wakeupWriters t else t) := by
  have hrep : Rep pipeCapacity wordMod ({s.pipe with nread := uintAdd s.pipe.nread chunk} : Pipe).ring
      (s.delivered++s.pipe.load chunk) s.appended := h.rep.take pipeCapacity_dvd havail hwrap
  have hnr : ∀ p n,s.task p≠.reading n true := fun p n hp => by
    rw [(h.reader p n hp).1] at hempty
    cases hempty
  split_ifs with hfull
  · exact ⟨hrep,fun p n hp => absurd (wakeupWriters_reading hp) (hnr p n),
      fun p buf i hp => absurd hp (wakeupWriters_writing p i buf)⟩
  · refine ⟨hrep,fun p n hp => absurd hp (hnr p n),fun p buf i hp => ?_⟩
    exact absurd (h.writer p buf i hp).1 hfull

lemma wakeIf_bytes (full : Bool) (s : State) : (if full then wakeupWriters s else s).appended=s.appended ∧
    (if full then wakeupWriters s else s).delivered=s.delivered := by
  cases full <;> exact ⟨rfl,rfl⟩

lemma pipereadLoop_spec (p n fuel : ℕ) (out : List Byte) (s : State) (h : PipeInv s)
    (hfuel : n-out.length<fuel) : ∃ bytes t,pipereadLoop p n fuel out s =
      some (some (((out++bytes).length : Int),out++bytes),t) ∧ PipeInv t ∧ t.appended=s.appended ∧
      t.delivered=s.delivered++bytes := by
  induction fuel generalizing out s with
  | zero => omega
  | succ fuel ih =>
    unfold pipereadLoop
    split_ifs with hdone
    · exact ⟨[],_,by rw [append_nil],h.setIdle p,rfl,(append_nil _).symm⟩
    rw [not_or,Bool.not_eq_true] at hdone
    obtain ⟨hpos,hle,havail,hwrap⟩:=h.readChunk (n-out.length) (by omega) hdone.2
    have hlen : (s.pipe.load (s.pipe.readChunk (n-out.length))).length =
        s.pipe.readChunk (n-out.length) := by simp [Pipe.load]
    obtain ⟨bytes,t,heq,ht,ha,hd⟩:=ih (out++s.pipe.load (s.pipe.readChunk (n-out.length))) _
      (h.load hdone.2 havail hwrap) (by rw [length_append,hlen]; omega)
    refine ⟨s.pipe.load (s.pipe.readChunk (n-out.length))++bytes,t,?_,ht,ha.trans (wakeIf_bytes ..).1,?_⟩
    · rw [← append_assoc]
      exact heq
    · rw [hd,(wakeIf_bytes ..).2,append_assoc]

lemma piperead_spec (p n : ℕ) (h : PipeInv s) : ∃ r t,piperead s p n=some (r,t) ∧ PipeInv t ∧ Delivers s r t := by
  unfold piperead
  split_ifs with hwait
  · exact ⟨_,_,rfl,h.setIdle p,rfl,(append_nil _).symm,fun v out hr => by cases hr; exact .inl ⟨rfl,rfl⟩⟩
  · refine ⟨_,_,rfl,⟨h.rep,fun q m hq => hwait,fun q b j hq => ?_⟩,rfl,(append_nil _).symm,nofun⟩
    by_cases hqp : q=p
    · subst hqp
      simp [State.setTask] at hq
    · simp only [State.setTask,update_of_ne hqp] at hq
      exact h.writer q b j hq
  · obtain ⟨bytes,t,heq,ht,ha,hd⟩:=pipereadLoop_spec p n (n+1) [] s h (by simp)
    exact ⟨_,t,heq,ht,⟨ha,hd,fun v out hr => by cases hr; exact .inr rfl⟩⟩

lemma PipeInv.close (h : PipeInv s) (writable : Bool) : PipeInv (pipeclose s writable) := by
  unfold pipeclose
  split_ifs
  · refine ⟨h.rep,fun p n hp => absurd hp (wakeupReaders_reading p n),fun p buf i hp => ?_⟩
    exact h.writer p buf i (wakeupReaders_writing hp)
  · refine ⟨h.rep,fun p n hp => ?_,fun p buf i hp => absurd hp (wakeupWriters_writing p i buf)⟩
    exact h.reader p n (wakeupWriters_reading hp)

lemma PipeInv.wake (h : PipeInv s) (p : ℕ) : PipeInv (s.setTask p (s.task p).woken) := by
  refine h.setAwake p (fun n hc => ?_) fun buf i hc => ?_ <;>
    cases hp : s.task p <;> rw [hp,Task.woken] at hc <;> cases hc

/-- What a section did to the bytes, against the buffers of the writers and the results. -/
def Moved (s : State) (r : Result) (t : State) : Action → Prop
  | .write p buf => Appends p buf 0 s (r.map Prod.fst) t
  | .read _ _ => Delivers s r t
  | .resume p => match s.task p with
    | .writing buf i _ => Appends p buf i s (r.map Prod.fst) t
    | _ => Delivers s r t
  | _ => t.appended=s.appended ∧ t.delivered=s.delivered

lemma perform_spec (h : PipeInv s) (a : Action) (ha : Enabled s a=true) :
    ∃ r t,perform s a=some (r,t) ∧ PipeInv t ∧ Moved s r t a := by
  cases a with
  | write p buf =>
    obtain ⟨r,t,heq,ht,hm⟩:=pipewrite_spec p buf h
    exact ⟨r.map (·,[]),t,by rw [perform,heq]; rfl,ht,by cases r <;> exact hm⟩
  | read p n => exact piperead_spec p n h
  | resume p =>
    simp only [perform,Moved]
    cases hp : s.task p with
    | idle => simp [Enabled,hp] at ha
    | writing buf i asleep =>
      obtain ⟨r,t,heq,ht,hm⟩:=pipewriteLoop_spec p buf (buf.length+1) i s h (by omega)
      exact ⟨r.map (·,[]),t,by simp only [heq,Option.map_some],ht,by cases r <;> exact hm⟩
    | reading n asleep => exact piperead_spec p n h
  | close writable =>
    refine ⟨_,_,rfl,h.close writable,?_⟩
    simp only [Moved,pipeclose]
    split_ifs <;> exact ⟨rfl,rfl⟩
  | kill p =>
    have hw:=h.wake p
    exact ⟨_,_,rfl,⟨hw.rep,hw.reader,hw.writer⟩,rfl,rfl⟩
  | signal p => exact ⟨_,_,rfl,h.wake p,rfl,rfl⟩

lemma step_pipeInv {a : Action} (h : PipeInv s) (hs : step s a=some t) : PipeInv t := by
  unfold step at hs
  split_ifs at hs with hen
  rw [not_or,not_not] at hen
  obtain ⟨r,u,hu,hinv,-⟩:=perform_spec h a hen.2
  rw [hu] at hs
  exact Option.some.inj hs ▸ hinv

lemma pipealloc_pipeInv : PipeInv pipealloc where
  rep := ⟨prefix_rfl,zero_le _,rfl,rfl,fun k _ hk => by cases hk⟩
  reader p n hp := by cases hp
  writer p buf i hp := by cases hp

structure PipeSafe (s : State) : Prop where
  bounded : uintSub s.pipe.nwrite s.pipe.nread≤pipeCapacity
  ordered : s.delivered <+: s.appended
  unread : s.appended.length-s.delivered.length=uintSub s.pipe.nwrite s.pipe.nread
  reader : ∀ p n,s.task p=.reading n true → s.pipe.nread=s.pipe.nwrite ∧ s.pipe.writeopen=true
  writer : ∀ p buf i,s.task p=.writing buf i true →
    s.pipe.nwrite=uintAdd s.pipe.nread pipeCapacity ∧ s.pipe.readopen=true

lemma PipeInv.safe (h : PipeInv s) : PipeSafe s where
  bounded := by
    have hfit:=h.rep.fits
    rw [h.used]
    omega
  ordered := h.rep.isPrefix
  unread := h.used.symm
  reader p n hp := by
    obtain ⟨he,ho⟩:=h.reader p n hp
    exact ⟨of_decide_eq_true he,ho⟩
  writer p buf i hp := by
    obtain ⟨hf,ho⟩:=h.writer p buf i hp
    exact ⟨of_decide_eq_true hf,ho⟩

/-- In every state of every run the pipe is safe; until it is freed every call and every return from `sleep`
runs to its next `sleep` or its end, and appends bytes of its buffer or delivers what it returns. -/
theorem pipe_safe (as : List Action) (s : State) (h : run step pipealloc as=some s) :
    PipeSafe s ∧ (s.pipe.freed=false → ∀ a,Enabled s a=true →
      ∃ r t,perform s a=some (r,t) ∧ step s a=some t ∧ Moved s r t a) := by
  have hinv : PipeInv s := run_invariant (fun _ _ _ hs hst => step_pipeInv hs hst) pipealloc_pipeInv h
  refine ⟨hinv.safe,fun hfreed a ha => ?_⟩
  obtain ⟨r,t,ht,-,hm⟩:=perform_spec hinv a ha
  exact ⟨r,t,ht,by rw [step,if_neg (by simp [hfreed,ha]),ht]; rfl,hm⟩

theorem pipe_safe_write_read : ∃ s,run step pipealloc
      [.read 1 4,.write 0 [104,105],.resume 1,.close true,.read 1 4]=some s ∧ PipeSafe s ∧ s.delivered=[104,105] := by
  obtain ⟨s,hs,hd⟩ : ∃ s,run step pipealloc
      [.read 1 4,.write 0 [104,105],.resume 1,.close true,.read 1 4]=some s ∧ s.delivered=[104,105] := by
    decide +kernel
  exact ⟨s,hs,(pipe_safe _ s hs).1,hd⟩

end Auxv6.Ipc

import Mathlib.Tactic
import Auxv6.Lib.Transition

/-!
# Buffered output (libc/stdio.c)

A stream opened for writing on a descriptor. `ws` holds what the `write` calls to come answer: 0 for a
failure, otherwise how much is accepted at most. `out` is what the descriptor accepted and `taken` what the
calls reported as accepted.
-/

namespace Auxv6.Libc.Stdio
open List Lib.Transition Bool

abbrev Byte := UInt8

inductive Mode
  | ionbf | iolbf | iofbf
  deriving DecidableEq

def bufsiz : ℕ := 512

/-- `buf` is the first `buf_len` bytes of the buffer, `cap` is `buf_size`, 0 without a buffer. `torn` records
that a flush failed after a part was accepted, or the flush of a line, whose newline is refused and stays in the
buffer; `flushed` that the last call was an `fflush` or `fclose` that wrote everything. -/
structure Stream where
  mode : Mode
  cap : ℕ
  buf : List Byte
  ws : List ℕ
  out : List Byte
  taken : List Byte
  torn : Bool
  flushed : Bool
  closed : Bool

/-- A loop over `write`: what was accepted, what is left at the failure, and the answers to come. -/
def writeLoop : List ℕ → List Byte → List Byte × List Byte × List ℕ
  | ws,[] => ([],[],ws)
  | [],rest => ([],rest,[])
  | w::ws,rest =>
    if w=0 then ([],rest,ws)
    else
      let r:=writeLoop ws (rest.drop w)
      (rest.take w++r.1,r.2)

/-- `file_flush_output`: after a failure the buffer is as it was. -/
def flushOutput (fp : Stream) : Bool × Stream :=
  let r:=writeLoop fp.ws fp.buf
  let fp:={fp with ws := r.2.2,out := fp.out++r.1}
  if r.2.1=[] then (true,{fp with buf := []})
  else (false,{fp with torn := fp.torn || decide (r.1≠[])})

def CanBuffer (fp : Stream) : Prop := fp.mode≠.ionbf ∧ 0<fp.cap
  deriving Decidable

/-- What `write` accepted, counted. -/
def directWrite (fp : Stream) (data : List Byte) : ℕ × Stream :=
  let r:=writeLoop fp.ws data
  (r.1.length,{fp with ws := r.2.2,out := fp.out++r.1})

def flushLine (fp : Stream) : Bool × Stream :=
  let r:=flushOutput fp
  (r.1,{r.2 with torn := r.2.torn || !r.1})

def makeRoom (fp : Stream) : Bool × Stream := if fp.buf.length=fp.cap then flushOutput fp else (true,fp)

/-- `file_write_byte` in a stream that can buffer. -/
def bufferByte (fp : Stream) (ch : Byte) : Bool × Stream :=
  let r:=makeRoom fp
  if r.1=false then r
  else
    let fp : Stream:={r.2 with buf := r.2.buf++[ch]}
    if fp.mode=.iolbf ∧ ch=10 then flushLine fp else (true,fp)

def writeByte (fp : Stream) (ch : Byte) : Bool × Stream :=
  if CanBuffer fp then bufferByte fp ch
  else
    let r:=directWrite fp [ch]
    (decide (r.1=1),r.2)

/-- The loop of `fputs`, and of `fwrite` into a buffer: how many bytes were accepted. -/
def writeBytes : List Byte → Stream → ℕ × Stream
  | [],fp => (0,fp)
  | ch::rest,fp =>
    let r:=writeByte fp ch
    if r.1 then
      let r:=writeBytes rest r.2
      (r.1+1,r.2)
    else (0,r.2)

/-- `fwrite` of objects of one byte. -/
def fwrite (fp : Stream) (data : List Byte) : ℕ × Stream :=
  if CanBuffer fp then writeBytes data fp else directWrite fp data

/-- `given` says that the caller brings a buffer, `page` that `malloc` finds one. -/
def setvbuf (fp : Stream) (mode : Mode) (size : ℕ) (given page : Bool) : Stream :=
  let r:=flushOutput fp
  if r.1=false then r.2
  else
    let fp:={r.2 with mode := .ionbf,cap := 0,buf := []}
    if mode=.ionbf ∨ (given=false ∧ page=false) then fp
    else {fp with mode := mode,cap := if size=0 then bufsiz else size}

inductive Action
  | fputc (ch : Byte)
  | fputs (s : List Byte)
  | fwrite (data : List Byte)
  | fflush
  | setvbuf (mode : Mode) (size : ℕ) (given page : Bool)
  | fseek
  | fclose

def call (fp : Stream) : Action → Stream
  | .fputc ch =>
    let r:=writeByte fp ch
    {r.2 with taken := fp.taken++if r.1 then [ch] else [],flushed := false}
  | .fputs s =>
    let r:=writeBytes s fp
    {r.2 with taken := fp.taken++s.take r.1,flushed := false}
  | .fwrite data =>
    let r:=fwrite fp data
    {r.2 with taken := fp.taken++data.take r.1,flushed := false}
  | .fflush => {(flushOutput fp).2 with flushed := (flushOutput fp).1}
  | .setvbuf mode size given page => {setvbuf fp mode size given page with flushed := false}
  | .fseek => {(flushOutput fp).2 with flushed := false}
  | .fclose => { (flushOutput fp).2 with
      flushed := (flushOutput fp).1,mode := .ionbf,cap := 0,buf := [],closed := true }

def step (fp : Stream) (a : Action) : Option Stream := if fp.closed then none else some (call fp a)

/-- `fdopen` and `fopen` on a descriptor whose `write` calls will answer `ws`. -/
def fdopen (ws : List ℕ) : Stream := ⟨.ionbf,0,[],ws,[],[],false,false,false⟩

def WrittenOnce (fp : Stream) : Prop := fp.out<+:fp.taken ∧ (fp.flushed=true → fp.out=fp.taken)

structure Inv (fp : Stream) : Prop where
  whole : fp.torn=false → fp.out++fp.buf=fp.taken
  direct : ¬ CanBuffer fp → fp.buf=[]

variable {fp fp' : Stream}

lemma writeLoop_append (ws : List ℕ) (data : List Byte) : (writeLoop ws data).1++(writeLoop ws data).2.1=data := by
  induction ws generalizing data with
  | nil => cases data <;> rfl
  | cons w ws ih =>
    cases data with
    | nil => rfl
    | cons b rest =>
      simp only [writeLoop]
      split_ifs
      · rfl
      · rw [append_assoc,ih,take_append_drop]

lemma writeLoop_take (ws : List ℕ) (data : List Byte) :
    (writeLoop ws data).1=data.take (writeLoop ws data).1.length := by
  have hall:=writeLoop_append ws data
  generalize writeLoop ws data=r at hall ⊢
  rw [← hall,take_left]

/-- The stream gets `data` and nothing else, unless a flush is torn. -/
structure Puts (fp : Stream) (data : List Byte) (fp' : Stream) : Prop where
  whole : fp'.torn=false → fp.torn=false ∧ fp'.out++fp'.buf=fp.out++fp.buf++data
  direct : ¬ CanBuffer fp' → ¬ CanBuffer fp ∧ fp'.buf=fp.buf

lemma Puts.trans {fp'' : Stream} {data data' : List Byte} (h : Puts fp data fp') (h' : Puts fp' data' fp'') :
    Puts fp (data++data') fp'' := by
  refine ⟨fun ht => ?_,fun hno => ?_⟩
  · obtain ⟨ht',hall'⟩:=h'.whole ht
    obtain ⟨ht,hall⟩:=h.whole ht'
    exact ⟨ht,by rw [hall',hall,append_assoc]⟩
  · obtain ⟨hno',hbuf'⟩:=h'.direct hno
    exact ⟨(h.direct hno').1,hbuf'.trans (h.direct hno').2⟩

lemma flush_ok (hok : (flushOutput fp).1=true) : (flushOutput fp).2.buf=[] := by
  simp only [flushOutput] at hok ⊢
  split_ifs at hok ⊢
  rfl

lemma flush_puts (hcan : CanBuffer fp ∨ fp.buf=[]) : Puts fp [] (flushOutput fp).2 := by
  have hall:=writeLoop_append fp.ws fp.buf
  simp only [flushOutput]
  split_ifs with hrest
  · rw [hrest,append_nil] at hall
    exact ⟨fun ht => ⟨ht,by rw [hall,append_nil]⟩,fun hno => ⟨hno,(hcan.resolve_left hno).symm⟩⟩
  refine ⟨fun ht => ?_,fun hno => ⟨hno,rfl⟩⟩
  -- nothing was accepted, so the buffer still follows what the descriptor has
  obtain ⟨ht,hnone⟩:=or_eq_false_iff.mp ht
  exact ⟨ht,by rw [not_not.mp (of_decide_eq_false hnone),append_nil,append_nil]⟩

lemma flush_can : CanBuffer (flushOutput fp).2 ↔ CanBuffer fp := by
  simp only [flushOutput]
  split_ifs <;> exact Iff.rfl

lemma directWrite_puts (hbuf : fp.buf=[]) (data : List Byte) :
    Puts fp (data.take (directWrite fp data).1) (directWrite fp data).2 := by
  refine ⟨fun ht => ⟨ht,?_⟩,fun hno => ⟨hno,rfl⟩⟩
  simp only [directWrite,hbuf,append_nil]
  rw [← writeLoop_take]

lemma makeRoom_puts (hcan : CanBuffer fp) : CanBuffer (makeRoom fp).2 ∧ Puts fp [] (makeRoom fp).2 := by
  unfold makeRoom
  split_ifs
  · exact ⟨flush_can.mpr hcan,flush_puts (.inl hcan)⟩
  · exact ⟨hcan,fun ht => ⟨ht,(append_nil _).symm⟩,fun hno => ⟨hno,rfl⟩⟩

lemma flushLine_puts (hcan : CanBuffer fp) :
    Puts fp [] (flushLine fp).2 ∧ ((flushLine fp).1=false → (flushLine fp).2.torn=true) := by
  have h:=flush_puts (.inl hcan)
  refine ⟨⟨fun ht => h.whole (or_eq_false_iff.mp ht).1,h.direct⟩,fun hno => ?_⟩
  have hno : (flushOutput fp).1=false := hno
  simp [flushLine,hno]

lemma bufferByte_puts (hcan : CanBuffer fp) (ch : Byte) :
    Puts fp (if (bufferByte fp ch).1 then [ch] else []) (bufferByte fp ch).2 := by
  obtain ⟨hcan',hr⟩:=makeRoom_puts hcan
  unfold bufferByte
  generalize makeRoom fp=r at hcan' hr ⊢
  have hput : Puts r.2 [ch] {r.2 with buf := r.2.buf++[ch]} :=
    ⟨fun ht => ⟨ht,(append_assoc ..).symm⟩,fun hno => absurd hcan' hno⟩
  by_cases hfull : r.1=false
  · rw [if_pos hfull,hfull]
    exact hr
  rw [if_neg hfull]
  by_cases hline : r.2.mode=.iolbf ∧ ch=10
  · rw [if_pos hline]
    have hcan2 : CanBuffer {r.2 with buf := r.2.buf++[ch]} := hcan'
    obtain ⟨hl,htorn⟩:=flushLine_puts hcan2
    by_cases hok : (flushLine {r.2 with buf := r.2.buf++[ch]}).1=true
    · rw [if_pos hok]
      exact hr.trans (hput.trans hl)
    · -- the newline is refused and stays in the buffer
      have ht:=htorn (eq_false_of_not_eq_true hok)
      exact ⟨fun hf => absurd (ht.symm.trans hf) false_ne_true.symm,fun hno => absurd hcan' (hl.direct hno).1⟩
  · rw [if_neg hline]
    exact hr.trans hput

lemma writeByte_puts (hd : ¬ CanBuffer fp → fp.buf=[]) (ch : Byte) :
    Puts fp (if (writeByte fp ch).1 then [ch] else []) (writeByte fp ch).2 := by
  by_cases hcan : CanBuffer fp
  · rw [writeByte,if_pos hcan]
    exact bufferByte_puts hcan ch
  have h:=directWrite_puts (hd hcan) [ch]
  have hle : (directWrite fp [ch]).1 ≤ 1 := by
    have hlen:=congrArg length (writeLoop_append fp.ws [ch])
    rw [length_append,length_singleton] at hlen
    exact hlen ▸ Nat.le_add_right _ _
  rw [writeByte,if_neg hcan]
  convert h using 1
  obtain h0 | h1 : (directWrite fp [ch]).1=0 ∨ (directWrite fp [ch]).1=1 := by omega
  · simp [h0]
  · simp [h1]

lemma writeBytes_puts (hd : ¬ CanBuffer fp → fp.buf=[]) (data : List Byte) :
    Puts fp (data.take (writeBytes data fp).1) (writeBytes data fp).2 := by
  induction data generalizing fp with
  | nil => exact ⟨fun ht => ⟨ht,by simp [writeBytes]⟩,fun hno => ⟨hno,rfl⟩⟩
  | cons ch rest ih =>
    have hone:=writeByte_puts hd ch
    rw [writeBytes]
    split_ifs with hok
    · rw [if_pos hok] at hone
      exact hone.trans (ih fun hno => ((hone.direct hno).2).trans (hd (hone.direct hno).1))
    · rw [if_neg hok] at hone
      exact hone

lemma fwrite_puts (hd : ¬ CanBuffer fp → fp.buf=[]) (data : List Byte) :
    Puts fp (data.take (fwrite fp data).1) (fwrite fp data).2 := by
  rw [fwrite]
  split_ifs with hcan
  · exact writeBytes_puts hd data
  · exact directWrite_puts (hd hcan) data

/-- A call that puts `data` into the stream and reports it. -/
lemma Inv.puts {data : List Byte} {b : Bool} (h : Inv fp) (hp : Puts fp data fp') :
    Inv {fp' with taken := fp.taken++data,flushed := b} := by
  refine ⟨fun ht => ?_,fun hno => ?_⟩
  · obtain ⟨ht,hall⟩:=hp.whole ht
    exact hall.trans (by rw [h.whole ht])
  · obtain ⟨hno,hbuf⟩:=hp.direct hno
    exact hbuf.trans (h.direct hno)

lemma Inv.flush (h : Inv fp) : Inv (flushOutput fp).2 := by
  have hcan : CanBuffer fp ∨ fp.buf=[] := or_iff_not_imp_left.mpr h.direct
  have hp:=h.puts (b := (flushOutput fp).2.flushed) (flush_puts hcan)
  have htaken : (flushOutput fp).2.taken=fp.taken := by
    simp only [flushOutput]
    split_ifs <;> rfl
  refine ⟨fun ht => ?_,hp.direct⟩
  have hall:=hp.whole ht
  rwa [append_nil,← htaken] at hall

lemma Inv.setvbuf (h : Inv fp) (mode : Mode) (size : ℕ) (given page : Bool) :
    Inv (setvbuf fp mode size given page) := by
  simp only [Stdio.setvbuf]
  split_ifs with hok
  · exact h.flush
  all_goals
    refine ⟨fun ht => ?_,fun _ => rfl⟩
    rw [← h.flush.whole ht,flush_ok (by simpa using hok)]

lemma Inv.firstPart (h : Inv fp) (ht : fp.torn=false) : fp.out<+:fp.taken := ⟨fp.buf,h.whole ht⟩
lemma Inv.flushed (h : Inv fp) (ht : (flushOutput fp).2.torn=false) (hok : (flushOutput fp).1=true) :
    (flushOutput fp).2.out=(flushOutput fp).2.taken := by
  rw [← h.flush.whole ht,flush_ok hok,append_nil]

structure RunInv (fp : Stream) : Prop where
  stream : fp.closed=false → Inv fp
  once : fp.torn=false → WrittenOnce fp

lemma Inv.runInv (h : Inv fp) (hf : fp.flushed=false) : RunInv fp :=
  ⟨fun _ => h,fun ht => ⟨h.firstPart ht,by simp [hf]⟩⟩

lemma RunInv.step {a : Action} (h : RunInv fp) (hs : step fp a=some fp') : RunInv fp' := by
  rw [Stdio.step] at hs
  split_ifs at hs with hclosed
  have hi:=h.stream (by simpa using hclosed)
  cases hs
  cases a with
  | fputc ch => exact (hi.puts (writeByte_puts hi.direct ch)).runInv rfl
  | fputs s => exact (hi.puts (writeBytes_puts hi.direct s)).runInv rfl
  | fwrite data => exact (hi.puts (fwrite_puts hi.direct data)).runInv rfl
  | fflush =>
    exact ⟨fun _ => ⟨hi.flush.whole,hi.flush.direct⟩,fun ht => ⟨hi.flush.firstPart ht,hi.flushed ht⟩⟩
  | setvbuf mode size given page =>
    have hv:=hi.setvbuf mode size given page
    exact Inv.runInv ⟨hv.whole,hv.direct⟩ rfl
  | fseek => exact Inv.runInv ⟨hi.flush.whole,hi.flush.direct⟩ rfl
  | fclose => exact ⟨nofun,fun ht => ⟨hi.flush.firstPart ht,hi.flushed ht⟩⟩

end Auxv6.Libc.Stdio

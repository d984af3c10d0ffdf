import Auxv6.Net.SocketLifetime

/-!
# Polling sockets (net/socket.c)

`socket_poll_events` counts bytes and queued connections. It asks neither for the end of file
nor for what else the send on a local stream tests.
-/

namespace Auxv6.Net.Sockets
open Lib.Transition

def listening (s : Socket) : Prop := s.type=.stream ∧ s.state=.listen
  deriving Decidable

/-- `readable` of `socket_poll_events` (`socket.c:3221-3224`). -/
def pollReadable (s : Socket) : Bool := if listening s then s.listenq≠[] else 0<s.recvLen

/-- `writable` of `socket_poll_events` (`socket.c:3226-3234`). -/
def pollWritable (t : Table) (s : Socket) : Bool :=
  match s.type with
  | .stream =>
    if s.family=.unix then s.state=.estab ∧ ∃ y∈s.peer,(t.sock y).state≠.closed
    else s.state=.estab ∧ s.tcp.state=.established
  | .dgram => s.state ∈ [.bound,.connect,.estab]
  | .raw => s.state ∈ [.bound,.connect]
  | .none => false

/-- `socket.c:337-349`. -/
def streamEof (t : Table) (s : Socket) : Bool :=
  if s.family=.unix then s.type=.stream ∧ s.recvLen=0 ∧ ∀ y∈s.peer,(t.sock y).state=.closed
  else socketStreamEof s

/-- `recv` of `n > 0` bytes (`socket.c:964-995`, `2457-2467`); `none` while it sleeps. -/
def sysRecv (t : Table) (s : Socket) (n : ℕ) : Option (List Byte) :=
  if s.recvLen=0 then if streamEof t s then some [] else none else some (socketRecvCopy s n).1

/-- `socket_local_stream_send_locked` without rights (`socket.c:458-506`); `none` for -1. -/
def localStreamSend (t : Table) (s : Socket) (buf : List Byte) : Option (ℕ × Table) :=
  if s.family≠.unix ∨ s.type≠.stream ∨ s.shutWr then none
  else match s.peer with
    | none => none
    | some y =>
      let space:=(t.sock y).recvCap-(t.sock y).recvLen
      if (t.sock y).state=.closed ∨ (t.sock y).shutRd ∨ space=0 then none
      else some ((buf.take space).length,t.modify y fun p =>
        {p with recvBuf := p.recvBuf.map (· ++ buf.take space)})

structure PollAgrees (t : Table) (x : SockId) : Prop where
  accept : listening (t.sock x) → ∀ file fd route now,
    (pollReadable (t.sock x)=true ↔ sysAccept t x file fd route now≠none)
  recv : ¬ listening (t.sock x) → ∀ n,(pollReadable (t.sock x)=true ↔ sysRecv t (t.sock x) n≠none)
  send : (t.sock x).family=.unix → (t.sock x).type=.stream → ∀ b,
    (pollWritable t (t.sock x)=true ↔ ∃ u,localStreamSend t (t.sock x) [b]=some (1,u))

structure Pollable (t : Table) (s : Socket) : Prop where
  eof : ¬ listening s → streamEof t s=false
  send : s.family=.unix → s.type=.stream → ∀ y∈s.peer,(t.sock y).state≠.closed →
    (s.state=.estab ↔ s.shutWr=false ∧ (t.sock y).shutRd=false ∧ (t.sock y).recvLen<(t.sock y).recvCap)

variable {t : Table}

lemma sysAccept_ne_none {x : SockId} (hl : listening (t.sock x)) (file fd : Bool)
    (route : ℕ → Route) (now : Word) : sysAccept t x file fd route now≠none ↔ (t.sock x).listenq≠[] := by
  unfold sysAccept
  rw [if_neg (by simp [hl.1,hl.2])]
  split
  next h => simp [h]
  next h => split_ifs <;> simp [h]

lemma sysRecv_ne_none (t : Table) (s : Socket) (n : ℕ) : sysRecv t s n≠none ↔ 0<s.recvLen ∨ streamEof t s=true := by
  unfold sysRecv
  split_ifs with h0 he
  · simp [he]
  · simp [h0,he]
  · simp [Nat.pos_of_ne_zero h0]

lemma streamEof_empty {s : Socket} (h : streamEof t s=true) : s.recvLen=0 := by
  unfold streamEof socketStreamEof at h
  split_ifs at h <;> exact (of_decide_eq_true h).2.1

lemma localStreamSend_one {s : Socket} {y : SockId} (hf : s.family=.unix) (ht : s.type=.stream)
    (hy : s.peer=some y) (b : Byte) : (∃ u,localStreamSend t s [b]=some (1,u)) ↔
      (t.sock y).state≠.closed ∧ s.shutWr=false ∧ (t.sock y).shutRd=false ∧
        (t.sock y).recvLen<(t.sock y).recvCap := by
  have htake {n : ℕ} (hn : n≠0) : [b].take n=[b] := List.take_of_length_le (Nat.pos_of_ne_zero hn)
  simp only [localStreamSend,hf,ht,hy,ne_eq,not_true_eq_false,false_or]
  split_ifs with hw hno
  · simp [hw]
  · refine iff_of_false (by simp) ?_
    rintro ⟨h1,-,h2,h3⟩
    rw [h2] at hno
    simp only [h1,Bool.false_eq_true,false_or] at hno
    omega
  · simp only [not_or,Bool.not_eq_true] at hno hw
    rw [htake hno.2.2]
    exact iff_of_true ⟨_,rfl⟩ ⟨hno.1,hw,hno.2.1,by omega⟩

/-- What `socket_poll_events` reports agrees with the calls exactly in the states in which
what it does not ask for is decided. -/
theorem poll_agrees (t : Table) (x : SockId) : PollAgrees t x ↔ Pollable t (t.sock x) := by
  have hread (hl : ¬ listening (t.sock x)) : pollReadable (t.sock x)=true ↔ 0<(t.sock x).recvLen := by
    simp [pollReadable,hl]
  have hwrite (hf : (t.sock x).family=.unix) (ht : (t.sock x).type=.stream) : pollWritable t (t.sock x)=true ↔
      (t.sock x).state=.estab ∧ ∃ y∈(t.sock x).peer,(t.sock y).state≠.closed := by
    simp [pollWritable,hf,ht]
  refine ⟨fun h => ⟨fun hl => ?_,fun hf ht y hy hopen => ?_⟩,
    fun h => ⟨fun hl file fd route now => ?_,fun hl n => ?_,fun hf ht b => ?_⟩⟩
  · by_contra heof
    have heof:=Bool.not_eq_false _ ▸ heof
    have hpos:=(hread hl).mp ((h.recv hl 1).mpr ((sysRecv_ne_none ..).mpr (.inr heof)))
    exact hpos.ne' (streamEof_empty heof)
  · have hs:=h.send hf ht 0
    rw [hwrite hf ht,localStreamSend_one hf ht hy] at hs
    simpa [Option.mem_def.mp hy,hopen] using hs
  · rw [sysAccept_ne_none hl]
    simp [pollReadable,hl]
  · rw [hread hl,sysRecv_ne_none,h.eof hl]
    simp
  · rw [hwrite hf ht]
    cases hy : (t.sock x).peer with
    | none => simp [localStreamSend,hy]
    | some y =>
      rw [localStreamSend_one hf ht hy]
      by_cases hopen : (t.sock y).state=.closed
      · simp [hopen]
      · simpa [hopen] using h.send hf ht y hy hopen

theorem poll_misses_eof : ∃ t,run step socketInit [pair,closeFile 0]=some t ∧
    ∃ x,(t.sock x).ref≠0 ∧ ¬ PollAgrees t x := by
  obtain ⟨t,ht,x,href,hl,hpoll,hrecv⟩ : ∃ t,run step socketInit [pair,closeFile 0]=some t ∧
      ∃ x,(t.sock x).ref≠0 ∧ ¬ listening (t.sock x) ∧ pollReadable (t.sock x)=false ∧
        sysRecv t (t.sock x) 1=some [] := by
    decide +kernel
  refine ⟨t,ht,x,href,fun h => ?_⟩
  have hp:=(h.recv hl 1).mpr (by rw [hrecv]; simp)
  rw [hpoll] at hp
  cases hp

end Auxv6.Net.Sockets

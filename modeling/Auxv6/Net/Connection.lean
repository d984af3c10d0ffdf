import Auxv6.Lib.Transition
import Auxv6.Net.Tcp

/-!
# A TCP connection over a run (net/tcp.c, net/socket.c)

One network connection from the SYN of `tcp_connect` on: the calls on its socket, the segments that
arrive and the timer, in any order. Recorded are the bytes copied into the receive buffer and those
handed to the reader, the bytes that `tcp_output` numbered, with whether it kept them, and the highest
place that an acknowledgement covered. The SYN has place 0.
-/

namespace Auxv6.Net
open Lib Lib.SeqSpace

structure Conn where
  sock : Socket
  accepted : List Byte
  delivered : List Byte
  finSeen : Bool
  up : Bool
  gone : Bool
  eof : Bool
  stream : List (Byte × Bool)
  finSent : Bool
  acked : ℤ
  out : List Segment

inductive Event where
  | output (payload : List Byte) (page : Bool) (now : Word)
  | close (now : Word)
  | input (src : SockAddr) (g : Segment) (now : Word)
  | tick (now : Word)
  | timeout
  | read (n : ℕ)

def Conn.start (o : Outcome) : Conn where
  sock := o.sock
  accepted := []
  delivered := []
  finSeen := false
  up := false
  gone := false
  eof := false
  stream := []
  finSent := false
  acked := 0
  out := o.sent

def Conn.nxt (c : Conn) : ℤ := 1+c.stream.length+if c.finSent then 1 else 0

/-- The place that an acknowledgement number covers up to, at or below `snd_nxt`. -/
def Conn.ackPlace (c : Conn) (g : Segment) : ℤ := c.nxt-(c.sock.tcp.sndNxt-g.ackNum).toNat

def added (s s' : Socket) : List Byte := (s'.recvBuf.getD []).drop s.recvLen
def tookFin (s s' : Socket) (g : Segment) : Bool :=
  g.fin && s'.tcp.rcvNxt == s.tcp.rcvNxt+BitVec.ofNat 32 (added s s').length+1
def numbered (s : Socket) (payload : List Byte) : List Byte :=
  if s.tcp.state=.established then payload.take tcpMaxSegmentData else []
def Conn.output (c : Conn) (payload : List Byte) (page : Bool) (now : Word) : Conn :=
  let o:=tcpOutput c.sock payload page now
  let kept:=c.sock.tcp.unackedBuf.isNone && page
  { c with sock := o.sock,out := o.sent
           stream := c.stream++(numbered c.sock payload).map (·,kept) }

def Conn.close (c : Conn) (now : Word) : Conn :=
  let o:=tcpClose c.sock .network now
  let st:=c.sock.tcp.state
  { c with sock := o.sock,out := o.sent
           finSent := c.finSent || st == .established || st == .closeWait
           gone := c.gone || st == .synSent }

def Conn.input (c : Conn) (src : SockAddr) (g : Segment) (now : Word) : Conn :=
  let o:=tcpInput c.sock src g now
  { c with sock := o.sock,out := o.sent
           accepted := c.accepted++added c.sock o.sock
           finSeen := c.finSeen || (c.up && tookFin c.sock o.sock g)
           up := c.up || o.sock.tcp.state == .established
           gone := c.gone || g.rst
           acked := if g.ack then max c.acked (c.ackPlace g) else c.acked }

def Conn.tick (c : Conn) (now : Word) : Conn :=
  let o:=tcpSlowtimo c.sock .network now
  { c with sock := o.sock,out := o.sent
           gone := c.gone || (o.sock.tcp.state == .closed &&
             c.sock.tcp.state != .closed && c.sock.tcp.state != .timeWait) }
def Conn.timeout (c : Conn) : Conn :=
  { c with sock := tcpConnectTimeout c.sock,out := []
           gone := c.gone || c.sock.tcp.state == .synSent }

/-- A read of 0 bytes returns at once; a read that has to sleep is no step. -/
def Conn.read (c : Conn) (n : ℕ) : Option Conn :=
  if n=0 then some {c with out := []}
  else (socketFileread c.sock n .network).map fun (bytes,o) =>
    { c with sock := o.sock,out := o.sent,delivered := c.delivered++bytes
             eof := c.eof || (bytes.isEmpty && !c.gone) }

def step (c : Conn) : Event → Option Conn
  | .output payload page now => some (c.output payload page now)
  | .close now => some (c.close now)
  | .input src g now => some (c.input src g now)
  | .tick now => some (c.tick now)
  | .timeout => some c.timeout
  | .read n => c.read n

def Socket.room (s : Socket) : ℕ := s.recvCap-s.recvLen

lemma tcpRecvWindow_le (s : Socket) : tcpRecvWindow s ≤ s.room := by
  unfold tcpRecvWindow Socket.room
  split_ifs <;> omega

structure SameRecv (s s' : Socket) : Prop where
  buf : s'.recvBuf=s.recvBuf
  cap : s'.recvCap=s.recvCap
  irs : s'.tcp.irs=s.tcp.irs
  rcvNxt : s'.tcp.rcvNxt=s.tcp.rcvNxt

lemma SameRecv.refl (s : Socket) : SameRecv s s := ⟨rfl,rfl,rfl,rfl⟩

variable {s : Socket}

lemma SameRecv.trans {t u : Socket} (h : SameRecv s t) (h' : SameRecv t u) : SameRecv s u :=
  ⟨h'.buf.trans h.buf,h'.cap.trans h.cap,h'.irs.trans h.irs,h'.rcvNxt.trans h.rcvNxt⟩
lemma SameRecv.room {s' : Socket} (h : SameRecv s s') : s'.room=s.room := by
  unfold Socket.room Socket.recvLen
  rw [h.buf,h.cap]

structure Quiet (s : Socket) (o : Outcome) : Prop where
  recv : SameRecv s o.sock
  win : ∀ g∈o.sent,g.win ≤ s.room

lemma quiet_idle (s : Socket) : Quiet s s.idle := ⟨.refl s,by simp [Socket.idle]⟩
lemma SameRecv.quiet {s' : Socket} (h : SameRecv s s') : Quiet s s'.idle := ⟨h,by simp [Socket.idle]⟩

lemma tcpOutput_quiet (s : Socket) (payload : List Byte) (page : Bool) (now : Word) :
    Quiet s (tcpOutput s payload page now) := by
  unfold tcpOutput
  split_ifs
  · exact quiet_idle s
  all_goals
    refine ⟨⟨rfl,rfl,rfl,rfl⟩,?_⟩
    simp [dataSegment,tcpRecvWindow_le]

lemma sendFin_quiet (s : Socket) (st : TcpState) (now : Word) : Quiet s (sendFin s st now) := by
  refine ⟨⟨rfl,rfl,rfl,rfl⟩,?_⟩
  intro g hg
  obtain rfl:=List.mem_singleton.mp hg
  exact tcpRecvWindow_le _

lemma tcpClose_quiet (s : Socket) (route : Route) (now : Word) : Quiet s (tcpClose s route now) := by
  unfold tcpClose
  split_ifs
  · exact quiet_idle s
  split
  · exact sendFin_quiet s _ now
  · exact sendFin_quiet s _ now
  · exact SameRecv.quiet ⟨rfl,rfl,rfl,rfl⟩
  · exact SameRecv.quiet ⟨rfl,rfl,rfl,rfl⟩

lemma tcpClose_network (s : Socket) (now : Word) :
    (s.tcp.state=.established ∧ tcpClose s .network now=sendFin s .finWait1 now) ∨
    (s.tcp.state=.closeWait ∧ tcpClose s .network now=sendFin s .lastAck now) ∨
    (s.tcp.state=.synSent ∧ tcpClose s .network now =
      {s with state := .closed,tcp := {s.tcp with state := .closed,unackedBuf := none}}.idle) ∨
    (s.tcp.state≠.established ∧ s.tcp.state≠.closeWait ∧
      tcpClose s .network now = {s with tcp := {s.tcp with unackedBuf := none}}.idle) := by
  unfold tcpClose
  rw [if_neg (by simp)]
  split
  · exact .inl ⟨by assumption,rfl⟩
  · exact .inr (.inl ⟨by assumption,rfl⟩)
  · exact .inr (.inr (.inl ⟨by assumption,rfl⟩))
  next h1 h2 _ => exact .inr (.inr (.inr ⟨h1,h2,rfl⟩))

structure SameSend (s s' : Socket) : Prop where
  iss : s'.tcp.iss=s.tcp.iss
  sndUna : s'.tcp.sndUna=s.tcp.sndUna
  sndNxt : s'.tcp.sndNxt=s.tcp.sndNxt
  unackedBuf : s'.tcp.unackedBuf=s.tcp.unackedBuf
  unackedLen : s'.tcp.unackedLen=s.tcp.unackedLen
  unackedSeq : s'.tcp.unackedSeq=s.tcp.unackedSeq
  finSeq : s'.tcp.finSeq=s.tcp.finSeq

lemma SameSend.refl (s : Socket) : SameSend s s := ⟨rfl,rfl,rfl,rfl,rfl,rfl,rfl⟩

structure SameState (s s' : Socket) : Prop where
  tcp : s'.tcp.state=s.tcp.state
  sock : s'.state=s.state

lemma SameState.refl (s : Socket) : SameState s s := ⟨rfl,rfl⟩

structure Closed (s : Socket) : Prop where
  tcp : s.tcp.state=.closed
  sock : s.state=.closed

structure TimerStep (s : Socket) (o : Outcome) : Prop where
  quiet : Quiet s o
  cases : (SameState s o.sock ∧ SameSend s o.sock) ∨
    (Closed o.sock ∧ s.tcp.state≠.closed ∧ (s.tcp.state=.timeWait → SameSend s o.sock))

lemma timerStep_idle (s : Socket) : TimerStep s s.idle := ⟨quiet_idle s,.inl ⟨.refl s,.refl s⟩⟩

lemma timerStep_resend (now : Word) {g : Segment}
    (hg : g.win=tcpRecvWindow (s.resend now)) : TimerStep s ⟨s.resend now,[g],false⟩ := by
  refine ⟨⟨⟨rfl,rfl,rfl,rfl⟩,?_⟩,.inl ⟨⟨rfl,rfl⟩,⟨rfl,rfl,rfl,rfl,rfl,rfl,rfl⟩⟩⟩
  intro g' hg'
  obtain rfl:=List.mem_singleton.mp hg'
  rw [hg]
  exact tcpRecvWindow_le _

lemma tcpRetransmitCheck_timerStep (s : Socket) (now : Word) : TimerStep s (tcpRetransmitCheck s now) := by
  unfold tcpRetransmitCheck
  by_cases hst : s.tcp.state≠.established ∧ s.tcp.state≠.finWait1
  · rw [if_pos hst]
    exact timerStep_idle s
  rw [if_neg hst]
  have htw : s.tcp.state≠.timeWait := fun h => hst (by simp [h])
  have hcl : s.tcp.state≠.closed := fun h => hst (by simp [h])
  cases s.tcp.unackedBuf with
  | none => exact timerStep_idle s
  | some data =>
    split_ifs
    · exact timerStep_idle s
    · exact ⟨⟨⟨rfl,rfl,rfl,rfl⟩,by simp⟩,.inr ⟨⟨rfl,rfl⟩,hcl,fun h => absurd h htw⟩⟩
    · exact ⟨⟨⟨rfl,rfl,rfl,rfl⟩,by simp [rstSegment]⟩,.inr ⟨⟨rfl,rfl⟩,hcl,fun h => absurd h htw⟩⟩
    · exact timerStep_resend now rfl

lemma tcpTimewaitCheck_timerStep (s : Socket) (now : Word) : TimerStep s (tcpTimewaitCheck s now) := by
  unfold tcpTimewaitCheck
  split_ifs with hst
  · exact timerStep_idle s
  · exact timerStep_idle s
  · exact ⟨⟨⟨rfl,rfl,rfl,rfl⟩,by simp⟩,
      .inr ⟨⟨rfl,rfl⟩,fun h => hst (by simp [h]),fun _ => ⟨rfl,rfl,rfl,rfl,rfl,rfl,rfl⟩⟩⟩

lemma tcpSynRetransmit_timerStep (s : Socket) (now : Word) : TimerStep s (tcpSynRetransmit s now) := by
  unfold tcpSynRetransmit
  split_ifs with hst
  · exact timerStep_idle s
  · exact timerStep_idle s
  · exact ⟨SameRecv.quiet ⟨rfl,rfl,rfl,rfl⟩,
      .inr ⟨⟨rfl,rfl⟩,fun h => hst (by simp [h]),fun _ => ⟨rfl,rfl,rfl,rfl,rfl,rfl,rfl⟩⟩⟩
  · exact timerStep_resend now rfl

lemma tcpFinRetransmit_timerStep (s : Socket) (now : Word) : TimerStep s (tcpFinRetransmit s now) := by
  unfold tcpFinRetransmit
  split_ifs with hst
  · exact timerStep_idle s
  · exact timerStep_idle s
  · exact timerStep_idle s
  · exact timerStep_idle s
  · exact ⟨⟨⟨rfl,rfl,rfl,rfl⟩,by simp⟩,
      .inr ⟨⟨rfl,rfl⟩,fun h => hst (by simp [h]),fun _ => ⟨rfl,rfl,rfl,rfl,rfl,rfl,rfl⟩⟩⟩
  · exact timerStep_resend now rfl

lemma TimerStep.then {o o' : Outcome} (h : TimerStep s o) (ho : o.sock.tcp.state≠.closed)
    (h' : TimerStep o.sock o') : TimerStep s ⟨o'.sock,o.sent++o'.sent,o.deref || o'.deref⟩ := by
  obtain ⟨hst,hsnd⟩:=h.cases.resolve_right fun hc => ho hc.1.tcp
  refine ⟨⟨h.quiet.recv.trans h'.quiet.recv,?_⟩,?_⟩
  · intro g hg
    rcases List.mem_append.mp hg with hg | hg
    · exact h.quiet.win g hg
    · rw [← h.quiet.recv.room]
      exact h'.quiet.win g hg
  have hcomp : ∀ {u},SameSend o.sock u → SameSend s u := fun hu =>
    ⟨hu.iss.trans hsnd.iss,hu.sndUna.trans hsnd.sndUna,hu.sndNxt.trans hsnd.sndNxt,
      hu.unackedBuf.trans hsnd.unackedBuf,hu.unackedLen.trans hsnd.unackedLen,
      hu.unackedSeq.trans hsnd.unackedSeq,hu.finSeq.trans hsnd.finSeq⟩
  rcases h'.cases with ⟨hst',hsnd'⟩ | ⟨hc,hne,hsnd'⟩
  · exact .inl ⟨⟨hst'.tcp.trans hst.tcp,hst'.sock.trans hst.sock⟩,hcomp hsnd'⟩
  · exact .inr ⟨hc,hst.tcp ▸ hne,fun htw => hcomp (hsnd' (hst.tcp.trans htw))⟩

lemma tcpSlowtimo_timerStep (s : Socket) (route : Route) (now : Word) : TimerStep s (tcpSlowtimo s route now) := by
  have hfin : TimerStep s (if s.tcp.state=.finWait1 ∨ s.tcp.state=.lastAck then
      tcpFinRetransmit s now else s.idle) := by
    split_ifs
    · exact tcpFinRetransmit_timerStep s now
    · exact timerStep_idle s
  unfold tcpSlowtimo
  dsimp only
  generalize (if s.tcp.state=.finWait1 ∨ s.tcp.state=.lastAck then
      tcpFinRetransmit s now else s.idle)=r at hfin ⊢
  split_ifs with h1 h2 h3 h4
  · exact tcpTimewaitCheck_timerStep s now
  · exact timerStep_idle s
  · exact tcpSynRetransmit_timerStep s now
  · refine hfin.then ?_ (tcpRetransmitCheck_timerStep _ now)
    rcases h4.1 with h | h <;> simp [h]
  · exact hfin

lemma tcpAck_sameRecv (s : Socket) (g : Segment) (now : Word) : SameRecv s (tcpAck s g now) := by
  unfold tcpAck noteWindow
  split_ifs <;> exact ⟨rfl,rfl,rfl,rfl⟩
lemma tcpAck_sameState (s : Socket) (g : Segment) (now : Word) : SameState s (tcpAck s g now) := by
  unfold tcpAck noteWindow
  split_ifs <;> exact ⟨rfl,rfl⟩

def newSocket : Socket where
  state := .closed
  type := .stream
  family := .inet
  localAddr := ⟨0,0⟩
  remoteAddr := ⟨0,0⟩
  unixPath := []
  recvBuf := some []
  recvCap := 4096
  tcp := ⟨.closed,0,0,0,0,0,0,0,0,0,0,none,0,0,0,0,false⟩
  peer := none
  backlog := 0
  listenq := []
  ref := 1
  reuseaddr := false
  shutRd := false
  shutWr := false

def server : SockAddr := ⟨80,0x0a000002⟩
def synAck (irs ackNum : Word) : Segment := ⟨irs,ackNum,true,false,false,true,4096,[]⟩
def ackOnly (seq ackNum : Word) : Segment := ⟨seq,ackNum,false,false,false,true,4096,[]⟩
def firstCall : Outcome := (tcpConnect newSocket server 40000 1000 0).get (by decide)

end Auxv6.Net

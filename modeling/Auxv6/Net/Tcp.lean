import Auxv6.Lib.SeqSpace

/-!
# TCP on one socket (net/tcp.c, include/socket.h)

What the TCP functions do to the socket they found: each is a section under `socket_lock`, followed by the
segments it hands to `tcp_send_segment` and by whether it calls `socket_deref`. The segments that
`tcpInput` takes passed the header and checksum tests. `rcv_wnd`, which is never read, the send buffer,
which nothing fills, and `wakeup` are left out.
-/

namespace Auxv6.Net
open Lib.SeqSpace

abbrev Word := BitVec 32
abbrev Byte := UInt8

def nsocket : ℕ := 64
abbrev SockId := Fin nsocket

def tcpMaxSegmentData : ℕ := 2048-20-40
def tcpRtoInit : Word := 100
def tcpRtoMin : Word := 20
def tcpRtoMax : Word := 6000
def tcpTimeWaitTicks : Word := 12000
def tcpMaxRetransmit : Word := 5

inductive Family where
  | unspec | inet | unix
  deriving DecidableEq

inductive SockType where
  | none | stream | dgram | raw
  deriving DecidableEq

inductive SockState where
  | closed | bound | listen | connect | estab
  deriving DecidableEq

inductive TcpState where
  | closed | listen | synSent | synReceived | established
  | finWait1 | finWait2 | closeWait | lastAck | timeWait
  deriving DecidableEq

inductive Route where
  | unreachable | loopback | network
  deriving DecidableEq

structure SockAddr where
  port : ℕ
  addr : ℕ
  deriving DecidableEq

structure Segment where
  seq : Word
  ackNum : Word
  syn : Bool
  fin : Bool
  rst : Bool
  ack : Bool
  win : ℕ
  data : List Byte
  deriving DecidableEq

def Segment.len (g : Segment) : Word := BitVec.ofNat 32 g.data.length

structure Tcpcb where
  state : TcpState
  iss : Word
  irs : Word
  sndUna : Word
  sndNxt : Word
  sndWnd : ℕ
  rcvNxt : Word
  rto : Word
  rttEst : Word
  retransmits : Word
  lastSend : Word
  unackedBuf : Option (List Byte)
  unackedLen : Word
  unackedSeq : Word
  finSeq : Word
  timeWaitStart : Word
  closePending : Bool
  deriving DecidableEq

structure Socket where
  state : SockState
  type : SockType
  family : Family
  localAddr : SockAddr
  remoteAddr : SockAddr
  unixPath : List Byte
  recvBuf : Option (List Byte)
  recvCap : ℕ
  tcp : Tcpcb
  peer : Option SockId
  backlog : ℕ
  listenq : List SockId
  ref : ℕ
  reuseaddr : Bool
  shutRd : Bool
  shutWr : Bool
  deriving DecidableEq

def Socket.recvLen (s : Socket) : ℕ := (s.recvBuf.getD []).length

/-- What a section leaves: the socket, the segments sent after it, and whether
`socket_deref` follows. -/
structure Outcome where
  sock : Socket
  sent : List Segment
  deref : Bool
  deriving DecidableEq

def Socket.idle (s : Socket) : Outcome := ⟨s,[],false⟩

/-- `tcp.c:67-79`. -/
def tcpRecvWindow (s : Socket) : ℕ := if s.recvCap ≤ s.recvLen then 0 else min (s.recvCap-s.recvLen) 0xffff

/-! ### Segments sent -/

def synSegment (s : Socket) : Segment := ⟨s.tcp.iss,0,true,false,false,false,tcpRecvWindow s,[]⟩
def ackSegment (s : Socket) : Segment := ⟨s.tcp.sndNxt,s.tcp.rcvNxt,false,false,false,true,tcpRecvWindow s,[]⟩
def finSegment (s : Socket) : Segment := ⟨s.tcp.finSeq,s.tcp.rcvNxt,false,true,false,true,tcpRecvWindow s,[]⟩
def dataSegment (s : Socket) (seq : Word) (data : List Byte) : Segment :=
  ⟨seq,s.tcp.rcvNxt,false,false,false,true,tcpRecvWindow s,data⟩
def rstSegment (s : Socket) : Segment := ⟨s.tcp.unackedSeq,s.tcp.rcvNxt,false,false,true,false,0,[]⟩

/-! ### Connecting, sending, closing -/

/-- `tcp_connect` on a network interface, up to its wait (`tcp.c:437-477`); `port` is
the answer of `socket_alloc_port_locked`. -/
def tcpConnect (s : Socket) (dst : SockAddr) (port : ℕ) (iss now : Word) : Option Outcome :=
  if s.state=.listen ∨ s.tcp.state≠.closed then none
  else if s.localAddr.port=0 ∧ port=0 then none
  else
    let s':={ s with
      localAddr := if s.localAddr.port=0 then {s.localAddr with port := port} else s.localAddr
      remoteAddr := dst
      state := .connect
      tcp := { s.tcp with
        state := .synSent,iss := iss,sndUna := iss,sndNxt := iss+1,irs := 0,rcvNxt := 0
        rto := tcpRtoInit,rttEst := 0,retransmits := 0,unackedBuf := none,unackedLen := 0
        unackedSeq := 0,finSeq := 0,timeWaitStart := 0,lastSend := now } }
    some ⟨s',[synSegment s'],false⟩

/-- The end of `tcp_connect` when its time is up (`tcp.c:502-508`). -/
def tcpConnectTimeout (s : Socket) : Socket :=
  if s.tcp.state=.synSent then
    { s with state := .closed,remoteAddr := ⟨0,0⟩,tcp := {s.tcp with state := .closed} }
  else s

/-- `tcp_output` on a network interface (`tcp.c:537-592`); `page` says whether `kalloc`
has a page. A sequence number of 0 is taken for "no such connection". -/
def tcpOutput (s : Socket) (payload : List Byte) (page : Bool) (now : Word) : Outcome :=
  if s.tcp.state≠.established then s.idle
  else
    let data:=payload.take tcpMaxSegmentData
    let seq:=s.tcp.sndNxt
    let t:={s.tcp with sndNxt := seq+BitVec.ofNat 32 data.length}
    -- only one segment is kept for retransmission
    let t:=if s.tcp.unackedBuf=none ∧ page then
        { t with unackedBuf := some data,unackedLen := BitVec.ofNat 32 data.length
                 unackedSeq := seq,lastSend := now }
      else t
    ⟨{s with tcp := t},if seq=0 then [] else [dataSegment s seq data],false⟩

def sendFin (s : Socket) (st : TcpState) (now : Word) : Outcome :=
  let s':={ s with tcp := { s.tcp with
    finSeq := s.tcp.sndNxt,sndNxt := s.tcp.sndNxt+1,state := st
    unackedBuf := none,lastSend := now,retransmits := 0 } }
  ⟨s',[finSegment s'],false⟩

/-- `tcp.c:175-246`. -/
def tcpClose (s : Socket) (route : Route) (now : Word) : Outcome :=
  if route≠.network then s.idle
  else match s.tcp.state with
    | .established => sendFin s .finWait1 now
    | .closeWait => sendFin s .lastAck now
    | .synSent =>
      { s with state := .closed,tcp := {s.tcp with state := .closed,unackedBuf := none} }.idle
    | _ => { s with tcp := {s.tcp with unackedBuf := none} }.idle

/-! ### Timers -/

def tcpBackoff (rto : Word) : Word := if tcpRtoMax<rto*2 then tcpRtoMax else rto*2
def Socket.shut (s : Socket) : Socket :=
  { s with state := .closed,tcp := {s.tcp with state := .closed,closePending := false} }
def Socket.resend (s : Socket) (now : Word) : Socket :=
  { s with tcp := { s.tcp with
    retransmits := s.tcp.retransmits+1,rto := tcpBackoff s.tcp.rto,lastSend := now } }

/-- `tcp.c:253-352`. -/
def tcpRetransmitCheck (s : Socket) (now : Word) : Outcome :=
  if s.tcp.state≠.established ∧ s.tcp.state≠.finWait1 then s.idle
  else match s.tcp.unackedBuf with
    | none => s.idle
    | some data =>
      if now-s.tcp.lastSend<s.tcp.rto then s.idle
      else if tcpMaxRetransmit<s.tcp.retransmits+1 then
        let s':={ s with tcp := { s.tcp with
          retransmits := s.tcp.retransmits+1,unackedBuf := none } }
        ⟨s'.shut,if s.tcp.closePending ∧ s.remoteAddr.addr=0 then [] else [rstSegment s],s.tcp.closePending⟩
      else
        let s':=s.resend now
        ⟨s',[dataSegment s' s.tcp.unackedSeq (data.take s.tcp.unackedLen.toNat)],false⟩

/-- `tcp.c:355-389`. -/
def tcpTimewaitCheck (s : Socket) (now : Word) : Outcome :=
  if s.tcp.state≠.timeWait then s.idle
  else if now-s.tcp.timeWaitStart<tcpTimeWaitTicks then s.idle
  else ⟨s.shut,[],s.tcp.closePending⟩

/-- `tcp_syn_retransmit_ifp` (`tcp.c:865-911`). It leaves `close_pending` alone. -/
def tcpSynRetransmit (s : Socket) (now : Word) : Outcome :=
  if s.tcp.state≠.synSent then s.idle
  else if now-s.tcp.lastSend<s.tcp.rto then s.idle
  else if tcpMaxRetransmit<s.tcp.retransmits+1 then
    { s with state := .closed,tcp := { s.tcp with
      state := .closed,retransmits := s.tcp.retransmits+1 } }.idle
  else
    let s':=s.resend now
    ⟨s',[synSegment s'],false⟩

/-- `tcp.c:914-977`. -/
def tcpFinRetransmit (s : Socket) (now : Word) : Outcome :=
  if s.tcp.state≠.finWait1 ∧ s.tcp.state≠.lastAck then s.idle
  else if s.tcp.finSeq=0 ∨ leq (s.tcp.finSeq+1) s.tcp.sndUna then s.idle
  else if s.tcp.unackedBuf≠none then s.idle
  else if now-s.tcp.lastSend<s.tcp.rto then s.idle
  else if tcpMaxRetransmit<s.tcp.retransmits+1 then
    let s':={ s with tcp := {s.tcp with retransmits := s.tcp.retransmits+1} }
    ⟨s'.shut,[],s.tcp.closePending⟩
  else
    let s':=s.resend now
    ⟨s',[finSegment s'],false⟩

/-- The turn of a stream socket in `tcp_slowtimo` (`tcp.c:983-1025`). -/
def tcpSlowtimo (s : Socket) (route : Route) (now : Word) : Outcome :=
  if s.tcp.state=.timeWait then tcpTimewaitCheck s now
  else if route=.unreachable then s.idle
  else if s.tcp.state=.synSent then tcpSynRetransmit s now
  else
    let r:=if s.tcp.state=.finWait1 ∨ s.tcp.state=.lastAck then tcpFinRetransmit s now
      else s.idle
    -- on the loopback interface `tcp_retransmit_check` does nothing
    if (r.sock.tcp.state=.established ∨ r.sock.tcp.state=.finWait1) ∧ route=.network then
      let r':=tcpRetransmitCheck r.sock now
      ⟨r'.sock,r.sent++r'.sent,r.deref || r'.deref⟩
    else r

/-! ### Segments received -/

/-- `tcp.c:733-735`. -/
def noteWindow (s : Socket) (g : Segment) : Socket :=
  if g.ack ∧ s.tcp.state=.established then { s with tcp := {s.tcp with sndWnd := g.win} } else s

/-- The ACK part of `tcp_input` (`tcp.c:688-712`), and the window that `TCPS_ESTABLISHED` notes first. -/
def tcpAck (s : Socket) (g : Segment) (now : Word) : Socket :=
  noteWindow (if g.ack ∧ s.tcp.unackedBuf≠none ∧ leq (s.tcp.unackedSeq+s.tcp.unackedLen) g.ackNum then
      let rtt:=now-s.tcp.lastSend
      let est:=if s.tcp.rttEst=0 then rtt else (s.tcp.rttEst*7+rtt)/8
      let rto:=if est*2<tcpRtoMin then tcpRtoMin else est*2
      { s with tcp := { s.tcp with
        unackedBuf := none,unackedLen := 0,sndUna := g.ackNum,retransmits := 0
        rttEst := est,rto := if tcpRtoMax<rto then tcpRtoMax else rto } }
    else s) g

/-- `TCPS_SYN_SENT` (`tcp.c:715-729`). -/
def inputSynSent (s : Socket) (g : Segment) : Outcome :=
  if g.syn ∧ g.ack ∧ g.ackNum=s.tcp.sndNxt then
    let s':={ s with state := .estab,tcp := { s.tcp with
      irs := g.seq,rcvNxt := g.seq+1,sndUna := g.ackNum,state := .established } }
    ⟨s',[ackSegment s'],false⟩
  else s.idle

/-- The copy into the receive buffer (`tcp.c:740-747`). -/
def acceptData (s : Socket) (src : SockAddr) (buf data : List Byte) : Socket :=
  let copied:=data.take (s.recvCap-buf.length)
  { s with recvBuf := some (buf++copied),remoteAddr := src
           tcp := {s.tcp with rcvNxt := s.tcp.rcvNxt+BitVec.ofNat 32 copied.length} }

def FinNext (s : Socket) (g : Segment) : Prop := g.fin ∧ g.seq+g.len=s.tcp.rcvNxt
  deriving Decidable

def takeFin (s : Socket) (st : TcpState) : Socket :=
  { s with tcp := {s.tcp with rcvNxt := s.tcp.rcvNxt+1,state := st} }

/-- The data part of `TCPS_ESTABLISHED` (`tcp.c:738-759`): `none` for a segment out of
order. -/
def inputData (s : Socket) (src : SockAddr) (g : Segment) : Option Socket :=
  if g.data=[] then some s
  else match s.recvBuf with
    | some buf =>
      if g.seq=s.tcp.rcvNxt ∧ buf.length<s.recvCap then some (acceptData s src buf g.data)
      else if g.seq≠s.tcp.rcvNxt then none
      else some s
    | none => if g.seq≠s.tcp.rcvNxt then none else some s

/-- `TCPS_ESTABLISHED` (`tcp.c:731-774`). -/
def inputEstablished (s : Socket) (src : SockAddr) (g : Segment) : Outcome :=
  match inputData s src g with
  | none => ⟨s,[ackSegment s],false⟩
  | some s1 =>
    if FinNext s1 g then
      let s2:=takeFin s1 .closeWait
      ⟨s2,[ackSegment s2],false⟩
    else ⟨s1,if g.data=[] then [] else [ackSegment s1],false⟩

def enterTimeWait (s : Socket) (now : Word) : Outcome :=
  let s1:=takeFin s .timeWait
  let s2:={ s1 with tcp := {s1.tcp with timeWaitStart := now} }
  ⟨s2,[ackSegment s2],false⟩

/-- `TCPS_FIN_WAIT_1` (`tcp.c:776-807`). -/
def inputFinWait1 (s : Socket) (g : Segment) (now : Word) : Outcome :=
  if g.ack ∧ g.ackNum=s.tcp.finSeq+1 then
    let s1:={ s with tcp := {s.tcp with sndUna := g.ackNum} }
    if FinNext s1 g then enterTimeWait s1 now
    else { s1 with tcp := {s1.tcp with state := .finWait2} }.idle
  else if FinNext s g then
    -- our FIN is still unacknowledged
    let s1:=takeFin s .finWait1
    ⟨s1,[ackSegment s1],false⟩
  else s.idle

/-- `TCPS_LAST_ACK` (`tcp.c:834-845`). -/
def inputLastAck (s : Socket) (g : Segment) : Outcome :=
  if g.ack ∧ g.ackNum=s.tcp.finSeq+1 then ⟨s.shut,[],s.tcp.closePending⟩ else s.idle

/-- The `switch` of `tcp_input` (`tcp.c:714-853`). -/
def inputState (s : Socket) (src : SockAddr) (g : Segment) (now : Word) : Outcome :=
  match s.tcp.state with
  | .synSent => inputSynSent s g
  | .established => inputEstablished s src g
  | .finWait1 => inputFinWait1 s g now
  | .finWait2 => if FinNext s g then enterTimeWait s now else s.idle
  | .closeWait => if g.data≠[] ∨ g.fin then ⟨s,[ackSegment s],false⟩ else s.idle
  | .lastAck => inputLastAck s g
  | .timeWait => if g.fin then ⟨s,[ackSegment s],false⟩ else s.idle
  | _ => s.idle

/-- `tcp_input` for the socket it found (`tcp.c:668-861`). -/
def tcpInput (s : Socket) (src : SockAddr) (g : Segment) (now : Word) : Outcome :=
  if g.rst then
    ⟨{ s with tcp := {s.tcp with unackedBuf := none} }.shut,[],s.tcp.closePending⟩
  else inputState (tcpAck s g now) src g now

/-- What the `switch` can do with a segment. -/
inductive Input (s : Socket) (src : SockAddr) (g : Segment) (now : Word) : Outcome → Prop
  | idle : Input s src g now s.idle
  | ack : Input s src g now ⟨s,[ackSegment s],false⟩
  | synAck (hst : s.tcp.state=.synSent) (h : g.syn ∧ g.ack ∧ g.ackNum=s.tcp.sndNxt) :
    Input s src g now (inputSynSent s g)
  | data {s1 : Socket} {sent : List Segment} (hst : s.tcp.state=.established)
    (hd : inputData s src g=some s1) (hsent : sent ⊆ [ackSegment s1]) : Input s src g now ⟨s1,sent,false⟩
  | dataFin {s1 : Socket} (hst : s.tcp.state=.established) (hd : inputData s src g=some s1)
    (hf : FinNext s1 g) :
    Input s src g now ⟨takeFin s1 .closeWait,[ackSegment (takeFin s1 .closeWait)],false⟩
  | timeWait (una : Word) (hst : (s.tcp.state=.finWait1 ∧ g.ack ∧ g.ackNum=s.tcp.finSeq+1 ∧ una=g.ackNum) ∨
      s.tcp.state=.finWait2 ∧ una=s.tcp.sndUna) (hf : FinNext s g) :
    Input s src g now (enterTimeWait { s with tcp := {s.tcp with sndUna := una} } now)
  | finAcked (hst : s.tcp.state=.finWait1) (ha : g.ack ∧ g.ackNum=s.tcp.finSeq+1) :
    Input s src g now { s with tcp := {s.tcp with sndUna := g.ackNum,state := .finWait2} }.idle
  | fin (hst : s.tcp.state=.finWait1) (hf : FinNext s g) :
    Input s src g now ⟨takeFin s .finWait1,[ackSegment (takeFin s .finWait1)],false⟩
  | last (hst : s.tcp.state=.lastAck) : Input s src g now ⟨s.shut,[],s.tcp.closePending⟩

section

variable {s s' : Socket} {src : SockAddr} {g : Segment}

lemma inputData_cases (h : inputData s src g=some s') : (g.data≠[] → g.seq=s.tcp.rcvNxt) ∧
    (s'=s ∨ ∃ buf,s.recvBuf=some buf ∧ s'=acceptData s src buf g.data ∧ g.data≠[]) := by
  unfold inputData at h
  by_cases hd : g.data=[]
  · rw [if_pos hd] at h
    exact ⟨absurd hd,.inl (Option.some.inj h).symm⟩
  rw [if_neg hd] at h
  split at h
  next buf hb =>
    split_ifs at h with h1 h2 <;> cases h
    · exact ⟨fun _ => h1.1,.inr ⟨buf,hb,rfl,hd⟩⟩
    · exact ⟨fun _ => not_not.mp h2,.inl rfl⟩
  split_ifs at h with h2
  cases h
  exact ⟨fun _ => not_not.mp h2,.inl rfl⟩

lemma inputState_input (s : Socket) (src : SockAddr) (g : Segment) (now : Word) :
    Input s src g now (inputState s src g now) := by
  unfold inputState
  split
  next hst =>
    by_cases h : g.syn ∧ g.ack ∧ g.ackNum=s.tcp.sndNxt
    · exact .synAck hst h
    · rw [inputSynSent,if_neg h]
      exact .idle
  next hst =>
    unfold inputEstablished
    split
    next => exact .ack
    next s1 hd =>
      split_ifs with hf
      · exact .dataFin hst hd hf
      · exact .data hst hd (List.nil_subset _)
      · exact .data hst hd (List.Subset.refl _)
  next hst =>
    unfold inputFinWait1
    dsimp only
    split_ifs with ha hf hf
    · exact .timeWait g.ackNum (.inl ⟨hst,ha.1,ha.2,rfl⟩) hf
    · exact .finAcked hst ha
    · exact .fin hst hf
    · exact .idle
  next hst =>
    split_ifs with hf
    · exact .timeWait s.tcp.sndUna (.inr ⟨hst,rfl⟩) hf
    · exact .idle
  next =>
    split_ifs
    exacts [.ack,.idle]
  next hst =>
    unfold inputLastAck
    split_ifs
    exacts [.last hst,.idle]
  next =>
    split_ifs
    exacts [.ack,.idle]
  next => exact .idle

end

/-! ### Reading -/

/-- `tcp.c:119-163`. -/
def tcpSendAck (s : Socket) (route : Route) : List Segment :=
  if s.type≠.stream ∨ s.state≠.estab ∨
      s.tcp.state ∉ [.established,.closeWait,.finWait1,.finWait2] ∨ s.remoteAddr.port=0 ∨ route=.unreachable then []
  else [ackSegment s]

/-- `socket_stream_eof_locked` for `AF_INET` (`socket.c:337-349`). -/
def socketStreamEof (s : Socket) : Bool :=
  s.type=.stream ∧ s.recvLen=0 ∧ (s.state=.closed ∨ s.tcp.state=.closeWait ∨ s.tcp.state=.closed)

/-- `socket.c:351-370`. -/
def socketRecvCopy (s : Socket) (n : ℕ) : List Byte × Socket :=
  let buf:=s.recvBuf.getD []
  (buf.take n,{s with recvBuf := s.recvBuf.map (·.drop n)})

/-- `socket_fileread` of `n > 0` bytes (`socket.c:964-995`); `none` while it sleeps, and
the end of file is an empty result. -/
def socketFileread (s : Socket) (n : ℕ) (route : Route) : Option (List Byte × Outcome) :=
  if s.recvLen=0 then
    if socketStreamEof s then some ([],s.idle) else none
  else
    let (bytes,s') := socketRecvCopy s n
    some (bytes,⟨s',tcpSendAck s' route,false⟩)

end Auxv6.Net

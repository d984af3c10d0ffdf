import Auxv6.Net.Connection

/-!
# The receive stream of a TCP connection

The segments of the peer arrive in any order, any number of times, cut and overlapping in any way.
-/

namespace Auxv6.Net
open Lib Lib.SeqSpace List Bool Transition

instance : Fintype TcpState where
  elems := {.closed,.listen,.synSent,.synReceived,.established,.finWait1,.finWait2,.closeWait,.lastAck,.timeWait}
  complete st := by cases st <;> decide

def moves : TcpState → TcpState → Bool → Bool
  | .established, .closeWait, true => true
  | .finWait1, .timeWait, true => true
  | .finWait1, .finWait1, true => true
  | .finWait2, .timeWait, true => true
  | .finWait1, .finWait2, false => true
  | .lastAck, .closed, false => true
  | st, st', false => st'=st
  | _, _, _ => false

lemma moves_self : ∀ st,moves st st false=true := by decide
lemma moves_synSent : ∀ st took,moves st .synSent took=true → st=.synSent := by decide
lemma moves_established : ∀ st took,moves st .established took=true → st=.established ∧ took=false := by decide
lemma moves_active : ∀ st st' took,moves st st' took=true →
    st'=.finWait1 ∨ st'=.finWait2 → st=.finWait1 ∨ st=.finWait2 := by decide
lemma moves_passive : ∀ st st',moves st st' false=true → st'=.closeWait ∨ st'=.lastAck ∨ st'=.timeWait →
    st=.closeWait ∨ st=.lastAck ∨ st=.timeWait := by decide
lemma moves_closed : ∀ st took,moves st .closed took=true → took=false ∧ (st=.closed ∨ st=.lastAck) := by decide
lemma moves_of_closed : ∀ st' took,moves .closed st' took=true → st'=.closed ∧ took=false := by decide
lemma moves_fin : ∀ st st',moves st st' true=true → st=.established ∨ st=.finWait1 ∨ st=.finWait2 := by decide

structure Takes (s s' : Socket) (g : Segment) (bytes : List Byte) (took : Bool) : Prop where
  buf : ∀ buf,s.recvBuf=some buf → s'.recvBuf=some (buf++bytes)
  cap : s'.recvCap=s.recvCap
  irs : s'.tcp.irs=s.tcp.irs
  sub : bytes <+: g.data
  here : bytes≠[] → g.seq=s.tcp.rcvNxt ∧ s.tcp.state=.established
  rcvNxt : s'.tcp.rcvNxt=s.tcp.rcvNxt+BitVec.ofNat 32 bytes.length+if took then 1 else 0
  fin : took → g.fin ∧ g.seq+g.len=s.tcp.rcvNxt+BitVec.ofNat 32 bytes.length
  order : took → s.tcp.state=.established → g.data≠[] → g.seq=s.tcp.rcvNxt
  moves : moves s.tcp.state s'.tcp.state took=true
  sock : s'.state=s.state ∨ Closed s'

variable {s s' : Socket} {took : Bool} {pos : ℕ}

lemma SameRecv.takes (g : Segment) (h : SameRecv s s')
    (hm : moves s.tcp.state s'.tcp.state false=true) (hs : s'.state=s.state ∨ Closed s') : Takes s s' g [] false where
  buf buf hb := by rw [h.buf,hb,append_nil]
  cap := h.cap
  irs := h.irs
  sub := nil_prefix
  here hne := absurd rfl hne
  rcvNxt := by simp [h.rcvNxt]
  fin hf := by cases hf
  order hf := by cases hf
  moves := hm
  sock := hs

lemma takes_idle (s : Socket) (g : Segment) : Takes s s g [] false :=
  SameRecv.takes g (.refl s) (moves_self _) (.inl rfl)

variable {g : Segment}

lemma takes_fin (h : FinNext s g) (hbuf : s'.recvBuf=s.recvBuf)
    (hcap : s'.recvCap=s.recvCap) (hirs : s'.tcp.irs=s.tcp.irs)
    (hnum : s'.tcp.rcvNxt=s.tcp.rcvNxt+1) (hne : s.tcp.state≠.established)
    (hm : moves s.tcp.state s'.tcp.state true=true) (hs : s'.state=s.state) : Takes s s' g [] true where
  buf buf hb := by rw [hbuf,hb,append_nil]
  cap := hcap
  irs := hirs
  sub := nil_prefix
  here h := absurd rfl h
  rcvNxt := by simp [hnum]
  fin _ := by simpa using (show g.fin ∧ g.seq+g.len=s.tcp.rcvNxt from h)
  order _ he := absurd he hne
  moves := hm
  sock := .inl hs

lemma inputData_takes {src : SockAddr} (hst : s.tcp.state=.established)
    (h : inputData s src g=some s') : ∃ bytes,Takes s s' g bytes false ∧
      (g.data≠[] → g.seq=s.tcp.rcvNxt) ∧ s'.tcp.state=s.tcp.state ∧ s'.state=s.state := by
  obtain ⟨hseq,rfl | ⟨buf,hb,rfl,hne⟩⟩:=inputData_cases h
  · exact ⟨[],takes_idle _ g,hseq,rfl,rfl⟩
  refine ⟨g.data.take (s.recvCap-buf.length),?_,hseq,rfl,rfl⟩
  refine ⟨?_,rfl,rfl, take_prefix _ _,fun _ => ⟨hseq hne,hst⟩,?_,by simp,by simp, moves_self _,.inl rfl⟩
  · intro buf' hb'
    rw [hb] at hb'
    cases hb'
    rfl
  · simp [acceptData]

lemma ackSegment_win (s : Socket) : ∀ m ∈ [ackSegment s],m.win ≤ s.room := by
  intro m hm
  obtain rfl:=mem_singleton.mp hm
  exact tcpRecvWindow_le s
lemma tcpSendAck_win (s : Socket) (route : Route) : ∀ m∈tcpSendAck s route,m.win ≤ s.room := by
  unfold tcpSendAck
  split_ifs
  · simp
  · exact ackSegment_win s

def TakesOut (s : Socket) (o : Outcome) (g : Segment) : Prop :=
  ∃ bytes took,Takes s o.sock g bytes took ∧ ∀ m∈o.sent,m.win≤o.sock.room

lemma enterTimeWait_takes (now : Word) (hf : FinNext s g)
    (hst : s.tcp.state=.finWait1 ∨ s.tcp.state=.finWait2) : TakesOut s (enterTimeWait s now) g := by
  refine ⟨[],true,takes_fin hf rfl rfl rfl rfl ?_ ?_ rfl,ackSegment_win _⟩
  · rcases hst with h | h <;> simp [h]
  · rcases hst with h | h <;> rw [h] <;> trivial

lemma TakesOut.of_same {t : Socket} {o : Outcome} (hr : SameRecv s t)
    (hs : SameState s t) (h : TakesOut t o g) : TakesOut s o g := by
  obtain ⟨bytes,took,ht,hw⟩:=h
  refine ⟨bytes,took,⟨?_,?_,?_,ht.sub,?_,?_,?_,?_,?_,?_⟩,hw⟩
  · intro buf hb
    exact ht.buf buf (hr.buf.trans hb)
  · exact ht.cap.trans hr.cap
  · exact ht.irs.trans hr.irs
  · rw [← hr.rcvNxt,← hs.tcp]
    exact ht.here
  · rw [← hr.rcvNxt]
    exact ht.rcvNxt
  · rw [← hr.rcvNxt]
    exact ht.fin
  · rw [← hr.rcvNxt,← hs.tcp]
    exact ht.order
  · rw [← hs.tcp]
    exact ht.moves
  · rw [← hs.sock]
    exact ht.sock

lemma Input.takes {src : SockAddr} {now : Word} {o : Outcome} (h : Input s src g now o)
    (hsyn : s.tcp.state≠.synSent) : TakesOut s o g := by
  cases h with
  | idle => exact ⟨[],false,takes_idle s g,by simp [Socket.idle]⟩
  | ack => exact ⟨[],false,takes_idle s g,ackSegment_win s⟩
  | synAck hst => exact absurd hst hsyn
  | data hst hd hsent =>
    obtain ⟨bytes,ht,-⟩:=inputData_takes hst hd
    exact ⟨bytes,false,ht,fun m hm => ackSegment_win _ m (hsent hm)⟩
  | @dataFin s1 hst hd hf =>
    obtain ⟨bytes,ht,hord,-,hsk⟩:=inputData_takes hst hd
    have hnum : s1.tcp.rcvNxt=s.tcp.rcvNxt+BitVec.ofNat 32 bytes.length := by
      simpa using ht.rcvNxt
    refine ⟨bytes,true,⟨ht.buf,ht.cap,ht.irs,ht.sub,ht.here,?_,?_,?_,?_,.inl hsk⟩,ackSegment_win _⟩
    · simp [takeFin,hnum]
    · exact fun _ => ⟨hf.1,hf.2.trans hnum⟩
    · exact fun _ _ => hord
    · rw [hst]
      trivial
  | timeWait una hst hf =>
    refine TakesOut.of_same ?_ ?_ (enterTimeWait_takes now hf (hst.imp And.left And.left))
    · exact ⟨rfl,rfl,rfl,rfl⟩
    · exact ⟨rfl,rfl⟩
  | finAcked hst =>
    refine ⟨[],false,SameRecv.takes g ⟨rfl,rfl,rfl,rfl⟩ ?_ (.inl rfl),by simp [Socket.idle]⟩
    rw [hst]
    trivial
  | fin hst hf =>
    refine ⟨[],true,takes_fin hf rfl rfl rfl rfl (by simp [hst]) ?_ rfl,ackSegment_win _⟩
    rw [hst]
    trivial
  | last hst =>
    refine ⟨[],false,SameRecv.takes g ⟨rfl,rfl,rfl,rfl⟩ ?_ (.inr ⟨rfl,rfl⟩),by simp⟩
    rw [hst]
    trivial

lemma tcpInput_takes (src : SockAddr) (now : Word)
    (hrst : g.rst=false) (hsyn : s.tcp.state≠.synSent) : TakesOut s (tcpInput s src g now) g := by
  have hs:=tcpAck_sameState s g now
  unfold tcpInput
  rw [if_neg (by simp [hrst])]
  apply TakesOut.of_same (tcpAck_sameRecv s g now) hs
  rw [← hs.tcp] at hsyn
  exact (inputState_input ..).takes hsyn

lemma tcpInput_synSent (src : SockAddr) (now : Word) (hrst : g.rst=false) (hst : s.tcp.state=.synSent) :
    (SameRecv s (tcpInput s src g now).sock ∧ SameState s (tcpInput s src g now).sock ∧
      (tcpInput s src g now).sent=[]) ∨
    (g.syn ∧ (tcpInput s src g now).sock.recvBuf=s.recvBuf ∧ (tcpInput s src g now).sock.recvCap=s.recvCap ∧
      (tcpInput s src g now).sock.tcp.irs=g.seq ∧ (tcpInput s src g now).sock.tcp.rcvNxt=g.seq+1 ∧
      (tcpInput s src g now).sock.tcp.state=.established ∧ (tcpInput s src g now).sock.state=.estab ∧
      ∀ m∈(tcpInput s src g now).sent,m.win≤(tcpInput s src g now).sock.room) := by
  have hr:=tcpAck_sameRecv s g now
  have hs:=tcpAck_sameState s g now
  unfold tcpInput
  rw [if_neg (by simp [hrst])]
  rw [← hs.tcp] at hst
  unfold inputState
  rw [hst]
  dsimp only
  unfold inputSynSent
  split_ifs with h
  · exact .inr ⟨h.1,hr.buf,hr.cap,rfl,rfl,rfl,rfl,ackSegment_win _⟩
  · exact .inl ⟨hr,hs,rfl⟩

/-- A segment that a peer with initial number `irs` sends from `pos`, where the SYN has
place 0, the byte with index `k` of the stream place `k + 1`, and the FIN comes last. A
SYN may carry data. -/
structure FromPeer (stream : List Byte) (irs : Word) (pos : ℕ) (g : Segment) : Prop where
  seq : g.seq=place irs pos
  syn : g.syn=true → pos=0
  first : g.syn=false → g.data≠[] ∨ g.fin=true → 1≤pos
  data : g.data <+: stream.drop (pos-1)
  fin : g.fin=true → pos-1+g.data.length=stream.length
  short : g.data.length<2^16

def Near (a b : ℤ) : Prop := a<b+2^32 ∧ b<a+2^32
  deriving Decidable

def Conn.next (c : Conn) : ℕ := 1+c.accepted.length+if c.finSeen then 1 else 0

/-- The arrivals of a run: resets, and segments of the peer that start and end less than
`2 ^ 32` places from the one expected next. -/
def FromNear (stream : List Byte) (irs : Word) (c : Conn) : Event → Prop
  | .input _ g _ => g.rst=true ∨ ∃ pos : ℕ,FromPeer stream irs pos g ∧
      (c.up=true → Near pos c.next ∧ Near (pos+g.data.length) c.next) ∧
      -- only a peer that answers before our FIN sends everything with its SYN
      (g.syn=true → g.fin=true → c.finSent=false)
  | _ => True

structure StreamInv (stream : List Byte) (irs : Word) (c : Conn) : Prop where
  buf : ∃ buf,c.sock.recvBuf=some buf ∧ c.accepted=c.delivered++buf
  pre : c.accepted <+: stream
  all : c.finSeen=true → c.accepted=stream
  down : c.up=false → (c.sock.tcp.state=.synSent ∨ c.sock.tcp.state=.closed) ∧ c.accepted=[] ∧ c.finSeen=false
  nums : c.up=true → c.sock.tcp.state≠.synSent ∧ c.sock.tcp.irs=irs ∧ c.sock.tcp.rcvNxt=place irs c.next
  open_ : c.sock.tcp.state=.established → c.finSeen=false
  active : c.sock.tcp.state=.finWait1 ∨ c.sock.tcp.state=.finWait2 → c.finSent=true
  passive : c.sock.tcp.state=.closeWait ∨ c.sock.tcp.state=.lastAck ∨ c.sock.tcp.state=.timeWait → c.finSeen=true
  closed : c.sock.tcp.state=.closed → c.gone=false → c.finSeen=true
  sock : c.sock.state=.closed → c.sock.tcp.state=.closed
  eof : c.eof=true → c.delivered=stream
  win : ∀ m∈c.out,m.win≤c.sock.room

variable {stream bytes buf : List Byte} {irs : Word} {c c' : Conn}

structure SameRecords (c c' : Conn) : Prop where
  accepted : c'.accepted=c.accepted
  delivered : c'.delivered=c.delivered
  finSeen : c'.finSeen=c.finSeen
  up : c'.up=c.up
  eof : c'.eof=c.eof

section
variable (h : StreamInv stream irs c)
include h

lemma StreamInv.quiet (hrec : SameRecords c c')
    (hrecv : SameRecv c.sock c'.sock) (hwin : ∀ m∈c'.out,m.win≤c.sock.room)
    (hgone : c'.gone=false → c.gone=false) (hsent : c.finSent=true → c'.finSent=true)
    (hst : SameState c.sock c'.sock ∨ (c'.sock.state=c.sock.state ∧ c'.finSent=true ∧
        ((c.sock.tcp.state=.established ∧ c'.sock.tcp.state=.finWait1) ∨
          (c.sock.tcp.state=.closeWait ∧ c'.sock.tcp.state=.lastAck))) ∨
      (Closed c'.sock ∧ (c'.gone=false → c.sock.tcp.state=.timeWait))) : StreamInv stream irs c' := by
  have hnext : c'.next=c.next := by rw [Conn.next,Conn.next,hrec.accepted,hrec.finSeen]
  obtain ⟨buf,hbuf,hacc⟩:=h.buf
  refine ⟨⟨buf,hrecv.buf.trans hbuf,?_⟩,?_,?_,?_,?_,?_,?_,?_,?_,?_,?_,?_⟩
  · rw [hrec.accepted,hrec.delivered,hacc]
  · rw [hrec.accepted]
    exact h.pre
  · rw [hrec.accepted,hrec.finSeen]
    exact h.all
  · intro hup
    rw [hrec.up] at hup
    obtain ⟨hs,ha,hf⟩:=h.down hup
    refine ⟨?_,hrec.accepted.trans ha,hrec.finSeen.trans hf⟩
    rcases hst with hst | ⟨-,-,⟨he,-⟩ | ⟨he,-⟩⟩ | ⟨hc,-⟩
    · rw [hst.tcp]
      exact hs
    · simp [he] at hs
    · simp [he] at hs
    · exact .inr hc.tcp
  · intro hup
    rw [hrec.up] at hup
    obtain ⟨hs,hi,hn⟩:=h.nums hup
    refine ⟨?_,hrecv.irs.trans hi,by rw [hrecv.rcvNxt,hn,hnext]⟩
    rcases hst with hst | ⟨-,-,⟨-,he⟩ | ⟨-,he⟩⟩ | ⟨hc,-⟩
    · rw [hst.tcp]
      exact hs
    · simp [he]
    · simp [he]
    · simp [hc.tcp]
  · intro he
    rw [hrec.finSeen]
    rcases hst with hst | ⟨-,-,⟨-,he'⟩ | ⟨-,he'⟩⟩ | ⟨hc,-⟩
    · exact h.open_ (hst.tcp ▸ he)
    · simp [he'] at he
    · simp [he'] at he
    · simp [hc.tcp] at he
  · intro he
    rcases hst with hst | ⟨-,hs,-⟩ | ⟨hc,-⟩
    · exact hsent (h.active (hst.tcp ▸ he))
    · exact hs
    · simp [hc.tcp] at he
  · intro he
    rw [hrec.finSeen]
    rcases hst with hst | ⟨-,-,⟨-,he'⟩ | ⟨he',-⟩⟩ | ⟨hc,-⟩
    · exact h.passive (hst.tcp ▸ he)
    · simp [he'] at he
    · exact h.passive (.inl he')
    · simp [hc.tcp] at he
  · intro he hg
    rw [hrec.finSeen]
    rcases hst with hst | ⟨-,-,⟨-,he'⟩ | ⟨-,he'⟩⟩ | ⟨-,hc⟩
    · exact h.closed (hst.tcp ▸ he) (hgone hg)
    · simp [he'] at he
    · simp [he'] at he
    · exact h.passive (.inr (.inr (hc hg)))
  · intro he
    rcases hst with hst | ⟨hs,-,⟨he',-⟩ | ⟨he',-⟩⟩ | ⟨hc,-⟩
    · rw [hst.tcp]
      exact h.sock (hst.sock ▸ he)
    · have := h.sock (hs ▸ he)
      simp [he'] at this
    · have := h.sock (hs ▸ he)
      simp [he'] at this
    · exact hc.tcp
  · rw [hrec.eof,hrec.delivered]
    exact h.eof
  · rw [hrecv.room]
    exact hwin

lemma StreamInv.output (payload : List Byte) (page : Bool)
    (now : Word) : StreamInv stream irs (c.output payload page now) := by
  have hq:=tcpOutput_quiet c.sock payload page now
  refine h.quiet ⟨rfl,rfl,rfl,rfl,rfl⟩ hq.recv hq.win (fun hg => hg) (fun hs => hs) (.inl ?_)
  show SameState c.sock (tcpOutput c.sock payload page now).sock
  unfold tcpOutput
  split_ifs <;> exact ⟨rfl,rfl⟩

lemma StreamInv.close (now : Word) : StreamInv stream irs (c.close now) := by
  have hq:=tcpClose_quiet c.sock .network now
  refine h.quiet ⟨rfl,rfl,rfl,rfl,rfl⟩ hq.recv hq.win ?_ ?_ ?_
  · intro hg
    exact (or_eq_false_iff.mp hg).1
  · intro hs
    simp [Conn.close,hs]
  rcases tcpClose_network c.sock now with ⟨hst,ho⟩ | ⟨hst,ho⟩ | ⟨hst,ho⟩ | ⟨-,-,ho⟩
  · refine .inr (.inl ⟨?_,by simp [Conn.close,hst],.inl ⟨hst,?_⟩⟩) <;>
      simp [Conn.close,ho,sendFin]
  · refine .inr (.inl ⟨?_,by simp [Conn.close,hst],.inr ⟨hst,?_⟩⟩) <;>
      simp [Conn.close,ho,sendFin]
  · refine .inr (.inr ⟨⟨?_,?_⟩,by simp [Conn.close,hst]⟩) <;> simp [Conn.close,ho,Socket.idle]
  · refine .inl ⟨?_,?_⟩ <;> simp [Conn.close,ho,Socket.idle]

lemma StreamInv.tick (now : Word) : StreamInv stream irs (c.tick now) := by
  have ht:=tcpSlowtimo_timerStep c.sock .network now
  refine h.quiet ⟨rfl,rfl,rfl,rfl,rfl⟩ ht.quiet.recv ht.quiet.win ?_ (fun hs => hs) ?_
  · intro hg
    exact (or_eq_false_iff.mp hg).1
  rcases ht.cases with ⟨hst,-⟩ | ⟨hc,hne,-⟩
  · exact .inl hst
  · refine .inr (.inr ⟨hc,fun hg => ?_⟩)
    have hg':=(or_eq_false_iff.mp hg).2
    simpa [hc.tcp,hne] using hg'

lemma StreamInv.timeout : StreamInv stream irs c.timeout := by
  have hcases : SameState c.sock (tcpConnectTimeout c.sock) ∨
      (Closed (tcpConnectTimeout c.sock) ∧ c.sock.tcp.state=.synSent) := by
    unfold tcpConnectTimeout
    split_ifs with hst
    · exact .inr ⟨⟨rfl,rfl⟩,hst⟩
    · exact .inl (.refl _)
  have hrecv : SameRecv c.sock (tcpConnectTimeout c.sock) := by
    unfold tcpConnectTimeout
    split_ifs <;> exact ⟨rfl,rfl,rfl,rfl⟩
  refine h.quiet ⟨rfl,rfl,rfl,rfl,rfl⟩ hrecv (by simp [Conn.timeout]) ?_ (fun hs => hs) ?_
  · intro hg
    exact (or_eq_false_iff.mp hg).1
  · rcases hcases with hst | ⟨hc,hst⟩
    · exact .inl hst
    · exact .inr (.inr ⟨hc,by simp [Conn.timeout,hst]⟩)

lemma StreamInv.read {n : ℕ} (hr : c.read n=some c') : StreamInv stream irs c' := by
  unfold Conn.read at hr
  split_ifs at hr with hn
  · cases hr
    exact ⟨h.buf,h.pre,h.all,h.down,h.nums,h.open_,h.active,h.passive,h.closed,h.sock,h.eof,by simp⟩
  obtain ⟨⟨bytes,o⟩,ho,rfl⟩:=Option.map_eq_some_iff.mp hr
  obtain ⟨buf,hbuf,hacc⟩:=h.buf
  unfold socketFileread at ho
  split_ifs at ho with hlen heof
  · -- the buffer is empty: end of file, the socket is as it was
    cases ho
    have hnil : buf=[] := by
      simpa [Socket.recvLen,hbuf] using hlen
    refine ⟨⟨buf,hbuf,by simpa using hacc⟩,h.pre,h.all,h.down,h.nums,h.open_,h.active,
      h.passive,h.closed,h.sock,?_,by simp [Socket.idle]⟩
    intro he
    simp only [append_nil]
    by_cases hg : c.eof=true
    · exact h.eof hg
    have hgone : c.gone=false := by simpa [hg] using he
    have hfin : c.finSeen=true := by
      have hs : c.sock.state=.closed ∨ c.sock.tcp.state=.closeWait ∨ c.sock.tcp.state=.closed := by
        have := heof
        simp only [socketStreamEof,decide_eq_true_eq] at this
        exact this.2.2
      rcases hs with hs | hs | hs
      · exact h.closed (h.sock hs) hgone
      · exact h.passive (.inl hs)
      · exact h.closed hs hgone
    rw [← h.all hfin,hacc,hnil,append_nil]
  · cases ho
    have hsplit : c.accepted=c.delivered++buf.take n++buf.drop n := by
      rw [append_assoc,take_append_drop,hacc]
    have hne : ¬ buf.take n=[] := by
      simp only [Socket.recvLen,hbuf,Option.getD_some,length_eq_zero_iff] at hlen
      simp [hn,hlen]
    refine ⟨⟨buf.drop n,by simp [hbuf],?_⟩,h.pre,h.all,h.down,h.nums,h.open_,h.active,h.passive,h.closed,h.sock,?_,?_⟩
    · simpa [socketRecvCopy,hbuf] using hsplit
    · intro he
      -- an earlier end of file: the whole stream was delivered, so nothing was left
      have hee : c.eof=true := by
        simpa [socketRecvCopy,hbuf,hne] using he
      have hpre:=h.pre
      rw [hacc,h.eof hee] at hpre
      have hl:=hpre.length_le
      rw [length_append] at hl
      have hz : buf.length=0 := by omega
      exact absurd (by simp [length_eq_zero_iff.mp hz]) hne
    · exact tcpSendAck_win _ _

end

lemma Takes.added (h : Takes s s' g bytes took) (hb : s.recvBuf=some buf) : added s s'=bytes := by
  simp [Net.added,Socket.recvLen,hb,h.buf buf hb]

lemma Takes.tookFin (h : Takes s s' g bytes took) (hb : s.recvBuf=some buf) : tookFin s s' g=took := by
  have hn:=h.rcvNxt
  unfold Net.tookFin
  rw [h.added hb,hn]
  cases took with
  | true => simp [(h.fin rfl).1]
  | false => simp

section
variable (h : StreamInv stream irs c) (hup : c.up=true) (hp : FromPeer stream irs pos g) (hnear : Near pos c.next)
include h hup hp hnear

lemma StreamInv.bytes_next (ht : Takes c.sock s' g bytes took)
    (hne : bytes≠[]) : pos=1+c.accepted.length ∧ c.accepted++bytes <+: stream := by
  obtain ⟨hseq,hest⟩:=ht.here hne
  have hfin : c.finSeen=false := h.open_ hest
  have hnext : c.next=1+c.accepted.length := by simp [Conn.next,hfin]
  rw [hp.seq,(h.nums hup).2.2] at hseq
  have hpos : pos=1+c.accepted.length := by
    have := place_inj hseq hnear.1 hnear.2
    omega
  refine ⟨hpos,?_⟩
  have hdrop : bytes <+: stream.drop c.accepted.length := by
    have := ht.sub.trans hp.data
    rwa [hpos,Nat.add_sub_cancel_left] at this
  obtain ⟨r,hr⟩:=hdrop
  obtain ⟨q,hq⟩:=h.pre
  rw [← hq,drop_left] at hr
  exact ⟨r,by rw [append_assoc,hr,hq]⟩

lemma StreamInv.fin_last (hnear' : Near (pos+g.data.length) c.next) (hsyn : g.syn=true → g.fin=true → c.finSent=false)
    (ht : Takes c.sock s' g bytes true) : c.finSeen=false ∧ c.accepted++bytes=stream := by
  obtain ⟨hgf,hseq⟩:=ht.fin rfl
  have hlen:=hp.fin hgf
  have hnum:=(h.nums hup).2.2
  have hsub:=ht.sub.length_le
  by_cases hne : bytes=[]
  · subst hne
    have hplace : (pos : ℤ)+g.data.length=c.next := by
      have hq : place irs (pos+g.data.length)=place irs c.next := by
        rw [← hnum,← place_add_ofNat,← hp.seq]
        simpa [Segment.len] using hseq
      exact place_inj hq hnear'.1 hnear'.2
    have hns : g.syn=false := by
      by_contra hs
      have hs' : g.syn=true := by simpa using hs
      have hp0:=hp.syn hs'
      -- our FIN is not out, so the connection is established and the data come first
      have hnf:=hsyn hs' hgf
      have hest : c.sock.tcp.state=.established := by
        rcases moves_fin _ _ ht.moves with hst | hst
        · exact hst
        · exact absurd (h.active hst) (by simp [hnf])
      by_cases hd : g.data=[]
      · simp [hd,hp0,Conn.next] at hplace
        omega
      have hseq':=ht.order rfl hest hd
      rw [hp.seq,hnum] at hseq'
      have := place_inj hseq' hnear.1 hnear.2
      simp [hp0,Conn.next] at this
      omega
    have hpos:=hp.first hns (.inr hgf)
    have hfin : c.finSeen=false := by
      by_contra hf
      have hf' : c.finSeen=true := by simpa using hf
      have hall:=congrArg List.length (h.all hf')
      simp only [Conn.next,hf',if_true] at hplace
      omega
    refine ⟨hfin,?_⟩
    rw [append_nil]
    simp only [Conn.next,hfin,false_eq_true,if_false] at hplace
    exact h.pre.eq_of_length (by omega)
  · obtain ⟨hpos,hpre⟩:=h.bytes_next hup hp hnear ht hne
    obtain ⟨hsq,hest⟩:=ht.here hne
    have hfin:=h.open_ hest
    refine ⟨hfin,hpre.eq_of_length ?_⟩
    -- all of the segment's data were taken
    have hq : place irs (pos+g.data.length)=place irs (pos+bytes.length) := by
      have hq':=hseq
      rw [← hsq,hp.seq] at hq'
      rwa [Segment.len,place_add_ofNat,place_add_ofNat] at hq'
    have hshort:=hp.short
    have := place_inj hq (by omega) (by omega)
    rw [length_append]
    omega

end

lemma StreamInv.inputUp (h : StreamInv stream irs c) (hup : c.up=true) (src : SockAddr)
    (now : Word) (hrst : g.rst=false) (hp : FromPeer stream irs pos g)
    (hnear : Near pos c.next) (hnear' : Near (pos+g.data.length) c.next)
    (hsyn : g.syn=true → g.fin=true → c.finSent=false) : StreamInv stream irs (c.input src g now) := by
  obtain ⟨buf,hbuf,hacc⟩:=h.buf
  obtain ⟨hns,hirs,hnum⟩:=h.nums hup
  obtain ⟨bytes,took,ht,hwin⟩:=tcpInput_takes src now hrst hns
  have hadd:=ht.added hbuf
  have htook:=ht.tookFin hbuf
  have hm:=ht.moves
  have hpre : c.accepted++bytes <+: stream := by
    by_cases hne : bytes=[]
    · rw [hne,append_nil]
      exact h.pre
    · exact (h.bytes_next hup hp hnear ht hne).2
  -- a FIN taken now, or one taken before
  have hall : (c.finSeen || took)=true → c.accepted++bytes=stream := by
    intro hf
    cases took with
    | true => exact (h.fin_last hup hp hnear hnear' hsyn ht).2
    | false =>
      have hfs : c.finSeen=true := by simpa using hf
      have ha:=h.all hfs
      rw [ha] at hpre ⊢
      have hl:=hpre.length_le
      rw [length_append] at hl
      have hz : bytes=[] := length_eq_zero_iff.mp (by omega)
      rw [hz,append_nil]
  have hnx : (c.input src g now).next = c.next+bytes.length+if took then 1 else 0 := by
    simp only [Conn.next,Conn.input,hadd,htook,hup,Bool.true_and,length_append]
    cases took with
    | true => simp [(h.fin_last hup hp hnear hnear' hsyn ht).1]; omega
    | false => simp; omega
  refine ⟨⟨buf++bytes,ht.buf buf hbuf,?_⟩,?_,?_,?_,?_,?_,?_,?_,?_,?_,?_,hwin⟩
  · show c.accepted++added _ _ = _
    rw [hadd,hacc,append_assoc]
    rfl
  · show c.accepted++added _ _ <+: _
    rwa [hadd]
  · intro hf
    show c.accepted++added _ _ = _
    rw [hadd]
    apply hall
    rwa [Conn.input,htook,hup,Bool.true_and] at hf
  · intro hu
    simp [Conn.input,hup] at hu
  · intro _
    refine ⟨?_,ht.irs.trans hirs,?_⟩
    · show (tcpInput c.sock src g now).sock.tcp.state≠.synSent
      intro hc
      exact hns (moves_synSent _ _ (hc ▸ hm))
    show (tcpInput c.sock src g now).sock.tcp.rcvNxt = _
    rw [ht.rcvNxt,hnum,place_add_ofNat,hnx]
    cases took with
    | true =>
      rw [if_pos rfl,if_pos rfl,place_add_one]
      rfl
    | false => simp
  all_goals
    simp only [Conn.input,htook,hup,Bool.true_and]
  · intro he
    obtain ⟨hst,rfl⟩:=moves_established _ _ (he ▸ hm)
    rw [Bool.or_false]
    exact h.open_ hst
  · intro he
    exact h.active (moves_active _ _ _ hm he)
  · intro he
    cases took with
    | true => simp
    | false =>
      rw [Bool.or_false]
      exact h.passive (moves_passive _ _ hm he)
  · intro he hg
    have hgone : c.gone=false := by simpa [hrst] using hg
    obtain ⟨rfl,hst | hst⟩:=moves_closed _ _ (he ▸ hm)
    · rw [Bool.or_false]
      exact h.closed hst hgone
    · rw [Bool.or_false]
      exact h.passive (.inr (.inl hst))
  · intro he
    rcases ht.sock with hs | hs
    · have hcl:=h.sock (hs ▸ he)
      rw [hcl] at hm
      exact (moves_of_closed _ _ hm).1
    · exact hs.tcp
  · intro he
    exact h.eof he

lemma SameRecv.added (h : SameRecv s s') : added s s'=[] := by
  unfold Net.added Socket.recvLen
  rw [h.buf]
  exact drop_length
lemma SameRecv.tookFin (h : SameRecv s s') (g : Segment) : tookFin s s' g=false := by
  simp [Net.tookFin,h.added,h.rcvNxt]

lemma StreamInv.inputRst (h : StreamInv stream irs c) (src : SockAddr) (now : Word)
    (hrst : g.rst=true) : StreamInv stream irs (c.input src g now) := by
  have hin : tcpInput c.sock src g now =
      ⟨{c.sock with tcp := {c.sock.tcp with unackedBuf := none}}.shut,[],c.sock.tcp.closePending⟩ := by
    rw [tcpInput,if_pos hrst]
  have hr : SameRecv c.sock (tcpInput c.sock src g now).sock := by
    rw [hin]
    exact ⟨rfl,rfl,rfl,rfl⟩
  have hcl : Closed (tcpInput c.sock src g now).sock := by
    rw [hin]
    exact ⟨rfl,rfl⟩
  refine h.quiet ⟨?_,rfl,?_,?_,rfl⟩ hr ?_ ?_ (fun hs => hs) (.inr (.inr ⟨hcl,?_⟩))
  · simp [Conn.input,hr.added]
  · simp [Conn.input,hr.tookFin]
  · simp [Conn.input,hcl.tcp]
  · simp [Conn.input,hin]
  · simp [Conn.input,hrst]
  · simp [Conn.input,hrst]

lemma StreamInv.inputDown (h : StreamInv stream irs c) (hup : c.up=false) (src : SockAddr)
    (now : Word) (hrst : g.rst=false) (hp : FromPeer stream irs pos g) :
    StreamInv stream irs (c.input src g now) := by
  obtain ⟨hst,hacc0,hfin0⟩:=h.down hup
  rcases hst with hst | hst
  · rcases tcpInput_synSent src now hrst hst with ⟨hr,hs,hsent⟩ | ⟨hsyn,hb,hcap,hi,hn,he,hes,hw⟩
    · refine h.quiet ⟨?_,rfl,?_,?_,rfl⟩ hr ?_ ?_ (fun hs => hs) (.inl hs)
      · simp [Conn.input,hr.added]
      · simp [Conn.input,hr.tookFin]
      · simp [Conn.input,hs.tcp,hst]
      · simp [Conn.input,hsent]
      · simp [Conn.input,hrst]
    obtain ⟨buf,hbuf,hacc⟩:=h.buf
    have hpos:=hp.syn hsyn
    have hseq : g.seq=irs := by simpa [hpos] using hp.seq
    have hadd : added c.sock (tcpInput c.sock src g now).sock=[] := by
      simp [Net.added,Socket.recvLen,hb]
    have hroom : (c.input src g now).accepted=[] := by simp [Conn.input,hadd,hacc0]
    have hfs : (c.input src g now).finSeen=false := by simp [Conn.input,hfin0,hup]
    have hstate : (c.input src g now).sock.tcp.state=.established := he
    refine ⟨⟨buf,hb.trans hbuf,?_⟩,?_,?_,?_,?_,fun _ => hfs,?_,?_,?_,?_,h.eof,hw⟩
    · show c.accepted++added _ _ = _
      rw [hadd,append_nil]
      exact hacc
    · rw [hroom]
      exact nil_prefix
    · simp [hfs]
    · intro hu
      simp [Conn.input,he] at hu
    · intro _
      refine ⟨by simp [hstate],hi.trans hseq,?_⟩
      show (tcpInput c.sock src g now).sock.tcp.rcvNxt = _
      rw [hn,hseq,Conn.next,hroom,hfs]
      simp [place]
    · simp [hstate]
    · simp [hstate]
    · simp [hstate]
    · intro hc
      exact absurd (hes.symm.trans hc) (by simp)
  · have hns : c.sock.tcp.state≠.synSent := by simp [hst]
    obtain ⟨bytes,took,ht,hw⟩:=tcpInput_takes src now hrst hns
    obtain ⟨buf,hbuf,-⟩:=h.buf
    have hbytes : bytes=[] := by
      by_contra hne
      simpa [hst] using (ht.here hne).2
    have hm:=ht.moves
    rw [hst] at hm
    obtain ⟨hst',rfl⟩:=moves_of_closed _ _ hm
    have hr : SameRecv c.sock (tcpInput c.sock src g now).sock := by
      refine ⟨?_,ht.cap,ht.irs,by simpa [hbytes] using ht.rcvNxt⟩
      rw [ht.buf buf hbuf,hbuf,hbytes,append_nil]
    have hgone : c.gone=true := by
      by_contra hg
      simpa [hfin0] using h.closed hst (by simpa using hg)
    refine h.quiet ⟨?_,rfl,?_,?_,rfl⟩ hr ?_ ?_ (fun hs => hs) ?_
    · simp [Conn.input,hr.added]
    · simp [Conn.input,hr.tookFin]
    · simp [Conn.input,hst']
    · rw [← hr.room]
      exact hw
    · simp [Conn.input,hrst]
    · rcases ht.sock with hs | hs
      · exact .inl ⟨hst'.trans hst.symm,hs⟩
      · exact .inr (.inr ⟨hs,by simp [Conn.input,hgone]⟩)

lemma step_streamInv {e : Event} (h : StreamInv stream irs c) (hok : FromNear stream irs c e)
    (hs : step c e=some c') : StreamInv stream irs c' := by
  cases e with
  | output payload page now =>
    cases hs
    exact h.output payload page now
  | close now =>
    cases hs
    exact h.close now
  | tick now =>
    cases hs
    exact h.tick now
  | timeout =>
    cases hs
    exact h.timeout
  | read n => exact h.read hs
  | input src g now =>
    cases hs
    by_cases hrst : g.rst=true
    · exact h.inputRst src now hrst
    have hrst' : g.rst=false := by simpa using hrst
    obtain ⟨pos,hp,hnear,hsyn⟩:=hok.resolve_left hrst
    cases hup : c.up with
    | true => exact h.inputUp hup src now hrst' hp (hnear hup).1 (hnear hup).2 hsyn
    | false => exact h.inputDown hup src now hrst' hp

lemma start_streamInv {dst : SockAddr} {port : ℕ} {iss now : Word} {o : Outcome}
    (hc : tcpConnect s dst port iss now=some o) (hbuf : s.recvBuf=some []) : StreamInv stream irs (Conn.start o) := by
  unfold tcpConnect at hc
  split_ifs at hc
  all_goals
    cases hc
    refine ⟨⟨[],hbuf,rfl⟩, nil_prefix,?_,?_,?_,?_,?_,?_,?_,?_,?_,?_⟩
    any_goals simp [Conn.start,synSegment,tcpRecvWindow_le]

structure StreamSafe (stream : List Byte) (c : Conn) : Prop where
  delivered : c.delivered <+: stream
  accepted : c.accepted <+: stream
  count : c.up=true → c.sock.tcp.rcvNxt-c.sock.tcp.irs-1 =
    BitVec.ofNat 32 (c.accepted.length+if c.finSeen then 1 else 0)
  window : ∀ m∈c.out,m.win≤c.sock.recvCap-c.sock.recvLen
  eof : c.eof=true → c.delivered=stream

lemma StreamInv.safe (h : StreamInv stream irs c) : StreamSafe stream c := by
  obtain ⟨buf,-,hacc⟩:=h.buf
  refine ⟨?_,h.pre,?_,h.win,h.eof⟩
  · have hp : c.delivered <+: c.accepted := ⟨buf,hacc.symm⟩
    exact hp.trans h.pre
  intro hup
  obtain ⟨-,hirs,hnum⟩:=h.nums hup
  have hsum : place irs c.next=irs+1 + BitVec.ofNat 32 (c.accepted.length+if c.finSeen then 1 else 0) := by
    have h1 : irs+1=place irs 1 := by simp [place]
    rw [h1,place_add_ofNat,Conn.next,Nat.add_assoc]
    rfl
  rw [hnum,hirs,hsum]
  ring

/-- On a connection that `tcp_connect` began with an empty receive buffer, whatever
arrives, in whatever order, the reader sees the peer's stream. -/
theorem tcp_receive_stream {s : Socket} {dst : SockAddr} {port : ℕ} {iss now : Word} {o : Outcome}
    (hc : tcpConnect s dst port iss now=some o) (hbuf : s.recvBuf=some [])
    {events : List Event} (hok : Guarded step (FromNear stream irs) (.start o) events)
    (hrun : run step (.start o) events=some c) : StreamSafe stream c :=
  (run_guarded (fun _ _ _ => step_streamInv) (start_streamInv hc hbuf) hok hrun).safe

def oneByte (seq ackNum : Word) (b : Byte) : Segment := ⟨seq,ackNum,false,false,false,true,4096,[b]⟩
def reset (seq : Word) : Segment := ⟨seq,0,false,false,true,false,0,[]⟩
def finOnly (seq ackNum : Word) : Segment := ⟨seq,ackNum,false,true,false,true,4096,[]⟩

lemma fromPeer_synAck (stream : List Byte) (irs ackNum : Word) : FromPeer stream irs 0 (synAck irs ackNum) where
  seq := by simp [synAck]
  syn _ := rfl
  first h := by cases h
  data := nil_prefix
  fin h := by cases h
  short := by simp [synAck]

def shortTrace : List Event :=
  [.input server (synAck 5000 1001) 0,.input server (oneByte 5001 1001 65) 0,
    .input server (oneByte 5001 1001 65) 0,.input server (finOnly 5002 1001) 0,.read 10,.read 10]

lemma shortTrace_guarded : Guarded step (FromNear [65] 5000) (.start firstCall) shortTrace := by
  have hb : FromPeer [65] 5000 1 (oneByte 5001 1001 65) :=
    ⟨by decide,by decide,by decide,by decide,by decide,by decide⟩
  have hf : FromPeer [65] 5000 2 (finOnly 5002 1001) := ⟨by decide,by decide,by decide,by decide,by decide,by decide⟩
  refine ⟨.inr ⟨0,fromPeer_synAck _ _ _,by decide,by decide⟩,fun _ h1 => ?_⟩
  cases h1
  refine ⟨.inr ⟨1,hb,fun _ => ⟨by decide,by decide⟩,by decide⟩,fun _ h2 => ?_⟩
  cases h2
  refine ⟨.inr ⟨1,hb,fun _ => ⟨by decide,by decide⟩,by decide⟩,fun _ h3 => ?_⟩
  cases h3
  refine ⟨.inr ⟨2,hf,fun _ => ⟨by decide,by decide⟩,by decide⟩,fun _ h4 => ?_⟩
  exact ⟨trivial,fun _ _ => ⟨trivial,fun _ _ => trivial⟩⟩

theorem tcp_receive_one_byte : ∃ c,run step (.start firstCall) shortTrace=some c ∧ c.eof=true ∧
      c.delivered=[65] ∧ StreamSafe [65] c := by
  obtain ⟨c,hc,heof,hdel⟩ : ∃ c,run step (.start firstCall) shortTrace=some c ∧ c.eof=true ∧ c.delivered=[65] := by
    decide +kernel
  have hcall : tcpConnect newSocket server 40000 1000 0=some firstCall := by decide
  exact ⟨c,hc,heof,hdel,tcp_receive_stream hcall rfl shortTrace_guarded hc⟩

theorem tcp_reconnect_reads_old_byte : ∃ c o d,run step (.start firstCall) [.input server (synAck 5000 1001) 0,
        .input server (oneByte 5001 1001 65) 0,.input server (reset 5002) 0]=some c ∧
      tcpConnect c.sock server 40000 1001 0=some o ∧
      Guarded step (FromNear [66] 7000) (.start o) [.input server (synAck 7000 1002) 0,.read 10] ∧
      run step (.start o) [.input server (synAck 7000 1002) 0,.read 10]=some d ∧
      d.delivered=[65] ∧ ¬ d.delivered <+: [66] := by
  obtain ⟨c,hc,o,ho,d,hd,hdel⟩ : ∃ c,run step (.start firstCall) [.input server (synAck 5000 1001) 0,
        .input server (oneByte 5001 1001 65) 0,.input server (reset 5002) 0]=some c ∧
      ∃ o,tcpConnect c.sock server 40000 1001 0=some o ∧
        ∃ d,run step (.start o) [.input server (synAck 7000 1002) 0,.read 10]=some d ∧ d.delivered=[65] := by
    decide +kernel
  refine ⟨c,o,d,hc,ho,?_,hd,hdel,by rw [hdel]; decide⟩
  refine ⟨.inr ⟨0,fromPeer_synAck _ _ _,?_,?_⟩,fun _ _ => ⟨trivial,fun _ _ => trivial⟩⟩
  · intro h
    cases h
  · intro _ h
    cases h

end Auxv6.Net

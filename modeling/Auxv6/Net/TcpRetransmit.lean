import Auxv6.Net.Connection

/-!
# The retransmission buffer of a TCP connection

`tcp_output` keeps one segment; one that is sent while another is kept is not held at all.
-/

namespace Auxv6.Net
open Lib Lib.SeqSpace Option Bool Transition

variable {c c' : Conn} {una : ℤ}

def Held (c : Conn) (k : ℕ) (b : Byte) : Prop :=
  ∃ (buf : List Byte) (j : ℕ),c.sock.tcp.unackedBuf=some buf ∧ c.sock.tcp.unackedLen=BitVec.ofNat 32 buf.length ∧
    c.sock.tcp.unackedSeq=place c.sock.tcp.iss (1+j) ∧ j≤k ∧ buf[k-j]? = some b

def Orderly (c : Conn) : Event → Prop
  | .output payload _ _ =>
    (c.sock.tcp.sndNxt-c.sock.tcp.sndUna).toNat+payload.length+1<2^31
  | .close _ => c.sock.tcp.unackedBuf=none
  | .input _ g _ => g.ack=true → (c.sock.tcp.sndNxt-g.ackNum).toNat<2^31
  | _ => True

structure AckMove (s s' : Socket) (g : Segment) : Prop where
  iss : s'.tcp.iss=s.tcp.iss
  sndNxt : s'.tcp.sndNxt=s.tcp.sndNxt
  unackedBuf : s'.tcp.unackedBuf=s.tcp.unackedBuf
  unackedLen : s'.tcp.unackedLen=s.tcp.unackedLen
  unackedSeq : s'.tcp.unackedSeq=s.tcp.unackedSeq
  finSeq : s'.tcp.finSeq=s.tcp.finSeq
  sndUna : s'.tcp.sndUna=s.tcp.sndUna ∨ (g.ack=true ∧ s'.tcp.sndUna=g.ackNum ∧
    ((s.tcp.state=.synSent ∧ g.ackNum=s.tcp.sndNxt) ∨ (s.tcp.state=.finWait1 ∧ g.ackNum=s.tcp.finSeq+1)))
  syn : s'.tcp.state=.synSent → s.tcp.state=.synSent
  open_ : s'.tcp.state=.established ∨ s'.tcp.state=.closeWait →
    s.tcp.state=.synSent ∨ s.tcp.state=.established ∨ s.tcp.state=.closeWait
  finWait : s'.tcp.state=.finWait1 → s.tcp.state=.finWait1

variable {g : Segment} {s s' : Socket}

lemma SameSend.ackMove (h : SameSend s s')
    (hst : s'.tcp.state=s.tcp.state ∨ (s.tcp.state=.established ∧ s'.tcp.state=.closeWait) ∨
      (s'.tcp.state≠.synSent ∧ s'.tcp.state≠.established ∧ s'.tcp.state≠.closeWait ∧
        s'.tcp.state≠.finWait1)) : AckMove s s' g where
  iss := h.iss
  sndNxt := h.sndNxt
  unackedBuf := h.unackedBuf
  unackedLen := h.unackedLen
  unackedSeq := h.unackedSeq
  finSeq := h.finSeq
  sndUna := .inl h.sndUna
  syn hs := by
    rcases hst with hst | ⟨-,hst⟩ | hst
    · exact hst ▸ hs
    · simp [hst] at hs
    · exact absurd hs hst.1
  open_ hs := by
    rcases hst with hst | ⟨hst,-⟩ | hst
    · exact .inr (hst ▸ hs)
    · exact .inr (.inl hst)
    · exact absurd hs (by simp [hst])
  finWait hs := by
    rcases hst with hst | ⟨-,hst⟩ | hst
    · exact hst ▸ hs
    · simp [hst] at hs
    · exact absurd hs hst.2.2.2

lemma ackMove_same (h : SameSend s s') (hst : s'.tcp.state=s.tcp.state) : AckMove s s' g := h.ackMove (.inl hst)
lemma inputData_sameSend {src : SockAddr}
    (h : inputData s src g=some s') : SameSend s s' ∧ s'.tcp.state=s.tcp.state := by
  obtain ⟨-,rfl | ⟨buf,-,rfl,-⟩⟩:=inputData_cases h
  · exact ⟨.refl s',rfl⟩
  · exact ⟨⟨rfl,rfl,rfl,rfl,rfl,rfl,rfl⟩,rfl⟩

lemma Input.ackMove {src : SockAddr} {now : Word} {o : Outcome} (h : Input s src g now o) : AckMove s o.sock g := by
  cases h with
  | idle => exact ackMove_same (.refl s) rfl
  | ack => exact ackMove_same (.refl s) rfl
  | synAck hst hack =>
    rw [inputSynSent,if_pos hack]
    exact ⟨rfl,rfl,rfl,rfl,rfl,rfl,.inr ⟨hack.2.1,rfl,.inl ⟨hst,hack.2.2⟩⟩,by simp,by
      simp [hst],by simp⟩
  | data hst hd =>
    obtain ⟨hsend,hst1⟩:=inputData_sameSend hd
    exact ackMove_same hsend hst1
  | dataFin hst hd =>
    obtain ⟨hsend,-⟩:=inputData_sameSend hd
    exact SameSend.ackMove ⟨hsend.iss,hsend.sndUna,hsend.sndNxt,hsend.unackedBuf,
      hsend.unackedLen,hsend.unackedSeq,hsend.finSeq⟩ (.inr (.inl ⟨hst,rfl⟩))
  | timeWait una hst =>
    refine ⟨rfl,rfl,rfl,rfl,rfl,rfl,?_,by simp [enterTimeWait,takeFin],by
      simp [enterTimeWait,takeFin],by simp [enterTimeWait,takeFin]⟩
    exact hst.symm.imp (·.2) fun hst => ⟨hst.2.1,hst.2.2.2,.inr ⟨hst.1,hst.2.2.1⟩⟩
  | finAcked hst hack =>
    exact ⟨rfl,rfl,rfl,rfl,rfl,rfl,.inr ⟨hack.1,rfl,.inr ⟨hst,hack.2⟩⟩,by
      simp [Socket.idle],by simp [Socket.idle],by simp [Socket.idle]⟩
  | fin hst => exact ackMove_same ⟨rfl,rfl,rfl,rfl,rfl,rfl,rfl⟩ hst.symm
  | last => exact SameSend.ackMove ⟨rfl,rfl,rfl,rfl,rfl,rfl,rfl⟩ (.inr (.inr (by simp [Socket.shut])))

structure KeptAt (c : Conn) (una : ℤ) (buf : List Byte) (j : ℕ) : Prop where
  seq : c.sock.tcp.unackedSeq=place c.sock.tcp.iss (1+j)
  len : c.sock.tcp.unackedLen=BitVec.ofNat 32 buf.length
  sent : j+buf.length≤c.stream.length
  low : una≤1+j
  bytes : ∀ i<buf.length,buf[i]? = (c.stream[j+i]?).map Prod.fst
  before : ∀ k<j,∀ b : Byte,c.stream[k]? = some (b,true) → 1+(k : ℤ)<una
  after : ∀ k,j≤k → ∀ b : Byte,c.stream[k]? = some (b,true) → k<j+buf.length

structure SendInv (c : Conn) (una : ℤ) : Prop where
  sndNxt : c.sock.tcp.sndNxt=place c.sock.tcp.iss c.nxt
  sndUna : c.sock.tcp.sndUna=place c.sock.tcp.iss una
  pos : 0≤una
  le : una≤c.nxt
  span : 2+(c.stream.length : ℤ)<una+2^31
  ackedUna : una≤c.acked
  ackedNxt : c.acked≤c.nxt
  calm : c.sock.tcp.state=.synSent ∨ c.sock.tcp.state=.finWait1 → c.sock.tcp.unackedBuf=none
  open_ : c.sock.tcp.state=.synSent ∨ c.sock.tcp.state=.established ∨ c.sock.tcp.state=.closeWait → c.finSent=false
  finWait : c.sock.tcp.state=.finWait1 → c.sock.tcp.finSeq+1=c.sock.tcp.sndNxt
  empty : c.sock.tcp.unackedBuf=none → ∀ (k : ℕ) (b : Byte),c.stream[k]? = some (b,true) → 1+(k : ℤ)<una
  kept : ∀ buf,c.sock.tcp.unackedBuf=some buf → ∃ j,KeptAt c una buf j

lemma Conn.nxt_le (c : Conn) : c.nxt≤2+c.stream.length := by
  unfold Conn.nxt
  split_ifs <;> omega

lemma SendInv.same (h : SendInv c una) (hs : SameSend c.sock c'.sock)
    (hstream : c'.stream=c.stream) (hfin : c'.finSent=c.finSent) (hacked : c'.acked=c.acked)
    (hst : c'.sock.tcp.state=c.sock.tcp.state ∨ c'.sock.tcp.state=.closed) : SendInv c' una := by
  have hn : c'.nxt=c.nxt := by rw [Conn.nxt,Conn.nxt,hstream,hfin]
  refine ⟨?_,?_,h.pos,?_,?_,?_,?_,?_,?_,?_,?_,?_⟩
  · rw [hs.sndNxt,hs.iss,hn,h.sndNxt]
  · rw [hs.sndUna,hs.iss,h.sndUna]
  · rw [hn]
    exact h.le
  · rw [hstream]
    exact h.span
  · rw [hacked]
    exact h.ackedUna
  · rw [hacked,hn]
    exact h.ackedNxt
  · rw [hs.unackedBuf]
    intro hc
    rcases hst with hst | hst
    · exact h.calm (hst ▸ hc)
    · simp [hst] at hc
  · rw [hfin]
    intro hc
    rcases hst with hst | hst
    · exact h.open_ (hst ▸ hc)
    · simp [hst] at hc
  · rw [hs.finSeq,hs.sndNxt]
    intro hc
    rcases hst with hst | hst
    · exact h.finWait (hst ▸ hc)
    · simp [hst] at hc
  · rw [hs.unackedBuf,hstream]
    exact h.empty
  · rw [hs.unackedBuf]
    intro buf hb
    obtain ⟨j,hj⟩:=h.kept buf hb
    refine ⟨j,⟨?_,?_,?_,hj.low,?_,?_,?_⟩⟩
    · rw [hs.unackedSeq,hs.iss,hj.seq]
    · rw [hs.unackedLen,hj.len]
    · rw [hstream]
      exact hj.sent
    · rw [hstream]
      exact hj.bytes
    · rw [hstream]
      exact hj.before
    · rw [hstream]
      exact hj.after

variable {data : List Byte}

lemma getElem?_append_flags {l : List (Byte × Bool)} {k : ℕ} {b : Byte}
    (h : (l++data.map (·,false))[k]? = some (b,true)) : l[k]? = some (b,true) := by
  by_cases hk : k<l.length
  · rwa [List.getElem?_append_left hk] at h
  · rw [List.getElem?_append_right (by omega),List.getElem?_map] at h
    obtain ⟨x,-,hx⟩:=map_eq_some_iff.mp h
    simp at hx

lemma SendInv.append (h : SendInv c una) {kept : Bool} (hst : c.sock.tcp.state=.established)
    (hspan : 2+(c.stream.length+data.length : ℤ)<una+2^31)
    (hiss : c'.sock.tcp.iss=c.sock.tcp.iss) (huna : c'.sock.tcp.sndUna=c.sock.tcp.sndUna)
    (hnxt : c'.sock.tcp.sndNxt=c.sock.tcp.sndNxt+BitVec.ofNat 32 data.length) (hst' : c'.sock.tcp.state=.established)
    (hstream : c'.stream=c.stream++data.map (·,kept)) (hfin : c'.finSent=c.finSent) (hacked : c'.acked=c.acked)
    (hkept : (kept=true ∧ c.sock.tcp.unackedBuf=none ∧ c'.sock.tcp.unackedBuf=some data ∧
        c'.sock.tcp.unackedLen=BitVec.ofNat 32 data.length ∧ c'.sock.tcp.unackedSeq=c.sock.tcp.sndNxt) ∨
      (kept=false ∧ c'.sock.tcp.unackedBuf=c.sock.tcp.unackedBuf ∧ c'.sock.tcp.unackedLen=c.sock.tcp.unackedLen ∧
        c'.sock.tcp.unackedSeq=c.sock.tcp.unackedSeq)) : SendInv c' una := by
  have hopen : c.finSent=false := h.open_ (.inr (.inl hst))
  have hn : c.nxt=1+c.stream.length := by simp [Conn.nxt,hopen]
  have hlen : c'.stream.length=c.stream.length+data.length := by simp [hstream]
  have hn' : c'.nxt=c.nxt+data.length := by
    simp only [Conn.nxt,hlen,hfin]
    push_cast
    ring
  have hle:=h.le
  have hacc:=h.ackedNxt
  refine ⟨?_,?_,h.pos,by omega,by omega,?_,by omega,?_,?_,?_,?_,?_⟩
  · rw [hnxt,h.sndNxt,place_add_ofNat,hn',hiss]
  · rw [huna,hiss,h.sndUna]
  · rw [hacked]
    exact h.ackedUna
  · simp [hst']
  · intro _
    rw [hfin,hopen]
  · simp [hst']
  · intro hnone k b hk
    rcases hkept with ⟨-,-,hb,-⟩ | ⟨rfl,hb,-⟩
    · simp [hb] at hnone
    · rw [hstream] at hk
      exact h.empty (hb ▸ hnone) k b (getElem?_append_flags hk)
  intro buf hbuf
  rcases hkept with ⟨rfl,hnone,hb,hl,hs⟩ | ⟨rfl,hb,hl,hs⟩
  · -- the segment just stored starts where the stream ended
    obtain rfl : data=buf := by simpa [hb] using hbuf
    refine ⟨c.stream.length,⟨?_,hl,by omega,by omega,?_,?_,?_⟩⟩
    · rw [hs,h.sndNxt,hn,hiss]
    · intro i hi
      rw [hstream,List.getElem?_append_right (by omega),Nat.add_sub_cancel_left,List.getElem?_map,map_map]
      simp [Function.comp_def]
    · intro k hk b hkb
      rw [hstream,List.getElem?_append_left hk] at hkb
      exact h.empty hnone k b hkb
    · intro k _ b hkb
      obtain ⟨hlt,-⟩:=List.getElem?_eq_some_iff.mp hkb
      omega
  obtain ⟨j,hj⟩:=h.kept buf (hb ▸ hbuf)
  have hsent:=hj.sent
  refine ⟨j,⟨?_,hl.trans hj.len,by omega,hj.low,?_,?_,?_⟩⟩
  · rw [hs,hiss,hj.seq]
  · intro i hi
    rw [hstream,List.getElem?_append_left (by omega)]
    exact hj.bytes i hi
  · intro k hk b hkb
    rw [hstream] at hkb
    exact hj.before k hk b (getElem?_append_flags hkb)
  · intro k hk b hkb
    rw [hstream] at hkb
    exact hj.after k hk b (getElem?_append_flags hkb)

lemma SendInv.output (h : SendInv c una) (payload : List Byte) (page : Bool) (now : Word)
    (hok : Orderly c (.output payload page now)) : SendInv (c.output payload page now) una := by
  by_cases hst : c.sock.tcp.state=.established
  · have hnum : numbered c.sock payload=payload.take tcpMaxSegmentData := if_pos hst
    have hdist : ((c.sock.tcp.sndNxt-c.sock.tcp.sndUna).toNat : ℤ)=c.nxt-una := by
      have hspan:=h.span
      have hnl:=c.nxt_le
      rw [h.sndNxt,h.sndUna]
      exact toNat_place_sub h.le (by omega)
    have hshort : (payload.take tcpMaxSegmentData).length≤payload.length := by simp
    have hopen : c.finSent=false := h.open_ (.inr (.inl hst))
    have hn : c.nxt=1+c.stream.length := by simp [Conn.nxt,hopen]
    have hspan : 2+(c.stream.length+(payload.take tcpMaxSegmentData).length : ℤ)<una+2^31 := by
      have hok' : (c.sock.tcp.sndNxt-c.sock.tcp.sndUna).toNat+payload.length+1<2^31 := hok
      omega
    have hstream : (c.output payload page now).stream=c.stream ++
        (payload.take tcpMaxSegmentData).map (·,c.sock.tcp.unackedBuf.isNone && page) := by
      simp only [Conn.output,hnum]
    refine h.append hst hspan ?_ ?_ ?_ ?_ hstream rfl rfl ?_
    all_goals simp only [Conn.output,tcpOutput,hst,ne_eq,not_true_eq_false,if_false]
    · split_ifs <;> rfl
    · split_ifs <;> rfl
    · split_ifs <;> rfl
    · split_ifs <;> rfl
    by_cases hp : c.sock.tcp.unackedBuf=none ∧ page=true
    · rw [if_pos hp]
      exact .inl ⟨by simp [hp.1,hp.2],hp.1,rfl,rfl,rfl⟩
    rw [if_neg hp]
    refine .inr ⟨?_,rfl,rfl,rfl⟩
    cases hu : c.sock.tcp.unackedBuf with
    | none => simpa [hu] using hp
    | some buf => rfl
  · have hnum : numbered c.sock payload=[] := if_neg hst
    have hout : (tcpOutput c.sock payload page now).sock=c.sock := by
      rw [tcpOutput,if_pos hst]
      rfl
    refine h.same ?_ ?_ rfl rfl (.inl ?_)
    · simp only [Conn.output,hout]
      exact .refl _
    · simp [Conn.output,hnum]
    · simp [Conn.output,hout]

lemma SendInv.close (h : SendInv c una) (now : Word) (hok : c.sock.tcp.unackedBuf=none)
    (hgone : (c.close now).gone=false) : SendInv (c.close now) una := by
  have hns : c.sock.tcp.state≠.synSent := by
    intro hc
    simp [Conn.close,hc] at hgone
  -- our FIN takes the next number
  have hfin : ∀ st,(c.sock.tcp.state=.established ∨ c.sock.tcp.state=.closeWait) →
      st≠.synSent → st≠.established → st≠.closeWait →
      tcpClose c.sock .network now=sendFin c.sock st now → SendInv (c.close now) una := by
    intro st hst h1 h2 h3 ho
    have hopen : c.finSent=false := h.open_ (.inr hst)
    have hsent : (c.close now).finSent=true := by
      rcases hst with hst | hst <;> simp [Conn.close,hst]
    have hsock : (c.close now).sock=(sendFin c.sock st now).sock := by rw [← ho]; rfl
    have hn' : (c.close now).nxt=c.nxt+1 := by
      simp only [Conn.nxt,hsent,hopen]
      simp [Conn.close]
    have hle:=h.le
    have hacc:=h.ackedNxt
    refine ⟨?_,?_,h.pos,by omega,h.span,h.ackedUna,?_,?_,?_,?_,?_,?_⟩
    · rw [hn',← place_add_one,hsock]
      exact congrArg (· + 1) h.sndNxt
    · rw [hsock]
      exact h.sndUna
    · show c.acked ≤ _
      omega
    · rw [hsock]
      intro _
      rfl
    · rw [hsock]
      rintro (hc | hc | hc)
      · exact absurd hc h1
      · exact absurd hc h2
      · exact absurd hc h3
    · rw [hsock]
      intro _
      rfl
    · intro _
      exact h.empty hok
    · rw [hsock]
      intro buf hb
      cases hb
  rcases tcpClose_network c.sock now with ⟨hst,ho⟩ | ⟨hst,ho⟩ | ⟨hst,-⟩ | ⟨h₁,h₂,ho⟩
  · exact hfin _ (.inl hst) (by simp) (by simp) (by simp) ho
  · exact hfin _ (.inr hst) (by simp) (by simp) (by simp) ho
  · exact absurd hst hns
  refine h.same ?_ rfl ?_ rfl (.inl ?_)
  · simp only [Conn.close,ho]
    exact ⟨rfl,rfl,rfl,hok.symm,rfl,rfl,rfl⟩
  · simp [Conn.close,beq_eq_false_iff_ne.mpr h₁,beq_eq_false_iff_ne.mpr h₂]
  · simp [Conn.close,ho,Socket.idle]

lemma tcpAck_cases (s : Socket) (g : Segment) (now : Word) : SameSend s (tcpAck s g now) ∨
    (g.ack=true ∧ s.tcp.unackedBuf≠none ∧ leq (s.tcp.unackedSeq+s.tcp.unackedLen) g.ackNum ∧
      (tcpAck s g now).tcp.unackedBuf=none ∧ (tcpAck s g now).tcp.sndUna=g.ackNum ∧
      (tcpAck s g now).tcp.iss=s.tcp.iss ∧ (tcpAck s g now).tcp.sndNxt=s.tcp.sndNxt ∧
      (tcpAck s g now).tcp.finSeq=s.tcp.finSeq) := by
  unfold tcpAck noteWindow
  by_cases h : g.ack ∧ s.tcp.unackedBuf≠none ∧ leq (s.tcp.unackedSeq+s.tcp.unackedLen) g.ackNum
  · refine .inr ⟨h.1,h.2.1,h.2.2,?_⟩
    rw [if_pos h]
    split_ifs <;> exact ⟨rfl,rfl,rfl,rfl,rfl⟩
  · left
    rw [if_neg h]
    split_ifs <;> exact ⟨rfl,rfl,rfl,rfl,rfl,rfl,rfl⟩

lemma SendInv.ackNum_eq (h : SendInv c una) (g : Segment) : g.ackNum=place c.sock.tcp.iss (c.ackPlace g) := by
  unfold Conn.ackPlace
  rw [h.sndNxt]
  exact (place_sub_toNat g.ackNum).symm

def Conn.noted (c : Conn) (g : Segment) (s : Socket) : Conn :=
  {c with sock := s,acked := if g.ack then max c.acked (c.ackPlace g) else c.acked}

section
variable (h : SendInv c una)
include h

lemma SendInv.noted_le (g : Segment) (s : Socket) : una≤(c.noted g s).acked ∧ (c.noted g s).acked≤c.nxt := by
  have h1:=h.ackedUna
  have h2:=h.ackedNxt
  have h3 : c.ackPlace g≤c.nxt := by
    unfold Conn.ackPlace
    omega
  unfold Conn.noted
  split_ifs
  · exact ⟨h1.trans (le_max_left _ _),max_le h2 h3⟩
  · exact ⟨h1,h2⟩

lemma SendInv.ack (now : Word) (hok : g.ack=true → (c.sock.tcp.sndNxt-g.ackNum).toNat<2^31) :
    ∃ una',SendInv (c.noted g (tcpAck c.sock g now)) una' := by
  have hst:=(tcpAck_sameState c.sock g now).tcp
  rcases tcpAck_cases c.sock g now with hs | ⟨hack,hne,hleq,hnone,huna,hiss,hnxt,hfin⟩
  · obtain ⟨hu,hn⟩:=h.noted_le g (tcpAck c.sock g now)
    have h' : SendInv {c with sock := tcpAck c.sock g now} una := h.same hs rfl rfl rfl (.inl hst)
    exact ⟨una,⟨h'.sndNxt,h'.sndUna,h'.pos,h'.le,h'.span,hu,hn,h'.calm,h'.open_,h'.finWait,h'.empty,fun buf hb => by
        obtain ⟨j,hj⟩:=h'.kept buf hb
        exact ⟨j,hj.seq,hj.len,hj.sent,hj.low,hj.bytes,hj.before,hj.after⟩⟩⟩
  -- the segment kept lies below the acknowledgement
  obtain ⟨buf,hbuf⟩:=ne_none_iff_exists'.mp hne
  obtain ⟨j,hj⟩:=h.kept buf hbuf
  have hdist:=hok hack
  have hpl : c.ackPlace g=c.nxt-(c.sock.tcp.sndNxt-g.ackNum).toNat := rfl
  have hspan:=h.span
  have hnl:=c.nxt_le
  have hlow:=hj.low
  have hsent:=hj.sent
  have hnxt1 : 1+(c.stream.length : ℤ)≤c.nxt := by
    unfold Conn.nxt
    split_ifs <;> omega
  have hcov : 1+(j : ℤ)+buf.length≤c.ackPlace g := by
    rw [hj.seq,hj.len,place_add_ofNat,h.ackNum_eq g,leq_place (by decide) (by omega) (by omega)] at hleq
    exact hleq
  refine ⟨c.ackPlace g,⟨?_,?_,?_,?_,?_,?_,?_,?_,?_,?_,?_,?_⟩⟩
  · show (tcpAck c.sock g now).tcp.sndNxt=place (tcpAck c.sock g now).tcp.iss c.nxt
    rw [hnxt,hiss,h.sndNxt]
  · show (tcpAck c.sock g now).tcp.sndUna=place (tcpAck c.sock g now).tcp.iss _
    rw [huna,hiss]
    exact h.ackNum_eq g
  · have := h.pos
    omega
  · show c.ackPlace g≤c.nxt
    omega
  · show 2+(c.stream.length : ℤ) < _
    omega
  · simp [Conn.noted,hack]
  · exact (h.noted_le g _).2
  · exact fun _ => hnone
  · show (tcpAck c.sock g now).tcp.state = _ ∨ (tcpAck c.sock g now).tcp.state = _ ∨
      (tcpAck c.sock g now).tcp.state = _ → _
    rw [hst]
    exact h.open_
  · show (tcpAck c.sock g now).tcp.state = _ → (tcpAck c.sock g now).tcp.finSeq+1 = (tcpAck c.sock g now).tcp.sndNxt
    rw [hst,hfin,hnxt]
    exact h.finWait
  · intro _ k b hk
    by_cases hkj : k<j
    · have := hj.before k hkj b hk
      omega
    · have := hj.after k (by omega) b hk
      omega
  · intro buf' hb
    exact absurd (hnone.symm.trans hb) (by simp)

lemma SendInv.ackMove (hm : AckMove c.sock s' g) (hc' : c'.sock=s') (hstream : c'.stream=c.stream)
    (hfin : c'.finSent=c.finSent) (hacked : c'.acked=c.acked)
    (hnote : g.ack=true → c.ackPlace g≤c.acked) : ∃ una',SendInv c' una' := by
  subst hc'
  have hn : c'.nxt=c.nxt := by rw [Conn.nxt,Conn.nxt,hstream,hfin]
  -- everything but `snd_una`
  have hbase : ∀ una',c'.sock.tcp.sndUna=place c.sock.tcp.iss una' → una≤una' → una'≤c.nxt → una'≤c.acked →
      (una'=una ∨ c.sock.tcp.unackedBuf=none) → SendInv c' una' := by
    intro una' hu hge hle hacc hcase
    have hpos:=h.pos
    have hspan:=h.span
    refine ⟨?_,?_,by omega,?_,?_,?_,?_,?_,?_,?_,?_,?_⟩
    · rw [hm.sndNxt,hm.iss,hn,h.sndNxt]
    · rw [hu,hm.iss]
    · rwa [hn]
    · rw [hstream]
      omega
    · rwa [hacked]
    · rw [hacked,hn]
      exact h.ackedNxt
    · rw [hm.unackedBuf]
      exact fun hs => h.calm (hs.imp hm.syn hm.finWait)
    · rw [hfin]
      rintro (hs | hs)
      · exact h.open_ (.inl (hm.syn hs))
      · exact h.open_ (hm.open_ hs)
    · rw [hm.finSeq,hm.sndNxt]
      exact fun hs => h.finWait (hm.finWait hs)
    · rw [hm.unackedBuf,hstream]
      intro hnone k b hk
      have := h.empty hnone k b hk
      omega
    · rw [hm.unackedBuf]
      intro buf hb
      rcases hcase with rfl | hnone
      · obtain ⟨j,hj⟩:=h.kept buf hb
        refine ⟨j,⟨?_,?_,?_,hj.low,?_,?_,?_⟩⟩
        · rw [hm.unackedSeq,hm.iss,hj.seq]
        · rw [hm.unackedLen,hj.len]
        · rw [hstream]
          exact hj.sent
        · rw [hstream]
          exact hj.bytes
        · rw [hstream]
          exact hj.before
        · rw [hstream]
          exact hj.after
      · exact absurd (hnone.symm.trans hb) (by simp)
  rcases hm.sndUna with hu | ⟨hack,hu,hall⟩
  · exact ⟨una,hbase una (hu.trans h.sndUna) le_rfl h.le h.ackedUna (.inl rfl)⟩
  have hnum : g.ackNum=c.sock.tcp.sndNxt := by
    rcases hall with ⟨-,ha⟩ | ⟨hst,ha⟩
    · exact ha
    · exact ha.trans (h.finWait hst)
  have hplace : c.ackPlace g=c.nxt := by simp [Conn.ackPlace,hnum]
  refine ⟨c.nxt,hbase c.nxt ?_ h.le le_rfl (hplace ▸ hnote hack) ?_⟩
  · rw [hu,hnum,h.sndNxt]
  · exact .inr (h.calm (hall.imp And.left And.left))

lemma SendInv.input (src : SockAddr) (now : Word) (hrst : g.rst=false)
    (hok : Orderly c (.input src g now)) : ∃ una',SendInv (c.input src g now) una' := by
  obtain ⟨una1,h1⟩:=h.ack now hok
  have hin : tcpInput c.sock src g now=inputState (tcpAck c.sock g now) src g now := by
    rw [tcpInput,if_neg (by simp [hrst])]
  refine h1.ackMove (inputState_input _ src g now).ackMove ?_ rfl rfl rfl ?_
  · simp only [Conn.input,hin]
    rfl
  intro hack
  have hp : (c.noted g (tcpAck c.sock g now)).ackPlace g=c.ackPlace g := by
    have hn : (tcpAck c.sock g now).tcp.sndNxt=c.sock.tcp.sndNxt := by
      rcases tcpAck_cases c.sock g now with hs | hs
      · exact hs.sndNxt
      · exact hs.2.2.2.2.2.2.1
    show c.nxt-(((tcpAck c.sock g now).tcp.sndNxt-g.ackNum).toNat : ℤ)=c.ackPlace g
    rw [hn]
    rfl
  rw [hp]
  simp [Conn.noted,hack]

end

def Sends (c : Conn) : Prop := c.gone=false → ∃ una,SendInv c una

lemma step_sends {e : Event} (h : Sends c) (hok : Orderly c e) (hs : step c e=some c') : Sends c' := by
  intro hg
  cases e with
  | output payload page now =>
    cases hs
    obtain ⟨una,hu⟩:=h hg
    exact ⟨una,hu.output payload page now hok⟩
  | close now =>
    cases hs
    obtain ⟨una,hu⟩:=h (or_eq_false_iff.mp hg).1
    exact ⟨una,hu.close now hok hg⟩
  | input src g now =>
    cases hs
    obtain ⟨hg',hrst⟩:=or_eq_false_iff.mp hg
    obtain ⟨una,hu⟩:=h hg'
    exact hu.input src now hrst hok
  | tick now =>
    cases hs
    obtain ⟨hg',hend⟩:=or_eq_false_iff.mp hg
    obtain ⟨una,hu⟩:=h hg'
    rcases (tcpSlowtimo_timerStep c.sock .network now).cases with ⟨hst,hsend⟩ | ⟨hcl,hne,hsend⟩
    · exact ⟨una,hu.same hsend rfl rfl rfl (.inl hst.tcp)⟩
    · have htw : c.sock.tcp.state=.timeWait := by simpa [hcl.tcp,hne] using hend
      exact ⟨una,hu.same (hsend htw) rfl rfl rfl (.inr hcl.tcp)⟩
  | timeout =>
    cases hs
    obtain ⟨hg',hst⟩:=or_eq_false_iff.mp hg
    obtain ⟨una,hu⟩:=h hg'
    have hsame : tcpConnectTimeout c.sock=c.sock := if_neg (by simpa using hst)
    refine ⟨una,hu.same ?_ rfl rfl rfl (.inl ?_)⟩
    · simp only [Conn.timeout,hsame]
      exact .refl _
    · simp only [Conn.timeout,hsame]
  | read n =>
    simp only [step,Conn.read] at hs
    split_ifs at hs with hn
    · cases hs
      obtain ⟨una,hu⟩:=h hg
      exact ⟨una,hu.same (.refl _) rfl rfl rfl (.inl rfl)⟩
    obtain ⟨⟨bytes,o⟩,ho,rfl⟩:=map_eq_some_iff.mp hs
    obtain ⟨una,hu⟩:=h hg
    have hsame : SameSend c.sock o.sock ∧ o.sock.tcp.state=c.sock.tcp.state := by
      unfold socketFileread at ho
      split_ifs at ho
      · cases ho
        exact ⟨.refl _,rfl⟩
      · cases ho
        exact ⟨⟨rfl,rfl,rfl,rfl,rfl,rfl,rfl⟩,rfl⟩
    exact ⟨una,hu.same hsame.1 rfl rfl rfl (.inl hsame.2)⟩

lemma start_sends {dst : SockAddr} {port : ℕ} {iss now : Word} {o : Outcome}
    (hc : tcpConnect s dst port iss now=some o) : Sends (Conn.start o) := by
  intro _
  unfold tcpConnect at hc
  split_ifs at hc
  all_goals
    cases hc
    refine ⟨0,⟨?_,?_,le_rfl,?_,?_,le_rfl,?_,?_,?_,?_,?_,?_⟩⟩
    any_goals simp [Conn.start,Conn.nxt,place]

structure Resendable (c : Conn) : Prop where
  /-- `snd_una` is the number of a place at or below that of `snd_nxt`, and every byte from
  there on that went into the retransmission buffer is in it. -/
  held : ∃ una : ℤ,c.sock.tcp.sndUna=place c.sock.tcp.iss una ∧
    c.sock.tcp.sndNxt=place c.sock.tcp.iss c.nxt ∧ 0≤una ∧ una≤c.nxt ∧
    ∀ (k : ℕ) (b : Byte),c.stream[k]? = some (b,true) → una≤1+k → Held c k b
  order : leq c.sock.tcp.sndUna c.sock.tcp.sndNxt
  discarded : ∀ (k : ℕ) (b : Byte),c.stream[k]? = some (b,true) → ¬ Held c k b → 1+(k : ℤ)<c.acked

lemma SendInv.held (h : SendInv c una) {k : ℕ} {b : Byte} (hk : c.stream[k]? = some (b,true))
    (hu : una≤1+k) : Held c k b := by
  cases hb : c.sock.tcp.unackedBuf with
  | none =>
    have := h.empty hb k b hk
    omega
  | some buf =>
    obtain ⟨j,hj⟩:=h.kept buf hb
    have hjk : j≤k := by
      by_contra hlt
      have := hj.before k (by omega) b hk
      omega
    refine ⟨buf,j,hb,hj.len,hj.seq,hjk,?_⟩
    have hlt:=hj.after k hjk b hk
    rw [hj.bytes (k-j) (by omega),Nat.add_sub_cancel' hjk,hk]
    rfl

lemma SendInv.resendable (h : SendInv c una) : Resendable c := by
  refine ⟨⟨una,h.sndUna,h.sndNxt,h.pos,h.le,fun k b hk hu => h.held hk hu⟩,?_,?_⟩
  · have hspan:=h.span
    have hnl:=c.nxt_le
    rw [h.sndUna,h.sndNxt,leq_place (by decide) (by omega) (by have := h.le; omega)]
    exact h.le
  intro k b hk hnot
  by_contra hle
  have := h.ackedUna
  exact hnot (h.held hk (by omega))

/-- Over every orderly run, what went into the retransmission buffer stays there until
it is acknowledged. -/
theorem tcp_keeps_unacked {s : Socket} {dst : SockAddr} {port : ℕ} {iss now : Word} {o : Outcome}
    (hc : tcpConnect s dst port iss now=some o) {events : List Event} (hok : Guarded step Orderly (.start o) events)
    (hrun : run step (.start o) events=some c) (hgone : c.gone=false) : Resendable c := by
  obtain ⟨una,h⟩ := run_guarded (fun _ _ _ => step_sends) (start_sends hc) hok hrun hgone
  exact h.resendable

def ackedSend : List Event :=
  [.input server (synAck 5000 1001) 0,.output [7] true 0,.input server (ackOnly 5001 1002) 0,.output [8] true 0]

lemma ackedSend_guarded : Guarded step Orderly (.start firstCall) ackedSend := by
  refine ⟨fun _ => by decide,fun _ h1 => ?_⟩
  cases h1
  refine ⟨show (_ : ℕ) < _ by decide +kernel,fun _ h2 => ?_⟩
  cases h2
  refine ⟨fun _ => by decide +kernel,fun _ h3 => ?_⟩
  cases h3
  exact ⟨show (_ : ℕ) < _ by decide +kernel,fun _ _ => trivial⟩

theorem tcp_keeps_second_byte : ∃ c,run step (.start firstCall) ackedSend=some c ∧ c.gone=false ∧
      c.stream=[(7,true),(8,true)] ∧ Resendable c := by
  obtain ⟨c,hc,hg,hstream⟩ : ∃ c,run step (.start firstCall) ackedSend=some c ∧ c.gone=false ∧
      c.stream=[(7,true),(8,true)] := by
    decide +kernel
  have hcall : tcpConnect newSocket server 40000 1000 0=some firstCall := by decide
  exact ⟨c,hc,hg,hstream,tcp_keeps_unacked hcall ackedSend_guarded hc hg⟩

def AllHeld (c : Conn) : Prop :=
  ∃ una : ℤ,c.sock.tcp.sndUna=place c.sock.tcp.iss una ∧ 0≤una ∧ una≤c.nxt ∧
    ∀ (k : ℕ) (b : Byte) (kept : Bool),c.stream[k]? = some (b,kept) → una≤1+k → Held c k b

theorem tcp_second_segment_not_held : ∃ c,run step (.start firstCall)
        [.input server (synAck 5000 1001) 0,.output [7] true 0,.output [8] true 0]=some c ∧
      c.gone=false ∧ ¬ AllHeld c := by
  have hrun : (run step (.start firstCall)
      [.input server (synAck 5000 1001) 0,.output [7] true 0,.output [8] true 0]).map
      (fun c => ((c.gone,c.stream,c.finSent),(c.sock.tcp.iss,c.sock.tcp.sndUna),
        c.sock.tcp.unackedBuf,c.sock.tcp.unackedSeq)) =
      some ((false,[(7,true),(8,false)],false),(1000,1001),some [7],1001) := rfl
  obtain ⟨c,hc,heq⟩:=Option.map_eq_some_iff.mp hrun
  simp only [Prod.mk.injEq] at heq
  obtain ⟨⟨hg,hstream,hfin⟩,⟨hiss,huna⟩,hbuf,hseq⟩:=heq
  refine ⟨c,hc,hg,?_⟩
  rintro ⟨una,hu,h0,hle,hall⟩
  have h1 : (1001 : Word)=place 1000 1 := by decide
  have hn : c.nxt=3 := by simp [Conn.nxt,hstream,hfin]
  obtain rfl : una=1 := by
    rw [huna,hiss,h1] at hu
    exact (place_inj hu (by omega) (by omega)).symm
  obtain ⟨buf,j,hb,-,hs,hj,hbyte⟩:=hall 1 8 false (by simp [hstream]) (by omega)
  rw [hseq,hiss,h1] at hs
  have hj0:=place_inj hs (by omega) (by omega)
  obtain rfl : j=0 := by omega
  rw [hbuf] at hb
  cases hb
  simp at hbyte

end Auxv6.Net

import Auxv6.Net.TcpStream

/-!
# What the closing states of TCP mean

`FIN_WAIT_1` takes a FIN that does not acknowledge ours and stays, since there is no state CLOSING; the
acknowledgement then leads to `FIN_WAIT_2`.
-/

namespace Auxv6.Net
open Lib.Transition Option

variable {p q : Conn × Bool} {s : Socket} {g : Segment}

def AcksFin (s : Socket) (g : Segment) : Prop := g.ack=true ∧ g.ackNum=s.tcp.finSeq+1
  deriving Decidable

def closeStep (p : Conn × Bool) (e : Event) : Option (Conn × Bool) :=
  (step p.1 e).map (·,p.2 || match e with
    | .input _ g _ => p.1.finSent && decide (AcksFin p.1.sock g)
    | _ => false)

structure CloseStates (p : Conn × Bool) : Prop where
  finWait1 : p.1.sock.tcp.state=.finWait1 ↔
    p.1.finSent ∧ ¬ p.2 ∧ p.1.sock.tcp.state≠.lastAck ∧ p.1.sock.tcp.state≠.closed
  finWait2 : p.1.sock.tcp.state=.finWait2 → p.1.finSent ∧ p.2 ∧ ¬ p.1.finSeen
  passive : p.1.sock.tcp.state=.closeWait ∨ p.1.sock.tcp.state=.lastAck → p.1.finSeen
  timeWait : p.1.sock.tcp.state=.timeWait → p.1.finSent ∧ p.2 ∧ p.1.finSeen

/-- In `FIN_WAIT_1` the FIN expected next comes with the acknowledgement of ours. -/
def AcksFirst (p : Conn × Bool) : Event → Prop
  | .input _ g _ => g.rst=false → p.1.sock.tcp.state=.finWait1 → FinNext p.1.sock g → AcksFin p.1.sock g
  | _ => True

/-- The state, then whether the connection was made, our FIN sent, acknowledged, and the
peer's received. -/
def means : TcpState → Bool → Bool → Bool → Bool → Bool
  | .synSent, false, false, false, false => true
  | .established, true, false, false, false => true
  | .finWait1, true, true, false, false => true
  | .finWait2, true, true, true, false => true
  | .closeWait, true, false, false, true => true
  | .lastAck, true, true, false, true => true
  | .timeWait, true, true, true, true => true
  | .closed, _, _, _, _ => true
  | _, _, _, _, _ => false

lemma means_spec : ∀ st up sent acked seen,means st up sent acked seen=true →
    (st=.finWait1 ↔ sent=true ∧ ¬ acked=true ∧ st≠.lastAck ∧ st≠.closed) ∧
    (st=.finWait2 → sent=true ∧ acked=true ∧ ¬ seen=true) ∧ (st=.closeWait ∨ st=.lastAck → seen=true) ∧
    (st=.timeWait → sent=true ∧ acked=true ∧ seen=true) := by
  intro st up sent acked seen h
  refine ⟨?_,?_,?_,?_⟩ <;> revert st up sent acked seen <;> decide

lemma means_close : ∀ st st' up sent acked seen,means st up sent acked seen=true →
    (st=.established ∧ st'=.finWait1) ∨ (st=.closeWait ∧ st'=.lastAck) →
    means st' up true acked seen=true := by decide
lemma means_moves : ∀ st st' up sent acked seen took ack,means st up sent acked seen=true →
    st≠.synSent → moves st st' took=true →
    (st=.finWait1 ∨ st=.lastAck → (st'=st ↔ ack=false)) → (st=.finWait1 → took=true → ack=true) →
    means st' (up || st' == .established) sent (acked || (sent && ack)) (seen || (up && took))=true := by
  decide
lemma means_synSent : ∀ up sent acked seen,means .synSent up sent acked seen=true →
    up=false ∧ sent=false ∧ acked=false ∧ seen=false := by decide

structure CloseInv (p : Conn × Bool) : Prop where
  buf : p.1.sock.recvBuf≠none
  means : means p.1.sock.tcp.state p.1.up p.1.finSent p.2 p.1.finSeen=true

lemma CloseInv.of_same (h : CloseInv p) (hbuf : q.1.sock.recvBuf≠none)
    (hst : q.1.sock.tcp.state=p.1.sock.tcp.state) (hup : q.1.up=p.1.up)
    (hsent : q.1.finSent=p.1.finSent) (hseen : q.1.finSeen=p.1.finSeen) (hack : q.2=p.2) : CloseInv q :=
  ⟨hbuf,by rw [hst,hup,hsent,hseen,hack]; exact h.means⟩
lemma closeInv_closed (hbuf : q.1.sock.recvBuf≠none) (hst : q.1.sock.tcp.state=.closed) : CloseInv q :=
  ⟨hbuf,by rw [hst]; rfl⟩

lemma tcpInput_acksFin (src : SockAddr) (now : Word) (hrst : g.rst=false)
    (hst : s.tcp.state=.finWait1 ∨ s.tcp.state=.lastAck) :
    (tcpInput s src g now).sock.tcp.state=s.tcp.state ↔ ¬ AcksFin s g := by
  have hack : (tcpAck s g now).tcp.state=s.tcp.state ∧ (tcpAck s g now).tcp.finSeq=s.tcp.finSeq := by
    unfold tcpAck noteWindow
    split_ifs <;> exact ⟨rfl,rfl⟩
  unfold tcpInput AcksFin
  rw [if_neg (by simp [hrst]),← hack.1,← hack.2]
  rw [← hack.1] at hst
  generalize tcpAck s g now=t at hst
  obtain hst | hst:=hst <;> simp only [inputState,hst,inputFinWait1,inputLastAck,enterTimeWait] <;>
    split_ifs <;> simp_all [takeFin,Socket.idle,Socket.shut]

lemma CloseInv.input (h : CloseInv p) {src : SockAddr} {now : Word} (hok : AcksFirst p (.input src g now)) :
    CloseInv (p.1.input src g now,p.2 || (p.1.finSent && decide (AcksFin p.1.sock g))) := by
  obtain ⟨c,acked⟩:=p
  obtain ⟨buf,hbuf⟩:=ne_none_iff_exists'.mp h.buf
  cases hrst : g.rst with
  | true =>
    have hin : (tcpInput c.sock src g now).sock =
        {c.sock with tcp := {c.sock.tcp with unackedBuf := none}}.shut := by rw [tcpInput,if_pos hrst]
    refine closeInv_closed ?_ ?_ <;> simp only [Conn.input,hin]
    · exact h.buf
    · rfl
  | false =>
    by_cases hsyn : c.sock.tcp.state=.synSent
    · have hflags : c.up=false ∧ c.finSent=false ∧ acked=false ∧ c.finSeen=false := by
        have hm:=h.means
        simp only [hsyn] at hm
        exact means_synSent _ _ _ _ hm
      obtain ⟨hup,hsent,hacked,hseen⟩:=hflags
      obtain ⟨hr,hs,-⟩ | ⟨-,hr,-,-,-,hs,-⟩:=tcpInput_synSent src now hrst hsyn
      · refine h.of_same (hr.buf ▸ h.buf) hs.tcp ?_ rfl ?_ ?_ <;> simp [Conn.input,hs.tcp,hsyn,hup,hsent]
      · exact ⟨hr ▸ h.buf,by simp [Conn.input,hs,hup,hsent,hacked,hseen,Net.means]⟩
    obtain ⟨bytes,took,ht,-⟩:=tcpInput_takes src now hrst hsyn
    refine ⟨?_,?_⟩
    · simp [Conn.input,ht.buf buf hbuf]
    have hm:=means_moves _ _ _ _ _ _ took (decide (AcksFin c.sock g)) h.means hsyn ht.moves ?_ ?_
    · simpa [Conn.input,ht.tookFin hbuf] using hm
    · intro hst
      rw [tcpInput_acksFin src now hrst hst,decide_eq_false_iff_not]
    intro hst htook
    have hnil : bytes=[] := by
      by_contra hne
      exact absurd ((ht.here hne).2.symm.trans hst) (by decide)
    refine decide_eq_true (hok hrst hst ?_)
    obtain ⟨hfin,hseq⟩:=ht.fin htook
    exact ⟨hfin,by simpa [hnil] using hseq⟩

lemma closeStep_inv {e : Event} (h : CloseInv p) (hok : AcksFirst p e) (hs : closeStep p e=some q) : CloseInv q := by
  obtain ⟨c,hc,rfl⟩:=map_eq_some_iff.mp hs
  have hbuf {s' : Socket} (hr : SameRecv p.1.sock s') : s'.recvBuf≠none := hr.buf ▸ h.buf
  cases e with
  | output payload page now =>
    cases hc
    refine h.of_same (hbuf (tcpOutput_quiet p.1.sock payload page now).recv) ?_ rfl rfl rfl (Bool.or_false _)
    show (tcpOutput p.1.sock payload page now).sock.tcp.state = _
    unfold tcpOutput
    split_ifs <;> rfl
  | close now =>
    cases hc
    refine ⟨hbuf (tcpClose_quiet p.1.sock .network now).recv,?_⟩
    have hm:=h.means
    obtain ⟨hst,ho⟩ | ⟨hst,ho⟩ | ⟨hst,ho⟩ | ⟨h1,h2,ho⟩:=tcpClose_network p.1.sock now
    all_goals simp only [Conn.close,ho,Bool.or_false]
    · simpa [hst,sendFin] using means_close _ _ _ _ _ _ hm (.inl ⟨hst,rfl⟩)
    · simpa [hst,sendFin] using means_close _ _ _ _ _ _ hm (.inr ⟨hst,rfl⟩)
    · rfl
    · simpa [beq_eq_false_iff_ne.mpr h1,beq_eq_false_iff_ne.mpr h2,Socket.idle] using hm
  | input src g now =>
    cases hc
    exact h.input hok
  | tick now =>
    cases hc
    have ht:=tcpSlowtimo_timerStep p.1.sock .network now
    obtain ⟨hst,-⟩ | ⟨hcl,-⟩:=ht.cases
    · exact h.of_same (hbuf ht.quiet.recv) hst.tcp rfl rfl rfl (Bool.or_false _)
    · exact closeInv_closed (hbuf ht.quiet.recv) hcl.tcp
  | timeout =>
    cases hc
    unfold Conn.timeout tcpConnectTimeout
    split_ifs
    · exact closeInv_closed h.buf rfl
    · exact h.of_same h.buf rfl rfl rfl rfl (Bool.or_false _)
  | read n =>
    simp only [step,Conn.read] at hc
    split_ifs at hc
    · cases hc
      exact h.of_same h.buf rfl rfl rfl rfl (Bool.or_false _)
    obtain ⟨⟨bytes,o⟩,ho,rfl⟩:=map_eq_some_iff.mp hc
    have hread : o.sock.recvBuf≠none ∧ o.sock.tcp=p.1.sock.tcp := by
      have hne:=h.buf
      unfold socketFileread socketRecvCopy at ho
      split_ifs at ho <;> cases ho
      · exact ⟨hne,rfl⟩
      · exact ⟨by simpa using hne,rfl⟩
    exact h.of_same hread.1 (congrArg Tcpcb.state hread.2) rfl rfl rfl (Bool.or_false _)

/-- On a connection that `tcp_connect` began, as long as no FIN overtakes the acknowledgement
of ours, the closing states mean what they say. -/
theorem close_states {s : Socket} {dst : SockAddr} {port : ℕ} {iss now : Word} {o : Outcome}
    (hc : tcpConnect s dst port iss now=some o) (hbuf : s.recvBuf≠none) {events : List Event}
    (hok : Guarded closeStep AcksFirst (.start o,false) events)
    (hrun : run closeStep (.start o,false) events=some p) : CloseStates p := by
  have hstart : CloseInv (.start o,false) := by
    unfold tcpConnect at hc
    split_ifs at hc <;> cases hc <;> exact ⟨hbuf,rfl⟩
  have h:=run_guarded (I := CloseInv) (fun _ _ _ => closeStep_inv) hstart hok hrun
  obtain ⟨h1,h2,h3,h4⟩:=means_spec _ _ _ _ _ h.means
  exact ⟨h1,h2,h3,h4⟩

def activeClose : List Event := [.input server (synAck 5000 1001) 0,.close 0,.input server (ackOnly 5001 1002) 0]

theorem close_states_active : ∃ p,run closeStep (.start firstCall,false) activeClose=some p ∧
    p.1.sock.tcp.state=.finWait2 ∧ CloseStates p := by
  obtain ⟨p,hp,hst⟩ : ∃ p,run closeStep (.start firstCall,false) activeClose=some p ∧
      p.1.sock.tcp.state=.finWait2 := by
    decide +kernel
  have hcall : tcpConnect newSocket server 40000 1000 0=some firstCall := by decide
  refine ⟨p,hp,hst,close_states hcall (by simp [newSocket]) (guarded_of_forall fun e he p => ?_) hp⟩
  simp only [activeClose,List.mem_cons,List.not_mem_nil,or_false] at he
  obtain rfl | rfl | rfl:=he
  · exact fun _ _ hf => absurd hf.1 (by decide)
  · trivial
  · exact fun _ _ hf => absurd hf.1 (by decide)

def bothClose : List Event := [.input server (synAck 5000 1001) 0,.close 0,.input server (finOnly 5001 1001) 0,
  .input server (ackOnly 5002 1002) 0]

theorem finWait2_after_both : ∃ p,run closeStep (.start firstCall,false) bothClose=some p ∧ ¬ CloseStates p := by
  obtain ⟨p,hp,hst,hseen⟩ : ∃ p,run closeStep (.start firstCall,false) bothClose=some p ∧
      p.1.sock.tcp.state=.finWait2 ∧ p.1.finSeen=true := by
    decide +kernel
  exact ⟨p,hp,fun h => (h.finWait2 hst).2.2 hseen⟩

end Auxv6.Net

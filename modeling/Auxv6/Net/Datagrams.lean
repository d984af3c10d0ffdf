import Mathlib.Data.List.Forall2
import Auxv6.Net.Connection
import Auxv6.Net.Demux

/-!
# Datagram sockets (net/socket.c)

The receive buffer of a socket is a run of bytes, and the address of the last sender is the
remote address of the socket. Where a datagram ends is kept nowhere.
-/

namespace Auxv6.Net.Datagrams
open Lib.Transition Sockets List

/-- The socket, the datagrams that arrived for it, and what the receives returned: the size of the
buffer, the source and the bytes. -/
structure Dgram where
  sock : Socket
  arrived : List (SockAddr × List Byte)
  returned : List (ℕ × SockAddr × List Byte)

inductive Event where
  | arrive (src : SockAddr) (data : List Byte)
  | recvfrom (n : ℕ)

/-- `recvfrom` (`socket.c:2457-2479`) is no step while it sleeps. -/
def step (d : Dgram) : Event → Option Dgram
  | .arrive src data => some { d with
      sock := (takeDelivery d.sock src data).2,arrived := d.arrived++[(src,data)] }
  | .recvfrom n =>
    if d.sock.recvLen=0 then none
    else some { d with
      sock := (socketRecvCopy d.sock n).2
      returned := d.returned++[(n,d.sock.remoteAddr,(socketRecvCopy d.sock n).1)] }

def Returns (r : ℕ × SockAddr × List Byte) (a : SockAddr × List Byte) : Prop := r.2=(a.1,a.2.take r.1)

structure DatagramsOk (start : Socket) (d : Dgram) : Prop where
  ordered : ∃ l,l.Sublist d.arrived ∧ List.Forall₂ Returns d.returned l
  dest : start.state=.connect → d.sock.remoteAddr=start.remoteAddr

/-- A datagram finds the buffer empty and fits, to a connected socket it comes from its peer, and a
receive takes all of it. -/
def Alone (d : Dgram) : Event → Prop
  | .arrive src data => d.sock.recvLen=0 ∧ data.length≤d.sock.recvCap ∧
      (d.sock.state=.connect → src=d.sock.remoteAddr)
  | .recvfrom n => d.sock.recvLen≤n

structure Inv (start : Socket) (d : Dgram) : Prop where
  state : d.sock.state=start.state
  dest : start.state=.connect → d.sock.remoteAddr=start.remoteAddr
  ordered : ∃ l,List.Forall₂ Returns d.returned l ∧ l.Sublist d.arrived ∧
    (0<d.sock.recvLen → ∃ data,d.sock.recvBuf=some data ∧ (l++[(d.sock.remoteAddr,data)]).Sublist d.arrived)

lemma step_inv {start : Socket} {d d' : Dgram} {e : Event} (h : Inv start d) (hok : Alone d e)
    (hs : step d e=some d') : Inv start d' := by
  obtain ⟨l,hret,hsub,hpend⟩:=h.ordered
  cases e with
  | arrive src data =>
    cases hs
    obtain ⟨hempty,hfit,hpeer⟩:=hok
    have hmore : l.Sublist (d.arrived++[(src,data)]) := hsub.trans (sublist_append_left ..)
    simp only [takeDelivery]
    split
    next => exact ⟨h.state,h.dest,l,hret,hmore,fun hpos => absurd hpos hempty.not_gt⟩
    next buf hb =>
      obtain rfl : buf=[] := by simpa [Socket.recvLen,hb] using hempty
      split_ifs
      · exact ⟨h.state,h.dest,l,hret,hmore,fun hpos => absurd hpos hempty.not_gt⟩
      · refine ⟨h.state,fun hc => (hpeer (h.state.trans hc)).trans (h.dest hc),l,hret,hmore,fun _ => ⟨data,?_,?_⟩⟩
        · simp [take_of_length_le hfit]
        · exact hsub.append (List.Sublist.refl _)
  | recvfrom n =>
    simp only [step] at hs
    split_ifs at hs with h0
    cases hs
    obtain ⟨data,hb,hlast⟩:=hpend (Nat.pos_of_ne_zero h0)
    have hall : data.length≤n := by simpa [Alone,Socket.recvLen,hb] using hok
    refine ⟨h.state,h.dest,l++[(d.sock.remoteAddr,data)],?_,hlast,fun hpos => ?_⟩
    · refine rel_append hret (.cons ?_ .nil)
      simp [Returns,socketRecvCopy,hb]
    · simp [socketRecvCopy,Socket.recvLen,hb,hall] at hpos

/-- From any socket with an empty buffer, as long as datagrams do not meet in the buffer, what the
receives return are the datagrams in their order. -/
theorem datagrams_ok {start : Socket} (hempty : start.recvLen=0) {events : List Event} {d : Dgram}
    (hok : Guarded step Alone ⟨start,[],[]⟩ events) (hrun : run step ⟨start,[],[]⟩ events=some d) :
    DatagramsOk start d := by
  have hstart : Inv start ⟨start,[],[]⟩ := ⟨rfl,fun _ => rfl,[],.nil,.slnil,fun hpos => absurd hpos hempty.not_gt⟩
  have h:=run_guarded (I := Inv start) (fun _ _ _ => step_inv) hstart hok hrun
  obtain ⟨l,hret,hsub,-⟩:=h.ordered
  exact ⟨⟨l,hsub,hret⟩,h.dest⟩

def bound : Socket := {newSocket with type := .dgram,state := .bound,localAddr := ⟨53,0⟩}

instance (d : Dgram) : (e : Event) → Decidable (Alone d e)
  | .arrive _ _ => inferInstanceAs (Decidable (_ ∧ _ ∧ (_ → _)))
  | .recvfrom _ => inferInstanceAs (Decidable (_ ≤ _))

def twoDatagrams : List Event := [.arrive server [65],.recvfrom 10,.arrive ⟨80,7⟩ [66],.recvfrom 1]

theorem datagrams_ok_two : ∃ d,run step ⟨bound,[],[]⟩ twoDatagrams=some d ∧
    d.returned=[(10,server,[65]),(1,⟨80,7⟩,[66])] ∧ DatagramsOk bound d := by
  have hok : Guarded step Alone ⟨bound,[],[]⟩ twoDatagrams := by
    unfold twoDatagrams
    decide
  obtain ⟨d,hd,hret⟩ : ∃ d,run step ⟨bound,[],[]⟩ twoDatagrams=some d ∧
      d.returned=[(10,server,[65]),(1,⟨80,7⟩,[66])] := by decide
  exact ⟨d,hd,hret,datagrams_ok rfl hok hd⟩

theorem datagrams_run_together : ∃ d,run step ⟨bound,[],[]⟩
    [.arrive server [65],.arrive ⟨80,7⟩ [66],.recvfrom 10]=some d ∧ ¬ DatagramsOk bound d := by
  have hrun : (run step ⟨bound,[],[]⟩ [.arrive server [65],.arrive ⟨80,7⟩ [66],.recvfrom 10]).map
      (fun d => (d.arrived,d.returned)) = some ([(server,[65]),(⟨80,7⟩,[66])],[(10,⟨80,7⟩,[65,66])]) := by decide
  obtain ⟨d,hd,heq⟩:=Option.map_eq_some_iff.mp hrun
  obtain ⟨harr,hret⟩:=Prod.mk.inj heq
  refine ⟨d,hd,fun h => ?_⟩
  obtain ⟨l,hsub,hall⟩:=h.ordered
  rw [hret] at hall
  rw [harr] at hsub
  obtain ⟨a,l,hr,-,rfl⟩:=forall₂_cons_left_iff.mp hall
  have ha:=hsub.subset (mem_cons_self ..)
  simp only [mem_cons,not_mem_nil,or_false] at ha
  obtain rfl | rfl:=ha <;> exact absurd hr (by unfold Returns; decide)

end Auxv6.Net.Datagrams

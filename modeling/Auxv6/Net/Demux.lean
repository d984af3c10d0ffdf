import Auxv6.Net.SocketLifetime

/-!
# Segments and their connections (net/tcp.c, net/socket.c)

`tcp_input` gives a segment to the first socket whose addresses fit it, where zero fits
anything and the state is not asked. `tcp_output` advances the connection before it
knows whether the segment can be sent.
-/

namespace Auxv6.Net.Sockets
open Lib.Transition Lib.SeqSpace List Option

variable {t : Table} {src dst : SockAddr} {x y z : SockId} {g : Segment} {now : Word}

def Connected (t : Table) (src dst : SockAddr) (x : SockId) : Prop :=
  let s:=t.sock x
  s.ref≠0 ∧ s.family=.inet ∧ s.type=.stream ∧ s.localAddr=dst ∧ s.remoteAddr=src ∧
    s.tcp.state≠.closed ∧ s.tcp.state≠.listen
def Foreign (src : SockAddr) (s : Socket) : Prop := s.state=.listen ∨ s.tcp.state=.listen ∨ s.remoteAddr≠src

/-- The segment reaches the socket of its connection and no other; without a connection
it changes no listening socket and none with another remote address. -/
structure Demuxed (t : Table) (src dst : SockAddr) (g : Segment) (now : Word) : Prop where
  handled : ∀ x,Connected t src dst x →
    (tcpArrive t src dst g now).sock x=(afterTcp t x (tcpInput (t.sock x) src g now)).sock x ∧
    ∀ y,y≠x → (tcpArrive t src dst g now).sock y=t.sock y
  apart : (∀ x,¬ Connected t src dst x) → ∀ y,Foreign src (t.sock y) → (tcpArrive t src dst g now).sock y=t.sock y

/-! ### What a segment changes -/

def Inert (s : Socket) : Prop :=
  s.state=.closed ∧ s.tcp.state=.closed ∧ s.tcp.unackedBuf=none ∧ s.tcp.closePending=false

/-- The segment acknowledges the bytes kept, or tells another window. -/
def Acks (s : Socket) (g : Segment) : Prop :=
  g.ack ∧ (s.tcp.unackedBuf≠none ∧ leq (s.tcp.unackedSeq+s.tcp.unackedLen) g.ackNum ∨
    s.tcp.state=.established ∧ g.win≠s.tcp.sndWnd)

def HasRoom (s : Socket) : Prop := ∃ buf,s.recvBuf=some buf ∧ buf.length<s.recvCap

/-- The segment moves the connection in its state. -/
def Moves (s : Socket) (g : Segment) : Prop :=
  match s.tcp.state with
  | .synSent => g.syn ∧ g.ack ∧ g.ackNum=s.tcp.sndNxt
  | .established => (g.data=[] ∨ g.seq=s.tcp.rcvNxt) ∧ (g.data≠[] ∧ HasRoom s ∨ FinNext s g)
  | .finWait1 => g.ack ∧ g.ackNum=s.tcp.finSeq+1 ∨ FinNext s g
  | .finWait2 => FinNext s g
  | .lastAck => g.ack ∧ g.ackNum=s.tcp.finSeq+1
  | _ => False

def Takes (s : Socket) (g : Segment) : Prop := if g.rst then ¬ Inert s else Acks s g ∨ Moves s g

/-- The segment ends a teardown. -/
def Ends (s : Socket) (g : Segment) : Prop :=
  s.tcp.closePending=true ∧ (g.rst=true ∨ s.tcp.state=.lastAck ∧ g.ack=true ∧ g.ackNum=s.tcp.finSeq+1)

/-- `y` waits in the queue of `z` or is its peer. -/
def FreedWith (t : Table) (z y : SockId) : Prop :=
  y∈(t.sock z).listenq ∧ (t.sock y).ref≠0 ∨ (t.sock z).peer=some y ∧ (t.sock y).peer≠none

/-- The last reference of `z` goes with the teardown, and `y` is changed with it. -/
def GoesWith (t : Table) (z : SockId) (g : Segment) (y : SockId) : Prop :=
  y≠z ∧ Ends (t.sock z) g ∧ (t.sock z).ref≤1 ∧ FreedWith t z y

/-- The first socket that fits the segment is the only connected one, and nothing goes with it; or the
segment changes neither. Without a connection it changes what it may. -/
structure FirstFits (t : Table) (src dst : SockAddr) (g : Segment) (z : SockId) : Prop where
  only : ∀ x,Connected t src dst x → x≠z → ¬ Takes (t.sock x) g ∧ ¬ Takes (t.sock z) g
  alone : Connected t src dst z → ∀ y,¬ GoesWith t z g y
  apart : (∀ x,¬ Connected t src dst x) → (Foreign src (t.sock z) → ¬ Takes (t.sock z) g) ∧
    ∀ y,GoesWith t z g y → ¬ Foreign src (t.sock y)

variable {s s' : Socket}

lemma tcpAck_eq_self (h : ¬ Acks s g) : tcpAck s g now=s := by
  rw [tcpAck,if_neg fun hc => h ⟨hc.1,.inl hc.2⟩,noteWindow]
  split_ifs with hest
  · have hwin : g.win=s.tcp.sndWnd := by
      by_contra hne
      exact h ⟨hest.1,.inr ⟨hest.2,hne⟩⟩
    rw [hwin]
  · rfl

lemma inputState_kept (s : Socket) (src : SockAddr) (g : Segment) (now : Word) :
    (inputState s src g now).sock.peer=s.peer ∧ (inputState s src g now).sock.tcp.unackedBuf=s.tcp.unackedBuf ∧
      (inputState s src g now).sock.tcp.sndWnd=s.tcp.sndWnd := by
  have hin:=inputState_input s src g now
  generalize inputState s src g now=o at hin ⊢
  cases hin with
  | synAck hst h => simp [inputSynSent,h]
  | data hst hd => obtain ⟨-,rfl | ⟨buf,-,rfl,-⟩⟩:=inputData_cases hd <;> exact ⟨rfl,rfl,rfl⟩
  | dataFin hst hd => obtain ⟨-,rfl | ⟨buf,-,rfl,-⟩⟩:=inputData_cases hd <;> exact ⟨rfl,rfl,rfl⟩
  | _ => exact ⟨rfl,rfl,rfl⟩

lemma ne_of_tcpState (h : s'.tcp.state≠s.tcp.state) : s'≠s := fun heq => h (heq ▸ rfl)

lemma inputEstablished_sock (hst : s.tcp.state=.established) : (inputEstablished s src g).sock=s ↔
      ¬ ((g.data=[] ∨ g.seq=s.tcp.rcvNxt) ∧ (g.data≠[] ∧ HasRoom s ∨ FinNext s g)) := by
  -- what the state does once the data leave the socket alone
  have hrest : inputData s src g=some s → ¬ (g.data≠[] ∧ HasRoom s) → (g.data=[] ∨ g.seq=s.tcp.rcvNxt) →
      ((inputEstablished s src g).sock=s ↔
        ¬ ((g.data=[] ∨ g.seq=s.tcp.rcvNxt) ∧ (g.data≠[] ∧ HasRoom s ∨ FinNext s g))) := by
    intro hd hroom hseq
    rw [inputEstablished,hd,and_iff_right hseq,or_iff_right hroom]
    dsimp only
    split_ifs with hf
    · exact iff_of_false (ne_of_tcpState (by simp [hst,takeFin])) (not_not.mpr hf)
    all_goals exact iff_of_true rfl hf
  by_cases hnil : g.data=[]
  · exact hrest (if_pos hnil) (·.1 hnil) (.inl hnil)
  by_cases hseq : g.seq=s.tcp.rcvNxt
  · by_cases hroom : HasRoom s
    · refine iff_of_false (fun heq => ?_) (not_not.mpr ⟨.inr hseq,.inl ⟨hnil,hroom⟩⟩)
      obtain ⟨buf,hbuf,hlt⟩:=hroom
      have hd : inputData s src g=some (acceptData s src buf g.data) := by
        rw [inputData,if_neg hnil,hbuf]
        exact if_pos ⟨hseq,hlt⟩
      have hrecv : (inputEstablished s src g).sock.recvBuf=some (buf++g.data.take (s.recvCap-buf.length)) := by
        rw [inputEstablished,hd]
        dsimp only
        split_ifs <;> rfl
      rw [heq,hbuf] at hrecv
      have hlen:=congrArg length (some.inj hrecv)
      have := length_pos_iff.mpr hnil
      rw [length_append,length_take] at hlen
      omega
    · refine hrest ?_ (fun h => hroom h.2) (.inr hseq)
      rw [inputData,if_neg hnil]
      split
      · rename_i buf hbuf
        rw [if_neg fun h => hroom ⟨buf,hbuf,h.2⟩,if_neg (not_not.mpr hseq)]
      · rw [if_neg (not_not.mpr hseq)]
  · have hd : inputData s src g=none := by
      rw [inputData,if_neg hnil]
      split
      · rw [if_neg fun h => hseq h.1,if_pos hseq]
      · rw [if_pos hseq]
    rw [inputEstablished,hd]
    exact iff_of_true rfl fun h => h.1.elim hnil hseq

section
variable (s : Socket) (src : SockAddr) (g : Segment) (now : Word)

lemma inputState_sock : (inputState s src g now).sock=s ↔ ¬ Moves s g := by
  unfold Moves inputState
  cases hst : s.tcp.state with
  | synSent =>
    dsimp only [inputSynSent]
    split_ifs with h
    · exact iff_of_false (ne_of_tcpState (by simp [hst])) (not_not.mpr h)
    · exact iff_of_true rfl h
  | established => exact inputEstablished_sock hst
  | finWait1 =>
    dsimp only [inputFinWait1,enterTimeWait]
    split_ifs with h hf hf
    · exact iff_of_false (ne_of_tcpState (by simp [hst,takeFin])) (not_not.mpr (.inl h))
    · exact iff_of_false (ne_of_tcpState (by simp [hst,Socket.idle])) (not_not.mpr (.inl h))
    · refine iff_of_false (fun heq => ?_) (not_not.mpr (.inr hf))
      have hnxt:=congrArg (·.tcp.rcvNxt) heq
      simp [takeFin] at hnxt
    · exact iff_of_true rfl (not_or.mpr ⟨h,hf⟩)
  | finWait2 =>
    dsimp only [enterTimeWait]
    split_ifs with hf
    · exact iff_of_false (ne_of_tcpState (by simp [hst,takeFin])) (not_not.mpr hf)
    · exact iff_of_true rfl hf
  | lastAck =>
    dsimp only [inputLastAck]
    split_ifs with h
    · exact iff_of_false (ne_of_tcpState (by simp [hst,Socket.shut])) (not_not.mpr h)
    · exact iff_of_true rfl h
  | closeWait | timeWait =>
    dsimp only
    split_ifs <;> exact iff_of_true rfl not_false
  | _ => exact iff_of_true rfl not_false

/-- A segment leaves the socket as it is exactly if the socket does not take it. -/
lemma tcpInput_sock : (tcpInput s src g now).sock=s ↔ ¬ Takes s g := by
  unfold tcpInput Takes
  split_ifs with hg
  · rw [not_not]
    constructor
    · intro heq
      rw [← heq]
      exact ⟨rfl,rfl,rfl,rfl⟩
    rintro ⟨hst,htcp,hbuf,hp⟩
    obtain ⟨st,ty,fam,la,ra,up,rb,rc,tcp,peer,bl,lq,ref,re,sr,sw⟩:=s
    obtain ⟨ts⟩:=tcp
    subst hst htcp hbuf hp
    rfl
  obtain ⟨-,hbuf,hwnd⟩:=inputState_kept (tcpAck s g now) src g now
  by_cases hack : Acks s g
  · refine iff_of_false (fun heq => ?_) (not_not.mpr (.inl hack))
    rw [heq] at hbuf hwnd
    obtain ⟨ha,⟨hne,hle⟩ | ⟨hest,hne⟩⟩:=hack
    · refine hne (hbuf.trans ?_)
      rw [tcpAck,if_pos ⟨ha,hne,hle⟩,noteWindow]
      split_ifs <;> rfl
    · refine hne (Eq.symm (hwnd.trans ?_))
      unfold tcpAck noteWindow
      split_ifs <;> simp_all
  · rw [tcpAck_eq_self hack,inputState_sock,or_iff_right hack]

lemma tcpInput_deref : (tcpInput s src g now).deref=true ↔ Ends s g := by
  have hack : (tcpAck s g now).tcp.state=s.tcp.state ∧ (tcpAck s g now).tcp.finSeq=s.tcp.finSeq ∧
      (tcpAck s g now).tcp.closePending=s.tcp.closePending := by
    unfold tcpAck noteWindow
    split_ifs <;> exact ⟨rfl,rfl,rfl⟩
  unfold tcpInput Ends
  split_ifs with hg
  · simp [hg]
  rw [← hack.1,← hack.2.1,← hack.2.2]
  generalize tcpAck s g now=s
  unfold inputState
  cases s.tcp.state with
  | lastAck =>
    dsimp only [inputLastAck]
    split_ifs with h
    · simp [h]
    · exact iff_of_false Bool.false_ne_true fun he => h ((he.2.resolve_left hg).2)
  | synSent => dsimp only [inputSynSent]; split_ifs <;> simp [hg,Socket.idle]
  | established =>
    dsimp only [inputEstablished]
    split
    · simp [hg]
    · split_ifs <;> simp [hg]
  | finWait1 => dsimp only [inputFinWait1,enterTimeWait]; split_ifs <;> simp [hg,Socket.idle]
  | finWait2 => dsimp only [enterTimeWait]; split_ifs <;> simp [hg,Socket.idle]
  | closeWait | timeWait => dsimp only; split_ifs <;> simp [hg,Socket.idle]
  | _ => simp [hg,Socket.idle]

end

lemma Ends.takes (h : Ends s g) : Takes s g := by
  unfold Takes
  split_ifs with hg
  · rintro ⟨-,-,-,hp⟩
    exact Bool.false_ne_true (hp.symm.trans h.1)
  · obtain hg' | ⟨hst,hack⟩:=h.2
    · exact absurd hg' hg
    · exact .inr (by rw [Moves,hst]; exact hack)

/-! ### What goes with a socket -/

lemma foldl_freeChild_ne {l : List SockId} (h : y∈l → (t.sock y).ref=0) : (l.foldl freeChild t).sock y=t.sock y := by
  induction l generalizing t with
  | nil => rfl
  | cons c l ih =>
    have hone : (freeChild t c).sock y=t.sock y := by
      unfold freeChild
      split_ifs with hc
      · have hy : y≠c := by
          rintro rfl
          exact hc.ne' (h mem_cons_self)
        simp [Table.reset,Table.modify,hy]
      · rfl
    rw [foldl_cons,ih fun hy => by rw [hone]; exact h (mem_cons_of_mem _ hy),hone]

lemma foldl_freeChild_ref {l : List SockId} (h : y∈l) : ((l.foldl freeChild t).sock y).ref=0 := by
  induction l generalizing t with
  | nil => cases h
  | cons c l ih =>
    rw [foldl_cons]
    by_cases hy : y∈l
    · exact ih hy
    obtain rfl : y=c := (mem_cons.mp h).resolve_right hy
    rw [foldl_freeChild_ne fun hin => absurd hin hy]
    unfold freeChild
    split_ifs with hc
    · simp [Table.reset,resetSocket,Table.modify]
    · omega

/-- What `socket_free_locked` does to another socket. -/
lemma socketFree_ne (hz : (t.sock z).ref=0) (hy : y≠z) : (socketFree t z).sock y=t.sock y ↔ ¬ FreedWith t z y := by
  have hself : ((t.sock z).listenq.foldl freeChild t).sock z=t.sock z := foldl_freeChild_ne fun _ => hz
  have hfree : (socketFree t z).sock y=(dropPeer ((t.sock z).listenq.foldl freeChild t) z).sock y := modify_ne _ hy _
  rw [hfree]
  by_cases hin : y∈(t.sock z).listenq ∧ (t.sock y).ref≠0
  · refine iff_of_false (fun heq => hin.2 ?_) (not_not.mpr (.inl hin))
    obtain ⟨p,hp⟩:=dropPeer_sock ((t.sock z).listenq.foldl freeChild t) z y
    rw [← heq,hp]
    exact foldl_freeChild_ref hin.1
  have hkept : ((t.sock z).listenq.foldl freeChild t).sock y=t.sock y :=
    foldl_freeChild_ne fun hmem => by_contra fun href => hin ⟨hmem,href⟩
  rw [FreedWith,or_iff_right hin,dropPeer,hself]
  generalize (t.sock z).listenq.foldl freeChild t=u at hkept ⊢
  cases hpeer : (t.sock z).peer with
  | none => simpa using hkept
  | some p =>
    by_cases hyp : y=p
    · subst hyp
      simp only [modify_self,hkept,true_and,not_not]
      refine ⟨fun heq => ?_,fun hnone => ?_⟩
      · rw [← heq]
      · rw [← hnone]
    · rw [modify_ne u hyp,hkept]
      exact iff_of_true rfl fun h => hyp (some.inj h.1).symm

lemma socketDeref_pending (h : (t.sock z).tcp.closePending=false) :
    ((socketDeref t z).sock z).tcp.closePending=false := by
  have hfree (u : Table) : ((socketFree u z).sock z).tcp.closePending=false := by
    simp [socketFree,Table.reset,resetSocket]
  unfold socketDeref
  dsimp only
  split_ifs
  · exact hfree _
  · rwa [modify_self]
  · exact hfree _
  · exact h

lemma socketDeref_other (hy : y≠z) : (socketDeref t z).sock y=t.sock y ↔ ¬ ((t.sock z).ref≤1 ∧ FreedWith t z y) := by
  unfold socketDeref
  dsimp only
  have hdec : ∀ f,(t.modify z f).sock y=t.sock y := fun f => modify_ne t hy f
  split_ifs with hpos h1 h0
  · have h:=socketFree_ne h1 hy
    rw [FreedWith,hdec,modify_self] at h
    rw [modify_self] at h1
    dsimp only at h h1
    rw [h,FreedWith,and_iff_right (by omega : (t.sock z).ref≤1)]
  · rw [modify_self] at h1
    dsimp only at h1
    exact iff_of_true (hdec _) fun h => h1 (by have := h.1; omega)
  · rw [socketFree_ne h0 hy,and_iff_right (by omega : (t.sock z).ref≤1)]
  · omega

section
variable (t z src g now)

lemma afterTcp_self : (afterTcp t z (tcpInput (t.sock z) src g now)).sock z=t.sock z ↔ ¬ Takes (t.sock z) g := by
  have hr:=tcpInput_releases (t.sock z) src g now
  rw [← tcpInput_sock (t.sock z) src g now]
  unfold afterTcp
  split_ifs with hd
  · have hpend : (t.sock z).tcp.closePending=true := ((tcpInput_deref ..).mp hd).1
    have hclear : (tcpInput (t.sock z) src g now).sock.tcp.closePending=false := by
      have h:=hr.pend
      rw [pending,if_pos hpend,hd,if_pos rfl,pending] at h
      split_ifs at h with hc
      · omega
      · exact Bool.eq_false_of_not_eq_true hc
    refine iff_of_false (fun heq => ?_) fun heq => ?_
    · have h:=socketDeref_pending (t := t.modify z fun _ => (tcpInput (t.sock z) src g now).sock)
        (z := z) (by rwa [modify_self])
      rw [heq,hpend] at h
      cases h
    · rw [heq,hpend] at hclear
      cases hclear
  · rw [modify_self]

lemma afterTcp_other (hy : y≠z) :
    (afterTcp t z (tcpInput (t.sock z) src g now)).sock y=t.sock y ↔ ¬ GoesWith t z g y := by
  have hr:=tcpInput_releases (t.sock z) src g now
  have hpeer : (tcpInput (t.sock z) src g now).sock.peer=(t.sock z).peer := by
    unfold tcpInput
    split_ifs
    · rfl
    · rw [(inputState_kept _ src g now).1]
      unfold tcpAck noteWindow
      split_ifs <;> rfl
  rw [GoesWith,← tcpInput_deref (t.sock z) src g now,and_iff_right hy]
  unfold afterTcp
  split_ifs with hd
  · rw [hd,and_iff_right rfl]
    have h:=socketDeref_other (t := t.modify z fun _ => (tcpInput (t.sock z) src g now).sock) hy
    rw [FreedWith,modify_self,modify_ne t hy,hr.ref,hr.listenq,hpeer] at h
    exact h
  · exact iff_of_true (modify_ne t hy _) fun h => hd h.1

end

lemma Connected.fits (h : Connected t src dst x) : tcpFindClient t src dst≠none := by
  intro hn
  obtain ⟨href,hfam,htype,hl,hr,-⟩:=h
  have hx:=find?_eq_none.mp hn x (mem_finRange x)
  simp [href,hfam,htype,hl,hr] at hx

/-- A segment is demultiplexed rightly exactly when the first socket that fits its
addresses is the right one for it. -/
theorem tcpArrive_demuxed (t : Table) (src dst : SockAddr) (g : Segment) (now : Word) :
    Demuxed t src dst g now ↔ ∀ z,tcpFindClient t src dst=some z → FirstFits t src dst g z := by
  cases hz : tcpFindClient t src dst with
  | none =>
    refine iff_of_true ⟨fun x hx => absurd hz hx.fits,fun _ y _ => by rw [tcpArrive,hz]⟩ nofun
  | some z =>
  have harrive : tcpArrive t src dst g now=afterTcp t z (tcpInput (t.sock z) src g now) := by
    rw [tcpArrive,hz]
  have hself:=afterTcp_self t src z g now
  have hother (y : SockId) (hy : y≠z):=afterTcp_other t src z g now hy
  simp only [some.injEq,forall_eq']
  constructor
  · intro h
    refine ⟨fun x hx hne => ?_,fun hc y hy => ?_,fun hnone => ⟨fun hf => ?_,fun y hy hf => ?_⟩⟩
    · obtain ⟨heq,hrest⟩:=h.handled x hx
      have htake:=hrest z (Ne.symm hne)
      rw [harrive,hself] at htake
      have hgoes : ¬ GoesWith t z g x := fun hg => htake hg.2.1.takes
      rw [harrive,(hother x hne).mpr hgoes] at heq
      exact ⟨(afterTcp_self t src x g now).mp heq.symm,htake⟩
    · have heq:=(h.handled z hc).2 y hy.1
      rw [harrive,hother y hy.1] at heq
      exact heq hy
    · have heq:=h.apart hnone z hf
      rwa [harrive,hself] at heq
    · have heq:=h.apart hnone y hf
      rw [harrive,hother y hy.1] at heq
      exact heq hy
  intro h
  refine ⟨fun x hx => ?_,fun hnone y hf => ?_⟩ <;> rw [harrive]
  · by_cases hxz : x=z
    · subst hxz
      exact ⟨rfl,fun y hy => (hother y hy).mpr (h.alone hx y)⟩
    obtain ⟨htx,htz⟩:=h.only x hx hxz
    have hgoes (y : SockId) : ¬ GoesWith t z g y := fun hg => htz hg.2.1.takes
    refine ⟨?_,fun y hy => ?_⟩
    · rw [(hother x hxz).mpr (hgoes x),(afterTcp_self t src x g now).mpr htx]
    · by_cases hyz : y=z
      · exact hyz ▸ hself.mpr htz
      · exact (hother y hyz).mpr (hgoes y)
  · by_cases hyz : y=z
    · subst hyz
      exact hself.mpr ((h.apart hnone).1 hf)
    · exact (hother y hyz).mpr fun hg => (h.apart hnone).2 y hg hf

def oneConnection : Table :=
  { socketInit with sock := fun x => if x.val≠0 then socketInit.sock x else
      { socketInit.sock x with
        state := .estab,type := .stream,family := .inet,ref := 1,localAddr := ⟨80,2⟩
        remoteAddr := ⟨5,1⟩,tcp := {zeroTcpcb with state := .established} } }

theorem tcpArrive_demuxed_one : ∀ g now,Demuxed oneConnection ⟨5,1⟩ ⟨80,2⟩ g now := by
  have honly : ∀ z,tcpFindClient oneConnection ⟨5,1⟩ ⟨80,2⟩=some z → Connected oneConnection ⟨5,1⟩ ⟨80,2⟩ z ∧
      (oneConnection.sock z).tcp.closePending=false ∧ ∀ x,Connected oneConnection ⟨5,1⟩ ⟨80,2⟩ x → x=z := by
    unfold Connected
    decide +kernel
  refine fun g now => (tcpArrive_demuxed _ _ _ g now).mpr fun z hz => ?_
  obtain ⟨hc,hp,hx⟩:=honly z hz
  refine ⟨fun x hx' hne => absurd (hx x hx') hne,fun _ y hy => ?_,fun hnone => absurd hc (hnone z)⟩
  exact Bool.false_ne_true (hp.symm.trans hy.2.1.1)

def rst : Segment := ⟨0,0,false,false,true,false,0,[]⟩

theorem listener_takes_reset : ∃ t,run step socketInit [.socket .inet .stream 0 true true true nowhere 0,
    .bindInet 0 .inet ⟨80,0⟩,.listen 0 1]=some t ∧ ¬ Demuxed t ⟨5,1⟩ ⟨80,2⟩ rst 0 := by
  obtain ⟨t,ht,hnone,x,hl,hx⟩ : ∃ t,run step socketInit [.socket .inet .stream 0 true true true nowhere 0,
      .bindInet 0 .inet ⟨80,0⟩,.listen 0 1]=some t ∧ (∀ x,(t.sock x).remoteAddr≠⟨5,1⟩) ∧
        ∃ x,(t.sock x).state=.listen ∧ ((tcpArrive t ⟨5,1⟩ ⟨80,2⟩ rst 0).sock x).state≠.listen := by
    decide +kernel
  refine ⟨t,ht,fun h => hx ?_⟩
  rw [h.apart (fun y hy => hnone y hy.2.2.2.2.1) x (.inl hl),hl]

def localFits (s : Socket) (a : SockAddr) : Bool :=
  s.ref≠0 ∧ s.family=.inet ∧ s.localAddr.port=a.port ∧ (s.localAddr.addr=0 ∨ s.localAddr.addr=a.addr)

/-- The receiver of `socket_deliver` (`socket.c:530-573`). -/
def receiver (t : Table) (src dst : SockAddr) : Option SockId :=
  ((finRange nsocket).find? fun i => localFits (t.sock i) dst ∧ (t.sock i).type=.stream ∧
    (t.sock i).state=.estab ∧ (t.sock i).remoteAddr=src) <|>
  (finRange nsocket).find? fun i => localFits (t.sock i) dst ∧ (t.sock i).type=.dgram ∧
    (t.sock i).state ∈ [.bound,.connect,.estab]

/-- The copy into the receive buffer (`socket.c:576-584`). -/
def takeDelivery (s : Socket) (src : SockAddr) (data : List Byte) : ℕ × Socket :=
  match s.recvBuf with
  | none => (0,s)
  | some buf =>
    if s.recvCap≤buf.length then (0,s)
    else
      let copied:=data.take (s.recvCap-buf.length)
      (copied.length,{s with recvBuf := some (buf++copied),remoteAddr := src})

/-- `socket.c:518-588`; `none` for -1. -/
def socketDeliver (t : Table) (src dst : SockAddr) (data : List Byte) : Option (ℕ × Table) :=
  (receiver t src dst).map fun x =>
    let r:=takeDelivery (t.sock x) src data
    (r.1,t.modify x fun _ => r.2)

/-- The connection of `tcp_output` (`tcp.c:543-561`). -/
def tcpFindEstab (t : Table) (src dst : SockAddr) : Option SockId :=
  (finRange nsocket).find? fun i => localFits (t.sock i) src ∧ (t.sock i).type=.stream ∧
    (t.sock i).tcp.state=.established ∧ (t.sock i).remoteAddr=dst

/-- What a call of `tcp_output` returns and leaves, and the segment it hands to `ip_output`. -/
structure Call where
  ret : ℤ
  table : Table
  handed : Option Segment

/-- `tcp_output` (`tcp.c:513-592`); `sent` is the answer of `ip_output`. -/
def tcpOutputCall (t : Table) (route : Route) (src dst : SockAddr) (payload : List Byte)
    (page sent : Bool) (now : Word) : Call :=
  if src.port=0 ∨ dst.port=0 then ⟨-1,t,none⟩
  else match route with
    | .unreachable => ⟨-1,t,none⟩
    | .loopback => match socketDeliver t src dst payload with
      | none => ⟨-1,t,none⟩
      | some (_,t') => ⟨(BitVec.ofNat 32 payload.length).toInt,t',none⟩
    | .network => match tcpFindEstab t src dst with
      | none => ⟨-1,t,none⟩
      | some x =>
        let o:=tcpOutput (t.sock x) payload page now
        ⟨if o.sent≠[] ∧ sent then (payload.take tcpMaxSegmentData).length else -1,
          t.modify x fun _ => o.sock,o.sent.head?⟩

/-- A positive answer counts the bytes by which the connection advanced and that were handed
over; after a failure the connection is as it was. -/
structure Accounted (t : Table) (src dst : SockAddr) (payload : List Byte) (c : Call) : Prop where
  sent : ∀ r : ℕ,0<r → (c.ret=r ↔ ∃ x,tcpFindEstab t src dst=some x ∧
    (c.table.sock x).tcp.sndNxt=(t.sock x).tcp.sndNxt+BitVec.ofNat 32 r ∧
    ∃ g,c.handed=some g ∧ g.seq=(t.sock x).tcp.sndNxt ∧ g.data.length=r ∧ g.data=payload.take r)
  failed : c.ret = -1 → ∀ x,(c.table.sock x).tcp.sndNxt=(t.sock x).tcp.sndNxt ∧
    (c.table.sock x).tcp.unackedBuf=(t.sock x).tcp.unackedBuf

def Accountable (t : Table) (route : Route) (src dst : SockAddr) (payload : List Byte)
    (page sent : Bool) : Prop :=
  src.port≠0 → dst.port≠0 → match route with
    | .unreachable => True
    | .loopback => socketDeliver t src dst payload=none ∨ (BitVec.ofNat 32 payload.length).toInt≤0
    | .network => ∀ x,tcpFindEstab t src dst=some x → ((t.sock x).tcp.sndNxt≠0 ∧ sent) ∨
        (payload=[] ∧ ((t.sock x).tcp.unackedBuf≠none ∨ page=false))

lemma takeDelivery_tcp (s : Socket) (src : SockAddr) (data : List Byte) : (takeDelivery s src data).2.tcp=s.tcp := by
  unfold takeDelivery
  split
  · rfl
  · split_ifs <;> rfl

lemma socketDeliver_tcp {data : List Byte} {n : ℕ} {u : Table}
    (h : socketDeliver t src dst data=some (n,u)) (x : SockId) : (u.sock x).tcp=(t.sock x).tcp := by
  obtain ⟨y,-,hy⟩:=map_eq_some_iff.mp h
  cases hy
  by_cases hx : x=y
  · subst hx
    rw [modify_self,takeDelivery_tcp]
  · rw [modify_ne t hx]

variable {payload : List Byte}

lemma accounted_none {c : Call} (hh : c.handed=none) (hr : c.ret≤0)
    (htcp : ∀ x,(c.table.sock x).tcp=(t.sock x).tcp) : Accounted t src dst payload c := by
  refine ⟨fun r hr' => ⟨fun h => by omega,?_⟩,fun _ x => by rw [htcp x]; exact ⟨rfl,rfl⟩⟩
  rintro ⟨x,-,-,g,hg,-⟩
  rw [hh] at hg
  cases hg

lemma accounted_error : Accounted t src dst payload ⟨-1,t,none⟩ :=
  accounted_none rfl (show (-1 : ℤ)≤0 by decide) fun _ => rfl

lemma tcpOutput_established {s : Socket} (h : s.tcp.state=.established) (payload : List Byte) (page : Bool)
    (now : Word) :
    let o:=tcpOutput s payload page now
    let data:=payload.take tcpMaxSegmentData
    o.sent=(if s.tcp.sndNxt=0 then [] else [dataSegment s s.tcp.sndNxt data]) ∧
      o.sock.tcp.sndNxt=s.tcp.sndNxt+BitVec.ofNat 32 data.length ∧
      o.sock.tcp.unackedBuf=if s.tcp.unackedBuf=none ∧ page then some data else s.tcp.unackedBuf := by
  simp only [tcpOutput,h,ne_eq,not_true_eq_false,if_false,true_and]
  split <;> exact ⟨rfl,rfl⟩

lemma tcpOutput_accounted {page sent : Bool} (hp : ¬ (src.port=0 ∨ dst.port=0)) (hx : tcpFindEstab t src dst=some x) :
    Accounted t src dst payload (tcpOutputCall t .network src dst payload page sent now) ↔
      ((t.sock x).tcp.sndNxt≠0 ∧ sent) ∨ (payload=[] ∧ ((t.sock x).tcp.unackedBuf≠none ∨ page=false)) := by
  have hest : (t.sock x).tcp.state=.established := by
    have h:=find?_some hx
    simp only [Bool.decide_and,Bool.and_eq_true,decide_eq_true_eq] at h
    exact h.2.2.1
  simp only [tcpOutputCall,hp,if_false,hx]
  have hlt : (payload.take tcpMaxSegmentData).length<2^32 := lt_of_le_of_lt (length_take_le _ _) (by decide)
  have hnil : payload.take tcpMaxSegmentData=[] ↔ payload=[] := by simp [tcpMaxSegmentData]
  have htake : payload.take tcpMaxSegmentData=payload.take (payload.take tcpMaxSegmentData).length := by simp
  have hout:=tcpOutput_established hest payload page now
  dsimp only at hout
  generalize tcpOutput (t.sock x) payload page now=o at hout
  generalize payload.take tcpMaxSegmentData=data at hout hlt hnil htake ⊢
  obtain ⟨hsent,hnxt,hbuf⟩:=hout
  have hne : o.sent≠[] ↔ (t.sock x).tcp.sndNxt≠0 := by
    rw [hsent,ne_eq,ite_eq_left_iff]
    simp
  rw [← hne]
  by_cases hok : o.sent≠[] ∧ sent=true
  · rw [if_pos hok,hsent,if_neg (hne.mp hok.1)]
    refine iff_of_true ⟨fun r _ => ⟨fun h => ?_,?_⟩,fun h => absurd h (by simp only; omega)⟩
      (.inl ⟨cons_ne_nil _ _,hok.2⟩)
    · obtain rfl : data.length=r := Int.ofNat_inj.mp h
      exact ⟨x,hx,by rw [modify_self,hnxt],_,rfl,rfl,rfl,htake⟩
    rintro ⟨y,-,-,g,hg,-,hr,-⟩
    cases hg
    rw [← hr]
    rfl
  rw [if_neg hok,or_iff_right hok]
  refine ⟨fun h => ?_,?_⟩
  · -- the connection has not moved, so there was nothing to send
    obtain ⟨h1,h2⟩:=h.failed rfl x
    rw [modify_self,hnxt] at h1
    rw [modify_self,hbuf] at h2
    have hz:=congrArg BitVec.toNat (add_eq_left.mp h1)
    rw [BitVec.toNat_ofNat,Nat.mod_eq_of_lt hlt] at hz
    refine ⟨hnil.mp (length_eq_zero_iff.mp hz),?_⟩
    by_contra hno
    push Not at hno
    rw [if_pos ⟨hno.1,by simpa using hno.2⟩,hno.1] at h2
    cases h2
  rintro ⟨hpay,hb⟩
  obtain rfl:=hnil.mpr hpay
  refine ⟨fun r hr => ⟨fun h => absurd h (by simp only; omega),?_⟩,fun _ y => ?_⟩
  · rintro ⟨y,-,-,g,hg,-,hlen,-⟩
    simp only [hsent] at hg
    split at hg <;> cases hg
    exact absurd hlen hr.ne
  by_cases hy : y=x
  · subst hy
    rw [modify_self,hnxt,hbuf]
    refine ⟨by simp,if_neg ?_⟩
    rintro ⟨hn,hpage⟩
    obtain h | h:=hb
    · exact h hn
    · rw [h] at hpage
      cases hpage
  · rw [modify_ne t hy]
    exact ⟨rfl,rfl⟩

/-- `tcp_output` accounts for what it sends exactly when the segment leaves, the sequence
number is not 0 and the interface is not the loopback one, or there is nothing to account for. -/
theorem tcpOutputCall_accounted (t : Table) (route : Route) (src dst : SockAddr) (payload : List Byte)
    (page sent : Bool) (now : Word) :
    Accounted t src dst payload (tcpOutputCall t route src dst payload page sent now) ↔
      Accountable t route src dst payload page sent := by
  by_cases hp : src.port=0 ∨ dst.port=0
  · rw [tcpOutputCall.eq_def,if_pos hp]
    exact iff_of_true (accounted_error) fun hs hd => absurd hp (by simp [hs,hd])
  obtain ⟨hs,hd⟩:=not_or.mp hp
  have hc : Accountable t route src dst payload page sent ↔ _ := ⟨fun h => h hs hd,fun h _ _ => h⟩
  rw [hc]
  cases route with
  | unreachable =>
    rw [tcpOutputCall,if_neg hp]
    exact iff_of_true (accounted_error) trivial
  | loopback =>
    rw [tcpOutputCall,if_neg hp]
    cases hdel : socketDeliver t src dst payload with
    | none => exact iff_of_true (accounted_error) (.inl rfl)
    | some r =>
      refine ⟨fun h => .inr ?_,fun h => accounted_none rfl (by simpa using h) (socketDeliver_tcp hdel)⟩
      by_contra hpos
      have hr:=h.sent (BitVec.ofNat 32 payload.length).toInt.toNat (by omega)
      obtain ⟨x,-,-,g,hg,-⟩:=hr.mp (by simp only; omega)
      cases hg
  | network =>
    cases hx : tcpFindEstab t src dst with
    | none =>
      rw [tcpOutputCall,if_neg hp]
      simp only [hx]
      exact iff_of_true (accounted_error) (by simp)
    | some x => simp [tcpOutput_accounted hp hx]

theorem tcpOutput_fails_ahead : ¬ Accounted oneConnection ⟨80,2⟩ ⟨5,1⟩ [65]
    (tcpOutputCall oneConnection .network ⟨80,2⟩ ⟨5,1⟩ [65] true true 0) := by
  have hnxt : ∃ x,((tcpOutputCall oneConnection .network ⟨80,2⟩ ⟨5,1⟩ [65] true true 0).table.sock x).tcp.sndNxt ≠
      (oneConnection.sock x).tcp.sndNxt := by decide +kernel
  obtain ⟨x,hx⟩:=hnxt
  exact fun h => hx (h.failed (by decide +kernel) x).1

end Auxv6.Net.Sockets

import Auxv6.Net.SocketCalls

/-!
# System calls, segments and timers on the counts

What `tcp.c` does to a slot drops at most the teardown reference.
-/

namespace Auxv6.Net.Sockets
open List Option Bool

variable {hand : List SockId} {t u : Table} {x c : SockId}

/-- A section of `tcp.c` gives up the teardown reference exactly when it calls `socket_deref`. -/
structure Releases (s : Socket) (o : Outcome) : Prop where
  ref : o.sock.ref=s.ref
  listenq : o.sock.listenq=s.listenq
  listen : o.sock.state=.listen → s.state=.listen
  pend : pending s=pending o.sock+if o.deref then 1 else 0

variable {s s' : Socket} {o : Outcome}

lemma Keeps.releases (h : Keeps s o.sock) (hd : o.deref=false) : Releases s o := by
  refine ⟨h.ref,h.listenq,h.listen,?_⟩
  rw [pending,pending,h.pend,hd]
  rfl
lemma releases_idle (s : Socket) : Releases s s.idle := (Keeps.refl s).releases rfl
lemma releases_shut (s : Socket) (hk : Keeps s s') (out : List Segment) :
    Releases s ⟨s'.shut,out,s.tcp.closePending⟩ := by
  refine ⟨hk.ref,hk.listenq,(fun h => by cases h),?_⟩
  unfold pending Socket.shut
  simp

lemma Releases.then {o' : Outcome} (h : Releases s o) (h' : Releases o.sock o')
    (out : List Segment) : Releases s ⟨o'.sock,out,o.deref || o'.deref⟩ := by
  refine ⟨h'.ref.trans h.ref,h'.listenq.trans h.listenq,h.listen ∘ h'.listen,?_⟩
  have h1:=h.pend
  have h2:=h'.pend
  have hle : pending s≤1 := by
    unfold pending
    split <;> omega
  cases hd : o.deref <;> cases hd' : o'.deref <;> simp [hd,hd'] at h1 h2 ⊢ <;> omega

lemma tcpRetransmitCheck_releases (s : Socket) (now : Word) : Releases s (tcpRetransmitCheck s now) := by
  unfold tcpRetransmitCheck
  split
  · exact releases_idle s
  split
  · exact releases_idle s
  split
  · exact releases_idle s
  split
  · refine releases_shut s ?_ _
    exact ⟨rfl,rfl,rfl,id⟩
  · exact Keeps.releases ⟨rfl,rfl,rfl,id⟩ rfl

lemma tcpSynRetransmit_releases (s : Socket) (now : Word) : Releases s (tcpSynRetransmit s now) := by
  unfold tcpSynRetransmit
  split_ifs
  · exact releases_idle s
  · exact releases_idle s
  · exact Keeps.releases ⟨rfl,rfl,rfl,by simp [Socket.idle]⟩ rfl
  · exact Keeps.releases ⟨rfl,rfl,rfl,id⟩ rfl

lemma tcpFinRetransmit_releases (s : Socket) (now : Word) : Releases s (tcpFinRetransmit s now) := by
  unfold tcpFinRetransmit
  split_ifs
  · exact releases_idle s
  · exact releases_idle s
  · exact releases_idle s
  · exact releases_idle s
  · refine releases_shut s ?_ _
    exact ⟨rfl,rfl,rfl,id⟩
  · exact Keeps.releases ⟨rfl,rfl,rfl,id⟩ rfl

lemma tcpSlowtimo_releases (s : Socket) (route : Route) (now : Word) : Releases s (tcpSlowtimo s route now) := by
  unfold tcpSlowtimo
  by_cases htw : s.tcp.state=.timeWait
  · rw [if_pos htw]
    unfold tcpTimewaitCheck
    split_ifs
    · exact releases_idle s
    · exact releases_idle s
    · exact releases_shut s (Keeps.refl s) _
  rw [if_neg htw]
  by_cases hun : route=.unreachable
  · rw [if_pos hun]
    exact releases_idle s
  rw [if_neg hun]
  by_cases hsyn : s.tcp.state=.synSent
  · rw [if_pos hsyn]
    exact tcpSynRetransmit_releases s now
  dsimp only
  generalize hr : (if s.tcp.state=.finWait1 ∨ s.tcp.state=.lastAck then tcpFinRetransmit s now
    else s.idle)=r
  have hrel : Releases s r := by
    rw [← hr]
    split_ifs
    · exact tcpFinRetransmit_releases s now
    · exact releases_idle s
  split_ifs
  · exact hrel.then (tcpRetransmitCheck_releases r.sock now) _
  · exact hrel

lemma tcpAck_keeps (s : Socket) (g : Segment) (now : Word) : Keeps s (tcpAck s g now) := by
  unfold tcpAck noteWindow
  split_ifs <;> exact ⟨rfl,rfl,rfl,id⟩
lemma inputData_keeps {src : SockAddr} {g : Segment} (h : inputData s src g=some s') : Keeps s s' := by
  obtain ⟨-,rfl | ⟨buf,-,rfl,-⟩⟩:=inputData_cases h
  · exact Keeps.refl s'
  · exact ⟨rfl,rfl,rfl,id⟩

lemma Input.releases {src : SockAddr} {g : Segment} {now : Word} (h : Input s src g now o) : Releases s o := by
  cases h with
  | idle => exact releases_idle s
  | ack => exact Keeps.releases (Keeps.refl s) rfl
  | synAck hst hack =>
    rw [inputSynSent,if_pos hack]
    exact Keeps.releases ⟨rfl,rfl,rfl,by simp⟩ rfl
  | data hst hd => exact (inputData_keeps hd).releases rfl
  | dataFin hst hd => exact Keeps.releases ((inputData_keeps hd).trans ⟨rfl,rfl,rfl,id⟩) rfl
  | last => exact releases_shut s (Keeps.refl s) _
  | _ => exact Keeps.releases ⟨rfl,rfl,rfl,id⟩ rfl

lemma tcpInput_releases (s : Socket) (src : SockAddr) (g : Segment) (now : Word) :
    Releases s (tcpInput s src g now) := by
  unfold tcpInput
  split_ifs
  · refine releases_shut s ?_ _
    exact ⟨rfl,rfl,rfl,id⟩
  · have hk:=tcpAck_keeps s g now
    exact Releases.then (o := ⟨_,[],false⟩) (hk.releases rfl) (Input.releases (inputState_input ..)) _

lemma Inv.afterTcp (h : Inv hand t) (ho : Releases (t.sock x) o)
    (hx : (t.sock x).ref≠0) : Inv hand (afterTcp t x o) := by
  have hs:=h.slot x
  have hpend:=ho.pend
  unfold Sockets.afterTcp
  cases hd : o.deref with
  | false =>
    rw [hd] at hpend
    have hp : o.sock.tcp.closePending=(t.sock x).tcp.closePending := by
      unfold pending at hpend
      revert hpend
      cases o.sock.tcp.closePending <;> cases (t.sock x).tcp.closePending <;> simp
    exact SameRefs.inv (sameRefs_modify t x (f := fun _ => o.sock) ⟨ho.ref,ho.listenq,hp,ho.listen⟩) h
  | true =>
    rw [hd] at hpend
    have hp : (t.sock x).tcp.closePending=true ∧ o.sock.tcp.closePending=false := by
      unfold pending at hpend
      revert hpend
      cases o.sock.tcp.closePending <;> cases (t.sock x).tcp.closePending <;> simp
    refine Inv.socketDeref (h.modify (f := fun _ => o.sock) ho.listenq ?_ (fun y hy => count_cons_of_ne' hy)
      (fun _ => hp.2) (by rw [ho.ref]; exact hx))
    have hr:=hs.ref
    refine ⟨?_,hs.once,fun hq => ?_,hs.one,fun hc => ?_⟩
    · rw [ho.ref,count_cons_self]
      simp only [if_true] at hpend
      omega
    · have := (hs.child hq).2.1
      rw [hp.1] at this
      cases this
    · rw [hp.2] at hc
      cases hc

lemma finable_closed (h : s.tcp.state=.closed) : finable s=false := by
  simp [finable,h]

lemma sysSocket_inv (h : Inv hand t) (family : Family) (type : SockType) (protocol : ℤ)
    (bufs file fd : Bool) (route : ℕ → Route) (now : Word) :
    Inv hand (sysSocket t family type protocol bufs file fd route now) := by
  unfold sysSocket
  by_cases hargs : socketArgs family type protocol=false
  · rw [if_pos hargs]
    exact h
  rw [if_neg hargs]
  cases ha : socketAlloc t with
  | none => exact h
  | some r =>
    obtain ⟨c,u⟩:=r
    obtain ⟨h',hfresh,-⟩:=h.socketAlloc ha
    dsimp only
    generalize hw : u.modify c _=w
    have hsame : SameRefs u (socketBuffersInit w c bufs) :=
      hw ▸ (sameRefs_modify u c ⟨rfl,rfl,rfl,by simp⟩).trans (sameRefs_socketBuffersInit _ c bufs)
    have hclosed : ((socketBuffersInit w c bufs).sock c).tcp.state=.closed := by
      subst hw
      simp [socketBuffersInit]
    generalize socketBuffersInit w c bufs=v at hsame hclosed
    have hv:=hsame.inv h'
    have hf:=hsame.fresh hfresh
    split_ifs
    · exact hv.socketDeref
    · exact hv.socketDeref
    · refine hv.fileclose_new hf.ref route now fun _ _ hfin => ?_
      rw [finable_closed hclosed] at hfin
      cases hfin
    · exact hv.newFile hf.ref

lemma sameRefs_pairEnd (t : Table) (x y : SockId) : SameRefs t (pairEnd t x y) :=
  sameRefs_modify t x ⟨rfl,rfl,rfl,by simp⟩

lemma fileclose_pair_inv {a b : SockId} (h : Inv (b::a::hand) t) (hab : a≠b)
    (ha : (t.sock a).ref=1) (hb : (t.sock b).ref=1) (hlq : (t.sock a).listenq=[])
    (hfa : (t.sock a).family=.unix) (hfb : (t.sock b).family=.unix)
    (hclient : ∀ l∈t.links,l.client≠(b,t.gen b)) (route : ℕ → Route) (now : Word) :
    Inv hand (fileclose (fileclose (newFile (newFile t a) b) t.files.length route now)
      (t.files.length+1) route now) := by
  have hunix : ∀ {u : Table} {x : SockId},(u.sock x).family=.unix → Closable u x route := by
    intro u x hfam _ hinet
    rw [hfam] at hinet
    cases hinet
  have hswap:=h.perm (List.Perm.swap a b hand)
  obtain ⟨hfiles,-,-,hcount⟩:=hswap.toCore.last ha
  rw [count_cons_of_ne (Ne.symm hab)] at hcount
  have hcountb:=(h.toCore.last hb).2.2.2
  rw [count_cons_of_ne hab] at hcountb
  have hw : Inv hand (newFile (newFile t a) b) := (hswap.newFile ha).newFile hb
  have hi : (newFile (newFile t a) b).files[t.files.length]? = some ⟨a,1,t.gen a⟩ := by
    simp [newFile]
  have hwait : NoneWaits (newFile (newFile t a) b) a := hswap.toCore.noneWaits hfiles
  have hfirst:=hw.fileclose t.files.length route now fun f hf _ => by
    cases hi.symm.trans hf
    exact ⟨hcount,hwait,hunix hfa⟩
  have hap : Apart a { newFile (newFile t a) b with
      files := (newFile (newFile t a) b).files.set t.files.length ⟨a,0,t.gen a⟩ }
      (fileclose (newFile (newFile t a) b) t.files.length route now) := by
    unfold fileclose
    rw [hi]
    exact socketClose_apart (t := { newFile (newFile t a) b with
      files := (newFile (newFile t a) b).files.set t.files.length ⟨a,0,t.gen a⟩ }) hfa ha hlq route now
  refine hfirst.fileclose _ route now fun f hf _ => ?_
  rw [hap.files] at hf
  have hf : f=⟨b,1,t.gen b⟩ := by
    simpa [newFile] using hf.symm
  subst hf
  refine ⟨hcountb,fun l hl hcl _ => ?_,hunix ?_⟩
  · rw [hap.links] at hl
    rw [hap.gen b (Ne.symm hab)] at hcl
    exact absurd hcl (hclient l hl)
  · obtain ⟨p,hp⟩:=hap.sock b (Ne.symm hab)
    rw [hp]
    exact hfb

lemma sysSocketpair_inv (h : Inv hand t) (bufsA bufsB fileA fileB fdA fdB copy : Bool)
    (route : ℕ → Route) (now : Word) : Inv hand (sysSocketpair t bufsA bufsB fileA fileB fdA fdB copy route now) := by
  unfold sysSocketpair
  cases hA : socketAlloc t with
  | none => exact h
  | some r =>
    obtain ⟨a,u⟩:=r
    obtain ⟨hu,ha,-⟩:=h.socketAlloc hA
    dsimp only
    cases hB : socketAlloc u with
    | none => exact hu.socketDeref
    | some r =>
      obtain ⟨b,v⟩:=r
      obtain ⟨hv,hb,hb0,-,hother⟩:=hu.socketAlloc hB
      have hab : a≠b := by
        rintro rfl
        rw [ha.ref] at hb0
        cases hb0
      have hra : (v.sock a).ref=1 := by rw [hother a hab,ha.ref]
      have hla : (v.sock a).listenq=[] := by rw [hother a hab,ha.listenq]
      dsimp only
      have drop : ∀ {w : Table},Inv (b::a::hand) w → Inv hand (socketDeref (socketDeref w a) b) :=
        fun hw => (hw.perm (List.Perm.swap a b hand)).socketDeref.socketDeref
      have h1:=sameRefs_socketBuffersInit v a bufsA
      have h2:=h1.trans (sameRefs_socketBuffersInit _ b bufsB)
      have h3:=(h2.trans (sameRefs_pairEnd _ a b)).trans (sameRefs_pairEnd _ b a)
      by_cases hbA : bufsA=false
      · rw [if_pos hbA]
        exact drop (h1.inv hv)
      rw [if_neg hbA]
      by_cases hbB : bufsB=false
      · rw [if_pos hbB]
        exact drop (h2.inv hv)
      rw [if_neg hbB]
      generalize socketBuffersInit (socketBuffersInit v a bufsA) b bufsB=w at h3
      have hfam : ((pairEnd (pairEnd w a b) b a).sock a).family=.unix ∧
          ((pairEnd (pairEnd w a b) b a).sock b).family=.unix := by
        simp [pairEnd,modify_ne _ hab]
      generalize pairEnd (pairEnd w a b) b a=w at h3 hfam
      have hw:=h3.inv hv
      have hb':=h3.fresh hb
      have hra' : (w.sock a).ref=1 := (h3.sock a).ref.trans hra
      obtain ⟨hfb,hqb,hpb,-⟩:=hw.toCore.last hb'.ref
      obtain ⟨hfa,hqa,hpa,-⟩:=(hw.perm (List.Perm.swap a b hand)).toCore.last hra'
      have hl : Inv (b::a::hand) (w.link a b) :=
        hw.addLink ⟨by omega,hpa⟩ ⟨by rw [hb'.ref]; exact one_ne_zero,hpb⟩ hqa fun hpos => by omega
      by_cases hfile : fileA=false ∨ fileB=false
      · rw [if_pos hfile]
        exact drop hl
      split_ifs
      · refine fileclose_pair_inv hl hab hra' hb'.ref ((h3.sock a).listenq.trans hla) hfam.1 hfam.2 ?_ route now
        intro l hm
        rcases mem_append.mp hm with hm | hm
        · exact fun hcl => hb'.ends (hcl ▸ (mem_ends hm).1)
        · rw [mem_singleton.mp hm]
          exact fun hcl => hab (congrArg Prod.fst hcl)
      · exact ((hl.perm (List.Perm.swap a b hand)).newFile hra').newFile hb'.ref

lemma connected_inv {l : SockId} (h : Inv (c::hand) t) (hc : Fresh t c)
    (hl : (t.sock l).ref≠0) (hstate : (t.sock l).state=.listen) (hx : 0<t.filesOf x)
    (he : enqueue t l c=some u) : Inv hand (u.link x c) := by
  obtain rfl:=(by exact (some.inj (ite_none_left_eq_some.mp he).2).symm)
  have hu:=h.enqueue hc hl hstate
  have hqc : 0<(t.modify l fun s => {s with listenq := s.listenq++[c]}).queued c := by
    refine Nat.lt_of_lt_of_le ?_ (count_le_queued _ l c)
    simp
  obtain ⟨hrx,hqx⟩:=hu.toCore.named (x := x) hx
  have hrc:=(hu.slot c).ref
  exact hu.addLink hrx ⟨by omega,((hu.slot c).child hqc).2.1⟩ hqx fun _ => hx

lemma connectUnix_inv (h : Inv hand t) (hx : 0<t.filesOf x) (path : List Byte) (bufs : Bool) :
    Inv hand (connectUnix t x path bufs) := by
  unfold connectUnix
  by_cases htype : (t.sock x).type≠.stream
  · rw [if_pos htype]
    exact h
  rw [if_neg htype]
  cases ha : socketAlloc t with
  | none => exact h
  | some r =>
    obtain ⟨c,u⟩:=r
    obtain ⟨hu,hc,-,hfiles,-⟩:=h.socketAlloc ha
    have hb:=sameRefs_socketBuffersInit u c bufs
    dsimp only
    generalize socketBuffersInit u c bufs=v at hb
    have hv:=hb.inv hu
    have hcv:=hb.fresh hc
    by_cases hbufs : bufs=false
    · rw [if_pos hbufs]
      exact hv.socketDeref
    rw [if_neg hbufs]
    split
    · exact hv.socketDeref
    rename_i hfree
    split
    · exact hv.socketDeref
    rename_i l hfind
    split
    · exact hv.socketDeref
    have hl:=find?_some hfind
    simp only [decide_and,and_eq_true,decide_eq_true_eq] at hl
    have hlx : l≠x := hl.2.1
    have hlc : l≠c := by
      rintro rfl
      exact hcv.state hl.2.2.2.2.1
    have hue : SameRefs v (unixEstablish v x c l) := by
      unfold unixEstablish
      refine SameRefs.trans (sameRefs_modify _ c ?_) (sameRefs_modify _ x ?_) <;>
        exact ⟨rfl,rfl,rfl,by simp⟩
    have hls : (unixEstablish v x c l).sock l=v.sock l := by
      unfold unixEstablish
      exact (modify_ne _ hlx _).trans (modify_ne _ hlc _)
    have hstate : (v.sock x).state≠.listen := by
      intro hst
      rw [hst] at hfree
      simp at hfree
    generalize unixEstablish v x c l=w at hue hls
    have hw:=hue.inv hv
    have hcw:=hue.fresh hcv
    split
    · rename_i u' he
      refine connected_inv hw hcw ?_ ?_ ?_ he
      · rw [hls]
        exact hl.1
      · rw [hls]
        exact hl.2.2.2.2.1
      rw [hue.filesOf,hb.filesOf]
      unfold Table.filesOf at hx ⊢
      rw [hfiles]
      exact hx
    · have hx':=sameRefs_modify w x (f := fun s => { s with
        peer := none,state := (v.sock x).state,tcp := {s.tcp with state := (v.sock x).tcp.state} })
        ⟨rfl,rfl,rfl,fun hst => absurd hst hstate⟩
      exact SameRefs.inv (hx'.trans (sameRefs_modify _ c ⟨rfl,rfl,rfl,id⟩)) hw |>.socketDeref

lemma prepareClient_keeps {port : ℕ} {iss : Word} (h : prepareClient s port iss=some s') : Keeps s s' := by
  obtain rfl:=some.inj (ite_none_left_eq_some.mp h).2
  exact ⟨rfl,rfl,rfl,id⟩

lemma socketStreamConnect_inv (h : Inv hand t) (hx : 0<t.filesOf x) (dst : SockAddr) (port : ℕ)
    (iss iss' : Word) (bufs : Bool) : Inv hand (socketStreamConnect t x dst port iss iss' bufs) := by
  unfold socketStreamConnect
  cases ha : socketAlloc t with
  | none => exact h
  | some r =>
    obtain ⟨c,u⟩:=r
    obtain ⟨hu,hc,-,hfiles,-⟩:=h.socketAlloc ha
    have hb:=sameRefs_socketBuffersInit u c bufs
    dsimp only
    generalize socketBuffersInit u c bufs=v at hb
    have hv:=hb.inv hu
    by_cases hbufs : bufs=false
    · rw [if_pos hbufs]
      exact hv.socketDeref
    rw [if_neg hbufs]
    split
    · exact hv.socketDeref
    split
    · exact hv.socketDeref
    rename_i s hprep
    have hp:=sameRefs_modify v x (f := fun _ => s) (prepareClient_keeps hprep)
    generalize v.modify x (fun _ => s)=w at hp
    have hw:=hp.inv hv
    have hcw:=hp.fresh (hb.fresh hc)
    split
    · exact hw.socketDeref
    rename_i l hfind
    split
    · exact hw.socketDeref
    have hl:=find?_some hfind
    simp only [decide_and,and_eq_true,decide_eq_true_eq] at hl
    have hlx : l≠x := hl.1
    have hlisten : (w.sock l).state=.listen := hl.2.2.2.2.2.1
    have hlc : l≠c := by
      rintro rfl
      exact hcw.state hlisten
    have hle : SameRefs w (loopEstablish w x c l dst iss') := by
      unfold loopEstablish
      refine SameRefs.trans (sameRefs_modify _ c ?_) (sameRefs_modify _ x ?_) <;>
        exact ⟨rfl,rfl,rfl,by simp⟩
    have hls : (loopEstablish w x c l dst iss').sock l=w.sock l := by
      unfold loopEstablish
      exact (modify_ne _ hlx _).trans (modify_ne _ hlc _)
    split
    · rename_i u' he
      refine connected_inv (hle.inv hw) (hle.fresh hcw) ?_ ?_ ?_ he
      · rw [hls]
        exact hl.2.1
      · rw [hls]
        exact hlisten
      rw [hle.filesOf,hp.filesOf,hb.filesOf]
      unfold Table.filesOf at hx ⊢
      rw [hfiles]
      exact hx
    · exact (hle.inv hw).socketDeref

lemma tcpConnect_keeps {dst : SockAddr} {port : ℕ} {iss now : Word}
    (h : tcpConnect s dst port iss now=some o) : Keeps s o.sock := by
  obtain ⟨-,h⟩:=ite_none_left_eq_some.mp h
  obtain rfl:=some.inj (ite_none_left_eq_some.mp h).2
  exact ⟨rfl,rfl,rfl,by simp⟩

lemma connectInet_inv (h : Inv hand t) (hx : 0<t.filesOf x) (dst : SockAddr) (route : ℕ → Route)
    (src port : ℕ) (iss iss' now : Word) (bufs : Bool) :
    Inv hand (connectInet t x dst route src port iss iss' now bufs) := by
  unfold connectInet
  split
  · exact h
  dsimp only
  have hsame:=sameRefs_modify t x (f := fun s =>
    {s with localAddr := if s.localAddr.addr=0 then {s.localAddr with addr := src} else s.localAddr})
    ⟨rfl,rfl,rfl,id⟩
  generalize t.modify x (fun s =>
    {s with localAddr := if s.localAddr.addr=0 then {s.localAddr with addr := src}
                          else s.localAddr})=u at hsame
  have hu:=hsame.inv h
  split
  · split
    · exact socketStreamConnect_inv hu (by rw [hsame.filesOf]; exact hx) dst port iss iss' bufs
    split
    · exact hu
    · rename_i o ho
      exact SameRefs.inv (sameRefs_modify u x (tcpConnect_keeps ho)) hu
  · exact SameRefs.inv (sameRefs_modify u x ⟨rfl,rfl,rfl,by simp⟩) hu

lemma bindUnix_inv (h : Inv hand t) (path : List Byte) : Inv hand (bindUnix t x path) := by
  unfold bindUnix
  split_ifs
  · exact h
  · exact h
  · exact h
  · exact SameRefs.inv (sameRefs_modify t x ⟨rfl,rfl,rfl,by simp⟩) h

lemma bindInet_inv (h : Inv hand t) (family : Family) (addr : SockAddr) : Inv hand (bindInet t x family addr) := by
  unfold bindInet
  split_ifs
  · exact h
  · exact h
  · exact SameRefs.inv (sameRefs_modify t x ⟨rfl,rfl,rfl,by simp⟩) h

lemma sysListen_inv (h : Inv hand t) (hx : 0<t.filesOf x) (backlog : ℤ)
    (hq : (t.sock x).listenq=[]) : Inv hand (sysListen t x backlog) := by
  unfold sysListen
  split
  · exact h
  have hs:=h.slot x
  obtain ⟨⟨hr,hp⟩,hqx⟩:=h.toCore.named hx
  refine h.modify hq.symm ⟨hs.ref,hs.once,fun hpos => ?_,hs.one,hs.closing⟩ (fun _ _ => rfl) (fun _ => hp) hr
  rw [hqx] at hpos
  cases hpos

lemma closable_modify {f : Socket → Socket} {y : SockId} {route : ℕ → Route}
    (hf : ∀ s,(f s).type=s.type ∧ (f s).family=s.family ∧ (f s).tcp=s.tcp ∧
      (f s).remoteAddr=s.remoteAddr) (h : Closable t y route) : Closable (t.modify x f) y route := by
  unfold Closable finable at h ⊢
  by_cases hy : y=x
  · subst hy
    obtain ⟨h1,h2,h3,h4⟩:=hf (t.sock y)
    rw [modify_self,h1,h2,h3,h4]
    exact h
  · rw [modify_ne t hy]
    exact h

lemma sysAccept_inv (h : Inv hand t) (file fd : Bool) (route : ℕ → Route) (now : Word)
    (hok : file=false ∨ fd=false → ∀ c∈(t.sock x).listenq.head?,Closable t c route)
    (hu : sysAccept t x file fd route now=some u) : Inv hand u := by
  unfold sysAccept at hu
  split at hu
  · cases hu
    exact h
  split at hu
  · cases hu
  rename_i c rest hq
  obtain ⟨hd,href⟩:=h.dequeue hq
  have hclose : file=false ∨ fd=false → Closable (t.modify x fun s => {s with listenq := rest}) c route := by
    intro hfail
    exact closable_modify (fun _ => ⟨rfl,rfl,rfl,rfl⟩) (hok hfail c (by rw [hq]; rfl))
  by_cases hfile : file=false
  · rw [if_pos hfile] at hu
    cases hu
    exact hd.socketClose href route now (hclose (.inl hfile))
  rw [if_neg hfile] at hu
  cases hu
  split
  · rename_i hfd
    exact hd.fileclose_new href route now (hclose (.inr hfd))
  · exact hd.newFile href

lemma sysShutdown_inv (h : Inv hand t) (how : How) (route : ℕ → Route) (now : Word)
    (hok : how≠.rd → (t.sock x).type=.stream → finable (t.sock x)=false) :
    Inv hand (sysShutdown t x how route now) := by
  unfold sysShutdown
  rw [if_neg]
  · exact SameRefs.inv (sameRefs_modify t x ⟨rfl,rfl,rfl,id⟩) h
  rintro ⟨hhow,htype,hfin⟩
  rw [modify_self] at htype hfin
  have hne : how≠.rd := by
    rintro rfl
    simp at hhow
  have hno:=hok hne htype
  unfold finable at hfin hno
  rw [hno] at hfin
  cases hfin

lemma tcpArrive_inv (h : Inv hand t) (src dst : SockAddr) (g : Segment) (now : Word) :
    Inv hand (tcpArrive t src dst g now) := by
  unfold tcpArrive
  split
  · exact h
  rename_i y hy
  have hr:=find?_some hy
  simp only [decide_and,and_eq_true,decide_eq_true_eq] at hr
  exact h.afterTcp (tcpInput_releases _ src g now) hr.1

lemma slowtimoTurn_inv (h : Inv hand t) (route : ℕ → Route) (now : Word) (y : SockId) :
    Inv hand (slowtimoTurn route now t y) := by
  unfold slowtimoTurn
  dsimp only
  split_ifs with h0 h1
  · exact h
  · exact h
  · exact h.afterTcp (tcpSlowtimo_releases _ _ now) h0

lemma foldl_slowtimoTurn_inv (route : ℕ → Route) (now : Word) (l : List SockId) (h : Inv hand t) :
    Inv hand (l.foldl (slowtimoTurn route now) t) := by
  induction l generalizing t with
  | nil => exact h
  | cons y l ih => exact ih (slowtimoTurn_inv h route now y)

lemma tcpOutput_keeps (s : Socket) (payload : List Byte) (page : Bool) (now : Word) :
    Keeps s (tcpOutput s payload page now).sock := by
  unfold tcpOutput
  split
  · exact Keeps.refl s
  · dsimp only
    split <;> exact ⟨rfl,rfl,rfl,id⟩

lemma tcpConnectTimeout_keeps (s : Socket) : Keeps s (tcpConnectTimeout s) := by
  unfold tcpConnectTimeout
  split
  · exact ⟨rfl,rfl,rfl,by simp⟩
  · exact Keeps.refl s

end Auxv6.Net.Sockets

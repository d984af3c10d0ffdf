import Auxv6.Net.SocketRefs

/-!
# What the socket calls do to the counts

A call takes references into its hand and gives them to a file, a queue or a teardown, or drops them.
-/

namespace Auxv6.Net.Sockets
open List Nat Prod

variable {hand : List SockId} {t u : Table} {x c : SockId} {f g : OpenFile} {i : ℕ}

lemma filesOf_set (hi : t.files[i]? = some f) (hsock : g.sock=f.sock) (y : SockId) :
    Table.filesOf {t with files := t.files.set i g} y+(if 0<f.ref ∧ f.sock=y then 1 else 0) =
      t.filesOf y+(if 0<g.ref ∧ f.sock=y then 1 else 0) := by
  obtain ⟨hlt,hget⟩:=List.getElem?_eq_some_iff.mp hi
  unfold Table.filesOf
  have hsplit : t.files=t.files.take i++f::t.files.drop (i+1) := by
    rw [← hget,getElem_cons_drop,take_append_drop]
  have hset : t.files.set i g=t.files.take i++g::t.files.drop (i+1) := set_eq_take_append_cons_drop.trans (if_pos hlt)
  rw [hset]
  conv_lhs => rw [countP_append,countP_cons,hsock]
  conv_rhs => rw [hsplit,countP_append,countP_cons]
  simp only [decide_eq_true_eq]
  omega

lemma mem_set_file {e : OpenFile} (h : e∈t.files.set i g) : e∈t.files ∨ e=g := mem_or_eq_of_mem_set h

lemma Inv.setFile (h : Inv hand t) (hi : t.files[i]? = some f) (hf : 0<f.ref) {n : ℕ} (hn : 0<n) :
    Inv hand {t with files := t.files.set i {f with ref := n}} := by
  have hfiles : ∀ y,Table.filesOf {t with files := t.files.set i {f with ref := n}} y=t.filesOf y := by
    intro y
    have := filesOf_set (g := {f with ref := n}) hi rfl y
    simp only [hf,hn,true_and] at this
    omega
  refine ⟨⟨fun y => ?_,fun e he href => ?_,h.endsLe,h.ends,fun l hl => ?_⟩,h.free⟩
  · rw [hfiles]
    exact h.slot y
  · rcases mem_set_file he with he | rfl
    · exact h.gen e he href
    · exact h.gen f (mem_of_getElem? hi) hf
  · exact (h.link l hl).mono rfl (fun y => le_rfl) fun y => (hfiles y).ge

def NoneWaits (t : Table) (x : SockId) : Prop :=
  ∀ l∈t.links,l.client=(x,t.gen x) → t.gen l.server.1=l.server.2 → t.queued l.server.1=0
  deriving Decidable

lemma Core.noneWaits (h : Core hand t) (hx : t.filesOf x=0) : NoneWaits t x := by
  intro l hl hcl hsv
  by_contra hq
  have hf:=((h.link l hl).server hsv (pos_of_ne_zero hq)).2
  rw [hcl] at hf
  exact absurd hx (ne_of_gt hf)

lemma Inv.closeFile (h : Inv hand t) (hi : t.files[i]? = some f) (hf : 0<f.ref) (hwait : NoneWaits t f.sock) :
    Inv (f.sock::hand) {t with files := t.files.set i {f with ref := 0}} := by
  have hcount : ∀ y,Table.filesOf {t with files := t.files.set i {f with ref := 0}} y +
      (if f.sock=y then 1 else 0)=t.filesOf y := by
    intro y
    have := filesOf_set (g := {f with ref := 0}) hi rfl y
    simpa only [hf,true_and,lt_irrefl,false_and,if_false,add_zero] using this
  refine ⟨⟨fun y => ?_,fun e he href => ?_,h.endsLe,h.ends,fun l hl => ?_⟩,h.free⟩
  · have hcount:=hcount y
    have hs:=h.slot y
    by_cases hy : f.sock=y
    · subst hy
      rw [if_pos rfl] at hcount
      have hr:=hs.ref
      have hone:=hs.one
      rw [count_cons_self]
      refine ⟨?_,hs.once,fun hq => ?_,by omega,fun hp => by omega⟩
      · show (t.sock f.sock).ref = _ + t.queued f.sock+pending (t.sock f.sock) + _
        omega
      · have := (hs.child hq).1
        omega
    · rw [if_neg hy,add_zero] at hcount
      rw [hcount,count_cons_of_ne hy]
      exact hs
  · rcases mem_set_file he with he | rfl
    · exact h.gen e he href
    · exact absurd href (lt_irrefl 0)
  · refine ⟨(h.link l hl).client,fun hg hpos => ?_⟩
    obtain ⟨hgc,hfc⟩:=(h.link l hl).server hg hpos
    have hne : f.sock≠l.client.1 := fun heq =>
      absurd (hwait l hl (by rw [heq,hgc]) hg) (ne_of_gt hpos)
    have hcl:=hcount l.client.1
    rw [if_neg hne] at hcl
    refine ⟨hgc,?_⟩
    omega

lemma Inv.newFile (h : Inv (x::hand) t) (hx : (t.sock x).ref=1) : Inv hand (newFile t x) := by
  obtain ⟨h1,h2,h3,h4⟩:=h.toCore.last hx
  have hfiles : ∀ y,(Sockets.newFile t x).filesOf y=t.filesOf y+if x=y then 1 else 0 := by
    unfold Table.filesOf Sockets.newFile
    simp
  refine ⟨⟨fun y => ?_,fun e he href => ?_,h.endsLe,h.ends,fun l hl => ?_⟩,h.free⟩
  · rw [hfiles]
    by_cases hy : x=y
    · subst hy
      rw [if_pos rfl,h1,h4]
      refine ⟨?_,(h.slot x).once,fun hq => ?_,by omega,fun hp => ?_⟩
      · show (t.sock x).ref=0+1+t.queued x+pending (t.sock x)+0
        rw [hx,h2,pending_false h3]
      · change 0<t.queued x at hq
        omega
      · change (t.sock x).tcp.closePending=true at hp
        rw [h3] at hp
        cases hp
    · have hs:=h.slot y
      rw [count_cons_of_ne hy] at hs
      rw [if_neg hy]
      exact hs
  · rcases mem_append.mp he with he | he
    · exact h.gen e he href
    · rw [mem_singleton.mp he]
      rfl
  · exact (h.link l hl).mono rfl (fun y => le_rfl) fun y => by rw [hfiles]; omega

lemma Inv.enqueue {l : SockId} (h : Inv (c::hand) t) (hc : Fresh t c)
    (hl : (t.sock l).ref≠0) (hstate : (t.sock l).state=.listen) :
    Inv hand (t.modify l fun s => {s with listenq := s.listenq++[c]}) := by
  obtain ⟨h1,h2,h3,h4⟩:=h.toCore.last hc.ref
  have hlc : l≠c := by
    rintro rfl
    exact hc.state hstate
  have hql : t.queued l=0 := by
    by_contra hq
    exact ((h.slot l).child (pos_of_ne_zero hq)).2.2.2.1 hstate
  have hqueued : ∀ y,(t.modify l fun s => {s with listenq := s.listenq++[c]}).queued y =
      t.queued y+if c=y then 1 else 0 := by
    intro y
    have := queued_modify t l (fun s => {s with listenq := s.listenq++[c]}) y
    rw [count_append,count_singleton] at this
    simp only [beq_iff_eq] at this
    omega
  refine ⟨⟨fun y => ?_,h.gen,h.endsLe,fun y hy => ?_,fun k hk => ?_⟩,fun y hy => ?_⟩
  · rw [hqueued]
    by_cases hyc : c=y
    · subst hyc
      rw [modify_ne t (Ne.symm hlc),if_pos rfl,h2,h4]
      refine ⟨?_,le_refl 1,fun _ => ⟨h1,h3,hc.listenq,hc.state,rfl⟩,(h.slot c).one,fun _ => h1⟩
      show (t.sock c).ref=t.filesOf c+(0+1)+pending (t.sock c)+0
      rw [hc.ref,h1,pending_false h3]
    have hs:=h.slot y
    rw [count_cons_of_ne hyc] at hs
    rw [if_neg hyc,add_zero]
    by_cases hyl : y=l
    · subst hyl
      rw [modify_self]
      exact ⟨hs.ref,hs.once,fun hq => by omega,hs.one,hs.closing⟩
    · rw [modify_ne t hyl]
      exact hs
  · by_cases hyl : y=l
    · subst hyl
      rw [modify_self]
      exact h.ends y hy
    · rw [modify_ne t hyl]
      exact h.ends y hy
  · -- a fresh slot is no end yet
    have hne : ∀ e∈t.ends,t.gen e.1=e.2 → c≠e.1 := by
      rintro e he hg rfl
      exact hc.ends (by rw [hg]; exact he)
    obtain ⟨hcl,hsv⟩:=mem_ends hk
    refine ⟨fun hg => ?_,fun hg hpos => ?_⟩
    · rw [hqueued,if_neg (hne _ hcl hg),add_zero]
      exact (h.link k hk).client hg
    · rw [hqueued,if_neg (hne _ hsv hg),add_zero] at hpos
      exact (h.link k hk).server hg hpos
  · by_cases hyl : y=l
    · subst hyl
      rw [modify_self] at hy
      exact absurd hy hl
    · rw [modify_ne t hyl] at hy ⊢
      exact h.free y hy

lemma Inv.dequeue {rest : List SockId} (h : Inv hand t) (hx : (t.sock x).listenq=c::rest) :
    Inv (c::hand) (t.modify x fun s => {s with listenq := rest}) ∧
      ((t.modify x fun s => {s with listenq := rest}).sock c).ref=1 := by
  have hpos : 0<t.queued c := lt_of_lt_of_le (by rw [hx,count_cons_self]; omega) (count_le_queued t x c)
  have hs:=h.slot c
  have honce:=hs.once
  have hr:=hs.ref
  obtain ⟨h1,h2,h3,h4,h5⟩:=hs.child hpos
  have hcx : c≠x := by
    rintro rfl
    rw [hx] at h3
    cases h3
  have hqueued : ∀ y,(t.modify x fun s => {s with listenq := rest}).queued y + (if c=y then 1 else 0)=t.queued y := by
    intro y
    have := queued_modify t x (fun s => {s with listenq := rest}) y
    rw [hx,count_cons] at this
    simp only [beq_iff_eq] at this
    omega
  have hp:=pending_false h2
  have href : (t.sock c).ref=1 := by omega
  refine ⟨⟨⟨fun y => ?_,h.gen,h.endsLe,fun y hy => ?_,fun l hl => ?_⟩,fun y hy => ?_⟩,?_⟩
  · have hq:=hqueued y
    by_cases hyc : c=y
    · subst hyc
      rw [if_pos rfl] at hq
      rw [modify_ne t hcx,count_cons_self,h5]
      refine ⟨?_,by omega,fun hq' => by omega,hs.one,fun hp => h1⟩
      rw [show Table.filesOf (t.modify x fun s => {s with listenq := rest}) c=0 from h1]
      omega
    rw [if_neg hyc,add_zero] at hq
    rw [hq,count_cons_of_ne hyc]
    have hsy:=h.slot y
    by_cases hyx : y=x
    · subst hyx
      rw [modify_self]
      refine ⟨hsy.ref,hsy.once,fun hq' => ?_,hsy.one,hsy.closing⟩
      have hnil:=(hsy.child hq').2.2.1
      rw [hx] at hnil
      cases hnil
    · rw [modify_ne t hyx]
      exact hsy
  · by_cases hyx : y=x
    · subst hyx
      rw [modify_self]
      exact h.ends y hy
    · rw [modify_ne t hyx]
      exact h.ends y hy
  · refine (h.link l hl).mono rfl (fun y => ?_) fun y => le_rfl
    have := hqueued y
    omega
  · by_cases hyx : y=x
    · subst hyx
      rw [modify_self] at hy
      have hnil:=(h.free y hy).1
      rw [hx] at hnil
      cases hnil
    · rw [modify_ne t hyx] at hy ⊢
      exact h.free y hy
  · rw [modify_ne t hcx]
    exact href

lemma Inv.addLink (h : Inv hand t) (hx : (t.sock x).ref≠0 ∧ (t.sock x).tcp.closePending=false)
    (hc : (t.sock c).ref≠0 ∧ (t.sock c).tcp.closePending=false) (hq : t.queued x=0)
    (hwait : 0<t.queued c → 0<t.filesOf x) : Inv hand (t.link x c) := by
  have hends : ∀ e∈(t.link x c).ends,e∈t.ends ∨ e=(x,t.gen x) ∨ e=(c,t.gen c) := by
    simp [Table.ends,Table.link]
  refine ⟨⟨h.slot,h.gen,fun e he => ?_,fun y hy => ?_,fun l hl => ?_⟩,fun y hy => ⟨(h.free y hy).1,fun hm => ?_⟩⟩
  · rcases hends e he with he | rfl | rfl
    · exact h.endsLe e he
    · exact le_rfl
    · exact le_rfl
  · rcases hends _ hy with hy | hy | hy
    · exact h.ends y hy
    · obtain rfl : y=x := congrArg fst hy
      exact hx.2
    · obtain rfl : y=c := congrArg fst hy
      exact hc.2
  · rcases mem_append.mp hl with hl | hl
    · exact (h.link l hl).mono rfl (fun y => le_rfl) fun y => le_rfl
    · rw [mem_singleton.mp hl]
      exact ⟨fun _ => hq,fun _ hpos => ⟨rfl,hwait hpos⟩⟩
  · rcases hends _ hm with hm | hm | hm
    · exact (h.free y hy).2 hm
    · obtain rfl : y=x := congrArg fst hm
      exact hx.1 hy
    · obtain rfl : y=c := congrArg fst hm
      exact hc.1 hy

lemma sameRefs_socketBuffersInit (t : Table) (x : SockId) (bufs : Bool) :
    SameRefs t (socketBuffersInit t x bufs) := sameRefs_modify t x ⟨rfl,rfl,rfl,id⟩

lemma tcpClose_keeps (s : Socket) (route : Route) (now : Word) : Keeps s (tcpClose s route now).sock := by
  unfold tcpClose
  split
  · exact Keeps.refl s
  split
  · exact ⟨rfl,rfl,rfl,id⟩
  · exact ⟨rfl,rfl,rfl,id⟩
  · exact ⟨rfl,rfl,rfl,by simp [Socket.idle]⟩
  · exact ⟨rfl,rfl,rfl,id⟩

def Closable (t : Table) (x : SockId) (route : ℕ → Route) : Prop :=
  (t.sock x).type=.stream → (t.sock x).family=.inet → finable (t.sock x)=true →
    (x,t.gen x)∈t.ends → route (t.sock x).remoteAddr.addr=.unreachable
  deriving Decidable

lemma Inv.startTeardown (h : Inv (x::hand) t) (hx : (t.sock x).ref=1) (route : ℕ → Route)
    (now : Word) (freeBuf : Bool) (hends : (x,t.gen x)∈t.ends → route (t.sock x).remoteAddr.addr=.unreachable) :
    Inv (x::hand) (startTeardown t x route now freeBuf) := by
  obtain ⟨h1,h2,h3,h4⟩:=h.toCore.last hx
  unfold Sockets.startTeardown
  have hmod : ∀ g f : Socket → Socket,(t.modify x g).modify x f=t.modify x fun s => f (g s) := by
    unfold Table.modify
    simp
  simp only [modify_self,hmod]
  have hnet : (x,t.gen x)∉t.ends → ∀ r,Inv (x::hand) (t.modify x fun s => (tcpClose
      {s with ref := s.ref+1,tcp := {s.tcp with closePending := true}} r now).sock) := by
    intro hne r
    have hk:=tcpClose_keeps
      {t.sock x with ref := (t.sock x).ref+1,tcp := {(t.sock x).tcp with closePending := true}} r now
    refine h.modify hk.listenq ?_ (fun _ _ => rfl) (fun hm => absurd hm hne) ?_
    · refine SlotOk.keeps ⟨?_,(h.slot x).once,fun hq => by omega,(h.slot x).one,fun _ => h1⟩ hk
      rw [count_cons_self,h1,h2,h4,hx]
      rfl
    · rw [hk.ref]
      exact succ_ne_zero _
  cases hroute : route (t.sock x).remoteAddr.addr with
  | unreachable =>
    refine SameRefs.inv (sameRefs_modify t x ⟨?_,rfl,h3.symm,?_⟩) h
    · simp
    · simp
  | loopback =>
    exact hnet (fun hm => by rw [hends hm] at hroute; cases hroute) _
  | network =>
    exact hnet (fun hm => by rw [hends hm] at hroute; cases hroute) _

lemma Inv.socketClose (h : Inv (x::hand) t) (hx : (t.sock x).ref=1) (route : ℕ → Route)
    (now : Word) (hok : Closable t x route) : Inv hand (socketClose t x route now) := by
  unfold Sockets.socketClose
  dsimp only
  split_ifs with hinet hfin
  · exact (h.startTeardown hx route now true (hok hinet.1 hinet.2 hfin)).socketDeref
  · exact (SameRefs.inv (sameRefs_modify t x ⟨rfl,rfl,rfl,by simp⟩) h).socketDeref
  · have h1:=sameRefs_dropPeer t x
    have h2:=sameRefs_modify (dropPeer t x) x (f := fun s => {s with peer := none}) ⟨rfl,rfl,rfl,id⟩
    exact (SameRefs.inv ((h1.trans h2).trans (sameRefs_modify _ x ⟨rfl,rfl,rfl,by simp⟩)) h).socketDeref
  · exact (SameRefs.inv (sameRefs_modify t x ⟨rfl,rfl,rfl,by simp⟩) h).socketDeref

lemma Inv.fileclose (h : Inv hand t) (i : ℕ) (route : ℕ → Route) (now : Word)
    (hok : ∀ f,t.files[i]? = some f → f.ref=1 → hand.count f.sock=0 ∧ NoneWaits t f.sock ∧ Closable t f.sock route) :
    Inv hand (fileclose t i route now) := by
  unfold Sockets.fileclose
  cases hi : t.files[i]? with
  | none => exact h
  | some f =>
    dsimp only
    by_cases h0 : f.ref=0
    · rw [if_pos h0]
      exact h
    rw [if_neg h0]
    by_cases h1 : f.ref-1 > 0
    · rw [if_pos h1]
      exact h.setFile hi (pos_of_ne_zero h0) h1
    rw [if_neg h1]
    have hone : f.ref=1 := by omega
    obtain ⟨hhand,hwait,hclose⟩:=hok f hi hone
    have hlast : Inv (f.sock::hand) {t with files := t.files.set i {f with ref := f.ref-1}} := by
      rw [hone]
      exact h.closeFile hi (pos_of_ne_zero h0) hwait
    refine hlast.socketClose ?_ route now hclose
    have hpos:=filesOf_pos (mem_of_getElem? hi) (pos_of_ne_zero h0)
    have hfone:=(h.slot f.sock).one
    have hr:=(h.slot f.sock).ref
    obtain ⟨⟨-,hp⟩,hq⟩:=h.toCore.named hpos
    rw [pending_false hp] at hr
    show (t.sock f.sock).ref=1
    omega

lemma getElem?_newFile (t : Table) (x : SockId) :
    (newFile t x).files[(newFile t x).files.length-1]? = some ⟨x,1,t.gen x⟩ := by
  simp [newFile]

lemma Inv.fileclose_new (h : Inv (x::hand) t) (hx : (t.sock x).ref=1) (route : ℕ → Route)
    (now : Word) (hok : Closable t x route) :
    Inv hand (Sockets.fileclose (Sockets.newFile t x) ((Sockets.newFile t x).files.length-1) route now) := by
  refine (h.newFile hx).fileclose _ route now fun f hf _ => ?_
  rw [getElem?_newFile] at hf
  cases hf
  obtain ⟨hfiles,-,-,hhand⟩:=h.toCore.last hx
  exact ⟨hhand,h.toCore.noneWaits hfiles,hok⟩

structure Apart (x : SockId) (t u : Table) : Prop where
  sock : ∀ y,y≠x → ∃ p,u.sock y = {t.sock y with peer := p}
  gen : ∀ y,y≠x → u.gen y=t.gen y
  files : u.files=t.files
  links : u.links=t.links

lemma Apart.trans {v : Table} (h : Apart x t u) (h' : Apart x u v) : Apart x t v := by
  refine ⟨fun y hy => ?_,fun y hy => (h'.gen y hy).trans (h.gen y hy),h'.files.trans h.files,h'.links.trans h.links⟩
  obtain ⟨p,hp⟩:=h.sock y hy
  obtain ⟨p',hp'⟩:=h'.sock y hy
  exact ⟨p',by rw [hp',hp]⟩

lemma apart_modify (t : Table) (x : SockId) (f : Socket → Socket) : Apart x t (t.modify x f) :=
  ⟨fun y hy => ⟨(t.sock y).peer,modify_ne t hy f⟩,fun _ _ => rfl,rfl,rfl⟩
lemma apart_dropPeer (t : Table) (x : SockId) : Apart x t (dropPeer t x) := by
  have h:=sameRefs_dropPeer t x
  exact ⟨fun y _ => dropPeer_sock t x y,fun y _ => congrFun h.gen y,h.files,h.links⟩

lemma socketClose_apart (hfam : (t.sock x).family=.unix) (hx : (t.sock x).ref=1)
    (hlq : (t.sock x).listenq=[]) (route : ℕ → Route) (now : Word) : Apart x t (socketClose t x route now) := by
  unfold socketClose
  dsimp only
  rw [if_neg (by rw [hfam]; rintro ⟨-,h⟩; cases h),if_pos hfam]
  have h1:=((apart_dropPeer t x).trans (apart_modify _ x fun s => {s with peer := none})).trans
    (apart_modify _ x fun s => {s with state := .closed})
  have hr : ((((dropPeer t x).modify x fun s => {s with peer := none}).modify x
      fun s => {s with state := .closed}).sock x).ref=1 ∧
      ((((dropPeer t x).modify x fun s => {s with peer := none}).modify x
      fun s => {s with state := .closed}).sock x).listenq=[] := by
    have hk:=(sameRefs_dropPeer t x).sock x
    simp only [modify_self]
    exact ⟨hk.ref.trans hx,hk.listenq.trans hlq⟩
  generalize ((dropPeer t x).modify x fun s => {s with peer := none}).modify x
    (fun s => {s with state := .closed})=v at h1 hr
  refine h1.trans ?_
  unfold socketDeref
  rw [if_pos (show 0<(v.sock x).ref by omega)]
  have h2:=apart_modify v x fun s => {s with ref := s.ref-1}
  have hr2 : ((v.modify x fun s => {s with ref := s.ref-1}).sock x).ref=0 ∧
      ((v.modify x fun s => {s with ref := s.ref-1}).sock x).listenq=[] := by
    simp only [modify_self]
    exact ⟨by omega,hr.2⟩
  generalize v.modify x (fun s => {s with ref := s.ref-1})=w at h2 hr2
  rw [if_pos hr2.1]
  have hf:=socketFree_frees w hr2.1 (by rw [hr2.2]; exact not_mem_nil)
    (by rw [hr2.2]; exact nodup_nil) (by rw [hr2.2]; exact fun y hy => (not_mem_nil hy).elim)
  rw [hr2.2] at hf
  exact h2.trans ⟨fun y hy => (hf.keep y hy not_mem_nil).1,fun y hy => (hf.keep y hy not_mem_nil).2,hf.files,hf.links⟩

end Auxv6.Net.Sockets

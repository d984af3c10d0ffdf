import Mathlib.Algebra.BigOperators.Group.Finset.Basic
import Mathlib.Data.List.Count
import Auxv6.Net.SocketTable

/-!
# Reference counts of sockets

The open files that name a slot, its places in listen queues, a pending teardown, and the references a
running call has in hand.
-/

namespace Auxv6.Net.Sockets

open Function List Finset Nat

def Table.filesOf (t : Table) (x : SockId) : ℕ := t.files.countP fun f => 0<f.ref ∧ f.sock=x
def Table.queued (t : Table) (x : SockId) : ℕ := ∑ y,(t.sock y).listenq.count x
def pending (s : Socket) : ℕ := if s.tcp.closePending then 1 else 0

variable {s : Socket}

lemma pending_false (h : s.tcp.closePending=false) : pending s=0 := by
  rw [pending,h]
  rfl

/-- The count of a slot with `files` open files, `queued` places in queues and `hand` references
of running calls. A queued socket has nothing but its place. -/
structure SlotOk (files queued hand : ℕ) (s : Socket) : Prop where
  ref : s.ref=files+queued+pending s+hand
  once : queued≤1
  child : 0<queued → files=0 ∧ s.tcp.closePending=false ∧ s.listenq=[] ∧ s.state≠.listen ∧ hand=0
  one : files≤1
  closing : s.tcp.closePending=true → files=0

structure LinkOk (t : Table) (l : Link) : Prop where
  client : t.gen l.client.1=l.client.2 → t.queued l.client.1=0
  server : t.gen l.server.1=l.server.2 → 0<t.queued l.server.1 → t.gen l.client.1=l.client.2 ∧ 0<t.filesOf l.client.1

/-- The invariant but for the contents of free slots; `hand` lists the references that a running
call holds. -/
structure Core (hand : List SockId) (t : Table) : Prop where
  slot : ∀ x,SlotOk (t.filesOf x) (t.queued x) (hand.count x) (t.sock x)
  gen : ∀ f∈t.files,0<f.ref → f.gen=t.gen f.sock
  endsLe : ∀ e∈t.ends,e.2≤t.gen e.1
  ends : ∀ x,(x,t.gen x)∈t.ends → (t.sock x).tcp.closePending=false
  link : ∀ l∈t.links,LinkOk t l

def FreeAt (t : Table) (x : SockId) : Prop := (t.sock x).ref=0 → (t.sock x).listenq=[] ∧ (x,t.gen x)∉t.ends

structure Inv (hand : List SockId) (t : Table) : Prop extends Core hand t where
  free : ∀ x,FreeAt t x

variable {hand : List SockId} {t u : Table} {x y : SockId}

lemma LinkOk.mono {l : Link} (h : LinkOk t l) (hgen : u.gen=t.gen)
    (hq : ∀ y,u.queued y≤t.queued y) (hf : ∀ y,t.filesOf y≤u.filesOf y) : LinkOk u l := by
  refine ⟨fun hg => ?_,fun hg hpos => ?_⟩
  · rw [hgen] at hg
    exact le_zero.mp ((hq _).trans (h.client hg).le)
  · rw [hgen] at hg ⊢
    obtain ⟨hgc,hfc⟩:=h.server hg (lt_of_lt_of_le hpos (hq _))
    exact ⟨hgc,lt_of_lt_of_le hfc (hf _)⟩

lemma mem_ends {l : Link} (hl : l∈t.links) : l.client∈t.ends ∧ l.server∈t.ends :=
  ⟨mem_flatMap.mpr ⟨l,hl,by simp⟩,mem_flatMap.mpr ⟨l,hl,by simp⟩⟩
@[simp] lemma modify_self (t : Table) (x : SockId) (f : Socket → Socket) :
    (t.modify x f).sock x=f (t.sock x) := update_self ..
lemma modify_ne (t : Table) {x : SockId} (h : y≠x) (f : Socket → Socket) :
    (t.modify x f).sock y=t.sock y := update_of_ne h ..

structure Keeps (s s' : Socket) : Prop where
  ref : s'.ref=s.ref
  listenq : s'.listenq=s.listenq
  pend : s'.tcp.closePending=s.tcp.closePending
  listen : s'.state=.listen → s.state=.listen

lemma Keeps.refl (s : Socket) : Keeps s s := ⟨rfl,rfl,rfl,id⟩

variable {s' : Socket}

lemma Keeps.trans {s'' : Socket} (h : Keeps s s') (h' : Keeps s' s'') : Keeps s s'' :=
  ⟨h'.ref.trans h.ref,h'.listenq.trans h.listenq,h'.pend.trans h.pend,h.listen ∘ h'.listen⟩

lemma SlotOk.keeps {files queued n : ℕ} (h : SlotOk files queued n s)
    (hk : Keeps s s') : SlotOk files queued n s' := by
  refine ⟨?_,h.once,fun hq => ?_,h.one,fun hp => h.closing (hk.pend ▸ hp)⟩
  · rw [hk.ref,pending,hk.pend]
    exact h.ref
  · obtain ⟨h1,h2,h3,h4,h5⟩:=h.child hq
    exact ⟨h1,hk.pend.trans h2,hk.listenq.trans h3,h4 ∘ hk.listen,h5⟩

structure SameRefs (t u : Table) : Prop where
  sock : ∀ x,Keeps (t.sock x) (u.sock x)
  files : u.files=t.files
  gen : u.gen=t.gen
  links : u.links=t.links

section
variable (h : SameRefs t u)
include h

lemma SameRefs.trans {v : Table} (h' : SameRefs u v) : SameRefs t v :=
  ⟨fun x => (h.sock x).trans (h'.sock x),h'.files.trans h.files,h'.gen.trans h.gen,h'.links.trans h.links⟩
lemma SameRefs.ends : u.ends=t.ends := by
  unfold Table.ends
  rw [h.links]
lemma SameRefs.filesOf (x : SockId) : u.filesOf x=t.filesOf x := by
  unfold Table.filesOf
  rw [h.files]
lemma SameRefs.queued (x : SockId) : u.queued x=t.queued x := by
  unfold Table.queued
  simp only [(h.sock _).listenq]

lemma SameRefs.core (hc : Core hand t) : Core hand u := by
  refine ⟨fun x => ?_,?_,?_,fun x hx => ?_,fun l hl => ?_⟩
  · rw [h.filesOf,h.queued]
    exact (hc.slot x).keeps (h.sock x)
  · rw [h.files,h.gen]
    exact hc.gen
  · rw [h.ends,h.gen]
    exact hc.endsLe
  · rw [h.ends,h.gen] at hx
    rw [(h.sock x).pend]
    exact hc.ends x hx
  · exact (hc.link l (h.links ▸ hl)).mono h.gen (fun y => (h.queued y).le) fun y => (h.filesOf y).ge

lemma SameRefs.inv (hi : Inv hand t) : Inv hand u := by
  refine ⟨h.core hi.toCore,fun x hx => ?_⟩
  rw [(h.sock x).ref] at hx
  rw [(h.sock x).listenq,h.gen,h.ends]
  exact hi.free x hx

end

variable {f : Socket → Socket}

lemma sameRefs_modify (t : Table) (x : SockId)
    (hf : Keeps (t.sock x) (f (t.sock x))) : SameRefs t (t.modify x f) := by
  refine ⟨fun y => ?_,rfl,rfl,rfl⟩
  by_cases hy : y=x
  · subst hy
    rw [modify_self]
    exact hf
  · rw [modify_ne t hy]
    exact Keeps.refl _

lemma keeps_peer (h : ∃ p,s' = {s with peer := p}) : Keeps s s' := by
  obtain ⟨p,rfl⟩:=h
  exact ⟨rfl,rfl,rfl,id⟩

lemma dropPeer_sock (t : Table) (x y : SockId) : ∃ p,(dropPeer t x).sock y = {t.sock y with peer := p} := by
  unfold dropPeer
  split
  · rename_i z _
    by_cases hy : y=z
    · subst hy
      exact ⟨none,modify_self t y _⟩
    · exact ⟨(t.sock y).peer,modify_ne t hy _⟩
  · exact ⟨(t.sock y).peer,rfl⟩

lemma sameRefs_dropPeer (t : Table) (x : SockId) : SameRefs t (dropPeer t x) := by
  refine ⟨fun y => keeps_peer (dropPeer_sock t x y),?_,?_,?_⟩ <;>
  · unfold dropPeer
    split <;> rfl

lemma queued_modify (t : Table) (x : SockId) (f : Socket → Socket) (y : SockId) :
    (t.modify x f).queued y+(t.sock x).listenq.count y=t.queued y+(f (t.sock x)).listenq.count y := by
  unfold Table.queued
  rw [← add_sum_erase _ _ (mem_univ x),← add_sum_erase _ _ (mem_univ x)]
  have hrest : ∑ z∈univ.erase x,((t.modify x f).sock z).listenq.count y =
      ∑ z∈univ.erase x,(t.sock z).listenq.count y := by
    refine sum_congr rfl fun z hz => ?_
    rw [modify_ne t (ne_of_mem_erase hz)]
  rw [modify_self,hrest]
  omega

lemma count_le_queued (t : Table) (x y : SockId) : (t.sock x).listenq.count y≤t.queued y := by
  exact single_le_sum (f := fun z => (t.sock z).listenq.count y) (fun _ _ => zero_le _) (mem_univ x)

structure Freed (l : List SockId) (t u : Table) : Prop where
  inside : ∀ y∈l,(u.sock y).ref=0 ∧ (u.sock y).listenq=[] ∧ (u.sock y).tcp.closePending=false ∧ u.gen y=t.gen y+1
  outside : ∀ y,y∉l → u.sock y=t.sock y ∧ u.gen y=t.gen y
  files : u.files=t.files
  links : u.links=t.links

lemma freeChild_freed (t : Table) {c : SockId} (hc : 0<(t.sock c).ref) : Freed [c] t (freeChild t c) := by
  unfold freeChild
  rw [if_pos hc]
  refine ⟨fun y hy => ?_,fun y hy => ?_,rfl,rfl⟩
  · obtain rfl:=List.mem_singleton.mp hy
    simp [Table.reset,resetSocket,Table.modify]
  · have hy : y≠c := fun h => hy (List.mem_singleton.mpr h)
    simp [Table.reset,Table.modify,hy]

lemma foldl_freeChild_freed (l : List SockId) (t : Table) (hnd : l.Nodup)
    (href : ∀ y∈l,0<(t.sock y).ref) : Freed l t (l.foldl freeChild t) := by
  induction l generalizing t with
  | nil => exact ⟨fun y hy => (List.not_mem_nil hy).elim,fun _ _ => ⟨rfl,rfl⟩,rfl,rfl⟩
  | cons c l ih =>
    have hcl : c∉l := (List.nodup_cons.mp hnd).1
    have h1:=freeChild_freed t (href c (List.mem_cons_self ..))
    have hne : ∀ y∈l,y ∉ [c] := fun y hy hyc => hcl (List.mem_singleton.mp hyc ▸ hy)
    have h2:=ih (freeChild t c) (List.nodup_cons.mp hnd).2 fun y hy => by
      rw [(h1.outside y (hne y hy)).1]
      exact href y (List.mem_cons_of_mem _ hy)
    refine ⟨fun y hy => ?_,fun y hy => ?_,h2.files.trans h1.files,h2.links.trans h1.links⟩
    · rcases List.mem_cons.mp hy with rfl | hy
      · obtain ⟨hs,hg⟩:=h2.outside y hcl
        rw [List.foldl_cons,hs,hg]
        exact h1.inside y (List.mem_singleton.mpr rfl)
      · have hin:=h2.inside y hy
        rw [(h1.outside y (hne y hy)).2] at hin
        exact hin
    · rw [List.mem_cons,not_or] at hy
      obtain ⟨hs1,hg1⟩:=h1.outside y fun hyc => hy.1 (List.mem_singleton.mp hyc)
      obtain ⟨hs2,hg2⟩:=h2.outside y hy.2
      exact ⟨hs2.trans hs1,hg2.trans hg1⟩

lemma filesOf_pos {f : OpenFile} (hf : f∈t.files) (href : 0<f.ref) : 0<t.filesOf f.sock :=
  countP_pos_iff.mpr ⟨f,hf,by simp [href]⟩

structure Frees (x : SockId) (l : List SockId) (t u : Table) : Prop where
  reset : ∀ y,y=x ∨ y∈l → (u.sock y).ref=0 ∧ (u.sock y).listenq=[] ∧
    (u.sock y).tcp.closePending=false ∧ u.gen y=t.gen y+1
  keep : ∀ y,y≠x → y∉l → (∃ p,u.sock y = {t.sock y with peer := p}) ∧ u.gen y=t.gen y
  files : u.files=t.files
  links : u.links=t.links

lemma socketFree_frees (t : Table) (hx : (t.sock x).ref=0) (hself : x∉(t.sock x).listenq)
    (hnd : (t.sock x).listenq.Nodup) (href : ∀ y∈(t.sock x).listenq,0<(t.sock y).ref) :
    Frees x (t.sock x).listenq t (socketFree t x) := by
  have hfreed:=foldl_freeChild_freed (t.sock x).listenq t hnd href
  have hdrop:=sameRefs_dropPeer ((t.sock x).listenq.foldl freeChild t) x
  have hpeer:=dropPeer_sock ((t.sock x).listenq.foldl freeChild t) x
  unfold socketFree
  generalize dropPeer ((t.sock x).listenq.foldl freeChild t) x=v at hdrop hpeer
  have hne : ∀ y,y≠x → (v.reset x).sock y=v.sock y ∧ (v.reset x).gen y=v.gen y := by
    intro y hy
    exact ⟨modify_ne v hy _,update_of_ne hy ..⟩
  refine ⟨fun y hy => ?_,fun y hyx hyl => ?_,hdrop.files.trans hfreed.files,hdrop.links.trans hfreed.links⟩
  · by_cases hyx : y=x
    · subst hyx
      have hout:=hfreed.outside y hself
      have hr : (v.sock y).ref=0 := by rw [(hdrop.sock y).ref,hout.1,hx]
      have hg : v.gen y=t.gen y := by rw [hdrop.gen,hout.2]
      simp [Table.reset,resetSocket,Table.modify,hr,hg]
    · obtain ⟨hs,hg⟩:=hne y hyx
      obtain ⟨h1,h2,h3,h4⟩:=hfreed.inside y (hy.resolve_left hyx)
      rw [hs,hg,(hdrop.sock y).ref,(hdrop.sock y).listenq,(hdrop.sock y).pend,hdrop.gen]
      exact ⟨h1,h2,h3,h4⟩
  · obtain ⟨hs,hg⟩:=hne y hyx
    obtain ⟨hs',hg'⟩:=hfreed.outside y hyl
    rw [hs,hg,hdrop.gen,hg']
    exact ⟨hs' ▸ hpeer y,rfl⟩

variable {l hand' : List SockId}

lemma Frees.ends (h : Frees x l t u) : u.ends=t.ends := by
  unfold Table.ends
  rw [h.links]

lemma Frees.queued (h : Frees x l t u) (hl : (t.sock x).listenq=l)
    (hchild : ∀ y∈l,(t.sock y).listenq=[]) (y : SockId) : u.queued y+l.count y=t.queued y := by
  unfold Table.queued
  rw [← add_sum_erase _ _ (mem_univ x),← add_sum_erase _ _ (mem_univ x)]
  have hrest : ∑ z∈univ.erase x,(u.sock z).listenq.count y = ∑ z∈univ.erase x,(t.sock z).listenq.count y := by
    refine sum_congr rfl fun z hz => ?_
    by_cases hzl : z∈l
    · rw [(h.reset z (.inr hzl)).2.1,hchild z hzl]
    · rw [(keeps_peer (h.keep z (ne_of_mem_erase hz) hzl).1).listenq]
  rw [hrest,(h.reset x (.inl rfl)).2.1,hl,count_nil]
  omega

lemma slotOk_free (href : s.ref=0) (hp : s.tcp.closePending=false) : SlotOk 0 0 0 s := by
  refine ⟨?_,zero_le _,fun h => absurd h (lt_irrefl 0),zero_le _,fun _ => rfl⟩
  rw [href,pending_false hp]

lemma Core.socketFree (hc : Core hand t) (hfree : ∀ y,y≠x → FreeAt t y)
    (hx : (t.sock x).ref=0) : Inv hand (socketFree t x) := by
  -- a queued socket has only its place in the queue
  have hq : ∀ y∈(t.sock x).listenq,t.queued y=1 := by
    intro y hy
    have hpos : 0<(t.sock x).listenq.count y := count_pos_iff.mpr hy
    have hle:=count_le_queued t x y
    have honce:=(hc.slot y).once
    omega
  have hchild:=fun y hy => (hc.slot y).child (by rw [hq y hy]; exact one_pos)
  have hnd : (t.sock x).listenq.Nodup := by
    rw [nodup_iff_count_le_one]
    exact fun y => (count_le_queued t x y).trans (hc.slot y).once
  have hrx:=(hc.slot x).ref
  have hself : x∉(t.sock x).listenq := fun hm => by
    have := hq x hm
    omega
  have hf:=socketFree_frees t hx hself hnd fun y hy => by
    have hr:=(hc.slot y).ref
    rw [hq y hy] at hr
    omega
  have hcount:=hf.queued rfl fun y hy => (hchild y hy).2.2.1
  generalize hl : (t.sock x).listenq=l at hf hq hchild hnd hcount
  generalize Sockets.socketFree t x=u at hf hcount
  have hfiles : ∀ y,u.filesOf y=t.filesOf y := fun y => by
    unfold Table.filesOf
    rw [hf.files]
  have hnone : ∀ y,y=x ∨ y∈l → u.queued y=0 ∧ t.filesOf y=0 ∧ hand.count y=0 := by
    intro y hy
    have hcy:=hcount y
    by_cases hyl : y∈l
    · have h1:=hq y hyl
      have hmem : 0<l.count y := count_pos_iff.mpr hyl
      exact ⟨by omega,(hchild y hyl).1,(hchild y hyl).2.2.2.2⟩
    · obtain rfl:=hy.resolve_right hyl
      exact ⟨by omega,by omega,by omega⟩
  have hgone : ∀ y,y=x ∨ y∈l → (y,u.gen y)∉u.ends := by
    intro y hy hm
    rw [hf.ends] at hm
    have hle:=hc.endsLe _ hm
    have hg:=(hf.reset y hy).2.2.2
    dsimp only at hle
    omega
  have hkeep : ∀ y,¬ (y=x ∨ y∈l) → Keeps (t.sock y) (u.sock y) ∧ u.gen y=t.gen y := by
    intro y hy
    obtain ⟨hp,hg⟩:=hf.keep y (fun h => hy (.inl h)) fun h => hy (.inr h)
    exact ⟨keeps_peer hp,hg⟩
  refine ⟨⟨fun y => ?_,fun f hm href => ?_,fun e he => ?_,fun y hy => ?_,fun k hk => ?_⟩,fun y hy => ?_⟩
  · by_cases hyr : y=x ∨ y∈l
    · obtain ⟨h₁,h2,h3⟩:=hnone y hyr
      rw [hfiles,h₁,h2,h3]
      exact slotOk_free (hf.reset y hyr).1 (hf.reset y hyr).2.2.1
    have hcy:=hcount y
    rw [count_eq_zero_of_not_mem fun h => hyr (.inr h),add_zero] at hcy
    rw [hfiles,hcy]
    exact (hc.slot y).keeps (hkeep y hyr).1
  · rw [hf.files] at hm
    have hpos:=filesOf_pos hm href
    have hyr : ¬ (f.sock=x ∨ f.sock∈l) := fun hyr => by
      have := (hnone f.sock hyr).2.1
      omega
    rw [(hkeep f.sock hyr).2]
    exact hc.gen f hm href
  · rw [hf.ends] at he
    have hle:=hc.endsLe e he
    by_cases hyr : e.1=x ∨ e.1∈l
    · rw [(hf.reset e.1 hyr).2.2.2]
      omega
    · rw [(hkeep e.1 hyr).2]
      exact hle
  · by_cases hyr : y=x ∨ y∈l
    · exact absurd hy (hgone y hyr)
    · rw [hf.ends,(hkeep y hyr).2] at hy
      rw [(hkeep y hyr).1.pend]
      exact hc.ends y hy
  · rw [hf.links] at hk
    obtain ⟨hcl,hsv⟩:=hc.link k hk
    refine ⟨fun hg => ?_,fun hg hpos => ?_⟩
    · by_cases hyr : k.client.1=x ∨ k.client.1∈l
      · exact (hnone _ hyr).1
      · have hcy:=hcount k.client.1
        rw [(hkeep _ hyr).2] at hg
        omega
    have hyr : ¬ (k.server.1=x ∨ k.server.1∈l) := fun hyr => by
      have := (hnone _ hyr).1
      omega
    have hcy:=hcount k.server.1
    rw [(hkeep _ hyr).2] at hg
    obtain ⟨hgc,hfc⟩:=hsv hg (by omega)
    have hcr : ¬ (k.client.1=x ∨ k.client.1∈l) := fun hcr => by
      have := (hnone _ hcr).2.1
      omega
    rw [(hkeep _ hcr).2,hfiles]
    exact ⟨hgc,hfc⟩
  · by_cases hyr : y=x ∨ y∈l
    · exact ⟨(hf.reset y hyr).2.1,hgone y hyr⟩
    obtain ⟨hk,hg⟩:=hkeep y hyr
    rw [hk.ref] at hy
    rw [hk.listenq,hf.ends,hg]
    exact hfree y (fun h => hyr (.inl h)) hy

lemma queued_modify_same (t : Table) (x : SockId) (hf : (f (t.sock x)).listenq=(t.sock x).listenq)
    (y : SockId) : (t.modify x f).queued y=t.queued y := by
  have := queued_modify t x f y
  rw [hf] at this
  omega

lemma Core.modify (hc : Core hand t) (hq : (f (t.sock x)).listenq=(t.sock x).listenq)
    (hslot : SlotOk (t.filesOf x) (t.queued x) (hand'.count x) (f (t.sock x)))
    (hhand : ∀ y,y≠x → hand'.count y=hand.count y)
    (hends : (x,t.gen x)∈t.ends → (f (t.sock x)).tcp.closePending=false) : Core hand' (t.modify x f) := by
  refine ⟨fun y => ?_,hc.gen,hc.endsLe,fun y hy => ?_,fun l hl => ?_⟩
  · rw [queued_modify_same t x hq]
    by_cases hyx : y=x
    · subst hyx
      rw [modify_self]
      exact hslot
    · rw [modify_ne t hyx,hhand y hyx]
      exact hc.slot y
  · by_cases hyx : y=x
    · subst hyx
      rw [modify_self]
      exact hends hy
    · rw [modify_ne t hyx]
      exact hc.ends y hy
  · exact (hc.link l hl).mono rfl (fun y => (queued_modify_same t x hq y).le) fun y => le_rfl

lemma FreeAt.modify (h : FreeAt t y) (hy : y≠x) (f : Socket → Socket) : FreeAt (t.modify x f) y := by
  unfold FreeAt at h ⊢
  rw [modify_ne t hy]
  exact h

lemma Inv.modify (h : Inv hand t) (hq : (f (t.sock x)).listenq=(t.sock x).listenq)
    (hslot : SlotOk (t.filesOf x) (t.queued x) (hand'.count x) (f (t.sock x)))
    (hhand : ∀ y,y≠x → hand'.count y=hand.count y)
    (hends : (x,t.gen x)∈t.ends → (f (t.sock x)).tcp.closePending=false)
    (href : (f (t.sock x)).ref≠0) : Inv hand' (t.modify x f) := by
  refine ⟨h.toCore.modify hq hslot hhand hends,fun y => ?_⟩
  by_cases hyx : y=x
  · subst hyx
    intro h0
    rw [modify_self] at h0
    exact absurd h0 href
  · exact (h.free y).modify hyx f

lemma count_cons_of_ne' (hy : y≠x) : (x::hand).count y=hand.count y := count_cons_of_ne (Ne.symm hy)

lemma Inv.socketDeref (h : Inv (x::hand) t) : Inv hand (socketDeref t x) := by
  have hs:=h.slot x
  rw [count_cons_self] at hs
  have hr:=hs.ref
  have hpos : 0<(t.sock x).ref := by omega
  unfold Sockets.socketDeref
  dsimp only
  have hcore : Core hand (t.modify x fun s => {s with ref := s.ref-1}) := by
    refine h.toCore.modify rfl ⟨?_,hs.once,fun hq => ?_,hs.one,hs.closing⟩
      (fun y hy => (count_cons_of_ne' hy).symm) (h.ends x)
    · show (t.sock x).ref-1=t.filesOf x+t.queued x+pending (t.sock x)+hand.count x
      omega
    · have := (hs.child hq).2.2.2.2
      omega
  have hfree:=fun y (hy : y≠x) => (h.free y).modify hy fun s => {s with ref := s.ref-1}
  split_ifs with hzero
  · exact hcore.socketFree hfree hzero
  refine ⟨hcore,fun y hy => ?_⟩
  by_cases hyx : y=x
  · subst hyx
    exact absurd hy hzero
  · exact hfree y hyx hy

structure Fresh (t : Table) (c : SockId) : Prop where
  ref : (t.sock c).ref=1
  listenq : (t.sock c).listenq=[]
  state : (t.sock c).state≠.listen
  ends : (c,t.gen c)∉t.ends

lemma SameRefs.fresh {c : SockId} (h : SameRefs t u) (hf : Fresh t c) : Fresh u c :=
  ⟨(h.sock c).ref.trans hf.ref,(h.sock c).listenq.trans hf.listenq,hf.state ∘ (h.sock c).listen,
    by rw [h.gen,h.ends]; exact hf.ends⟩

lemma Core.last (hc : Core (x::hand) t) (hx : (t.sock x).ref=1) :
    t.filesOf x=0 ∧ t.queued x=0 ∧ (t.sock x).tcp.closePending=false ∧ hand.count x=0 := by
  have hs:=hc.slot x
  have hr:=hs.ref
  rw [count_cons_self,hx] at hr
  refine ⟨by omega,by omega,?_,by omega⟩
  rcases hp : (t.sock x).tcp.closePending with _ | _
  · rfl
  · rw [pending,hp] at hr
    simp at hr
    omega

lemma Core.named (hc : Core hand t) (hx : 0<t.filesOf x) :
    ((t.sock x).ref≠0 ∧ (t.sock x).tcp.closePending=false) ∧ t.queued x=0 := by
  have hs:=hc.slot x
  have hr:=hs.ref
  refine ⟨⟨by omega,?_⟩,?_⟩
  · rcases hp : (t.sock x).tcp.closePending with _ | _
    · rfl
    · have := hs.closing hp
      omega
  · by_contra hq
    have := (hs.child (pos_of_ne_zero hq)).1
    omega

lemma Inv.perm (h : Inv hand t) (hp : hand.Perm hand') : Inv hand' t := by
  refine ⟨⟨fun y => ?_,h.gen,h.endsLe,h.ends,h.link⟩,h.free⟩
  rw [← hp.count_eq]
  exact h.slot y

lemma Inv.socketAlloc (h : Inv hand t) (ha : socketAlloc t=some (x,u)) :
    Inv (x::hand) u ∧ Fresh u x ∧ (t.sock x).ref=0 ∧ u.files=t.files ∧ ∀ y,y≠x → u.sock y=t.sock y := by
  unfold Sockets.socketAlloc at ha
  split at ha
  · cases ha
  rename_i i hi
  simp only [Option.some.injEq,Prod.mk.injEq] at ha
  obtain ⟨rfl,rfl⟩:=ha
  have h0 : (t.sock i).ref=0 := by simpa using List.find?_some hi
  have hr:=(h.slot i).ref
  have hlq : (t.sock i).listenq=[] := (h.free i h0).1
  have hother : ∀ y,y≠i → (t.claim i).sock y=t.sock y := by
    intro y hy
    exact (modify_ne _ hy _).trans (modify_ne _ hy _)
  have hself : (t.claim i).sock i = resetSocket {t.sock i with ref := 1} := by
    simp [Table.reset,Table.modify]
  have hqueued : ∀ y,(t.claim i).queued y=t.queued y := by
    intro y
    show ((t.modify i fun s => {s with ref := 1}).modify i resetSocket).queued y=t.queued y
    rw [queued_modify_same _ i,queued_modify_same t i]
    · rfl
    · rw [modify_self]
      exact hlq.symm
  have hnew : (i,t.gen i+1)∉t.ends := fun hm => by
    have := h.endsLe _ hm
    dsimp only at this
    omega
  have hgen : ∀ y,y≠i → (t.claim i).gen y=t.gen y := fun y hy => update_of_ne hy ..
  refine ⟨⟨⟨fun y => ?_,fun f hf href => ?_,fun e he => ?_,fun y hy => ?_,fun l hl => ?_⟩,
    fun y hy => ?_⟩,⟨?_,?_,?_,?_⟩,h0,rfl,hother⟩
  · rw [hqueued]
    by_cases hyi : y=i
    · subst hyi
      rw [hself,count_cons_self]
      show SlotOk (t.filesOf y) _ _ _
      rw [show t.filesOf y=0 by omega,show t.queued y=0 by omega,show hand.count y=0 by omega]
      exact ⟨rfl,zero_le _,fun h => absurd h (lt_irrefl 0),zero_le _,fun _ => rfl⟩
    · rw [hother y hyi,count_cons_of_ne' hyi]
      exact h.slot y
  · have hne : f.sock≠i := by
      rintro rfl
      have := filesOf_pos (t := t) hf href
      omega
    exact (h.gen f hf href).trans (update_of_ne hne ..).symm
  · have hle:=h.endsLe e he
    show e.2≤update t.gen i (t.gen i+1) e.1
    by_cases hei : e.1=i
    · rw [hei,update_self]
      rw [hei] at hle
      omega
    · rw [update_of_ne hei]
      exact hle
  · by_cases hyi : y=i
    · subst hyi
      rw [hself]
      rfl
    · rw [hother y hyi]
      refine h.ends y ?_
      rwa [hgen y hyi] at hy
  · obtain ⟨hcl,hsv⟩:=h.link l hl
    refine ⟨?_,?_⟩
    · rw [hqueued]
      intro hg
      by_cases hli : l.client.1=i
      · rw [hli]
        omega
      · rw [hgen _ hli] at hg
        exact hcl hg
    rw [hqueued]
    intro hg hpos
    have hsi : l.server.1≠i := fun hsi => by
      rw [hsi] at hpos
      omega
    rw [hgen _ hsi] at hg
    obtain ⟨hgc,hfc⟩:=hsv hg hpos
    have hci : l.client.1≠i := fun hci => by
      rw [hci] at hfc
      omega
    rw [hgen _ hci]
    exact ⟨hgc,hfc⟩
  · by_cases hyi : y=i
    · subst hyi
      rw [hself] at hy
      cases hy
    · rw [hother y hyi] at hy ⊢
      rw [hgen y hyi]
      exact h.free y hy
  · rw [hself]
    rfl
  · rw [hself]
    rfl
  · rw [hself]
    exact SockState.noConfusion
  · rw [show (t.claim i).gen i=t.gen i+1 from
      update_self ..]
    exact hnew

end Auxv6.Net.Sockets

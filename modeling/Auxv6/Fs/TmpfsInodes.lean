import Auxv6.Fs.TmpfsTree

/-!
# Inodes and quota of a tmpfs

`refs` lists the references of open files, working directories and the running call.
-/

namespace Auxv6.Fs.Tmpfs

open Function List Finset Nat

def charge (nd : Node) : ℕ := if nd.type=.file ∨ nd.type=.symlink then nd.size else 0
def sizes (nd : Node) : ℕ × ℕ := (charge nd,if nd.type=.dir then nd.size else 0)

/-- The cached inode `c` of number `i` is that of node `p`. -/
abbrev Mount.Shows (fs : Mount) (p : NodeId) (i : ℕ) (c : Inode) : Prop :=
  c.node=some p ∧ (fs.node p).inum=i ∧ c.valid=true ∧ c.nlink=(fs.node p).nlink ∧ c.type=(fs.node p).type

structure CacheInv (refs : List ℕ) (fs : Mount) : Prop where
  next : fs.nextInum<2^32
  inums : ∀ p∈fs.live,(fs.node p).inum<fs.nextInum
  inj : ∀ p∈fs.live,∀ q∈fs.live,(fs.node p).inum=(fs.node q).inum → p=q
  cached : ∀ i,0<(fs.cache i).ref → ∃ p∈fs.live,fs.Shows p i (fs.cache i)
  count : ∀ i,refs.count i≤(fs.cache i).ref
  unlinked : ∀ p∈fs.live,(fs.node p).nlink=0 →
    (fs.cache (fs.node p).inum).ref=refs.count (fs.node p).inum ∧ 0<refs.count (fs.node p).inum

structure QuotaInv (fs : Mount) : Prop where
  used : fs.usedBytes = ∑ p∈fs.live,charge (fs.node p)
  quota : fs.usedBytes≤fs.maxBytes
  max : fs.maxBytes<2^32
  flat : ∀ p∈fs.live,(sizes (fs.node p)).2=0

structure Inv (moving : List NodeId) (refs : List ℕ) (fs : Mount) : Prop where
  tree : TreeInv moving fs
  cache : CacheInv refs fs
  quota : QuotaInv fs

variable {moving : List NodeId} {refs : List ℕ} {fs fs' : Mount} {p d : NodeId} {i : ℕ}

structure CacheSame (nd nd' : Node) : Prop where
  inum : nd'.inum=nd.inum
  type : nd'.type=nd.type
  nlink : nd'.nlink=nd.nlink

lemma CacheSame.refl (nd : Node) : CacheSame nd nd := ⟨rfl,rfl,rfl⟩

lemma CacheInv.congr (h : CacheInv refs fs) (hlive : fs'.live=fs.live)
    (hcache : fs'.cache=fs.cache) (hnext : fs.nextInum≤fs'.nextInum) (hlt : fs'.nextInum<2^32)
    (hnode : ∀ p∈fs.live,CacheSame (fs.node p) (fs'.node p)) : CacheInv refs fs' := by
  refine ⟨hlt,fun p hp => ?_,fun p hp q hq => ?_,fun i hi => ?_,?_,fun p hp => ?_⟩
  · rw [hlive] at hp
    rw [(hnode p hp).inum]
    exact lt_of_lt_of_le (h.inums p hp) hnext
  · rw [hlive] at hp hq
    rw [(hnode p hp).inum,(hnode q hq).inum]
    exact h.inj p hp q hq
  · rw [hcache] at hi ⊢
    obtain ⟨p,hp,hrest⟩:=h.cached i hi
    refine ⟨p,hlive ▸ hp,?_⟩
    rw [Mount.Shows,(hnode p hp).inum,(hnode p hp).nlink,(hnode p hp).type]
    exact hrest
  · rw [hcache]
    exact h.count
  · rw [hlive] at hp
    rw [(hnode p hp).nlink,(hnode p hp).inum,hcache]
    exact h.unlinked p hp

lemma QuotaInv.congr (h : QuotaInv fs) (hlive : fs'.live=fs.live)
    (hused : fs'.usedBytes=fs.usedBytes) (hmax : fs'.maxBytes=fs.maxBytes)
    (hnode : ∀ p∈fs.live,sizes (fs'.node p)=sizes (fs.node p)) : QuotaInv fs' := by
  refine ⟨?_,?_,?_,fun p hp => ?_⟩
  · rw [hused,h.used,hlive]
    exact (sum_congr rfl fun p hp => congrArg Prod.fst (hnode p hp)).symm
  · rw [hused,hmax]
    exact h.quota
  · rw [hmax]
    exact h.max
  · rw [hlive] at hp
    rw [hnode p hp]
    exact h.flat p hp

lemma Inv.lists {moving' : List NodeId} {f : Node → Node} (h : Inv moving refs fs)
    (ht : TreeInv moving' (fs.modify d f))
    (hf : CacheSame (fs.node d) (f (fs.node d)) ∧ (f (fs.node d)).size=(fs.node d).size) :
    Inv moving' refs (fs.modify d f) := by
  refine ⟨ht,h.cache.congr rfl rfl le_rfl h.cache.next fun p _ => ?_,h.quota.congr rfl rfl rfl fun p _ => ?_⟩
  · exact ⟨modify_field fs Node.inum hf.1.inum p,modify_field fs Node.type hf.1.type p,
      modify_field fs Node.nlink hf.1.nlink p⟩
  · refine modify_field fs sizes ?_ p
    unfold sizes charge
    rw [hf.1.type,hf.2]

lemma sum_charge_modify (fs : Mount) (hp : p∈fs.live) (f : Node → Node) :
    ∑ q∈fs.live,charge ((fs.modify p f).node q)+charge (fs.node p) =
      ∑ q∈fs.live,charge (fs.node q)+charge (f (fs.node p)) := by
  rw [← add_sum_erase fs.live _ hp,← add_sum_erase fs.live _ hp,modify_self]
  have hrest : ∑ q∈fs.live.erase p,charge ((fs.modify p f).node q) = ∑ q∈fs.live.erase p,charge (fs.node q) :=
    sum_congr rfl fun q hq => by rw [modify_ne fs (ne_of_mem_erase hq)]
  omega

lemma Inv.contents {f : Node → Node} {used : ℕ} (h : Inv moving refs fs) (hp : p∈fs.live)
    (ht : TreeSame (fs.node p) (f (fs.node p))) (hi : (f (fs.node p)).inum=(fs.node p).inum)
    (hused : used+charge (fs.node p)=fs.usedBytes+charge (f (fs.node p)))
    (hflat : (sizes (f (fs.node p))).2=(sizes (fs.node p)).2) (hmax : used≤fs.maxBytes) :
    Inv moving refs {fs.modify p f with usedBytes := used} := by
  refine ⟨h.tree.congr rfl rfl fun q _ => ?_,h.cache.congr rfl rfl le_rfl h.cache.next fun q _ => ?_,
    ⟨?_,hmax,h.quota.max,fun q hq => (modify_field fs (fun nd => (sizes nd).2) hflat q).trans (h.quota.flat q hq)⟩⟩
  · exact ⟨modify_field fs Node.type ht.type q,modify_field fs Node.nlink ht.nlink q,
      modify_field fs Node.parent ht.parent q,modify_field fs Node.children ht.children q,
      modify_field fs Node.hash ht.hash q⟩
  · exact ⟨modify_field fs Node.inum hi q,modify_field fs Node.type ht.type q,modify_field fs Node.nlink ht.nlink q⟩
  have hsum:=sum_charge_modify fs hp f
  have hu:=h.quota.used
  show used = ∑ q∈fs.live,charge ((fs.modify p f).node q)
  omega

variable {f : Inode → Inode}

lemma Inv.setCache {refs' : List ℕ} (h : Inv moving refs fs)
    (hc : CacheInv refs' (fs.modifyInode i f)) : Inv moving refs' (fs.modifyInode i f) :=
  ⟨h.tree.congr rfl rfl fun _ _ => TreeSame.refl _,hc,h.quota.congr rfl rfl rfl fun _ _ => rfl⟩
@[simp] lemma modifyInode_self (fs : Mount) (i : ℕ) (f : Inode → Inode) :
    (fs.modifyInode i f).cache i=f (fs.cache i) := update_self ..
lemma modifyInode_ne (fs : Mount) {i j : ℕ} (h : j≠i) (f : Inode → Inode) :
    (fs.modifyInode i f).cache j=fs.cache j := update_of_ne h ..

section
variable (h : Inv moving refs fs)
include h

lemma Inv.node_of_mem (hi : i∈refs) : ∃ p∈fs.live,fs.Shows p i (fs.cache i) :=
  h.cache.cached i (lt_of_lt_of_le (count_pos_iff.mpr hi) (h.cache.count i))

lemma Inv.addRef (hp : p∈fs.live) (hi : (fs.node p).inum=i) (href : (f (fs.cache i)).ref=(fs.cache i).ref+1)
    (hf : fs.Shows p i (f (fs.cache i))) : Inv moving (i::refs) (fs.modifyInode i f) := by
  refine h.setCache ⟨h.cache.next,h.cache.inums,h.cache.inj,fun j hj => ?_,fun j => ?_,fun q hq h0 => ?_⟩
  · by_cases hji : j=i
    · subst hji
      rw [modifyInode_self]
      exact ⟨p,hp,hf⟩
    · rw [modifyInode_ne fs hji] at hj ⊢
      exact h.cache.cached j hj
  · have hr:=h.cache.count j
    by_cases hji : j=i
    · subst hji
      rw [modifyInode_self,count_cons_self,href]
      exact Nat.add_le_add_right hr 1
    · rw [modifyInode_ne fs hji,count_cons_of_ne (Ne.symm hji)]
      exact hr
  · have hun:=h.cache.unlinked q hq h0
    change ((fs.modifyInode i f).cache (fs.node q).inum).ref=count (fs.node q).inum (i::refs) ∧
      0<count (fs.node q).inum (i::refs)
    by_cases hqi : (fs.node q).inum=i
    · rw [hqi] at hun ⊢
      rw [modifyInode_self,count_cons_self,href,hun.1]
      exact ⟨rfl,Nat.succ_pos _⟩
    · rw [modifyInode_ne fs hqi,count_cons_of_ne (Ne.symm hqi)]
      exact hun

lemma Inv.makeInode (hp : p∈fs.live) : Inv moving ((fs.node p).inum::refs) (makeInode fs p) := by
  unfold Tmpfs.makeInode
  exact h.addRef hp rfl rfl ⟨rfl,rfl,rfl,rfl,rfl⟩
lemma Inv.idup (hi : i∈refs) : Inv moving (i::refs) (fs.modifyInode i fun ip => {ip with ref := ip.ref+1}) := by
  obtain ⟨p,hp,hrest⟩:=h.node_of_mem hi
  exact h.addRef hp hrest.2.1 rfl hrest

end

lemma Inv.forget (h : Inv moving (i::refs) fs)
    (hp : ∀ p∈fs.live,(fs.node p).inum=i → (fs.node p).nlink≠0) : Inv moving refs fs := by
  refine ⟨h.tree,⟨h.cache.next,h.cache.inums,h.cache.inj,h.cache.cached,fun j => ?_,fun q hq h0 => ?_⟩,h.quota⟩
  · have hr:=h.cache.count j
    rw [count_cons] at hr
    omega
  · have hq':=h.cache.unlinked q hq h0
    have hne : i≠(fs.node q).inum := fun heq => hp q hq heq.symm h0
    rwa [count_cons_of_ne hne] at hq'

lemma iput_drop (hnode : (fs.cache i).node=some p) (hvalid : (fs.cache i).valid=true)
    (h0 : (fs.cache i).nlink=0) (href : (fs.cache i).ref=1) :
    ∃ used c,iput fs i={fs with usedBytes := used,live := fs.live.erase p,cache := update fs.cache i c} ∧
      c.ref=0 ∧ (charge (fs.node p)≤fs.usedBytes → used+charge (fs.node p)=fs.usedBytes) := by
  unfold iput drop
  simp only [hvalid,h0,href,hnode,and_self,if_true]
  unfold freeNode Mount.modifyInode charge
  by_cases hty : (fs.node p).type=.file ∨ (fs.node p).type=.symlink
  · by_cases hsize : (fs.node p).size > 0 ∧ fs.usedBytes ≥ (fs.node p).size
    · refine ⟨fs.usedBytes-(fs.node p).size,⟨0,false,(fs.cache i).type,0,(fs.cache i).size,none⟩,?_,rfl,?_⟩
      · simp [hty,hsize,href,h0]
      · rw [if_pos hty]
        omega
    refine ⟨fs.usedBytes,⟨0,false,(fs.cache i).type,0,(fs.cache i).size,none⟩,?_,rfl,?_⟩
    · rw [if_neg (fun h => hsize h.2)]
      simp [href,h0]
    · rw [if_pos hty]
      omega
  · refine ⟨fs.usedBytes,⟨0,false,(fs.cache i).type,0,(fs.cache i).size,none⟩,?_,rfl,?_⟩
    · rw [if_neg (fun h => hty h.1)]
      simp [href,h0]
    · rw [if_neg hty]
      exact fun _ => rfl

lemma Inv.iput_drop (h : Inv moving (i::refs) fs) (hp : p∈fs.live) (hnode : (fs.cache i).node=some p)
    (hinum : (fs.node p).inum=i) (hvalid : (fs.cache i).valid=true) (hnlink : (fs.cache i).nlink=0)
    (h0 : (fs.node p).nlink=0) (href : (fs.cache i).ref=1) : Inv moving refs (iput fs i) := by
  obtain ⟨hcount,-⟩:=h.cache.unlinked p hp h0
  rw [hinum,href,count_cons_self] at hcount
  obtain ⟨used,c,heq,hc,hused⟩:=Tmpfs.iput_drop hnode hvalid hnlink href
  have hsum:=add_sum_erase fs.live (fun q => charge (fs.node q)) hp
  have hquota:=h.quota.used
  have hle:=h.quota.quota
  have hin : ∀ {q},q∈fs.live.erase p → q∈fs.live := mem_of_mem_erase
  have hne : ∀ {q},q∈fs.live.erase p → (fs.node q).inum≠i := fun hq heq' =>
    ne_of_mem_erase hq (h.cache.inj _ (hin hq) p hp (heq'.trans hinum.symm))
  have hother : ∀ {j},j≠i → update fs.cache i c j=fs.cache j := fun hj => update_of_ne hj ..
  rw [heq]
  refine ⟨(h.tree.free hp h0).congr rfl rfl fun _ _ => TreeSame.refl _,
    ⟨h.cache.next,fun q hq => h.cache.inums q (hin hq),
      fun q hq r hr => h.cache.inj q (hin hq) r (hin hr),fun j hj => ?_,fun j => ?_,fun q hq hq0 => ?_⟩,
    ⟨?_,?_,h.quota.max,fun q hq => h.quota.flat q (hin hq)⟩⟩
  · dsimp only at hj ⊢
    by_cases hji : j=i
    · subst hji
      rw [update_self,hc] at hj
      cases hj
    rw [hother hji] at hj ⊢
    obtain ⟨q,hq,hrest⟩:=h.cache.cached j hj
    refine ⟨q,mem_erase.mpr ⟨?_,hq⟩,hrest⟩
    rintro rfl
    exact hji (hrest.2.1.symm.trans hinum)
  · dsimp only
    have hr:=h.cache.count j
    by_cases hji : j=i
    · subst hji
      omega
    · rw [count_cons_of_ne (Ne.symm hji)] at hr
      rw [hother hji]
      exact hr
  · have hun:=h.cache.unlinked q (hin hq) hq0
    rw [count_cons_of_ne (Ne.symm (hne hq))] at hun
    dsimp only
    rw [hother (hne hq)]
    exact hun
  · dsimp only
    omega
  · dsimp only
    omega

lemma Inv.iput (h : Inv moving (i::refs) fs) : Inv moving refs (iput fs i) := by
  obtain ⟨p,hp,hnode,hinum,hvalid,hnlink,htype⟩:=h.node_of_mem (mem_cons_self ..)
  by_cases hlast : (fs.cache i).nlink=0 ∧ (fs.cache i).ref=1
  · exact h.iput_drop hp hnode hinum hvalid hlast.1 (hnlink ▸ hlast.1) hlast.2
  unfold Tmpfs.iput
  dsimp only
  rw [if_neg (fun hc => hlast hc.2)]
  have hcount:=h.cache.count i
  rw [count_cons_self] at hcount
  refine h.setCache ⟨h.cache.next,h.cache.inums,h.cache.inj,fun j hj => ?_,fun j => ?_,fun q hq h0 => ?_⟩
  · by_cases hji : j=i
    · subst hji
      rw [modifyInode_self]
      exact ⟨p,hp,hnode,hinum,hvalid,hnlink,htype⟩
    · rw [modifyInode_ne fs hji] at hj ⊢
      exact h.cache.cached j hj
  · have hr:=h.cache.count j
    by_cases hji : j=i
    · subst hji
      rw [modifyInode_self]
      exact le_sub_one_of_lt hcount
    · rw [modifyInode_ne fs hji]
      rwa [count_cons_of_ne (Ne.symm hji)] at hr
  have hun:=h.cache.unlinked q hq h0
  change ((fs.modifyInode i _).cache (fs.node q).inum).ref=count (fs.node q).inum refs ∧ 0<count (fs.node q).inum refs
  by_cases hqi : (fs.node q).inum=i
  · have hqp : q=p := h.cache.inj q hq p hp (hqi.trans hinum.symm)
    rw [hqi,count_cons_self] at hun
    rw [hqi,modifyInode_self]
    have hne : (fs.cache i).ref≠1 := fun h1 => hlast ⟨by rw [hnlink,← hqp]; exact h0,h1⟩
    dsimp only
    omega
  · rw [count_cons_of_ne (Ne.symm hqi)] at hun
    rw [modifyInode_ne fs hqi]
    exact hun

lemma Inv.add {name : Name} {page : Bool} (h : Inv (p::moving) refs fs) (hd : fs.Linked d)
    (hpar : (fs.node p).type=.dir → fs.parent p=d)
    (ha : direntAdd fs d name p page=some fs') : Inv moving refs fs' := by
  unfold direntAdd at ha
  split_ifs at ha with hlen hsome hpage
  cases ha
  have hnew : direntLookup (fs.node d) name=none := by simpa using hsome
  exact h.lists (h.tree.add hd hnew hpar) ⟨⟨rfl,rfl,rfl⟩,rfl⟩

lemma Inv.remove {name : Name} (h : Inv moving refs fs) (hd : d∈fs.live)
    (hr : direntRemove fs d name=some (p,fs')) : Inv (p::moving) refs fs' := by
  unfold direntRemove at hr
  split at hr
  · cases hr
  split at hr
  · cases hr
  · rename_i de hfind
    cases hr
    exact h.lists (h.tree.remove hd hfind) ⟨⟨rfl,rfl,rfl⟩,rfl⟩

lemma Inv.unlinkNode (h : Inv (p::moving) refs fs)
    (hdir : (fs.node p).type=.dir → (fs.node p).children=[] ∧ moving=[])
    (hknown : (fs.node p).nlink=1 → (fs.cache (fs.node p).inum).ref=refs.count (fs.node p).inum) :
    Inv moving refs (unlinkNode fs p) := by
  have hp:=h.tree.live p (mem_cons_self ..)
  have htree:=h.tree.unlink hdir
  have hinum : ∀ q,_ := modify_field fs Node.inum (d := p) (f := Node.decLink) rfl
  have htype : ∀ q,_ := modify_field fs Node.type (d := p) (f := Node.decLink) rfl
  have hcharge : ∀ q,_ := modify_field fs sizes (d := p) (f := Node.decLink) rfl
  have hlp:=h.tree.links p hp
  have hrange:=h.tree.range p hp
  have hnlink : ((fs.modify p Node.decLink).node p).nlink = (fs.node p).nlink-1 := by
    rw [modify_self]
    exact short_of_range (by omega) (by omega)
  have hother : ∀ q,q≠p → (fs.modify p Node.decLink).node q = fs.node q := fun q hq => modify_ne fs hq _
  unfold Tmpfs.unlinkNode
  generalize hu : fs.modify p Node.decLink=u at htree hinum htype hcharge hnlink hother
  have hlive : u.live=fs.live := by rw [← hu]; rfl
  have hcache : u.cache=fs.cache := by rw [← hu]; rfl
  have hnext : u.nextInum=fs.nextInum := by rw [← hu]; rfl
  refine Inv.iput ⟨htree.congr rfl rfl fun _ _ => TreeSame.refl _,?_,?_⟩
  · unfold Tmpfs.makeInode
    refine ⟨?_,fun q hq => ?_,fun q hq r hr => ?_,fun j hj => ?_,fun j => ?_,fun q hq h0 => ?_⟩
    · show u.nextInum<2^32
      rw [hnext]
      exact h.cache.next
    · change (u.node q).inum<u.nextInum
      rw [hinum,hnext]
      exact h.cache.inums q (hlive ▸ hq)
    · change (u.node q).inum=(u.node r).inum → q=r
      rw [hinum,hinum]
      exact h.cache.inj q (hlive ▸ hq) r (hlive ▸ hr)
    · by_cases hji : j=(u.node p).inum
      · subst hji
        rw [modifyInode_self]
        exact ⟨p,hlive ▸ hp,rfl,rfl,rfl,rfl,rfl⟩
      rw [modifyInode_ne u hji,hcache] at hj ⊢
      obtain ⟨q,hq,hrest⟩:=h.cache.cached j hj
      have hqp : q≠p := fun heq => hji (by rw [hinum,← heq]; exact hrest.2.1.symm)
      refine ⟨q,hlive ▸ hq,?_⟩
      change (fs.cache j).node=some q ∧ (u.node q).inum=j ∧ _ ∧ _ = (u.node q).nlink ∧ _ = (u.node q).type
      rw [hother q hqp]
      exact hrest
    · have hr:=h.cache.count j
      by_cases hji : j=(u.node p).inum
      · subst hji
        rw [modifyInode_self,count_cons_self,hcache]
        exact Nat.add_le_add_right hr 1
      · rw [modifyInode_ne u hji,count_cons_of_ne (Ne.symm hji),hcache]
        exact hr
    · change (u.node q).nlink=0 at h0
      change ((u.modifyInode _ _).cache (u.node q).inum).ref = count (u.node q).inum ((u.node p).inum::refs) ∧
        0<count (u.node q).inum ((u.node p).inum::refs)
      by_cases hqp : q=p
      · subst hqp
        have hk:=hknown (by omega)
        rw [modifyInode_self,count_cons_self,hcache,hinum,hk]
        exact ⟨rfl,Nat.succ_pos _⟩
      have hne : (u.node p).inum≠(u.node q).inum := by
        rw [hinum,hinum]
        exact fun heq => hqp (h.cache.inj q (hlive ▸ hq) p hp heq.symm)
      rw [modifyInode_ne u (Ne.symm hne),count_cons_of_ne hne,hcache]
      rw [hother q hqp] at h0 ⊢
      exact h.cache.unlinked q (hlive ▸ hq) h0
  · refine h.quota.congr hlive ?_ ?_ fun q _ => hcharge q
    · rw [← hu]
      rfl
    · rw [← hu]
      rfl

lemma Inv.alloc {type : FileType} (h : Inv moving refs fs) (hd : fs.Linked d) (hp : p∉fs.live)
    (hnext : fs.nextInum+1<2^32) (ha : allocNode fs type d (some p)=some (p,fs')) : Inv (p::moving) refs fs' := by
  have htree:=h.tree.alloc hd hp ha
  simp only [allocNode,Option.some.injEq,Prod.mk.injEq,true_and] at ha
  have hword : word (fs.nextInum+1)=fs.nextInum+1 := Nat.mod_eq_of_lt hnext
  have hne : ∀ {q},q∈fs.live → q≠p := fun hq heq => hp (heq ▸ hq)
  have hself : ∀ nd : Node,update fs.node p nd p=nd := fun nd => update_self ..
  have hother : ∀ {q} (nd : Node),q∈fs.live → update fs.node p nd q=fs.node q := fun nd hq => update_of_ne (hne hq) ..
  subst ha
  refine ⟨htree,⟨?_,fun q hq => ?_,fun q hq r hr => ?_,fun j hj => ?_,h.cache.count,fun q hq h0 => ?_⟩,
    ⟨?_,h.quota.quota,h.quota.max,fun q hq => ?_⟩⟩
  · dsimp only
    rw [hword]
    exact hnext
  · dsimp only
    rw [hword]
    rcases mem_insert.mp hq with rfl | hq
    · rw [hself]
      exact Nat.lt_succ_self _
    · rw [hother _ hq]
      exact Nat.lt_succ_of_lt (h.cache.inums q hq)
  · dsimp only
    rcases mem_insert.mp hq with rfl | hq
    · rcases mem_insert.mp hr with rfl | hr
      · exact fun _ => rfl
      · rw [hself,hother _ hr]
        exact fun heq => absurd heq (Nat.ne_of_gt (h.cache.inums r hr))
    rw [hother _ hq]
    rcases mem_insert.mp hr with hrp | hr
    · rw [hrp,hself]
      exact fun heq => absurd heq (Nat.ne_of_lt (h.cache.inums q hq))
    · rw [hother _ hr]
      exact h.cache.inj q hq r hr
  · obtain ⟨q,hq,hrest⟩:=h.cache.cached j hj
    refine ⟨q,mem_insert_of_mem hq,?_⟩
    dsimp only [Mount.Shows]
    rw [hother _ hq]
    exact hrest
  · dsimp only at h0 ⊢
    rcases mem_insert.mp hq with rfl | hq
    · rw [hself] at h0
      cases h0
    · rw [hother _ hq] at h0 ⊢
      exact h.cache.unlinked q hq h0
  · dsimp only
    rw [sum_insert hp,hself]
    have hrest : ∑ q∈fs.live,charge (update fs.node p
        ⟨fs.nextInum,type,1,0,d,[],fun _ => [],[],[]⟩ q) = ∑ q∈fs.live,charge (fs.node q) :=
      sum_congr rfl fun q hq => by rw [hother _ hq]
    rw [hrest,← h.quota.used]
    unfold charge
    simp
  · dsimp only
    rcases mem_insert.mp hq with rfl | hq
    · rw [hself]
      exact ite_self _
    · rw [hother _ hq]
      exact h.quota.flat q hq

end Auxv6.Fs.Tmpfs

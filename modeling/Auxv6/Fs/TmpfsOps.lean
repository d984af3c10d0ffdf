import Auxv6.Fs.TmpfsInodes

/-!
# The vnode operations of tmpfs keep the invariant

`Named` nodes have a name, so no `iput` frees them.
-/

namespace Auxv6.Fs.Tmpfs
open Lib.ParentTree List Option Finset Nat

variable {moving : List NodeId} {refs : List ℕ} {fs fs' : Mount} {p d : NodeId} {i dp : ℕ} {name : Name}

def Named (fs : Mount) (p : NodeId) : Prop := p∈fs.live ∧ (fs.node p).nlink≠0

lemma Named.linked (h : Named fs p) (ht : (fs.node p).type=.dir) : fs.Linked p := ⟨h.1,ht,h.2⟩

variable {de : Dirent}

lemma entries_pos (hd : d∈fs.live) (hde : de∈(fs.node d).children) : 0<fs.entries de.node :=
  lt_of_lt_of_le (countP_pos_iff.mpr ⟨de,hde,by simp⟩)
    (single_le_sum (f := fun d => (fs.node d).children.countP fun e => e.node=de.node) (fun _ _ => zero_le _) hd)

lemma TreeInv.entry_named (h : TreeInv moving fs) (hd : d∈fs.live)
    (hde : de∈(fs.node d).children) : Named fs de.node := by
  have hlive:=h.named d hd de hde
  have hpos:=entries_pos hd hde
  have hl:=h.links de.node hlive
  exact ⟨hlive,by omega⟩

lemma TreeInv.lookup_named (h : TreeInv moving fs) (hd : d∈fs.live)
    (hl : direntLookup (fs.node d) name=some de) : Named fs de.node :=
  h.entry_named hd ((h.dirs d hd).lookup_mem hl).1
lemma TreeInv.parent_named (h : TreeInv moving fs) (hd : fs.Linked d) : fs.Linked (fs.parent d) := by
  by_cases hroot : d=fs.root
  · rw [hroot,h.top]
    exact h.root
  · exact h.parents d hd hroot

lemma TreeInv.parent_eq (h : TreeInv [] fs) (hd : d∈fs.live) (hde : de∈(fs.node d).children)
    (ht : (fs.node de.node).type=.dir) : fs.parent de.node=d := by
  have hn:=h.entry_named hd hde
  have honce:=h.once de.node hn.1 ht
  have hpos:=entries_pos hd hde
  have hlinks:=h.links de.node hn.1
  have hroot : de.node≠fs.root := fun heq => by
    rw [if_pos heq] at hlinks
    omega
  by_contra hne
  obtain ⟨e,he,hnode⟩:=h.holds de.node (hn.linked ht) hroot not_mem_nil
  have hpar:=(h.parents de.node (hn.linked ht) hroot).1
  have hc1 : 0<(fs.node d).children.countP fun x => x.node=de.node := countP_pos_iff.mpr ⟨de,hde,by simp⟩
  have hc2 : 0<(fs.node (fs.parent de.node)).children.countP fun x => x.node=de.node :=
    countP_pos_iff.mpr ⟨e,he,by simpa using hnode⟩
  have hsum:=add_sum_erase fs.live (fun x => (fs.node x).children.countP fun e => e.node=de.node) hd
  have hle:=single_le_sum (f := fun x => (fs.node x).children.countP fun e => e.node=de.node)
    (fun _ _ => zero_le _) (mem_erase.mpr ⟨hne,hpar⟩)
  change _ = fs.entries de.node at hsum
  omega

def Mount.dirUp (fs : Mount) (p : NodeId) : Option NodeId :=
  if (fs.node p).type=.dir then some (fs.node p).parent else none

/-- The walk never takes `..` of something that is not a directory. -/
def Plain (fs : Mount) (path : List Byte) (parent : Bool) : Prop :=
  tmpfsWalk fs path parent=walkLoop fs fs.dirUp parent path.length fs.root path
  deriving Decidable

lemma walkLoop_named (h : TreeInv moving fs) {parent : Bool} {q : NodeId} {n : Name} :
    ∀ {fuel : ℕ} {p : NodeId} {path : List Byte},Named fs p → walkLoop fs fs.dirUp parent fuel p path=some (q,n) →
      Named fs q ∧ (parent=true → n.length≠0 ∧ n.length≤nameMax)
  | 0, p, path, hp, hw => by
    unfold walkLoop at hw
    split at hw
    · cases hw
    · rename_i hpar
      cases hw
      exact ⟨hp,fun h => absurd h hpar⟩
  | fuel+1, p, path, hp, hw => by
    unfold walkLoop at hw
    split at hw
    · split at hw
      · cases hw
      · rename_i hpar
        cases hw
        exact ⟨hp,fun h => absurd h hpar⟩
    rename_i c path' hpath
    dsimp only at hw
    split at hw
    · cases hw
    rename_i hlen
    split at hw
    · cases hw
      refine ⟨hp,fun _ => ⟨?_,le_of_not_gt hlen⟩⟩
      -- the path was stripped of slashes, so a name follows
      have hc : c≠slash := by
        have := List.head?_dropWhile_not (· = slash) path
        rw [hpath] at this
        simpa using this
      simp [hc]
    split at hw
    · exact walkLoop_named h hp hw
    split at hw
    · split at hw
      · cases hw
      rename_i q' hup
      unfold Mount.dirUp at hup
      split at hup
      · rename_i hty
        cases hup
        have hpar:=h.parent_named (hp.linked hty)
        exact walkLoop_named h ⟨hpar.1,hpar.2.2⟩ hw
      · cases hup
    split at hw
    · cases hw
    split at hw
    · cases hw
    · rename_i de hde
      exact walkLoop_named h (h.lookup_named hp.1 hde) hw

lemma walkLoop_congr {up : NodeId → Option NodeId} (h : fs'.node=fs.node) (parent : Bool) :
    ∀ (fuel : ℕ) (p : NodeId) (path : List Byte), walkLoop fs' up parent fuel p path=walkLoop fs up parent fuel p path
  | 0, _, _ => rfl
  | fuel+1, p, path => by
    unfold walkLoop
    rw [h]
    simp only [walkLoop_congr h parent fuel]

variable {path src : List Byte}

lemma Plain.walk {parent : Bool} {n : Name} (hw : Plain fs path parent)
    (h : TreeInv moving fs) (hr : tmpfsWalk fs path parent=some (p,n)) :
    Named fs p ∧ (parent=true → n.length≠0 ∧ n.length≤nameMax) := by
  rw [hw] at hr
  exact walkLoop_named h ⟨h.root.1,h.root.2.2⟩ hr

section
variable (h : Inv moving refs fs)
include h

lemma resolve_spec (hw : Plain fs path false) (hr : resolve fs path=some (i,fs')) :
    ∃ p,Named fs p ∧ i=(fs.node p).inum ∧ fs'=makeInode fs p ∧ Inv moving (i::refs) fs' := by
  obtain ⟨⟨p,n⟩,hwalk,heq⟩:=map_eq_some_iff.mp hr
  obtain ⟨rfl,rfl⟩:=Prod.mk.inj heq
  have hp:=(hw.walk h.tree hwalk).1
  exact ⟨p,hp,rfl,rfl,h.makeInode hp.1⟩

lemma resolveParent_spec (hw : Plain fs path true) (hr : resolveParent fs path=some (i,name,fs')) :
    ∃ p,Named fs p ∧ i=(fs.node p).inum ∧ tmpfsWalk fs path true=some (p,name) ∧
      name.length≠0 ∧ name.length≤nameMax ∧ fs'=makeInode fs p ∧ Inv moving (i::refs) fs' := by
  obtain ⟨⟨p,n⟩,hwalk,heq⟩:=map_eq_some_iff.mp hr
  obtain ⟨rfl,rfl,rfl⟩:=heq
  have hp:=hw.walk h.tree hwalk
  exact ⟨p,hp.1,rfl,hwalk,(hp.2 rfl).1,(hp.2 rfl).2,rfl,h.makeInode hp.1.1⟩

lemma Inv.perm {refs' : List ℕ} (hp : refs.Perm refs') : Inv moving refs' fs := by
  have hc : ∀ j,refs'.count j=refs.count j := fun j => (hp.count_eq j).symm
  refine ⟨h.tree,⟨h.cache.next,h.cache.inums,h.cache.inj,h.cache.cached,fun j => ?_,fun q => ?_⟩,h.quota⟩
  · rw [hc]
    exact h.cache.count j
  · rw [hc]
    exact h.cache.unlinked q

lemma Inv.cache_node (hi : i∈refs) (hp : p∈fs.live) (hinum : (fs.node p).inum=i) : (fs.cache i).node=some p ∧
      (fs.cache i).nlink=(fs.node p).nlink ∧ (fs.cache i).type=(fs.node p).type := by
  obtain ⟨q,hq,hnode,hqi,-,hnlink,htype⟩:=h.node_of_mem hi
  obtain rfl:=h.cache.inj q hq p hp (hqi.trans hinum.symm)
  exact ⟨hnode,hnlink,htype⟩

end

def Accounted (refs : List ℕ) (fs : Mount) (j : ℕ) : Prop := (fs.cache j).ref=refs.count j
  deriving Decidable

lemma Accounted.makeInode {j : ℕ} (h : Accounted refs fs j) (p : NodeId) :
    Accounted ((fs.node p).inum::refs) (makeInode fs p) j := by
  unfold Accounted at h ⊢
  unfold Tmpfs.makeInode
  by_cases hj : j=(fs.node p).inum
  · subst hj
    rw [modifyInode_self,count_cons_self,h]
  · rw [modifyInode_ne fs hj,count_cons_of_ne (Ne.symm hj),h]

lemma iput_of_named (h : (fs.cache i).nlink≠0) : iput fs i=fs.modifyInode i fun ip => {ip with ref := ip.ref-1} := by
  unfold iput
  dsimp only
  rw [if_neg (fun hc => h hc.2.1)]

lemma Accounted.iput_of_named {j : ℕ} (h : Accounted (i::refs) fs j) (hn : (fs.cache i).nlink≠0) :
    Accounted refs (iput fs i) j := by
  unfold Accounted at h ⊢
  rw [Tmpfs.iput_of_named hn]
  by_cases hj : j=i
  · subst hj
    rw [count_cons_self] at h
    rw [modifyInode_self]
    exact Nat.sub_eq_of_eq_add h
  · rw [count_cons_of_ne (Ne.symm hj)] at h
    rw [modifyInode_ne fs hj,h]

lemma Inv.setSize (h : Inv moving refs fs) (i n : ℕ) :
    Inv moving refs (fs.modifyInode i fun ip => {ip with size := n}) := by
  have hsame : ∀ {α : Type} (g : Inode → α),(∀ ip : Inode,g {ip with size := n} = g ip) →
      ∀ j,g ((fs.modifyInode i fun ip => {ip with size := n}).cache j)=g (fs.cache j) := by
    intro α g hg j
    by_cases hj : j=i
    · subst hj
      rw [modifyInode_self,hg]
    · rw [modifyInode_ne fs hj]
  have href:=hsame Inode.ref fun _ => rfl
  refine h.setCache ⟨h.cache.next,h.cache.inums,h.cache.inj,fun j hj => ?_,fun j => ?_,fun q hq => ?_⟩
  · rw [href] at hj
    obtain ⟨p,hp,hrest⟩:=h.cache.cached j hj
    refine ⟨p,hp,?_⟩
    rw [Mount.Shows,hsame Inode.node fun _ => rfl,hsame Inode.valid fun _ => rfl,hsame Inode.nlink fun _ => rfl,
      hsame Inode.type fun _ => rfl]
    exact hrest
  · rw [href]
    exact h.cache.count j
  · rw [href]
    exact h.cache.unlinked q hq

lemma charge_le (h : Inv moving refs fs) (hp : p∈fs.live) : charge (fs.node p)≤fs.usedBytes := by
  rw [h.quota.used]
  exact single_le_sum (f := fun q => charge (fs.node q)) (fun _ _ => zero_le _) hp
lemma charge_file {nd : Node} (h : nd.type=.file) : charge nd=nd.size := if_pos (.inl h)

section
variable (h : Inv moving refs fs)
include h

lemma Inv.setPages (hp : p∈fs.live) (pages : List Page) :
    Inv moving refs (fs.modify p fun nd => {nd with pages := pages}) :=
  h.contents (f := fun nd => {nd with pages := pages}) hp ⟨rfl,rfl,rfl,rfl,rfl⟩ rfl rfl rfl
    h.quota.quota

lemma writePages_inv (hp : p∈fs.live) (ht : (fs.node p).type=.file) {off : ℕ} (alloc : ℕ → Bool) (copied : ℕ → ℕ)
    (hroom : (fs.node p).size<word (off+src.length) → fs.usedBytes+(word (off+src.length)-(fs.node p).size)<2^32) :
    Inv moving refs (writePages fs p src off alloc copied).2 := by
  unfold writePages
  dsimp only
  split
  · exact h
  rename_i hquota
  split
  · exact h.setPages hp _
  rename_i pages _
  split
  · rename_i hgrow
    have hsum : word (fs.usedBytes+(word (off+src.length)-(fs.node p).size)) =
        fs.usedBytes+(word (off+src.length)-(fs.node p).size) := mod_eq_of_lt (hroom hgrow)
    rw [not_and,not_lt] at hquota
    have hle:=hquota hgrow
    refine (h.setPages hp pages).contents (p := p) (f := fun nd => {nd with size := word (off+src.length)})
      hp ⟨rfl,rfl,rfl,rfl,rfl⟩ rfl ?_ (by simp [sizes,ht]) hle
    rw [modify_self,charge_file (by exact ht),charge_file (by exact ht)]
    show word (fs.usedBytes + _)+(fs.node p).size=fs.usedBytes+word (off+src.length)
    omega
  · exact h.setPages hp _

lemma tmpfsWrite_inv (hi : i∈refs) {off : ℕ} (alloc : ℕ → Bool) (copied : ℕ → ℕ)
    (hroom : ∀ p,(fs.cache i).node=some p → (fs.node p).size<word (off+src.length) →
      fs.usedBytes+(word (off+src.length)-(fs.node p).size)<2^32) :
    Inv moving refs (tmpfsWrite fs i src off alloc copied) := by
  obtain ⟨p,hp,hnode,-⟩:=h.node_of_mem hi
  unfold tmpfsWrite
  rw [hnode]
  dsimp only
  split
  · exact h
  rename_i ht
  have hw:=writePages_inv h hp (not_not.mp ht) alloc copied (hroom p hnode)
  split
  · rename_i heq
    rw [heq] at hw
    exact hw
  · rename_i heq
    rw [heq] at hw
    exact hw.setSize i _

lemma truncateNode_inv (hp : p∈fs.live) (ht : (fs.node p).type=.file)
    (size : ℕ) : Inv moving refs (truncateNode fs p size) := by
  unfold truncateNode
  dsimp only
  split
  · exact h
  have hle:=charge_le h hp
  rw [charge_file ht] at hle
  have hmax:=h.quota.max
  have hquota:=h.quota.quota
  have hsub : word (fs.usedBytes+2^32-((fs.node p).size-size)) = fs.usedBytes-((fs.node p).size-size) := by
    unfold word
    omega
  refine h.contents hp ⟨rfl,rfl,rfl,rfl,rfl⟩ rfl ?_ (by simp [sizes,ht]) ?_
  · rw [charge_file ht,charge_file (by exact ht),hsub]
    dsimp only
    omega
  · rw [hsub]
    omega

lemma tmpfsTruncate_inv (hi : i∈refs) (ht : tmpfsTruncate fs i=some fs') : Inv moving refs fs' := by
  obtain ⟨p,hp,hnode,-⟩:=h.node_of_mem hi
  unfold tmpfsTruncate at ht
  rw [hnode] at ht
  obtain ⟨hty,ht⟩:=ite_none_left_eq_some.mp ht
  cases ht
  exact (truncateNode_inv h hp (not_not.mp hty) 0).setSize i 0

lemma tmpfsDirlookup_inv (hdp : dp∈refs) (hd : (fs.cache dp).node=some d) (hn : Named fs d)
    (hl : tmpfsDirlookup fs dp name=some (i,fs')) : Inv moving (i::refs) fs' := by
  unfold tmpfsDirlookup at hl
  rw [hd] at hl
  obtain ⟨hty,hl⟩:=ite_none_left_eq_some.mp hl
  split at hl
  · cases hl
    exact h.idup hdp
  split at hl
  · cases hl
    exact h.makeInode (h.tree.parent_named (hn.linked (not_not.mp hty))).1
  split at hl
  · cases hl
  · rename_i de hde
    cases hl
    exact h.makeInode (h.tree.lookup_named hn.1 hde).1

end

lemma direntAdd_cases {page : Bool} (h : direntAdd fs d name p page=some fs') :
    direntLookup (fs.node d) name=none ∧ fs'=fs.modify d (·.addDirent ⟨name,p⟩) := by
  unfold direntAdd at h
  split_ifs at h with _ hsome _
  cases h
  exact ⟨by simpa using hsome,rfl⟩

structure Fresh (fs fs' : Mount) (p : NodeId) : Prop where
  spare : p∉fs.live
  live : fs'.live=insert p fs.live
  root : fs'.root=fs.root
  cache : fs'.cache=fs.cache
  next : fs'.nextInum=word (fs.nextInum+1)
  used : fs'.usedBytes=fs.usedBytes
  max : fs'.maxBytes=fs.maxBytes
  old : ∀ q∈fs.live,fs'.node q=fs.node q

variable {page : Option NodeId} {type : FileType}

lemma allocNode_fresh (h : Inv moving refs fs) (hd : fs.Linked d) (hpage : ∀ p∈page,p∉fs.live)
    (hnext : fs.nextInum+1<2^32) (ha : allocNode fs type d page=some (p,fs')) : Fresh fs fs' p ∧
      fs'.node p=⟨fs.nextInum,type,1,0,d,[],fun _ => [],[],[]⟩ ∧ Inv (p::moving) refs fs' := by
  obtain rfl : page=some p := by
    cases page with
    | none => cases ha
    | some q =>
      simp only [allocNode,some.injEq,Prod.mk.injEq] at ha
      rw [ha.1]
  have hp:=hpage p rfl
  have hinv:=h.alloc hd hp hnext ha
  simp only [allocNode,some.injEq,Prod.mk.injEq,true_and] at ha
  subst ha
  exact ⟨⟨hp,rfl,rfl,rfl,rfl,rfl,rfl,
    fun q hq => Function.update_of_ne (fun heq : q=p => hp (heq ▸ hq)) ..⟩,Function.update_self ..,hinv⟩

lemma Fresh.linked (hf : Fresh fs fs' p) (hd : fs.Linked d) : fs'.Linked d := by
  refine ⟨?_,?_⟩
  · rw [hf.live]
    exact mem_insert_of_mem hd.1
  · rw [hf.old d hd.1]
    exact hd.2

lemma Fresh.discard (hf : Fresh fs fs' p) (h : Inv moving refs fs)
    (hnext : fs.nextInum+1<2^32) : Inv moving refs (freeNode fs' p) := by
  have herase : (freeNode fs' p).live=fs.live := by
    show fs'.live.erase p=fs.live
    rw [hf.live,erase_insert hf.spare]
  have hword : word (fs.nextInum+1)=fs.nextInum+1 := mod_eq_of_lt hnext
  refine ⟨h.tree.congr herase hf.root fun q hq => ?_,
    h.cache.congr herase hf.cache ?_ ?_ fun q hq => ?_,h.quota.congr herase hf.used hf.max fun q hq => ?_⟩
  · show TreeSame (fs.node q) (fs'.node q)
    rw [hf.old q hq]
    exact TreeSame.refl _
  · show fs.nextInum≤fs'.nextInum
    rw [hf.next,hword]
    exact le_succ _
  · show fs'.nextInum<2^32
    rw [hf.next,hword]
    exact hnext
  · show CacheSame (fs.node q) (fs'.node q)
    rw [hf.old q hq]
    exact CacheSame.refl _
  · show sizes (fs'.node q)=sizes (fs.node q)
    rw [hf.old q hq]

section
variable (h : Inv [] refs fs) (hd : (fs.cache dp).node=some d) (hn : Named fs d) (hpage : ∀ p∈page,p∉fs.live)
  (hnext : fs.nextInum+1<2^32)
include h hd hn hpage hnext

lemma tmpfsCreate_inv {dirPage : Bool} {r : Option ℕ}
    (hc : tmpfsCreate fs dp name type page dirPage=(r,fs')) : Inv [] (r.toList++refs) fs' := by
  unfold tmpfsCreate at hc
  rw [hd] at hc
  dsimp only at hc
  split at hc
  · cases hc
    exact h
  rename_i hty
  have hlinked:=hn.linked (not_not.mp hty)
  split at hc
  · cases hc
    exact h
  rename_i p fs1 halloc
  obtain ⟨hfresh,hnew,h1⟩:=allocNode_fresh h hlinked hpage hnext halloc
  split at hc
  · cases hc
    exact hfresh.discard h hnext
  rename_i fs2 hadd
  cases hc
  have h2:=h1.add (hfresh.linked hlinked) (fun _ => congrArg Node.parent hnew) hadd
  obtain ⟨-,rfl⟩:=direntAdd_cases hadd
  exact h2.makeInode (h1.tree.live p (mem_cons_self ..))

lemma tmpfsSymlink_inv {target : List Byte} {text dirPage : Bool} (hroom : fs.usedBytes+target.length<2^32) :
    Inv [] refs (tmpfsSymlink fs dp name target page text dirPage) := by
  unfold tmpfsSymlink
  rw [hd]
  dsimp only
  split
  · exact h
  rename_i hty
  have hlinked:=hn.linked (not_not.mp hty)
  split
  · exact h
  split
  · exact h
  rename_i hquota
  have hword : ∀ n≤target.length,word (fs.usedBytes+n)=fs.usedBytes+n := fun n hle => mod_eq_of_lt (by omega)
  rw [hword _ le_rfl] at hquota
  split
  · exact h
  rename_i p fs1 halloc
  obtain ⟨hfresh,hnew,h1⟩:=allocNode_fresh h hlinked hpage hnext halloc
  split
  · exact hfresh.discard h hnext
  have hlen : (target.take (pageSize-1)).length≤target.length := (length_take ..).trans_le (min_le_right ..)
  generalize target.take (pageSize-1)=text at hlen
  have hused : word (fs1.usedBytes+text.length)=fs.usedBytes+text.length := by
    rw [hfresh.used]
    exact hword _ hlen
  have hp:=h1.tree.live p (mem_cons_self ..)
  -- a symbolic link takes the length of its text from the quota
  have hcharge : word (fs1.usedBytes+text.length)+charge (fs1.node p) =
      fs1.usedBytes+charge {fs1.node p with symlink := text,size := text.length} := by
    rw [hused,hfresh.used,hnew]
    rfl
  have hmax : word (fs1.usedBytes+text.length)≤fs1.maxBytes := by
    rw [hused,hfresh.max]
    omega
  have h2:=h1.contents (f := fun nd => {nd with symlink := text,size := text.length}) hp
    ⟨rfl,rfl,rfl,rfl,rfl⟩ rfl hcharge (by rw [hnew]; rfl) hmax
  have hpd : d≠p := fun heq => hfresh.spare (heq ▸ hn.1)
  split
  · have hback : word (word (fs1.usedBytes+text.length)+2^32-text.length)=fs.usedBytes := by
      rw [hused]
      unfold word
      omega
    have hkeep : ∀ q∈fs.live,(fs1.modify p fun nd =>
        {nd with symlink := text,size := text.length}).node q=fs.node q := fun q hq => by
      rw [modify_ne fs1 (fun heq : q=p => hfresh.spare (heq ▸ hq)),hfresh.old q hq]
    exact Fresh.discard ⟨hfresh.spare,hfresh.live,hfresh.root,hfresh.cache,hfresh.next,hback,hfresh.max,hkeep⟩ h hnext
  · rename_i fs2 hadd
    refine h2.add ⟨(hfresh.linked hlinked).1,?_⟩ (fun ht => ?_) hadd
    · dsimp only
      rw [modify_ne fs1 hpd]
      exact (hfresh.linked hlinked).2
    · unfold Mount.parent
      rw [modify_self,hnew]

end

end Auxv6.Fs.Tmpfs

import Auxv6.Fs.TmpfsOps

/-!
# Names of a tmpfs: link, remove and rename

While a name is moved its node has no entry.
-/

namespace Auxv6.Fs.Tmpfs
open Lib.ParentTree List Option

variable {moving : List NodeId} {refs : List ℕ} {fs fs' : Mount} {p d : NodeId} {i : ℕ} {name : Name}

def Node.addLink (nd : Node) : Node := {nd with nlink := short (nd.nlink+1)}

lemma TreeInv.addLink (h : TreeInv moving fs) (hp : p∈fs.live) (ht : (fs.node p).type≠.dir)
    (hmax : (fs.node p).nlink<2^15-1) : ((fs.modify p Node.addLink).node p).nlink=(fs.node p).nlink+1 ∧
      TreeInv (p::moving) (fs.modify p Node.addLink) := by
  have hlp:=h.links p hp
  have hshort : short ((fs.node p).nlink+1)=(fs.node p).nlink+1 := short_of_range (by omega) (by omega)
  refine ⟨by rw [modify_self]; exact hshort,?_⟩
  refine h.setNlink (g := fun n => short (n+1)) hp (forall_mem_cons.mpr ⟨hp,h.live⟩)
    (fun q hq => count_cons_of_ne (Ne.symm hq)) ?_ (by rw [hshort]; omega) fun hd => absurd hd ht
  rw [hshort,count_cons_self]
  omega

lemma Inv.addLink (h : Inv moving refs fs) (hi : i∈refs) (hp : p∈fs.live)
    (hinum : (fs.node p).inum=i) (ht : (fs.node p).type≠.dir) (hmax : (fs.node p).nlink<2^15-1) :
    Inv (p::moving) refs ((fs.modify p Node.addLink).modifyInode i
      fun c => {c with nlink := ((fs.modify p Node.addLink).node p).nlink}) := by
  obtain ⟨hself,htree⟩:=h.tree.addLink hp ht hmax
  obtain ⟨hnode,-,htype⟩:=h.cache_node hi hp hinum
  have hlp:=h.tree.links p hp
  have hinums : ∀ q,_ := modify_field fs Node.inum (d := p) (f := Node.addLink) rfl
  have hother : ∀ q,q≠p → (fs.modify p Node.addLink).node q=fs.node q := fun q hq => modify_ne fs hq _
  have hcharge : ∀ q,_ := modify_field fs sizes (d := p) (f := Node.addLink) rfl
  have htypes : ∀ q,_ := modify_field fs Node.type (d := p) (f := Node.addLink) rfl
  generalize hu : fs.modify p Node.addLink=u at htree hself hinums hother hcharge htypes
  have hcache : u.cache=fs.cache := by rw [← hu]; rfl
  have hlive : u.live=fs.live := by rw [← hu]; rfl
  have hnext : u.nextInum=fs.nextInum := by rw [← hu]; rfl
  have href : ∀ j,((u.modifyInode i fun c => {c with nlink := (u.node p).nlink}).cache j).ref = (fs.cache j).ref := by
    intro j
    by_cases hj : j=i
    · subst hj
      rw [modifyInode_self,hcache]
    · rw [modifyInode_ne u hj,hcache]
  refine ⟨htree.congr rfl rfl fun _ _ => TreeSame.refl _,
    ⟨hnext ▸ h.cache.next,fun q hq => ?_,fun q hq r hr => ?_,fun j hj => ?_,fun j => ?_,fun q hq h0 => ?_⟩,
    h.quota.congr hlive ?_ ?_ fun q _ => hcharge q⟩
  · change (u.node q).inum<u.nextInum
    rw [hinums,hnext]
    exact h.cache.inums q (hlive ▸ hq)
  · change (u.node q).inum=(u.node r).inum → q=r
    rw [hinums,hinums]
    exact h.cache.inj q (hlive ▸ hq) r (hlive ▸ hr)
  · rw [href] at hj
    obtain ⟨q,hq,hrest⟩:=h.cache.cached j hj
    refine ⟨q,hlive ▸ hq,?_⟩
    change _ ∧ (u.node q).inum=j ∧ _ ∧ _ = (u.node q).nlink ∧ _ = (u.node q).type
    rw [hinums,htypes]
    by_cases hji : j=i
    · subst hji
      obtain rfl:=h.cache.inj q hq p hp (hrest.2.1.trans hinum.symm)
      rw [modifyInode_self,hcache]
      exact ⟨hnode,hinum,hrest.2.2.1,rfl,htype⟩
    · have hqp : q≠p := fun heq => hji (by rw [← hrest.2.1,heq,hinum])
      rw [modifyInode_ne u hji,hcache,hother q hqp]
      exact hrest
  · rw [href]
    exact h.cache.count j
  · change (u.node q).nlink=0 at h0
    change ((u.modifyInode i _).cache (u.node q).inum).ref=refs.count (u.node q).inum ∧ 0<refs.count (u.node q).inum
    have hqp : q≠p := by
      rintro rfl
      omega
    rw [href,hinums]
    rw [hother q hqp] at h0
    exact h.cache.unlinked q (hlive ▸ hq) h0
  · rw [← hu]
    rfl
  · rw [← hu]
    rfl

lemma tmpfsLink_inv {dp : ℕ} {page : Bool} (h : Inv [] refs fs) (hi : i∈refs) (hp : p∈fs.live)
    (hinum : (fs.node p).inum=i) (ht : (fs.node p).type≠.dir) (hmax : (fs.node p).nlink<2^15-1)
    (hd : (fs.cache dp).node=some d) (hn : Named fs d) (hl : tmpfsLink fs i dp name page=some fs') :
    Inv [] refs fs' := by
  unfold tmpfsLink at hl
  rw [(h.cache_node hi hp hinum).1,hd] at hl
  obtain ⟨hty,hl⟩:=ite_none_left_eq_some.mp hl
  split at hl
  · cases hl
  rename_i fs1 hadd
  cases hl
  obtain ⟨hnew,rfl⟩:=direntAdd_cases hadd
  have hlinked:=hn.linked (not_not.mp hty)
  have hdp : d≠p := fun heq => ht (heq ▸ hlinked.2.1)
  have h1:=h.addLink hi hp hinum ht hmax
  -- the code lists the name first; the two changes are of different nodes
  have hcomm:=modify_comm fs hdp (·.addDirent ⟨name,p⟩) Node.addLink
  change Inv [] refs ((((fs.modify d (·.addDirent ⟨name,p⟩)).modify p Node.addLink)).modifyInode i
    fun c => {c with nlink := (((fs.modify d (·.addDirent ⟨name,p⟩)).modify p Node.addLink).node p).nlink})
  rw [hcomm,modify_ne _ (Ne.symm hdp)]
  refine h1.lists (d := d) (f := (·.addDirent ⟨name,p⟩))
    (h1.tree.add ⟨hlinked.1,?_⟩ ?_ fun hdir => ?_) ⟨⟨rfl,rfl,rfl⟩,rfl⟩
  · change ((fs.modify p Node.addLink).node d).type = _ ∧ ((fs.modify p Node.addLink).node d).nlink≠0
    rw [modify_ne fs hdp]
    exact hlinked.2
  · change direntLookup ((fs.modify p Node.addLink).node d) name=none
    rw [modify_ne fs hdp]
    exact hnew
  · change ((fs.modify p Node.addLink).node p).type=.dir at hdir
    rw [modify_self] at hdir
    exact absurd hdir ht

lemma direntRemove_cases (h : TreeInv moving fs) (hd : d∈fs.live)
    (hr : direntRemove fs d name=some (p,fs')) : ∃ de,direntLookup (fs.node d) name=some de ∧
      de.node=p ∧ fs'=fs.modify d (·.removeDirent name) := by
  unfold direntRemove at hr
  rw [← (h.dirs d hd).lookup name] at hr
  split at hr
  · cases hr
  rename_i de hde
  simp only [some.injEq,Prod.mk.injEq] at hr
  exact ⟨de,hde,hr.1,hr.2.symm⟩

lemma tmpfsRemove_inv {dp : ℕ} (h : Inv [] refs fs) (hd : (fs.cache dp).node=some d) (hlive : d∈fs.live)
    (hknown : ∀ de,direntLookup (fs.node d) name=some de → (fs.node de.node).nlink=1 →
      Accounted refs fs (fs.node de.node).inum) (hr : tmpfsRemove fs dp name=some fs') : Inv [] refs fs' := by
  unfold tmpfsRemove at hr
  rw [hd] at hr
  obtain ⟨-,hr⟩:=ite_none_left_eq_some.mp hr
  split at hr
  · cases hr
  rename_i de hde
  obtain ⟨hempty,hr⟩:=ite_none_left_eq_some.mp hr
  split at hr
  · cases hr
  rename_i p fs1 hrem
  cases hr
  have h₁:=h.remove hlive hrem
  obtain ⟨de',hde',rfl,rfl⟩:=direntRemove_cases h.tree hlive hrem
  obtain rfl : de'=de := some.inj (hde'.symm.trans hde)
  have htype:=modify_field fs Node.type (d := d) (f := (·.removeDirent name)) rfl de'.node
  have hinum:=modify_field fs Node.inum (d := d) (f := (·.removeDirent name)) rfl de'.node
  have hnlink:=modify_field fs Node.nlink (d := d) (f := (·.removeDirent name)) rfl de'.node
  refine h₁.unlinkNode (fun hdir => ⟨?_,rfl⟩) fun h1 => ?_
  · rw [htype] at hdir
    have hnil : (fs.node de'.node).children=[] := by
      by_contra hne
      exact hempty ⟨hdir,hne⟩
    have hne : de'.node≠d := by
      intro heq
      have hmem:=((h.tree.dirs d hlive).lookup_mem hde).1
      rw [← heq,hnil] at hmem
      exact not_mem_nil hmem
    rw [modify_ne fs hne]
    exact hnil
  · rw [hnlink] at h1
    rw [hinum]
    exact hknown de' hde h1

variable {de : Dirent}

lemma DirOk.lookup_of_mem {nd : Node} (h : DirOk nd) (hde : de∈nd.children) : direntLookup nd de.name=some de := by
  cases hl : direntLookup nd de.name with
  | none => exact absurd (mem_map_of_mem hde) ((h.lookup_eq_none _).mp hl)
  | some e =>
    obtain ⟨he,hname⟩:=h.lookup_mem hl
    rw [inj_on_of_nodup_map h.nodup he hde hname]

lemma DirOk.lookup_remove {nd : Node} {n : Name} (h : DirOk nd)
    (hl : direntLookup (nd.removeDirent name) n=some de) : direntLookup nd n=some de ∧ n≠name := by
  obtain ⟨hmem,rfl⟩:=(h.remove name).lookup_mem hl
  change de∈nd.children.eraseP _ at hmem
  rw [eraseP_name h.nodup,mem_filter] at hmem
  exact ⟨h.lookup_of_mem hmem.1,by simpa using hmem.2⟩

lemma TreeInv.lookup_remove {q : NodeId} {n : Name} (h : TreeInv moving fs) (hd : d∈fs.live)
    (hl : direntLookup ((fs.modify d (·.removeDirent name)).node q) n=some de) :
    direntLookup (fs.node q) n=some de := by
  by_cases hq : q=d
  · subst hq
    rw [modify_self] at hl
    exact ((h.dirs q hd).lookup_remove hl).1
  · rwa [modify_ne fs hq] at hl

structure Detached (fs : Mount) (src : NodeId) (oldname : Name) (p : NodeId) : Prop where
  home : fs.Linked src
  free : direntLookup (fs.node src) oldname=none
  back : (fs.node p).type=.dir → fs.parent p=src
  length : oldname.length≠0 ∧ oldname.length≤nameMax

variable {src dst : NodeId} {oldname newname : Name}

lemma restore_inv (h : Inv (p::moving) refs fs) (hd : Detached fs src oldname p) :
    Inv moving refs (restore fs src oldname p true) := by
  have hadd : direntAdd fs src oldname p true=some (fs.modify src (·.addDirent ⟨oldname,p⟩)) := by
    unfold direntAdd
    rw [hd.free,if_neg (by have := hd.length; omega)]
    rfl
  unfold restore
  rw [hadd]
  exact h.add hd.home hd.back hadd

lemma attach_inv (h : Inv (p::moving) refs fs) (hd : Detached fs src oldname p) (hdst : fs.Linked dst)
    (hav : (fs.node p).type=.dir → Avoids fs.root fs.parent p dst) (page : Bool) :
    Inv moving refs (attach fs src dst oldname newname p page true) := by
  unfold attach
  split
  · exact restore_inv h hd
  rename_i fs1 hadd
  obtain ⟨hnew,rfl⟩:=direntAdd_cases hadd
  have ht:=h.tree.attach hdst hnew hav
  refine ⟨ht,h.cache.congr rfl rfl le_rfl h.cache.next fun q _ => ⟨?_,?_,?_⟩,h.quota.congr rfl rfl rfl fun q _ => ?_⟩
  · rw [modify_field _ Node.inum rfl,modify_field _ Node.inum rfl]
  · rw [modify_field _ Node.type rfl,modify_field _ Node.type rfl]
  · rw [modify_field _ Node.nlink rfl,modify_field _ Node.nlink rfl]
  · rw [modify_field _ sizes rfl,modify_field _ sizes rfl]

lemma iput_frame (fs : Mount) (i : ℕ) : (iput fs i).node=fs.node ∧
    ∀ q∈fs.live,(fs.cache i).node≠some q → q∈(iput fs i).live := by
  unfold iput drop
  dsimp only
  split
  · split
    · exact ⟨rfl,fun q hq _ => hq⟩
    rename_i p hp
    have herase : ∀ q∈fs.live,(fs.cache i).node≠some q → q∈fs.live.erase p := fun q hq hne =>
      Finset.mem_erase.mpr ⟨fun heq => hne (heq ▸ hp),hq⟩
    split
    · exact ⟨rfl,herase⟩
    · exact ⟨rfl,herase⟩
  · exact ⟨rfl,fun q hq _ => hq⟩

lemma unlinkNode_frame (fs : Mount) (p : NodeId) : (∀ q,((unlinkNode fs p).node q).type=(fs.node q).type) ∧
    ∀ q,q≠p → (unlinkNode fs p).node q=fs.node q ∧ (q∈fs.live → q∈(unlinkNode fs p).live) := by
  have htype : ∀ q,_ := modify_field fs Node.type (d := p) (f := Node.decLink) rfl
  obtain ⟨hnode,hlive⟩:=iput_frame (makeInode (fs.modify p Node.decLink) p) ((fs.modify p Node.decLink).node p).inum
  have hnode : (unlinkNode fs p).node = (fs.modify p Node.decLink).node := hnode
  refine ⟨fun q => ?_,fun q hq => ⟨?_,fun hm => hlive q hm ?_⟩⟩
  · rw [hnode]
    exact htype q
  · rw [hnode]
    exact modify_ne fs hq _
  · unfold makeInode
    rw [modifyInode_self]
    exact fun heq => hq (some.inj heq).symm

lemma tmpfsRename_inv {olddp newdp : ℕ} (h : Inv [] refs fs) (ho : olddp∈refs) (hn : newdp∈refs)
    (hsrc : Named fs src) (hsi : (fs.node src).inum=olddp) (hdst : fs.Linked dst)
    (hdi : (fs.node dst).inum=newdp) (hlen : oldname.length≠0 ∧ oldname.length≤nameMax)
    (hav : ∀ de,direntLookup (fs.node src) oldname=some de → (fs.node de.node).type=.dir →
      Avoids fs.root fs.parent de.node dst)
    (hknown : ∀ de,direntLookup (fs.node dst) newname=some de → (fs.node de.node).type≠.dir →
      (fs.node de.node).nlink=1 → Accounted refs fs (fs.node de.node).inum) (page : Bool) :
    Inv [] refs (tmpfsRename fs olddp oldname newdp newname page true) := by
  unfold tmpfsRename
  split
  · exact h
  rw [(h.cache_node ho hsrc.1 hsi).1,(h.cache_node hn hdst.1 hdi).1]
  dsimp only
  split
  · exact h
  rename_i p fs1 hrem
  have h₁:=h.remove hsrc.1 hrem
  obtain ⟨de,hde,rfl,rfl⟩:=direntRemove_cases h.tree hsrc.1 hrem
  have hmem:=((h.tree.dirs src hsrc.1).lookup_mem hde).1
  have hsdir : (fs.node src).type=.dir := by
    by_contra hne
    rw [(h.tree.dirs src hsrc.1).leaf hne] at hmem
    exact not_mem_nil hmem
  have hav:=hav de hde
  have hback:=fun ht => h.tree.parent_eq hsrc.1 hmem ht
  have hfree : direntLookup ((fs.modify src (·.removeDirent oldname)).node src) oldname=none := by
    rw [modify_self]
    cases hl : direntLookup ((fs.node src).removeDirent oldname) oldname with
    | none => rfl
    | some e => exact absurd rfl ((h.tree.dirs src hsrc.1).lookup_remove hl).2
  have hfound : ∀ e,direntLookup ((fs.modify src (·.removeDirent oldname)).node dst) newname=some e →
      direntLookup (fs.node dst) newname=some e := fun e he => h.tree.lookup_remove hsrc.1 he
  have hlo : ListsOnly fs (fs.modify src (·.removeDirent oldname)) := listsOnly_modify fs src rfl rfl rfl
  have hinum : ∀ q,_ := modify_field fs Node.inum (d := src) (f := (·.removeDirent oldname)) rfl
  have hcache : (fs.modify src (·.removeDirent oldname)).cache=fs.cache := rfl
  generalize fs.modify src (·.removeDirent oldname)=fs1 at h₁ hfree hfound hlo hinum hcache ⊢
  have hpar : fs1.parent=fs.parent := funext hlo.parent
  have hdet : Detached fs1 src oldname de.node := by
    refine ⟨(hlo.linked src).mpr (hsrc.linked hsdir),hfree,fun ht => ?_,hlen⟩
    rw [hpar]
    exact hback (hlo.type _ ▸ ht)
  have hdst1:=(hlo.linked dst).mpr hdst
  have hav1 : (fs1.node de.node).type=.dir → Avoids fs1.root fs1.parent de.node dst := by
    rw [hlo.type,hlo.root,hpar]
    exact hav
  split
  · exact attach_inv h₁ hdet hdst1 hav1 page
  rename_i exist hexist
  split
  · exact restore_inv h₁ hdet
  rename_i hfiles
  rw [not_or] at hfiles
  split
  · exact attach_inv h₁ hdet hdst1 hav1 page
  rename_i old fs2 hrem2
  have h2:=h₁.remove hdst1.1 hrem2
  obtain ⟨e,he,rfl,rfl⟩:=direntRemove_cases h₁.tree hdst1.1 hrem2
  obtain rfl : exist=e := some.inj (hexist.symm.trans he)
  have hlo2 : ListsOnly fs1 (fs1.modify dst (·.removeDirent newname)) := listsOnly_modify fs1 dst rfl rfl rfl
  have hinum2 : ∀ q,_ := modify_field fs1 Node.inum (d := dst) (f := (·.removeDirent newname)) rfl
  have hfree2 : direntLookup ((fs1.modify dst (·.removeDirent newname)).node src) oldname=none := by
    cases hl : direntLookup ((fs1.modify dst (·.removeDirent newname)).node src) oldname with
    | none => rfl
    | some x => exact absurd (h₁.tree.lookup_remove hdst1.1 hl) (by rw [hfree]; exact some_ne_none x ∘ Eq.symm)
  have hcache2 : (fs1.modify dst (·.removeDirent newname)).cache=fs.cache := hcache
  generalize fs1.modify dst (·.removeDirent newname)=fs2 at h2 hlo2 hinum2 hfree2 hcache2 ⊢
  have hnotdir : (fs2.node exist.node).type≠.dir := by
    rw [hlo2.type]
    exact hfiles.1
  have h3:=h2.unlinkNode (fun hd => absurd hd hnotdir) fun h1 => by
    rw [hinum2,hinum,hcache2]
    refine hknown exist (hfound exist he) ?_ ?_
    · rw [← hlo.type]
      exact hfiles.1
    · rw [← hlo.nlink,← hlo2.nlink]
      exact h1
  obtain ⟨htype3,hnode3⟩:=unlinkNode_frame fs2 exist.node
  have hkeep : ∀ q,fs1.Linked q → (unlinkNode fs2 exist.node).Linked q := by
    intro q hq
    have hq2:=(hlo2.linked q).mpr hq
    obtain ⟨heq,hlive⟩:=hnode3 q (fun heq => hnotdir (heq ▸ hq2.2.1))
    exact ⟨hlive hq2.1,heq ▸ hq2.2⟩
  have hfile : ((unlinkNode fs2 exist.node).node de.node).type≠.dir := by
    rw [htype3,hlo2.type]
    exact hfiles.2
  refine attach_inv h3 ⟨hkeep src hdet.home,?_,fun ht => absurd ht hfile,hlen⟩ (hkeep dst hdst1)
    (fun ht => absurd ht hfile) page
  have hq2:=(hlo2.linked src).mpr hdet.home
  rw [(hnode3 src (fun heq => hnotdir (heq ▸ hq2.2.1))).1]
  exact hfree2

end Auxv6.Fs.Tmpfs

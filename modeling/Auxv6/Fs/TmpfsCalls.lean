import Auxv6.Fs.TmpfsNames

/-!
# The system calls on a tmpfs keep the invariant

The same-directory rename forgets a reference; the other calls put back what they take.
-/

namespace Auxv6.Fs.Tmpfs
open Lib.ParentTree List Option

variable {refs : List ℕ} {fs fs' : Mount} {path : List Byte} {dirPage access : Bool} {r : Option ℕ} {i : ℕ}

lemma tmpfsWalk_makeInode (fs : Mount) (p : NodeId) (path : List Byte) (parent : Bool) :
    tmpfsWalk (makeInode fs p) path parent=tmpfsWalk fs path parent :=
  have h : (makeInode fs p).node=fs.node := rfl
  walkLoop_congr h parent ..

lemma Plain.makeInode {parent : Bool} (h : Plain fs path parent) (p : NodeId) :
    Plain (makeInode fs p) path parent := by
  unfold Plain at h ⊢
  have hnode : (Tmpfs.makeInode fs p).node=fs.node := rfl
  rw [tmpfsWalk_makeInode,h]
  exact (walkLoop_congr hnode parent path.length fs.root path).symm

variable {page : Option NodeId} {type : FileType}

section
variable (h : Inv [] refs fs) (hw : Plain fs path true) (hpage : ∀ p∈page,p∉fs.live) (hnext : fs.nextInum+1<2^32)
include h hw hpage hnext

lemma create_inv (hc : create fs path type page dirPage=(r,fs')) : Inv [] (r.toList++refs) fs' := by
  unfold create at hc
  split at hc
  · cases hc
    exact h
  rename_i dp name fs1 hres
  obtain ⟨d,hd,rfl,-,-,-,rfl,h1⟩:=resolveParent_spec h hw hres
  have hnode:=(h1.cache_node (mem_cons_self ..) hd.1 rfl).1
  split at hc
  · rename_i ip fs2 hlook
    have h2:=tmpfsDirlookup_inv h1 (mem_cons_self ..) hnode hd hlook
    have h3:=(h2.perm (List.Perm.swap ..)).iput
    dsimp only at hc
    split at hc
    · cases hc
      exact h3
    · cases hc
      exact h3.iput
  · cases hm : tmpfsCreate (makeInode fs d) (fs.node d).inum name type page dirPage with
    | mk r2 fs2 =>
      rw [hm] at hc
      cases hc
      have h2:=tmpfsCreate_inv h1 hnode hd hpage hnext hm
      exact (h2.perm perm_middle).iput

lemma sysSymlink_inv {target : List Byte} {text : Bool}
    (hroom : fs.usedBytes+target.length<2^32) : Inv [] refs (sysSymlink fs target path page text dirPage) := by
  unfold sysSymlink
  split
  · exact h
  rename_i dp name fs1 hres
  obtain ⟨d,hd,rfl,-,-,-,rfl,h1⟩:=resolveParent_spec h hw hres
  have hnode:=(h1.cache_node (mem_cons_self ..) hd.1 rfl).1
  exact (tmpfsSymlink_inv h1 hnode hd hpage hnext hroom).iput

end

variable {target : Option (List Byte)}

section
variable (h : Inv [] refs fs)
include h

lemma openInode_inv {creat : Bool} (ht : ∀ t∈target,Plain fs t false) (hpage : ∀ p∈page,p∉fs.live)
    (hw : creat=true → Plain fs path true ∧ fs.nextInum+1<2^32)
    (ho : openInode fs path target creat page dirPage=(r,fs')) : Inv [] (r.toList++refs) fs' := by
  unfold openInode at ho
  split at ho
  · rename_i ip fs1 hres
    cases ho
    obtain ⟨t,htarget,hres⟩:=bind_eq_some_iff.mp hres
    obtain ⟨-,-,-,-,h1⟩:=resolve_spec h (ht t htarget) hres
    exact h1
  split at ho
  · rename_i hcreat
    exact create_inv h (hw hcreat).1 hpage (hw hcreat).2 ho
  · cases ho
    exact h

lemma sysOpen_inv {creat trunc write rdonly file : Bool}
    (ht : ∀ t∈target,Plain fs t false) (hpage : ∀ p∈page,p∉fs.live)
    (hw : creat=true → Plain fs path true ∧ fs.nextInum+1<2^32)
    (ho : sysOpen fs path target creat trunc write rdonly access file page dirPage=(r,fs')) :
    Inv [] (r.toList++refs) fs' := by
  unfold sysOpen at ho
  split at ho
  · rename_i fs1 hopen
    cases ho
    exact openInode_inv h ht hpage hw hopen
  rename_i ip fs1 hopen
  have h1:=openInode_inv h ht hpage hw hopen
  split at ho
  · cases ho
    exact h1.iput
  split at ho
  · cases ho
    exact h1.iput
  split at ho
  · cases ho
    exact h1.iput
  split at ho
  · split at ho
    · cases ho
      exact h1.iput
    · rename_i htr
      cases ho
      exact tmpfsTruncate_inv h1 (mem_cons_self ..) htr
  · cases ho
    exact h1

lemma sysTruncate_inv {len : ℕ} (hw : Plain fs path false) : Inv [] refs (sysTruncate fs path len access) := by
  unfold sysTruncate
  split
  · exact h
  rename_i ip fs1 hres
  obtain ⟨-,-,-,-,h1⟩:=resolve_spec h hw hres
  split
  · exact h1.iput
  split
  · exact h1.iput
  split
  · exact h1.iput
  split
  · exact h1.iput
  · rename_i htr
    exact (tmpfsTruncate_inv h1 (mem_cons_self ..) htr).iput

lemma sysFtruncate_inv {len : ℕ} (hi : i∈refs) : Inv [] refs (sysFtruncate fs i len access) := by
  unfold sysFtruncate
  split
  · exact h
  · cases ht : tmpfsTruncate fs i with
    | none => exact h
    | some fs1 => exact tmpfsTruncate_inv h hi ht

end

variable {old new : List Byte}

lemma sysLink_inv {page : Bool} (h : Inv [] refs fs) (hold : Plain fs old false) (hnew : Plain fs new true)
    (hmax : ∀ r∈tmpfsWalk fs old false,(fs.node r.1).nlink<2^15-1) :
    Inv [] refs (sysLink fs old new access page) := by
  unfold sysLink
  split
  · exact h
  rename_i ip fs1 hres
  have hlinks : ∀ p,Named fs p → ip=(fs.node p).inum → (fs.node p).nlink<2^15-1 := by
    intro p hp hip
    obtain ⟨r,hwalk,heq⟩:=map_eq_some_iff.mp hres
    have hr:=(hold.walk h.tree (p := r.1) (n := r.2) hwalk).1
    have : p=r.1 := h.cache.inj p hp.1 r.1 hr.1 (hip.symm.trans (congrArg Prod.fst heq).symm)
    rw [this]
    exact hmax r hwalk
  obtain ⟨p,hp,rfl,rfl,h1⟩:=resolve_spec h hold hres
  split
  · exact h1.iput
  rename_i hdir
  rw [(h1.cache_node (mem_cons_self ..) hp.1 rfl).2.2] at hdir
  split
  · exact h1.iput
  rename_i dp name fs2 hres2
  obtain ⟨d,hd,rfl,-,-,-,rfl,h2⟩:=resolveParent_spec h1 (hnew.makeInode p) hres2
  split
  · exact h2.iput.iput
  split
  · exact h2.iput.iput
  rename_i fs3 hlink
  have hnode:=(h2.cache_node (mem_cons_self ..) hd.1 rfl).1
  exact (tmpfsLink_inv h2 (mem_cons_of_mem _ (mem_cons_self ..)) hp.1 rfl hdir
    (hlinks p hp rfl) hnode hd hlink).iput.iput

def LastKnown (refs : List ℕ) (fs : Mount) (path : List Byte) : Prop :=
  ∀ r∈tmpfsWalk fs path true,∀ de∈direntLookup (fs.node r.1) r.2,
    (fs.node de.node).nlink=1 → Accounted refs fs (fs.node de.node).inum
  deriving Decidable

lemma tmpfsDirlookup_name {dp : ℕ} {d : NodeId} {name : Name} (hd : (fs.cache dp).node=some d)
    (hn : ¬(name=[dot] ∨ name=[dot,dot])) (hl : tmpfsDirlookup fs dp name=some (i,fs')) :
    ∃ de,direntLookup (fs.node d) name=some de ∧ i=(fs.node de.node).inum ∧ fs'=makeInode fs de.node := by
  rw [not_or] at hn
  unfold tmpfsDirlookup at hl
  rw [hd] at hl
  obtain ⟨-,hl⟩:=ite_none_left_eq_some.mp hl
  rw [if_neg hn.1,if_neg hn.2] at hl
  split at hl
  · cases hl
  · rename_i de hde
    cases hl
    exact ⟨de,hde,rfl,rfl⟩

lemma removePath_inv {dironly : Bool} (h : Inv [] refs fs) (hw : Plain fs path true)
    (hlast : LastKnown refs fs path) (hr : removePath fs path dironly access=some fs') : Inv [] refs fs' := by
  unfold removePath at hr
  split at hr
  · cases hr
    exact h
  rename_i dp name fs1 hres
  obtain ⟨d,hd,rfl,hwalk,-,-,rfl,h₁⟩:=resolveParent_spec h hw hres
  have hnode:=(h₁.cache_node (mem_cons_self ..) hd.1 rfl).1
  split at hr
  · cases hr
    exact h₁.iput
  split at hr
  · cases hr
    exact h₁.iput
  rename_i hdots
  split at hr
  · cases hr
    exact h₁.iput
  rename_i ip fs2 hlook
  have h2:=tmpfsDirlookup_inv h₁ (mem_cons_self ..) hnode hd hlook
  obtain ⟨hpos,hr⟩:=ite_none_left_eq_some.mp hr
  split at hr
  · cases hr
    exact h2.iput.iput
  dsimp only at hr
  obtain ⟨de,hde,rfl,rfl⟩:=tmpfsDirlookup_name hnode hdots hlook
  have hlink : ((makeInode (makeInode fs d) de.node).cache ((makeInode fs d).node de.node).inum).nlink≠0 := by
    omega
  have h3:=h2.iput
  have hacc : (fs.node de.node).nlink=1 → Accounted ((fs.node d).inum::refs)
      (iput (makeInode (makeInode fs d) de.node) ((makeInode fs d).node de.node).inum) (fs.node de.node).inum :=
    fun h1 => (((hlast (d,name) hwalk de hde h1).makeInode d).makeInode de.node).iput_of_named hlink
  -- the node keeps its name for now, so only the reference count moves
  rw [iput_of_named hlink] at h3 hacc hr
  split at hr
  · cases hr
    exact h3.iput
  rename_i fs3 hrem
  cases hr
  have hnode3:=(h3.cache_node (mem_cons_self ..) hd.1 rfl).1
  refine (tmpfsRemove_inv h3 hnode3 hd.1 (fun e he h1 => ?_) hrem).iput
  obtain rfl : e=de := some.inj (he.symm.trans hde)
  exact hacc h1

def Movable (fs : Mount) (old new : List Byte) : Prop :=
  ∀ t∈tmpfsWalk fs new true,(fs.node t.1).type=.dir ∧ ∀ s∈tmpfsWalk fs old true,∀ de∈direntLookup (fs.node s.1) s.2,
      (fs.node de.node).type=.dir → Avoids fs.root fs.parent de.node t.1

lemma sysRename_inv {page : Bool} (h : Inv [] refs fs)
    (hold : Plain fs old true) (hnew : Plain fs new true) (hmove : Movable fs old new)
    (hlast : LastKnown refs fs new) : Inv [] refs (sysRename fs old new access page true) := by
  unfold sysRename
  split
  · exact h
  split
  · exact h
  rename_i olddp oldname fs1 hres
  obtain ⟨src,hsrc,rfl,hwalk,hpos,hlen,rfl,h₁⟩:=resolveParent_spec h hold hres
  split
  · exact h₁.iput
  rename_i newdp newname fs2 hres2
  obtain ⟨dst,hdst,rfl,hwalk2,-,-,rfl,h2⟩:=resolveParent_spec h₁ (hnew.makeInode src) hres2
  rw [tmpfsWalk_makeInode] at hwalk2
  obtain ⟨hdir,hav⟩:=hmove _ hwalk2
  have hav:=fun de hde => hav _ hwalk de hde
  have hacc : ∀ de,direntLookup (fs.node dst) newname=some de → (fs.node de.node).nlink=1 →
      Accounted ((fs.node dst).inum::(fs.node src).inum::refs) (makeInode (makeInode fs src) dst)
        (fs.node de.node).inum :=
    fun de hde h1 => ((hlast _ hwalk2 de hde h1).makeInode src).makeInode dst
  have hlinked : (makeInode (makeInode fs src) dst).Linked dst := ⟨hdst.1,hdir,hdst.2⟩
  split
  · exact (h2.perm (List.Perm.swap ..)).iput.iput
  split
  · rename_i hsame
    obtain rfl : src=dst := h.cache.inj src hsrc.1 dst hdst.1 hsame
    -- one of the two references of the directory is forgotten
    have h3:=h2.forget fun p hp hi => by
      obtain rfl:=h.cache.inj p hp src hsrc.1 hi
      exact hsrc.2
    split
    · exact h3.iput
    refine (tmpfsRename_inv h3 (mem_cons_self ..) (mem_cons_self ..) hsrc rfl hlinked rfl
      ⟨hpos,hlen⟩ hav (fun de hde hfile h1 => ?_) page).iput
    have hne : (fs.node src).inum≠(fs.node de.node).inum := fun heq => by
      have := h.cache.inj src hsrc.1 de.node (h.tree.lookup_named hsrc.1 hde).1 heq
      exact hfile (this ▸ hdir)
    have := hacc de hde h1
    unfold Accounted at this ⊢
    rwa [count_cons_of_ne hne] at this
  · -- the two inodes are unlocked and put in the order of their numbers
    have hput : ∀ {u : Mount},Inv [] ((fs.node dst).inum::(fs.node src).inum::refs) u → Inv [] refs (iput (iput u
          (if (fs.node dst).inum<(fs.node src).inum then (fs.node src).inum else (fs.node dst).inum))
          (if (fs.node dst).inum<(fs.node src).inum then (fs.node dst).inum else (fs.node src).inum)) := by
      intro u hu
      split
      · exact (hu.perm (List.Perm.swap ..)).iput.iput
      · exact hu.iput.iput
    dsimp only
    split
    · exact hput h2
    · exact hput (tmpfsRename_inv h2 (mem_cons_of_mem _ (mem_cons_self ..)) (mem_cons_self ..)
        hsrc rfl hlinked rfl ⟨hpos,hlen⟩ hav (fun de hde _ h1 => hacc de hde h1) page)

end Auxv6.Fs.Tmpfs

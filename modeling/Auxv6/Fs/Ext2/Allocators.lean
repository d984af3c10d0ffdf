import Auxv6.Fs.Ext2.Geometry

/-!
# The indices of the ext2 allocators (fs/vfs_ext2.c)

The groups and bitmap bits that `ext2_alloc_inode`, `ext2_alloc_block`, `ext2_free_block`
and `ext2_free_inode` look at, for any counters and bitmaps on the disk. The mount does
not compare the groups with the bitmaps, nor the group count with the descriptors it reads.
-/

namespace Auxv6.Fs.Ext2
open List Option Nat

/-- The bits looked at in one group, and whether one was clear: at each bit the loop ends
(`none`), goes on, or looks (`true`). -/
def bitScan (look : ℕ → Option Bool) (bit : ℕ → Bool) : ℕ → ℕ → List ℕ × Bool
  | 0, _ => ([],false)
  | fuel+1, b =>
    match look b with
    | none => ([],false)
    | some false => bitScan look bit fuel (b+1)
    | some true =>
      if bit b then (b::(bitScan look bit fuel (b+1)).1,(bitScan look bit fuel (b+1)).2) else ([b],true)

def groupScan (free : ℕ → ℕ) (scan : ℕ → List ℕ × Bool) : ℕ → ℕ → List (ℕ × List ℕ)
  | 0, _ => []
  | n+1, g =>
    if free g=0 then (g,[])::groupScan free scan n (g+1)
    else (g,(scan g).1)::if (scan g).2 then [] else groupScan free scan n (g+1)
def inodeOf (sb : Superblock) (g b : ℕ) : ℕ := word (g*sb.inodesPerGroup+b+1)
def firstInode (sb : Superblock) : ℕ := if sb.firstIno=0 then 11 else sb.firstIno

/-- `ext2_alloc_inode` (`vfs_ext2.c:311-381`). -/
def allocInodeUses (m : MountData) (free : ℕ → ℕ) (bit : ℕ → ℕ → Bool) : List (ℕ × List ℕ) :=
  groupScan free (fun g => bitScan
    (fun b => some (firstInode m.sb ≤ inodeOf m.sb g b && inodeOf m.sb g b ≤ m.sb.inodesCount)) (bit g)
    m.sb.inodesPerGroup 0) m.groupCount 0

/-- `ext2_alloc_block` (`vfs_ext2.c:383-453`). -/
def allocBlockUses (m : MountData) (free : ℕ → ℕ) (bit : ℕ → ℕ → Bool) : List (ℕ × List ℕ) :=
  groupScan free (fun g => bitScan
    (fun b => if word (m.sb.firstDataBlock+g*m.sb.blocksPerGroup+b) ≥ m.sb.blocksCount then none else some true)
    (bit g) m.sb.blocksPerGroup 0) m.groupCount 0

/-- `ext2_free_block` (`vfs_ext2.c:456-513`). -/
def freeBlockUse (m : MountData) (blockno : ℕ) : Option (ℕ × List ℕ) :=
  if blockno < m.sb.firstDataBlock ∨ blockno ≥ m.sb.blocksCount then none
  else
    let rel:=blockno-m.sb.firstDataBlock
    if rel/m.sb.blocksPerGroup ≥ m.groupCount then none
    else some (rel/m.sb.blocksPerGroup,[rel%m.sb.blocksPerGroup])

/-- `ext2_free_inode` (`vfs_ext2.c:515-572`). -/
def freeInodeUse (m : MountData) (inum : ℕ) : Option (ℕ × List ℕ) :=
  if inum=0 ∨ inum > m.sb.inodesCount then none
  else if (inum-1)/m.sb.inodesPerGroup ≥ m.groupCount then none
  else some ((inum-1)/m.sb.inodesPerGroup,[(inum-1)%m.sb.inodesPerGroup])

def loaded (m : MountData) : ℕ := word (m.groupCount*groupDescSize)/groupDescSize
def InBounds (m : MountData) (u : ℕ × List ℕ) : Prop := u.1<loaded m ∧ ∀ b∈u.2,b<8*m.blockSize

/-- Every index stays inside the descriptors and the bitmap, and the shift and the divisions are defined. -/
structure GeometrySafe (m : MountData) : Prop where
  shift : m.sb.logBlockSize<32
  divisors : m.sb.blocksPerGroup≠0 ∧ m.sb.inodesPerGroup≠0 ∧ m.blockSize≠0
  allocInode : ∀ free bit,∀ u∈allocInodeUses m free bit,InBounds m u
  allocBlock : ∀ free bit,∀ u∈allocBlockUses m free bit,InBounds m u
  freeBlock : ∀ blockno,∀ u∈freeBlockUse m blockno,InBounds m u
  freeInode : ∀ inum,∀ u∈freeInodeUse m inum,InBounds m u
  inode : ∀ inum,∀ off∈inodeDiskOffset m inum,(inum-1)/m.sb.inodesPerGroup<loaded m

structure Bounded (sb : Superblock) : Prop where
  shift : sb.logBlockSize<32
  groups : groupCountOf sb<2^27
  blocks : min sb.blocksPerGroup (sb.blocksCount-sb.firstDataBlock)≤8*blockSizeOf sb
  inodes : min sb.inodesPerGroup sb.inodesCount≤8*blockSizeOf sb
  /-- No number beyond the bitmap comes back into range modulo `2 ^ 32`. -/
  wrapped : ∀ g<groupCountOf sb,∀ b<sb.inodesPerGroup,8*blockSizeOf sb≤b →
    firstInode sb ≤ inodeOf sb g b → sb.inodesCount < inodeOf sb g b

section

variable {look : ℕ → Option Bool} {bit : ℕ → Bool} {free : ℕ → ℕ} {scan : ℕ → List ℕ × Bool} {u : ℕ × List ℕ}
  {n b c g : ℕ}

lemma bitScan_mem (h : c∈(bitScan look bit n b).1) :
    b≤c ∧ c<b+n ∧ look c=some true ∧ ∀ d,b≤d → d≤c → look d≠none := by
  induction n generalizing b with
  | zero => cases h
  | succ n ih =>
    rw [bitScan] at h
    cases hb : look b with
    | none =>
      rw [hb] at h
      cases h
    | some v =>
      have hself : look b≠none := by simp [hb]
      have hrest : c∈(bitScan look bit n (b+1)).1 →
          b≤c ∧ c<b+(n+1) ∧ look c=some true ∧ ∀ d,b≤d → d≤c → look d≠none := by
        intro hc
        obtain ⟨h1,h2,h3,h4⟩:=ih hc
        refine ⟨by omega,by omega,h3,fun d hd hdc => ?_⟩
        rcases eq_or_lt_of_le hd with rfl | hlt
        · exact hself
        · exact h4 d hlt hdc
      have hhere : b≤b ∧ b<b+(n+1) ∧ ∀ d,b≤d → d≤b → look d≠none :=
        ⟨le_rfl,by omega,fun d h1 h2 => le_antisymm h2 h1 ▸ hself⟩
      rw [hb] at h
      cases v with
      | false => exact hrest h
      | true =>
        by_cases hbit : bit b=true
        · simp only [hbit,if_true,mem_cons] at h
          rcases h with rfl | h
          · exact ⟨hhere.1,hhere.2.1,hb,hhere.2.2⟩
          · exact hrest h
        · simp only [hbit,if_false,Bool.false_eq_true,mem_singleton] at h
          subst h
          exact ⟨hhere.1,hhere.2.1,hb,hhere.2.2⟩

lemma bitScan_full {look : ℕ → Bool} (hb : b≤c) (hc : c<b+n) (hl : look c=true) :
    c∈(bitScan (fun d => some (look d)) (fun _ => true) n b).1 := by
  induction n generalizing b with
  | zero => omega
  | succ n ih =>
    rw [bitScan]
    rcases eq_or_lt_of_le hb with rfl | hlt
    · simp [hl]
    have hin:=ih hlt (by omega)
    cases look b with
    | false => exact hin
    | true => exact mem_cons_of_mem _ hin

lemma groupScan_mem (h : u∈groupScan free scan n g) : u.1<g+n ∧ ∀ b∈u.2,b∈(scan u.1).1 := by
  induction n generalizing g with
  | zero => cases h
  | succ n ih =>
    have hrest : u∈groupScan free scan n (g+1) → u.1<g+(n+1) ∧ ∀ b∈u.2,b∈(scan u.1).1 := fun hu =>
      ⟨by have := (ih hu).1; omega,(ih hu).2⟩
    rw [groupScan] at h
    split_ifs at h
    · rcases mem_cons.mp h with rfl | h
      · exact ⟨by dsimp only; omega,nofun⟩
      · exact hrest h
    · rcases mem_cons.mp h with rfl | h
      · exact ⟨by dsimp only; omega,fun _ => id⟩
      · cases h
    · rcases mem_cons.mp h with rfl | h
      · exact ⟨by dsimp only; omega,fun _ => id⟩
      · exact hrest h

lemma groupScan_single (hg : g≤c) (hc : c<g+n) :
    (c,(scan c).1)∈groupScan (fun h => if h=c then 1 else 0) scan n g := by
  induction n generalizing g with
  | zero => omega
  | succ n ih =>
    rw [groupScan]
    rcases eq_or_lt_of_le hg with rfl | hlt
    · rw [if_neg (by simp)]
      exact mem_cons_self ..
    · rw [if_pos (if_neg hlt.ne)]
      exact mem_cons_of_mem _ (ih hlt (by omega))

end

section

variable {sb : Superblock} {gds : ℕ → GroupDesc} {nblocks : ℕ} {alloc : ℕ → Bool} {target : MountTarget}
  {m : MountData}

lemma loaded_eq (m : MountData) : loaded m=m.groupCount%2^27 := by
  rw [loaded,word,groupDescSize]
  omega

section
variable (hm : mountSetup sb gds nblocks alloc target=some m)
include hm

lemma groupCount_eq (hblocks : sb.blocksCount<2^32) :
    m.groupCount=(m.sb.blocksCount-m.sb.firstDataBlock-1)/m.sb.blocksPerGroup+1 := by
  obtain ⟨rfl,-,-,-,hfirst,hbpg,-,-,hcount,hbytes⟩:=mountSetup_some hm
  rw [hcount,groupCountOf] at hbytes ⊢
  generalize hx : m.sb.blocksCount-m.sb.firstDataBlock=x at *
  have hsum : word (x+m.sb.blocksPerGroup-1)=x-1+m.sb.blocksPerGroup := by
    by_contra hne
    have hlt : word (x+m.sb.blocksPerGroup-1) < m.sb.blocksPerGroup := by
      rw [word] at hne ⊢
      omega
    rw [div_eq_of_lt hlt] at hbytes
    exact hbytes rfl
  rw [hsum,add_div_right _ hbpg]

lemma Bounded.safe (hblocks : sb.blocksCount<2^32) (h : Bounded m.sb) : GeometrySafe m := by
  have hcount:=groupCount_eq hm hblocks
  obtain ⟨rfl,hbs,-,-,hfirst,hbpg,hipg,hsize,hgroups,-⟩:=mountSetup_some hm
  have hloaded : loaded m=m.groupCount := by
    rw [loaded_eq,Nat.mod_eq_of_lt (hgroups ▸ h.groups)]
  have hb:=h.blocks
  have hi:=h.inodes
  refine ⟨h.shift,⟨hbpg.ne',hipg.ne',hbs.pos.ne'⟩,fun free bit u hu => ?_,fun free bit u hu => ?_,
    fun blockno u hu => ?_,fun inum u hu => ?_,fun inum off hoff => ?_⟩
  · obtain ⟨hg,hbits⟩:=groupScan_mem hu
    rw [Nat.zero_add] at hg
    refine ⟨hloaded ▸ hg,fun b hbu => ?_⟩
    obtain ⟨-,hlt,hlook,-⟩:=bitScan_mem (hbits b hbu)
    simp only [some.injEq,Bool.and_eq_true,decide_eq_true_eq] at hlook
    by_contra hout
    have := h.wrapped u.1 (hgroups ▸ hg) b (by omega) (hsize ▸ not_lt.mp hout) hlook.1
    omega
  · obtain ⟨hg,hbits⟩:=groupScan_mem hu
    rw [Nat.zero_add] at hg
    refine ⟨hloaded ▸ hg,fun b hbu => ?_⟩
    obtain ⟨-,hlt,-,hlook⟩:=bitScan_mem (hbits b hbu)
    by_contra hout
    -- there is one group, and the loop ends at the block after the last
    have hone : (m.sb.blocksCount-m.sb.firstDataBlock-1)/m.sb.blocksPerGroup=0 := Nat.div_eq_of_lt (by omega)
    have hzero : u.1=0 := by omega
    refine hlook (m.sb.blocksCount-m.sb.firstDataBlock) (Nat.zero_le _) (by omega) (if_pos ?_)
    rw [hzero,Nat.zero_mul,Nat.add_zero,Nat.add_sub_cancel' hfirst.le,word_of_lt hblocks]
  · rw [mem_def,freeBlockUse] at hu
    dsimp only at hu
    split_ifs at hu with hr hg
    cases hu
    refine ⟨hloaded ▸ not_le.mp hg,fun b hbu => ?_⟩
    rw [mem_singleton.mp hbu]
    have := Nat.mod_lt (blockno-m.sb.firstDataBlock) hbpg
    have := Nat.mod_le (blockno-m.sb.firstDataBlock) m.sb.blocksPerGroup
    omega
  · rw [mem_def,freeInodeUse] at hu
    split_ifs at hu with hr hg
    cases hu
    refine ⟨hloaded ▸ not_le.mp hg,fun b hbu => ?_⟩
    rw [mem_singleton.mp hbu]
    have := Nat.mod_lt (inum-1) hipg
    have := Nat.mod_le (inum-1) m.sb.inodesPerGroup
    omega
  · rw [mem_def,inodeDiskOffset] at hoff
    dsimp only at hoff
    split_ifs at hoff with _ _ hg
    exact hloaded ▸ not_le.mp hg

lemma GeometrySafe.bounded (hblocks : sb.blocksCount<2^32) (h : GeometrySafe m) : Bounded m.sb := by
  have hpos : 0 < m.groupCount := groupCount_eq hm hblocks ▸ Nat.succ_pos _
  obtain ⟨rfl,hbs,-,-,hfirst,hbpg,hipg,hsize,hgroups,-⟩:=mountSetup_some hm
  refine ⟨h.shift,?_,?_,?_,fun g hg b hb hout hlo => ?_⟩
  · have hin:=(h.allocBlock _ (fun _ _ => true) _
      (groupScan_single (g := 0) (c := m.groupCount-1) (by omega) (by omega))).1
    rw [loaded_eq] at hin
    omega
  · rw [← hsize]
    by_contra hout
    have hu : freeBlockUse m (m.sb.firstDataBlock+8*m.blockSize)=some (0,[8*m.blockSize]) := by
      rw [freeBlockUse,if_neg (by omega)]
      dsimp only
      rw [Nat.add_sub_cancel_left,Nat.div_eq_of_lt (by omega),Nat.mod_eq_of_lt (by omega),if_neg (by omega)]
    exact absurd ((h.freeBlock _ _ hu).2 _ (mem_singleton_self _)) (lt_irrefl _)
  · rw [← hsize]
    by_contra hout
    have hu : freeInodeUse m (8*m.blockSize+1)=some (0,[8*m.blockSize]) := by
      rw [freeInodeUse,if_neg (by omega),Nat.add_sub_cancel,Nat.div_eq_of_lt (by omega),Nat.mod_eq_of_lt (by omega),
        if_neg (by omega)]
    exact absurd ((h.freeInode _ _ hu).2 _ (mem_singleton_self _)) (lt_irrefl _)
  · by_contra hhi
    have hin:=h.allocInode _ (fun _ _ => true) _ (groupScan_single (g := 0) (c := g) (by omega) (by omega))
    have := hin.2 b (bitScan_full (Nat.zero_le _) (by omega) (by simp [hlo,not_lt.mp hhi]))
    omega

end

/-- Of the volumes the mount accepts, those are safe whose groups fit the bitmaps and the descriptor table. -/
theorem ext2_geometry_safe (hm : mountSetup sb gds nblocks alloc target=some m) (hblocks : sb.blocksCount<2^32) :
    GeometrySafe m ↔ Bounded sb := by
  have hsb:=(mountSetup_some hm).1
  exact ⟨fun h => hsb ▸ h.bounded hm hblocks,fun h => Bounded.safe hm hblocks (hsb ▸ h)⟩

end

theorem ext2_geometry_safe_small : ∃ m,mountSetup (plainSuperblock 1024) plainGroups 2048
    (fun _ => true) .ext2=some m ∧ GeometrySafe m := by
  have hm : mountSetup (plainSuperblock 1024) plainGroups 2048 (fun _ => true) .ext2 =
      some ⟨plainSuperblock 1024,plainGroups,1,1024,128⟩ := rfl
  refine ⟨_,hm,(ext2_geometry_safe hm (by decide)).mpr ⟨by decide,by decide,by decide,by decide,?_⟩⟩
  intro g _ b hb hout
  exact absurd (hout.trans_lt hb) (by decide)

def wideSuperblock : Superblock := {plainSuperblock 20000 with blocksPerGroup := 16384}

theorem ext2_bit_beyond_bitmap : ∃ m,mountSetup wideSuperblock plainGroups 40000 (fun _ => true) .ext2=some m ∧
    freeBlockUse m 10001=some (0,[10000]) ∧ 8*m.blockSize=8192 := by
  have hm : mountSetup wideSuperblock plainGroups 40000 (fun _ => true) .ext2 =
      some ⟨wideSuperblock,plainGroups,2,1024,128⟩ := rfl
  refine ⟨_,hm,?_,rfl⟩
  rfl

end Auxv6.Fs.Ext2

import Auxv6.Fs.Ext2.Device
import Mathlib.Data.BitVec

/-!
# Mounting ext2 and where its blocks lie (fs/ext_common.c, fs/vfs_ext2.c)

The checks of `ext_mount_probe_superblock`, what `ext2_mount_setup` keeps of the
superblock, and the byte positions of blocks, bitmaps and inodes. Every position is a
`uint`: it is the one of its block as long as the volume has at most `2 ^ 32` bytes.
The volume's name, times and check counters are left out.
-/

namespace Auxv6.Fs.Ext2
open Nat

structure Superblock where
  inodesCount : ℕ
  blocksCount : ℕ
  firstDataBlock : ℕ
  logBlockSize : ℕ
  blocksPerGroup : ℕ
  inodesPerGroup : ℕ
  magic : ℕ
  revLevel : ℕ
  firstIno : ℕ
  inodeSize : ℕ
  featureCompat : BitVec 32
  featureIncompat : BitVec 32
  featureRoCompat : BitVec 32
  journalInum : ℕ
  journalDev : ℕ
  deriving DecidableEq

inductive MountTarget where
  | ext2 | ext3
  deriving DecidableEq

inductive RejectReason where
  | badMagic | badGeometry | badBlockSize | badInodeSize | missingDynamicRev | ext2OnJournaled
  | ext3NoJournal | unsupportedCompat | unsupportedIncompat | unsupportedRoCompat | externalJournal
  | needsRecovery
  deriving DecidableEq

def superMagic : ℕ := 0xEF53
def goodOldInodeSize : ℕ := 128

def compatDirPrealloc : BitVec 32 := 0x0001
def compatImagicInodes : BitVec 32 := 0x0002
def compatHasJournal : BitVec 32 := 0x0004
def compatExtAttr : BitVec 32 := 0x0008
def compatResizeInode : BitVec 32 := 0x0010
def compatDirIndex : BitVec 32 := 0x0020
def incompatFiletype : BitVec 32 := 0x0002
def incompatRecover : BitVec 32 := 0x0004
def incompatJournalDev : BitVec 32 := 0x0008
def roCompatSparseSuper : BitVec 32 := 0x0001
def roCompatLargeFile : BitVec 32 := 0x0002

/-- `1024U << s_log_block_size`, where the machine takes the shift count modulo 32. -/
def blockSizeOf (sb : Superblock) : ℕ := word (1024*2^(sb.logBlockSize%32))

def inodeSizeOf (sb : Superblock) : ℕ := if sb.inodeSize=0 then goodOldInodeSize else sb.inodeSize
def compatAllowed (target : MountTarget) : BitVec 32 :=
  compatDirPrealloc ||| compatImagicInodes ||| compatExtAttr ||| compatResizeInode ||| compatDirIndex |||
    if target=.ext3 then compatHasJournal else 0

/-- `ext_common.c:48-161`. -/
def probeSuperblock (sb : Superblock) (target : MountTarget) : Except RejectReason (ℕ × ℕ) :=
  let blockSize:=blockSizeOf sb
  let inodeSize:=inodeSizeOf sb
  if sb.magic≠superMagic then .error .badMagic
  else if sb.blocksCount ≤ sb.firstDataBlock ∨ sb.blocksPerGroup=0 ∨ sb.inodesPerGroup=0 then .error .badGeometry
  else if blockSize<1024 ∨ blockSize > 4096 then .error .badBlockSize
  else if inodeSize<goodOldInodeSize ∨ inodeSize > blockSize ∨ inodeSize%4≠0 then .error .badInodeSize
  else if target=.ext3 ∧ sb.revLevel<1 then .error .missingDynamicRev
  else if sb.featureCompat &&& compatHasJournal≠0 ∧ target=.ext2 then .error .ext2OnJournaled
  else if target=.ext3 ∧ sb.featureCompat &&& compatHasJournal=0 then .error .ext3NoJournal
  else if sb.featureIncompat &&& incompatJournalDev≠0 ∨ sb.journalDev≠0 then .error .externalJournal
  else if target=.ext3 ∧ sb.journalInum=0 then .error .ext3NoJournal
  else if sb.featureIncompat &&& incompatRecover≠0 then .error .needsRecovery
  else if sb.featureCompat &&& ~~~ compatAllowed target≠0 then .error .unsupportedCompat
  else if sb.featureIncompat &&& ~~~ incompatFiletype≠0 then .error .unsupportedIncompat
  else if sb.featureRoCompat &&& ~~~ (roCompatSparseSuper ||| roCompatLargeFile)≠0 then
    .error .unsupportedRoCompat
  else .ok (blockSize,inodeSize)

structure GroupDesc where
  blockBitmap : ℕ
  inodeBitmap : ℕ
  inodeTable : ℕ
  deriving DecidableEq

def groupDescSize : ℕ := 32
def mountDataSize : ℕ := 372

structure MountData where
  sb : Superblock
  groupDescs : ℕ → GroupDesc
  groupCount : ℕ
  blockSize : ℕ
  inodeSize : ℕ

def groupCountOf (sb : Superblock) : ℕ :=
  word (sb.blocksCount-sb.firstDataBlock+sb.blocksPerGroup-1)/sb.blocksPerGroup

/-- `vfs_ext2.c:2905-2979`: the superblock and group descriptors are those on the
device, `nblocks` is the device's size and `alloc` what `kmalloc` does. -/
def mountSetup (sb : Superblock) (gds : ℕ → GroupDesc) (nblocks : ℕ) (alloc : ℕ → Bool) (target : MountTarget) :
    Option MountData :=
  if nblocks=0 then none
  else
    match probeSuperblock sb target with
    | .error _ => none
    | .ok (blockSize,inodeSize) =>
      let gdBytes:=word (groupCountOf sb*groupDescSize)
      let totalBytes:=word (mountDataSize+gdBytes)
      if gdBytes=0 ∨ totalBytes < mountDataSize ∨ totalBytes<gdBytes then none
      else if ¬ alloc totalBytes then none
      else some ⟨sb,gds,groupCountOf sb,blockSize,inodeSize⟩

def blockOff (m : MountData) (b : ℕ) : ℕ := word (b*m.blockSize)

/-- `vfs_ext2.c:148-169`. -/
def inodeDiskOffset (m : MountData) (inum : ℕ) : Option ℕ :=
  if inum=0 ∨ inum > m.sb.inodesCount then none
  else if m.inodeSize<goodOldInodeSize then none
  else
    let group:=(inum-1)/m.sb.inodesPerGroup
    let index:=(inum-1)%m.sb.inodesPerGroup
    if group ≥ m.groupCount then none
    else some (word (word ((m.groupDescs group).inodeTable*m.blockSize)+word (index*m.inodeSize)))

def sectorsOf (a n : ℕ) : Set ℕ := { s | ∃ i<n,(a+i)/sectorSize=s }
def Visits (off n a : ℕ) : Prop := ∀ s,s∈devSectors off n ↔ s∈sectorsOf a n

lemma visits_iff {off n a : ℕ} (hoff : word a=off) (hn : 0<n) : Visits off n a ↔ a+n≤2^32 := by
  subst hoff
  constructor
  · intro h
    -- the last sector is beyond every `uint`
    have hlast : (a+(n-1))/sectorSize∈sectorsOf a n := ⟨n-1,by omega,rfl⟩
    obtain ⟨i,-,hi⟩:=mem_devSectors.mp ((h _).mpr hlast)
    have := word_lt (word a+i)
    rw [sectorSize] at hi
    omega
  · intro h s
    rw [mem_devSectors]
    refine exists_congr fun i => and_congr_right fun hi => ?_
    rw [word_word_add,word_of_lt (by omega)]

structure BlockSize (bs : ℕ) : Prop where
  sectors : sectorSize ∣ bs
  words : bs ∣ 2^32
  pos : 0<bs
  le : bs≤4096

lemma blockSizeOf_ok {sb : Superblock} (h : 1024≤blockSizeOf sb) (h' : blockSizeOf sb≤4096) :
    BlockSize (blockSizeOf sb) := by
  have hall : ∀ k<32,1024≤word (1024*2^k) → word (1024*2^k)≤4096 →
      sectorSize ∣ word (1024*2^k) ∧ word (1024*2^k) ∣ 2^32 := by decide
  obtain ⟨hsec,hword⟩:=hall _ (mod_lt _ (by decide)) h h'
  exact ⟨hsec,hword,by omega,h'⟩

section

variable {sb : Superblock} {gds : ℕ → GroupDesc} {nblocks : ℕ} {alloc : ℕ → Bool} {target : MountTarget}
  {m : MountData}

lemma of_check_ok {ε α : Type} {c : Prop} [Decidable c] {e : ε} {x : Except ε α} {r : α}
    (h : (if c then .error e else x)=.ok r) : ¬ c ∧ x=.ok r := by
  by_cases hc : c
  · rw [if_pos hc] at h
    cases h
  · exact ⟨hc,(if_neg hc).symm.trans h⟩

lemma probeSuperblock_ok {bs is : ℕ} (h : probeSuperblock sb target=.ok (bs,is)) :
    BlockSize bs ∧ goodOldInodeSize ≤ is ∧ is≤bs ∧ sb.firstDataBlock<sb.blocksCount ∧
      0<sb.blocksPerGroup ∧ 0<sb.inodesPerGroup ∧ bs=blockSizeOf sb := by
  obtain ⟨-,h⟩:=of_check_ok h
  obtain ⟨hgeo,h⟩:=of_check_ok h
  obtain ⟨hbs,h⟩:=of_check_ok h
  obtain ⟨his,h⟩:=of_check_ok h
  obtain ⟨-,h⟩:=of_check_ok h
  obtain ⟨-,h⟩:=of_check_ok h
  obtain ⟨-,h⟩:=of_check_ok h
  obtain ⟨-,h⟩:=of_check_ok h
  obtain ⟨-,h⟩:=of_check_ok h
  obtain ⟨-,h⟩:=of_check_ok h
  obtain ⟨-,h⟩:=of_check_ok h
  obtain ⟨-,h⟩:=of_check_ok h
  obtain ⟨-,h⟩:=of_check_ok h
  cases h
  exact ⟨blockSizeOf_ok (by omega) (by omega),by omega,by omega,by omega,by omega,by omega,rfl⟩

lemma mountSetup_some (h : mountSetup sb gds nblocks alloc target=some m) :
    m.sb=sb ∧ BlockSize m.blockSize ∧ goodOldInodeSize ≤ m.inodeSize ∧ m.inodeSize ≤ m.blockSize ∧
      m.sb.firstDataBlock < m.sb.blocksCount ∧ 0 < m.sb.blocksPerGroup ∧ 0 < m.sb.inodesPerGroup ∧
      m.blockSize=blockSizeOf m.sb ∧ m.groupCount=groupCountOf m.sb ∧ word (m.groupCount*groupDescSize)≠0 := by
  rw [mountSetup] at h
  split_ifs at h with hn
  rcases hp : probeSuperblock sb target with r | ⟨bs,is⟩
  · rw [hp] at h
    cases h
  rw [hp] at h
  dsimp only at h
  split_ifs at h with hbytes
  cases h
  obtain ⟨h1,h2,h3,h4,h5,h6,h7⟩:=probeSuperblock_ok hp
  exact ⟨rfl,h1,h2,h3,h4,h5,h6,h7,rfl,fun h0 => hbytes (.inl h0)⟩

def inodePos (m : MountData) (inum : ℕ) : ℕ :=
  (m.groupDescs ((inum-1)/m.sb.inodesPerGroup)).inodeTable*m.blockSize + (inum-1)%m.sb.inodesPerGroup*m.inodeSize

lemma inodeDiskOffset_some {inum off : ℕ} (h : inodeDiskOffset m inum=some off) : word (inodePos m inum)=off := by
  rw [inodeDiskOffset] at h
  dsimp only at h
  split_ifs at h
  cases h
  exact add_mod ..

/-- Every access goes to the sectors of its block: the accesses inside a block, those to the
bitmaps, and those to the inodes of the tables that lie in the volume. No two blocks share a sector. -/
structure SectorsExact (m : MountData) : Prop where
  block : ∀ b < m.sb.blocksCount,∀ boff n,boff+n ≤ m.blockSize →
    Visits (word (blockOff m b+boff)) n (b*m.blockSize+boff)
  bitmap : ∀ g < m.groupCount,∀ b,b=(m.groupDescs g).blockBitmap ∨ b=(m.groupDescs g).inodeBitmap →
    b < m.sb.blocksCount → Visits (blockOff m b) m.blockSize (b*m.blockSize)
  inode : ∀ inum off,inodeDiskOffset m inum=some off → inodePos m inum+m.inodeSize ≤ m.sb.blocksCount*m.blockSize →
    Visits off m.inodeSize (inodePos m inum) ∧ Visits off goodOldInodeSize (inodePos m inum)
  apart : ∀ b < m.sb.blocksCount,∀ b' < m.sb.blocksCount,b≠b' → ∀ s,
    s∈devSectors (blockOff m b) m.blockSize → s∉devSectors (blockOff m b') m.blockSize

lemma visits_block (b boff n : ℕ) (hvol : m.sb.blocksCount*m.blockSize≤2^32) (hb : b < m.sb.blocksCount)
    (hn : boff+n ≤ m.blockSize) : Visits (word (blockOff m b+boff)) n (b*m.blockSize+boff) := by
  have hblock : b*m.blockSize+m.blockSize ≤ m.sb.blocksCount*m.blockSize := by
    rw [← Nat.succ_mul]
    exact Nat.mul_le_mul_right _ hb
  rcases Nat.eq_zero_or_pos n with rfl | hpos
  · exact fun _ => ⟨(fun h => by cases h),fun ⟨_,hi,_⟩ => absurd hi (not_lt_zero _)⟩
  · exact (visits_iff (word_word_add _ _).symm hpos).mpr (by omega)

lemma sectorsOf_apart {bs b b' s : ℕ} (hbs : BlockSize bs) (h : s∈sectorsOf (b*bs) bs)
    (h' : s∈sectorsOf (b'*bs) bs) : b=b' := by
  obtain ⟨k,rfl⟩:=hbs.sectors
  have hof : ∀ c,s∈sectorsOf (c*(sectorSize*k)) (sectorSize*k) → s/k=c := by
    rintro c ⟨i,hi,rfl⟩
    have hsec : 0<sectorSize := by decide
    have hk : i/sectorSize<k := Nat.div_lt_of_lt_mul hi
    rw [show c*(sectorSize*k)=sectorSize*(k*c) by ring,Nat.mul_add_div hsec,Nat.mul_add_div (Nat.zero_lt_of_lt hk),
      Nat.div_eq_of_lt hk,Nat.add_zero]
  exact (hof b h).symm.trans (hof b' h')

/-- A mounted volume is addressed right exactly when its bytes have 32-bit positions. -/
theorem ext2_sectors_exact (hm : mountSetup sb gds nblocks alloc target=some m) :
    SectorsExact m ↔ m.sb.blocksCount*m.blockSize≤2^32 := by
  obtain ⟨-,hbs,hisMin,hisMax,hfirst,-⟩:=mountSetup_some hm
  constructor
  · intro h
    have hlast:=h.block (m.sb.blocksCount-1) (by omega) 0 m.blockSize (by omega)
    have := (visits_iff (word_word_add _ _).symm hbs.pos).mp hlast
    rwa [Nat.add_zero,← Nat.succ_mul,Nat.succ_eq_add_one,Nat.sub_add_cancel (by omega)] at this
  intro hvol
  have hblock : ∀ b < m.sb.blocksCount,Visits (blockOff m b) m.blockSize (b*m.blockSize) := by
    intro b hb
    have := visits_block b 0 m.blockSize hvol hb (by omega)
    rwa [Nat.add_zero,Nat.add_zero,blockOff,word_of_lt (word_lt _)] at this
  refine ⟨fun b hb boff n hn => visits_block b boff n hvol hb hn,fun g _ b _ hb => hblock b hb,?_,?_⟩
  · intro inum off hoff hin
    have hword:=inodeDiskOffset_some hoff
    have hsize : 0<goodOldInodeSize := by decide
    exact ⟨(visits_iff hword (by omega)).mpr (by omega),(visits_iff hword hsize).mpr (by omega)⟩
  · intro b hb b' hb' hne s hs hs'
    exact hne (sectorsOf_apart hbs ((hblock b hb s).mp hs) ((hblock b' hb' s).mp hs'))

end

def plainSuperblock (blocks : ℕ) : Superblock := ⟨128,blocks,1,0,8192,128,superMagic,0,11,128,0,0,0,0,0⟩
def plainGroups : ℕ → GroupDesc := fun g => ⟨8192*g+3,8192*g+4,8192*g+5⟩

theorem ext2_sectors_exact_small : ∃ m,mountSetup (plainSuperblock 1024) plainGroups 2048
    (fun _ => true) .ext2=some m ∧ SectorsExact m := by
  have hm : mountSetup (plainSuperblock 1024) plainGroups 2048 (fun _ => true) .ext2 =
      some ⟨plainSuperblock 1024,plainGroups,1,1024,128⟩ := rfl
  exact ⟨_,hm,(ext2_sectors_exact hm).mpr (by decide)⟩
theorem ext2_blocks_share_sector : ∃ m,mountSetup (plainSuperblock (3*2^21)) plainGroups (3*2^22)
      (fun _ => true) .ext2=some m ∧ 100+2^22 < m.sb.blocksCount ∧ 200∈devSectors (blockOff m 100) m.blockSize ∧
      200∈devSectors (blockOff m (100+2^22)) m.blockSize :=
  ⟨_,rfl,by decide,mem_devSectors.mpr ⟨0,by decide,by decide⟩,mem_devSectors.mpr ⟨0,by decide,by decide⟩⟩

end Auxv6.Fs.Ext2

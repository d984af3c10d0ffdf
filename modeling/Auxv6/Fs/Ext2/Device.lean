import Auxv6.Lib.ByteMemory

/-!
# Device accesses of ext2 (fs/vfs_ext2.c)

`ext2_dev_read` and `ext2_dev_write` take a byte position as a `uint` and cut the access
into turns, each inside one 512-byte sector. The bytes that a turn copies are left out.
-/

namespace Auxv6.Fs.Ext2
open Nat

abbrev Byte := UInt8

def sectorSize : ℕ := 512
def word (n : ℕ) : ℕ := n%2^32

structure Span where
  done : ℕ
  sector : ℕ
  boff : ℕ
  take : ℕ

/-- The loop of `ext2_dev_read` and `ext2_dev_write` (`vfs_ext2.c:216-240`, `254-282`). -/
def devSpans (off n : ℕ) : ℕ → ℕ → List Span
  | 0, _ => []
  | fuel+1, done =>
    if done<n then
      let cur:=word (off+done)
      let take:=min (sectorSize-cur%sectorSize) (n-done)
      ⟨done,cur/sectorSize,cur%sectorSize,take⟩::devSpans off n fuel (done+take)
    else []

def devSectors (off n : ℕ) : List ℕ := (devSpans off n n 0).map Span.sector

section

variable {off n done : ℕ}

lemma word_of_lt (h : n<2^32) : word n=n := mod_eq_of_lt h
lemma word_lt (n : ℕ) : word n<2^32 := Nat.mod_lt _ (Nat.two_pow_pos 32)
lemma word_word_add (a b : ℕ) : word (word a+b)=word (a+b) := mod_add_mod a (2^32) b

lemma span_pos (off done : ℕ) {take j : ℕ} (htake : take ≤ sectorSize-word (off+done)%sectorSize) (hj : j<take) :
    word (off+done)/sectorSize*sectorSize+word (off+done)%sectorSize+j=word (off+(done+j)) := by
  rw [div_add_mod']
  rw [sectorSize,word] at htake
  rw [word,word]
  omega

lemma span_take_pos (off : ℕ) (h : done<n) : 0 < min (sectorSize-word (off+done)%sectorSize) (n-done) := by
  have : word (off+done)%sectorSize<sectorSize := mod_lt _ (by decide)
  omega

lemma mem_devSpans_sector (s fuel done : ℕ) (hfuel : n-done≤fuel) :
    s∈(devSpans off n fuel done).map Span.sector ↔ ∃ i,done ≤ i ∧ i<n ∧ word (off+i)/sectorSize=s := by
  induction fuel generalizing done with
  | zero =>
    exact ⟨(fun h => by cases h),fun ⟨i,hi,hlt,_⟩ => by omega⟩
  | succ fuel ih =>
    rw [devSpans]
    by_cases h : done<n
    · have hpos:=span_take_pos off h
      rw [if_pos h]
      dsimp only
      generalize htake : min (sectorSize-word (off+done)%sectorSize) (n-done)=take at *
      have hle : take ≤ sectorSize-word (off+done)%sectorSize := by omega
      rw [List.map_cons,List.mem_cons,ih _ (by omega)]
      -- the positions of this turn are all in its sector
      have hsame : ∀ i,done ≤ i → i<done+take → word (off+i)/sectorSize=word (off+done)/sectorSize := by
        intro i hi hlt
        have := span_pos off done hle (j := i-done) (by omega)
        rw [Nat.add_sub_cancel' hi] at this
        rw [← this]
        simp only [sectorSize,word] at htake ⊢
        omega
      constructor
      · rintro (rfl | ⟨i,hi,hlt,hs⟩)
        · exact ⟨done,le_rfl,h,rfl⟩
        · exact ⟨i,by omega,hlt,hs⟩
      rintro ⟨i,hi,hlt,hs⟩
      rcases Nat.lt_or_ge i (done+take) with hin | hout
      · exact .inl (hs.symm.trans (hsame i hi hin))
      · exact .inr ⟨i,hout,hlt,hs⟩
    · rw [if_neg h]
      exact ⟨(fun h => by cases h),fun ⟨i,hi,hlt,_⟩ => by omega⟩

lemma mem_devSectors {s : ℕ} : s∈devSectors off n ↔ ∃ i<n,word (off+i)/sectorSize=s := by
  rw [devSectors,mem_devSpans_sector s n 0 (sub_le _ _)]
  simp only [zero_le,true_and]

end

end Auxv6.Fs.Ext2

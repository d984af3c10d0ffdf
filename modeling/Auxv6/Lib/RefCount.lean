import Mathlib.Data.Fintype.Card
import Mathlib.Data.Fintype.Prod
import Mathlib.Data.Set.Card
import Mathlib.Tactic.Linarith

/-!
# Counting the references of a finite table

A table `m : ι → Option α` over a finite type of slots refers to objects of `α`.
`refs m g` is the number of slots that refer to `g`.
-/

namespace Auxv6.Lib.RefCount

open Function Finset

universe u v

variable {ι : Type u} {α : Type v} [Fintype ι] [DecidableEq α]

def refs (m : ι → Option α) (g : α) : ℕ := (univ.filter fun i => m i=some g).card

lemma refs_eq_ncard (m : ι → Option α) (g : α) : refs m g = { i | m i=some g }.ncard := by
  rw [refs,← Set.ncard_coe_finset]
  simp
lemma refs_le (m : ι → Option α) (g : α) : refs m g≤Fintype.card ι := card_le_univ _

variable {m : ι → Option α} {g : α}

lemma refs_pos_iff : 0<refs m g ↔ ∃ i,m i=some g := by
  simp [refs,card_pos,Finset.Nonempty]
lemma refs_eq_zero_iff : refs m g=0 ↔ ∀ i,m i≠some g := by
  simp [refs,filter_eq_empty_iff]

lemma refs_update [DecidableEq ι] (m : ι → Option α) (i : ι) (o : Option α) (g : α) :
    refs (update m i o) g+(if m i=some g then 1 else 0)=refs m g+(if o=some g then 1 else 0) := by
  have hsplit : ∀ m' : ι → Option α,refs m' g =
      (if m' i=some g then 1 else 0)+((univ.erase i).filter fun j => m' j=some g).card := by
    intro m'
    rw [refs,← insert_erase (mem_univ i),filter_insert]
    split
    · rw [card_insert_of_notMem (by simp),erase_insert (by simp)]
      omega
    · simp
  have hrest : ((univ.erase i).filter fun j => update m i o j=some g) =
      (univ.erase i).filter fun j => m j=some g := by
    apply filter_congr
    intro j hj
    rw [update_of_ne (ne_of_mem_erase hj)]
  rw [hsplit (update m i o),hsplit m,hrest,update_self]
  omega

lemma eq_of_refs_eq_one (h : refs m g=1) {i j : ι} (hi : m i=some g) (hj : m j=some g) : i=j :=
  card_le_one.mp (le_of_eq h) i (by simpa using hi) j (by simpa using hj)
lemma refs_congr {m' : ι → Option α} (h : ∀ i,m i=m' i) (g : α) : refs m g=refs m' g := by
  rw [funext h]

end Auxv6.Lib.RefCount

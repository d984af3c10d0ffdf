import Mathlib.Data.BitVec
import Mathlib.Tactic

/-!
# Sequence numbers

A sequence number is the residue of a stream position modulo `2 ^ w`. Two are compared by the sign of
their difference.
-/

namespace Auxv6.Lib.SeqSpace
open Int BitVec

variable {w : ℕ} {b : BitVec w} {m n : ℤ}

def place (b : BitVec w) (n : ℤ) : BitVec w := b+(n : BitVec w)

/-- The comparison `(int)(x - y) <= 0`. -/
def leq (x y : BitVec w) : Prop := (x-y).toInt≤0
  deriving Decidable

@[simp] lemma place_zero : place b 0=b := by simp [place]
lemma place_add (k : ℤ) : place b n+(k : BitVec w)=place b (n+k) := by
  simp only [place,cast_add]
  ring
lemma place_add_one : place b n+1=place b (n+1) := by
  have h:=place_add (b := b) (n := n) 1
  rwa [cast_one] at h
lemma place_add_ofNat (k : ℕ) : place b n+BitVec.ofNat w k=place b (n+k) := by
  rw [← place_add,cast_natCast]
  rfl

lemma toInt_place_sub : (place b m-place b n).toInt=(m-n).bmod (2^w) := by
  have h : place b m-place b n=((m-n : ℤ) : BitVec w) := by
    simp only [place,cast_sub]
    ring
  rw [h]
  exact toInt_ofInt _

lemma place_eq_iff : place b m=place b n ↔ (2^w : ℤ) ∣ m-n := by
  have hz : place b m=place b n ↔ (place b m-place b n).toInt=0 := by
    rw [← sub_eq_zero,← toInt_inj]
    exact Iff.of_eq (congrArg _ toInt_zero)
  rw [hz,toInt_place_sub]
  constructor
  · intro h
    have hd:=dvd_self_sub_bmod (x := m-n) (m := 2^w)
    rw [h] at hd
    simpa using hd
  · intro h
    exact bmod_eq_zero_of_dvd (by exact_mod_cast h)

lemma place_inj (h : place b m=place b n) (hm : m<n+2^w) (hn : n < m+2^w) : m=n := by
  obtain ⟨k,hk⟩:=place_eq_iff.mp h
  have hk1 : k<1 := by
    nlinarith
  have hk2 : -1<k := by
    nlinarith
  obtain rfl : k=0 := by omega
  omega

lemma toNat_place_sub (h : n ≤ m) (hlt : m<n+2^w) : ((place b m-place b n).toNat : ℤ)=m-n := by
  obtain ⟨k,hk⟩:=eq_ofNat_of_zero_le (sub_nonneg.mpr h)
  have hd : place b m-place b n=BitVec.ofNat w k := by
    have hm : place b m=place b n+BitVec.ofNat w k := by
      rw [place_add_ofNat]
      congr 1
      omega
    rw [hm]
    ring
  have hlt' : k<2^w := by
    have : (k : ℤ)<(2^w : ℕ) := by
      push_cast
      omega
    exact_mod_cast this
  rw [hd,BitVec.toNat_ofNat,Nat.mod_eq_of_lt hlt',hk]

lemma place_sub_toNat (x : BitVec w) : place b (n-((place b n-x).toNat : ℤ))=x := by
  have h : place b (n-((place b n-x).toNat : ℤ))+BitVec.ofNat w (place b n-x).toNat=place b n := by
    rw [place_add_ofNat]
    congr 1
    omega
  rw [BitVec.ofNat_toNat,BitVec.setWidth_eq] at h
  calc place b (n - ((place b n - x).toNat : ℤ))
      = place b (n-((place b n-x).toNat : ℤ))+(place b n-x)-(place b n-x) := by ring
    _ = x := by rw [h]; ring

lemma leq_place (hw : 0<w) (hn : n ≤ m+2^(w-1)) (hm : m<n+2^(w-1)) : leq (place b m) (place b n) ↔ m≤n := by
  have h2 : (2 : ℤ)^w=2*2^(w-1) := by
    rw [← pow_succ',Nat.sub_add_cancel hw]
  have hb : (m-n).bmod (2^w)=m-n := by
    apply bmod_eq_of_le_mul_two <;> push_cast <;> omega
  rw [leq,toInt_place_sub,hb]
  omega

end Auxv6.Lib.SeqSpace

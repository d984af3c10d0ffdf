import Mathlib.Data.List.GetD
import Mathlib.Tactic

/-!
# Little-endian words in a byte memory

A memory is a function from addresses to bytes. `load32` and `store32` access four bytes;
a store is seen by the load of its own word and by no load that is apart from it.
-/

namespace Auxv6.Lib.ByteMemory
open List UInt8

abbrev Bytes := ℕ → UInt8

def load32 (m : Bytes) (a : ℕ) : ℕ := (m a).toNat+2^8*(m (a+1)).toNat+2^16*(m (a+2)).toNat+2^24*(m (a+3)).toNat

def store32 (m : Bytes) (a v : ℕ) : Bytes := fun x =>
  if x=a then ofNat v
  else if x=a+1 then ofNat (v/2^8)
  else if x=a+2 then ofNat (v/2^16)
  else if x=a+3 then ofNat (v/2^24)
  else m x

def le32 (v : ℕ) : List UInt8 := [ofNat v,ofNat (v/2^8),ofNat (v/2^16),ofNat (v/2^24)]

variable {m m' : Bytes} {a b v x i : ℕ} {ws : List ℕ}

lemma load32_lt (m : Bytes) (a : ℕ) : load32 m a<2^32 := by
  have h0:=(m a).toNat_lt
  have h1:=(m (a+1)).toNat_lt
  have h2:=(m (a+2)).toNat_lt
  have h3:=(m (a+3)).toNat_lt
  rw [load32]
  omega

lemma load32_congr (h : ∀ x,a≤x → x<a+4 → m' x=m x) : load32 m' a=load32 m a := by
  rw [load32,load32,h a (by omega) (by omega),h (a+1) (by omega) (by omega),
    h (a+2) (by omega) (by omega),h (a+3) (by omega) (by omega)]
lemma store32_of_apart (h : x<a ∨ a+4≤x) : store32 m a v x=m x := by
  rw [store32,if_neg (by omega),if_neg (by omega),if_neg (by omega),if_neg (by omega)]
lemma load32_store32_of_apart (h : b+4≤a ∨ a+4≤b) : load32 (store32 m a v) b=load32 m b :=
  load32_congr fun x _ _ => store32_of_apart (by omega)

lemma load32_store32 (hv : v<2^32) : load32 (store32 m a v) a=v := by
  have h0 : store32 m a v a=ofNat v := if_pos rfl
  have h1 : store32 m a v (a+1)=ofNat (v/2^8) := by
    rw [store32,if_neg (by omega),if_pos rfl]
  have h2 : store32 m a v (a+2)=ofNat (v/2^16) := by
    rw [store32,if_neg (by omega),if_neg (by omega),if_pos rfl]
  have h3 : store32 m a v (a+3)=ofNat (v/2^24) := by
    rw [store32,if_neg (by omega),if_neg (by omega),if_neg (by omega),if_pos rfl]
  rw [load32,h0,h1,h2,h3]
  simp only [toNat_ofNat']
  omega

lemma load32_le32 (hv : v<2^32) (h : ∀ j<4,m (a+j)=(le32 v).getD j 0) : load32 m a=v := by
  have h0 : m a=ofNat v := h 0 (by decide)
  have h1 : m (a+1)=ofNat (v/2^8) := h 1 (by decide)
  have h2 : m (a+2)=ofNat (v/2^16) := h 2 (by decide)
  have h3 : m (a+3)=ofNat (v/2^24) := h 3 (by decide)
  rw [load32,h0,h1,h2,h3]
  simp only [toNat_ofNat']
  omega

lemma length_flatMap_le32 (ws : List ℕ) : (ws.flatMap le32).length=4*ws.length := by
  induction ws with
  | nil => rfl
  | cons w ws ih =>
    rw [flatMap_cons,length_append,ih,length_cons]
    have : (le32 w).length=4 := rfl
    omega

lemma getD_flatMap_le32 (hi : ws[i]? = some v) {j : ℕ} (hj : j<4) :
    (ws.flatMap le32).getD (4*i+j) 0=(le32 v).getD j 0 := by
  induction ws generalizing i with
  | nil => cases hi
  | cons w ws ih =>
    have hlen : (le32 w).length=4 := rfl
    rw [flatMap_cons]
    cases i with
    | zero =>
      cases hi
      rw [Nat.mul_zero,Nat.zero_add,getD_append _ _ _ _ (by omega)]
    | succ i =>
      rw [getD_append_right _ _ _ _ (by omega),hlen,show 4*(i+1)+j-4=4*i+j by omega]
      exact ih hi

lemma load32_flatMap (hm : ∀ j<4*ws.length,m (a+j)=(ws.flatMap le32).getD j 0)
    (hi : ws[i]? = some v) (hv : v<2^32) : load32 m (a+4*i)=v := by
  obtain ⟨hlt,-⟩:=List.getElem?_eq_some_iff.mp hi
  refine load32_le32 hv fun j hj => ?_
  rw [Nat.add_assoc,hm _ (by omega),getD_flatMap_le32 hi hj]

end Auxv6.Lib.ByteMemory

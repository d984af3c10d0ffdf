import Mathlib.Tactic

/-!
# Machine words and the physical memory map (include/memlayout.h, mmu.h, types.h)

A `uint` is a natural number below `wordMod`; the operations that can wrap say so.
-/

namespace Auxv6.Machine
open List Nat

def wordMod : ℕ := 2^32
def uintAdd (a b : ℕ) : ℕ := (a+b)%wordMod
def uintSub (a b : ℕ) : ℕ := (a+wordMod-b)%wordMod
def uintToInt (a : ℕ) : Int := if a<2^31 then a else (a : Int)-wordMod

def pgsize : ℕ := 4096
def kernbase : ℕ := 0x80000000
def extmem : ℕ := 0x100000
def devspace : ℕ := 0xFE000000
def physTop : ℕ := 0x20000000
def bootEarlyPhystop : ℕ := 0x01000000
def ncpu : ℕ := 8

def bootCpu : Fin ncpu := ⟨0,by decide⟩
def npages : ℕ := physTop/pgsize
def p2v (pa : ℕ) : ℕ := pa+kernbase
def pgrounddown (a : ℕ) : ℕ := a/pgsize*pgsize
def pgroundup (a : ℕ) : ℕ := pgrounddown ((a+(pgsize-1))%wordMod)

variable {a : ℕ}

lemma uintAdd_of_lt {b : ℕ} (h : a+b<wordMod) : uintAdd a b=a+b := mod_eq_of_lt h
lemma uintSub_of_le {b : ℕ} (hb : b≤a) (ha : a<wordMod) : uintSub a b=a-b := by
  have h : a+wordMod-b=a-b+wordMod := by omega
  rw [uintSub,h,add_mod_right,mod_eq_of_lt (by omega)]
lemma uintToInt_of_lt (h : a<2^31) : uintToInt a=a := if_pos h
lemma pgrounddown_le (va : ℕ) : pgrounddown va≤va := div_mul_le_self ..
lemma lt_pgrounddown_add (va : ℕ) : va<pgrounddown va+pgsize := by
  simp only [pgrounddown,pgsize]
  omega
lemma next_page {va : ℕ} (h : pgrounddown va<kernbase) : (pgrounddown va+pgsize)%wordMod=pgrounddown va+pgsize :=
  mod_eq_of_lt (by simp only [pgsize,wordMod,kernbase] at *; omega)
lemma npages_eq : npages=131072 := rfl
lemma some_bind.{u} {α β : Type u} (a : α) (f : α → Option β) : (some a >>= f)=f a := rfl

lemma finRange_find?_lt {n : ℕ} {P : Fin n → Bool} {i q : Fin n} (h : (List.finRange n).find? P=some i)
    (hq : q < i) : P q=false := by
  obtain ⟨-,l1,l2,heq,hl1⟩:=List.find?_eq_some_iff_append.mp h
  have hord : (l1++i::l2).Pairwise (· < ·) := heq ▸ pairwise_lt_finRange n
  have hmem : q∈l1++i::l2 := heq ▸ mem_finRange q
  rcases mem_append.mp hmem with hm | hm
  · simpa using hl1 q hm
  rcases mem_cons.mp hm with rfl | hm
  · exact absurd hq (lt_irrefl q)
  · have := (pairwise_cons.mp (pairwise_append.mp hord).2.1).1 q hm
    exact absurd hq this.asymm

end Auxv6.Machine

import Mathlib.Tactic

/-!
# Ring buffers with free-running counters

Read and write counters run modulo `M`, a multiple of the capacity. `Rep` relates a ring to what was
ever put in and what was ever taken out.
-/

namespace Auxv6.Lib.Ring

universe u
open List Nat

variable {α : Type u}

structure Buf (α : Type u) where
  data : ℕ → α
  rd : ℕ
  wr : ℕ

variable (cap M : ℕ)

def Buf.put (r : Buf α) (xs : List α) : Buf α :=
  { r with
    data := fun k => (if r.wr%cap≤k then xs[k-r.wr%cap]? else none).getD (r.data k)
    wr := (r.wr+xs.length)%M }
def Buf.peek (r : Buf α) (n : ℕ) : List α := (range n).map fun k => r.data (r.rd%cap+k)
def Buf.advance (r : Buf α) (n : ℕ) : Buf α := {r with rd := (r.rd+n)%M}

structure Rep (r : Buf α) (out inp : List α) : Prop where
  isPrefix : out <+: inp
  fits : inp.length≤out.length+cap
  rd : r.rd=out.length%M
  wr : r.wr=inp.length%M
  cell : ∀ k,out.length≤k → k < inp.length → inp[k]? = some (r.data (k%cap))

variable {cap M} {r : Buf α} {out inp : List α}

lemma add_mod_of_lt_cap {a j : ℕ} (h : a%cap+j<cap) : (a+j)%cap=a%cap+j := by
  rw [← mod_add_mod,mod_eq_of_lt h]
lemma Rep.length_le (h : Rep cap M r out inp) : out.length ≤ inp.length := h.isPrefix.length_le

section

variable (hM : cap<M)
include hM

lemma Rep.empty_iff (h : Rep cap M r out inp) : r.rd=r.wr ↔ inp.length=out.length := by
  have hle:=h.length_le
  have hfit:=h.fits
  rw [h.rd,h.wr]
  constructor
  · intro heq
    have hmod : out.length ≡ inp.length [MOD M] := heq
    have hdvd:=(modEq_iff_dvd' hle).mp hmod
    have := eq_zero_of_dvd_of_lt hdvd (by omega)
    omega
  · intro heq
    rw [heq]

lemma Rep.used_eq (h : Rep cap M r out inp) : (r.wr+M-r.rd)%M=inp.length-out.length := by
  have hle:=h.length_le
  have hfit:=h.fits
  have hMpos : 0<M := by omega
  have hlt : out.length%M<M := Nat.mod_lt _ hMpos
  have hcalc : (inp.length%M+M-out.length%M) ≡ inp.length-out.length [MOD M] := by
    have h1 : inp.length%M+M-out.length%M+out.length ≡ inp.length [MOD M] := by
      have h2 : inp.length%M+M-out.length%M+out.length%M=inp.length%M+M := by omega
      calc inp.length%M + M - out.length%M + out.length
          ≡ inp.length%M+M-out.length%M+out.length%M [MOD M] := Nat.ModEq.add_left _ (Nat.mod_modEq _ _).symm
        _ = inp.length%M + M := h2
        _ ≡ inp.length%M [MOD M] := by simp [Nat.ModEq]
        _ ≡ inp.length [MOD M] := Nat.mod_modEq _ _
    refine Nat.ModEq.add_right_cancel' out.length ?_
    rwa [Nat.sub_add_cancel hle]
  rw [h.rd,h.wr]
  calc (inp.length%M + M - out.length%M)%M = (inp.length - out.length)%M := hcalc
    _ = inp.length - out.length := Nat.mod_eq_of_lt (by omega)

lemma Rep.full_iff (h : Rep cap M r out inp) : r.wr=(r.rd+cap)%M ↔ inp.length=out.length+cap := by
  have hle:=h.length_le
  have hfit:=h.fits
  rw [h.rd,h.wr,mod_add_mod]
  constructor
  · intro heq
    have hmod : inp.length ≡ out.length+cap [MOD M] := heq
    have hdvd:=(modEq_iff_dvd' hfit).mp hmod
    have := eq_zero_of_dvd_of_lt hdvd (by omega)
    omega
  · intro heq
    rw [heq]

end

section

variable (hdvd : cap ∣ M)
include hdvd

lemma Rep.wr_mod (h : Rep cap M r out inp) : r.wr%cap=inp.length%cap := by
  rw [h.wr,mod_mod_of_dvd _ hdvd]
lemma Rep.rd_mod (h : Rep cap M r out inp) : r.rd%cap=out.length%cap := by
  rw [h.rd,mod_mod_of_dvd _ hdvd]

lemma Rep.put (h : Rep cap M r out inp) {xs : List α} (hspace : inp.length+xs.length≤out.length+cap)
    (hwrap : inp.length%cap+xs.length≤cap) : Rep cap M (r.put cap M xs) out (inp++xs) where
  isPrefix := h.isPrefix.trans (prefix_append ..)
  fits := by simpa using hspace
  rd := h.rd
  wr := by
    simp only [Buf.put,length_append]
    rw [h.wr,Nat.mod_add_mod]
  cell k hk hlt := by
    have hoff:=h.wr_mod hdvd
    simp only [Buf.put,hoff]
    rw [length_append] at hlt
    by_cases hold : k < inp.length
    · rw [getElem?_append_left hold,h.cell k hk hold]
      -- the chunk lies in the cells of later counters, less than a ring ahead of `k`
      have hfree : ∀ j,j<xs.length → k%cap≠inp.length%cap+j := by
        intro j hj heq
        have hmod : k ≡ inp.length+j [MOD cap] := by
          show k%cap=(inp.length+j)%cap
          rw [heq,add_mod_of_lt_cap (by omega)]
        have hd:=(Nat.modEq_iff_dvd' (by omega)).mp hmod
        have := Nat.eq_zero_of_dvd_of_lt hd (by omega)
        omega
      split_ifs with hle
      · have hnone : xs.length≤k%cap-inp.length%cap := by
          by_contra hc
          exact hfree (k%cap-inp.length%cap) (by omega) (by omega)
        rw [getElem?_eq_none hnone]
        rfl
      · rfl
    · obtain ⟨j,rfl⟩:=Nat.exists_eq_add_of_le (not_lt.mp hold)
      have hj : j<xs.length := by omega
      rw [add_mod_of_lt_cap (by omega),if_pos (Nat.le_add_right ..),
        getElem?_append_right (by omega),Nat.add_sub_cancel_left,Nat.add_sub_cancel_left,getElem?_eq_getElem hj]
      rfl

omit hdvd in
lemma Rep.peek_eq (h : Rep cap M r out inp) (hdvd : cap ∣ M) {n : ℕ}
    (havail : out.length+n ≤ inp.length) (hwrap : out.length%cap+n≤cap) :
    r.peek cap n=(inp.drop out.length).take n := by
  apply ext_getElem?
  intro j
  by_cases hj : j<n
  · have hcell:=h.cell (out.length+j) (by omega) (by omega)
    rw [getElem?_take_of_lt hj,getElem?_drop,hcell,Buf.peek,getElem?_map,
      getElem?_range hj,h.rd_mod hdvd,add_mod_of_lt_cap (by omega)]
    rfl
  · rw [getElem?_eq_none (by simp [Buf.peek]; omega),getElem?_eq_none (by simp; omega)]

lemma Rep.take (h : Rep cap M r out inp) {n : ℕ} (havail : out.length+n ≤ inp.length)
    (hwrap : out.length%cap+n≤cap) : Rep cap M (r.advance M n) (out++r.peek cap n) inp := by
  have hlen : (r.peek cap n).length=n := by simp [Buf.peek]
  refine ⟨?_,?_,?_,h.wr,fun k hk hlt => ?_⟩
  · rw [h.peek_eq hdvd havail hwrap]
    obtain ⟨rest,rfl⟩:=h.isPrefix
    rw [drop_left]
    exact prefix_append_right_inj out |>.mpr ( take_prefix ..)
  · have := h.fits
    rw [length_append]
    omega
  · rw [Buf.advance,h.rd,length_append,hlen,mod_add_mod]
  · rw [length_append] at hk
    exact h.cell k (by omega) hlt

end

end Auxv6.Lib.Ring

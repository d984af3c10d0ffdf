import Auxv6.Process.Ktime

/-!
# 64-bit division on i386 (core/libgcc_compat.c, core/ktime.c, libc/fmt.c)

The compiler's division calls align the divisor with the dividend and restore bit by bit; the clocks and
the number printer bring down one bit of the dividend at a time.
-/

namespace Auxv6.Libgcc
open Time Nat

/-- The shifts before the division (`libgcc_compat.c:29-32`). -/
def alignLoop (n d : BitVec 64) (shift : ℕ) : BitVec 64 × ℕ :=
  if d≤n>>>1 ∧ shift<63 then alignLoop n (d<<<1) (shift+1) else (d,shift)
termination_by 63-shift

/-- The restoring loop (`libgcc_compat.c:34-41`), with `shift + 1` turns to go. -/
def restoreLoop : ℕ → BitVec 64 → BitVec 64 → BitVec 64 → BitVec 64 × BitVec 64
  | 0, n, _, q => (q,n)
  | shift+1, n, d, q =>
    if d≤n then restoreLoop shift (n-d) (d>>>1) (q|||1#64<<<shift) else restoreLoop shift n (d>>>1) q

/-- The quotient and what is stored through `r`. -/
def udivmod64 (n d : BitVec 64) : BitVec 64 × BitVec 64 :=
  if d=0 then (0,0)
  else if n<d then (0,n)
  else restoreLoop ((alignLoop n d 0).2+1) n (alignLoop n d 0).1 0

def udivdi3 (a b : BitVec 64) : BitVec 64 := (udivmod64 a b).1
def umoddi3 (a b : BitVec 64) : BitVec 64 := (udivmod64 a b).2
def udivmoddi4 (a b : BitVec 64) : BitVec 64 × BitVec 64 := udivmod64 a b
def divdi3 (a b : BitVec 64) : BitVec 64 :=
  let ua:=if a.toInt<0 then ~~~a+1#64 else a
  let ub:=if b.toInt<0 then ~~~b+1#64 else b
  let q:=(udivmod64 ua ub).1
  if Xor (a.toInt<0) (b.toInt<0) then ~~~q+1#64 else q
def moddi3 (a b : BitVec 64) : BitVec 64 :=
  let ua:=if a.toInt<0 then ~~~a+1#64 else a
  let ub:=if b.toInt<0 then ~~~b+1#64 else b
  let rem:=(udivmod64 ua ub).2
  if a.toInt<0 then ~~~rem+1#64 else rem

/-- The loop that `ktime_u64_divmod_u32` and `u64_divmod_small` share, with `i` bits to go. -/
def bringDownLoop (n : BitVec 64) (d : BitVec 32) : ℕ → BitVec 64 → BitVec 64 → BitVec 64 × BitVec 64
  | 0, q, r => (q,r)
  | i+1, q, r =>
    let r:=r<<<1|||n>>>i&&&1
    if d.setWidth 64≤r then bringDownLoop n d i (q|||1#64<<<i) (r-d.setWidth 64) else bringDownLoop n d i q r

def u64DivmodSmall (n : BitVec 64) (base : BitVec 32) : BitVec 64 × BitVec 32 :=
  ((bringDownLoop n base 64 0 0).1,(bringDownLoop n base 64 0 0).2.setWidth 32)
def ktimeU64DivmodU32 (n : BitVec 64) (d : BitVec 32) : BitVec 64 × BitVec 32 :=
  if d=0 then (0,0)
  else ((bringDownLoop n d 64 0 0).1,(bringDownLoop n d 64 0 0).2.setWidth 32)

variable {n D q r : BitVec 64} {k : ℕ}

/-- A quotient bit is set below all those set before. -/
lemma toNat_or_bit (hq : 2^(k+1)∣q.toNat) (h : 2^k<2^64) : (q|||1#64<<<k).toNat=q.toNat+2^k := by
  obtain ⟨c,hc⟩:=hq
  have hlt : 2^k<2^(k+1) := Nat.pow_lt_pow_right (by decide) (Nat.lt_succ_self k)
  have hbit : (1#64<<<k).toNat=2^k := by
    rw [BitVec.toNat_shiftLeft,BitVec.toNat_one (by decide),Nat.one_shiftLeft,Nat.mod_eq_of_lt h]
  rw [BitVec.toNat_or,hbit,hc,Nat.two_pow_add_eq_or_of_lt hlt]

lemma alignLoop_spec {d shift : ℕ} (hd : 0<d) (hD : D.toNat=d*2^shift) (hs : shift≤63) :
    (alignLoop n D shift).1.toNat=d*2^(alignLoop n D shift).2 ∧ (alignLoop n D shift).2≤63 ∧
      n.toNat<d*2^((alignLoop n D shift).2+1) := by
  fun_induction alignLoop n D shift with
  | case1 D shift h ih =>
    have hle : D.toNat≤n.toNat/2 := by simpa [BitVec.le_def,shiftRight_eq_div_pow] using h.1
    have hn:=n.isLt
    refine ih ?_ h.2
    rw [BitVec.toNat_shiftLeft,shiftLeft_eq,mod_eq_of_lt (by omega),hD,pow_one,pow_succ,mul_assoc]
  | case2 D shift h =>
    refine ⟨hD,hs,?_⟩
    rw [pow_succ,← mul_assoc,← hD]
    rcases Classical.not_and_iff_not_or_not.mp h with hle | hlt
    · have hle' : n.toNat/2<D.toNat := by simpa [BitVec.le_def,shiftRight_eq_div_pow] using hle
      omega
    have hn:=n.isLt
    have h63 : shift=63 := by omega
    rw [hD,h63]
    omega

/-- With `k` turns to go the divisor stands `k - 1` places up and the dividend below `d * 2 ^ k`. -/
lemma restoreLoop_spec {d : ℕ} (hd : 0<d) (hk : k≤64) (hD : D.toNat=d*2^k/2) (hn : n.toNat<d*2^k) (hq : 2^k∣q.toNat) :
    (restoreLoop k n D q).1.toNat=q.toNat+n.toNat/d ∧ (restoreLoop k n D q).2.toNat=n.toNat%d := by
  induction k generalizing n D q with
  | zero =>
    rw [pow_zero,mul_one] at hn
    rw [Nat.div_eq_of_lt hn,Nat.mod_eq_of_lt hn]
    exact ⟨rfl,rfl⟩
  | succ k ih =>
    have hD' : D.toNat=d*2^k := by rw [hD,pow_succ,← mul_assoc,Nat.mul_div_cancel _ (by decide)]
    have hshift : (D>>>1).toNat=d*2^k/2 := by
      rw [BitVec.toNat_ushiftRight,Nat.shiftRight_eq_div_pow,pow_one,hD']
    have hbit:=toNat_or_bit hq (Nat.pow_lt_pow_right (by decide) hk)
    rw [pow_succ] at hq
    rw [pow_succ,← mul_assoc] at hn
    rw [restoreLoop]
    split_ifs with hle
    · have hsub : (n-D).toNat=n.toNat-d*2^k := by rw [BitVec.toNat_sub_of_le hle,hD']
      have hle' : d*2^k≤n.toNat := by rw [← hD']; exact hle
      have hq' : 2^k∣(q|||1#64<<<k).toNat := by
        rw [hbit]
        exact dvd_add (dvd_of_mul_right_dvd hq) dvd_rfl
      have hdiv : n.toNat=n.toNat-d*2^k+d*2^k := by omega
      have hi:=ih (by omega) hshift (by rw [hsub]; omega) hq'
      rw [hi.1,hi.2,hsub,hbit]
      constructor
      · conv_rhs => rw [hdiv,Nat.add_mul_div_left _ _ hd]
        ring
      · conv_rhs => rw [hdiv,Nat.add_mul_mod_self_left]
    · have hlt : n.toNat<d*2^k := by
        rw [← hD']
        exact not_le.mp hle
      exact ih (by omega) hshift hlt (dvd_of_mul_right_dvd hq)

lemma udivmod64_eq {d : BitVec 64} (hd : d≠0) : udivmod64 n d=(n/d,n%d) := by
  have hpos : 0<d.toNat := BitVec.toNat_pos_of_ne_zero hd
  rw [udivmod64,if_neg hd]
  split_ifs with hlt
  · rw [BitVec.umod_eq_of_lt hlt,BitVec.udiv_eq_zero_iff_eq_zero_or_lt.mpr (.inr hlt)]
    rfl
  obtain ⟨hD,hs,hn⟩:=alignLoop_spec (n := n) hpos (Nat.mul_one d.toNat).symm (Nat.zero_le 63)
  have hr:=restoreLoop_spec (q := 0) hpos (Nat.succ_le_succ hs)
    (by rw [hD,pow_succ,← mul_assoc,Nat.mul_div_cancel _ (by decide)]) hn (dvd_zero _)
  refine Prod.ext (BitVec.eq_of_toNat_eq ?_) (BitVec.eq_of_toNat_eq ?_)
  · rw [hr.1,BitVec.toNat_udiv]
    exact Nat.zero_add _
  · rw [hr.2,BitVec.toNat_umod]

/-- The loop on words takes the turns of the loop on numbers: no bit is shifted out of `r`. -/
lemma bringDownLoop_toNat {d : BitVec 32} (hk : k≤64) (hr : r.toNat<d.toNat) (hq : 2^k∣q.toNat) :
    ((bringDownLoop n d k q r).1.toNat,(bringDownLoop n d k q r).2.toNat) =
      divmodLoop n.toNat d.toNat k q.toNat r.toNat := by
  induction k generalizing q r with
  | zero => rfl
  | succ k ih =>
    have hd:=d.isLt
    have hbit:=toNat_or_bit hq (Nat.pow_lt_pow_right (by decide) hk)
    have hwide : (d.setWidth 64).toNat=d.toNat := by
      rw [BitVec.toNat_setWidth,Nat.mod_eq_of_lt (by omega)]
    have hdown : (r<<<1|||n>>>k&&&1).toNat=2*r.toNat+n.toNat/2^k%2 := by
      have hlow : n.toNat/2^k%2<2^1 := Nat.mod_lt _ (by decide)
      rw [BitVec.toNat_or,BitVec.toNat_and,BitVec.toNat_shiftLeft,BitVec.toNat_ushiftRight,Nat.shiftLeft_eq,
        Nat.mod_eq_of_lt (by omega),Nat.shiftRight_eq_div_pow]
      exact (congrArg (_|||·) (Nat.and_one_is_mod _)).trans
        (by rw [mul_comm]; exact (Nat.two_pow_add_eq_or_of_lt hlow _).symm)
    rw [pow_succ] at hq
    have hq' : 2^k∣q.toNat := dvd_of_mul_right_dvd hq
    rw [bringDownLoop,divmodLoop]
    generalize r<<<1|||n>>>k&&&1=r' at hdown
    simp only [← hdown,BitVec.le_def,hwide]
    split_ifs with hle
    · have hsub : (r'-d.setWidth 64).toNat=r'.toNat-d.toNat := by
        rw [BitVec.toNat_sub_of_le (by rw [BitVec.le_def,hwide]; exact hle),hwide]
      have hq'' : 2^k∣(q|||1#64<<<k).toNat := by
        rw [hbit]
        exact dvd_add hq' dvd_rfl
      rw [ih (by omega) (by omega) hq'',hsub,hbit]
    · exact ih (by omega) (not_le.mp hle) hq'

lemma bringDownLoop_eq {d : BitVec 32} (hd : d≠0) : bringDownLoop n d 64 0 0=(n/d.setWidth 64,n%d.setWidth 64) := by
  have hpos : 0<d.toNat := BitVec.toNat_pos_of_ne_zero hd
  have hwide : (d.setWidth 64).toNat=d.toNat := by
    rw [BitVec.toNat_setWidth,mod_eq_of_lt (by omega)]
  have h:=bringDownLoop_toNat (n := n) (q := 0) (r := 0) le_rfl hpos (dvd_zero _)
  have hdiv:=divmodLoop_eq (n := n.toNat) 64 0 hpos
  rw [zero_mul,zero_add,zero_add,mod_eq_of_lt n.isLt] at hdiv
  obtain ⟨hquo,hrem⟩:=Prod.mk.inj (h.trans hdiv)
  refine Prod.ext (BitVec.eq_of_toNat_eq ?_) (BitVec.eq_of_toNat_eq ?_)
  · rw [hquo,BitVec.toNat_udiv,hwide]
  · rw [hrem,BitVec.toNat_umod,hwide]

lemma not_add_one_ne_zero {b : BitVec 64} (hb : b≠0) : (if b.toInt<0 then ~~~b+1#64 else b)≠0 := by
  split_ifs
  · rw [← BitVec.neg_eq_not_add]
    simpa using hb
  · exact hb

/-- The C signs choose the cases of the signed division on words. -/
lemma divdi3_eq {a b : BitVec 64} (hb : b≠0) : divdi3 a b=a.sdiv b := by
  rw [divdi3,BitVec.sdiv_eq]
  simp only [udivmod64_eq (not_add_one_ne_zero hb),BitVec.msb_eq_toInt]
  by_cases ha : a.toInt<0 <;> by_cases hb' : b.toInt<0 <;>
    simp [ha,hb',Xor,← BitVec.neg_eq_not_add]

lemma moddi3_eq {a b : BitVec 64} (hb : b≠0) : moddi3 a b=a.srem b := by
  rw [moddi3,BitVec.srem_eq]
  simp only [udivmod64_eq (not_add_one_ne_zero hb),BitVec.msb_eq_toInt]
  by_cases ha : a.toInt<0 <;> by_cases hb' : b.toInt<0 <;>
    simp [ha,hb',← BitVec.neg_eq_not_add]

/-- The division helpers return the quotients and the remainders, for every word and divisor but zero. -/
theorem division_exact (n d a b : BitVec 64) (e : BitVec 32) (hd : d≠0) (hb : b≠0) (he : e≠0) :
    (udivdi3 n d).toNat=n.toNat/d.toNat ∧ (umoddi3 n d).toNat=n.toNat%d.toNat ∧
      udivmoddi4 n d=(udivdi3 n d,umoddi3 n d) ∧ divdi3 a b=BitVec.ofInt 64 (a.toInt.tdiv b.toInt) ∧
      (a≠BitVec.intMin 64 ∨ b ≠ -1 → (divdi3 a b).toInt=a.toInt.tdiv b.toInt) ∧
      (moddi3 a b).toInt=a.toInt.tmod b.toInt ∧
      ktimeU64DivmodU32 n e=(udivdi3 n (e.setWidth 64),(umoddi3 n (e.setWidth 64)).setWidth 32) ∧
      u64DivmodSmall n e=(udivdi3 n (e.setWidth 64),(umoddi3 n (e.setWidth 64)).setWidth 32) := by
  have hwide : e.setWidth 64≠0 := by
    intro h
    have hnat:=congrArg BitVec.toNat h
    rw [BitVec.toNat_setWidth,mod_eq_of_lt (by omega)] at hnat
    exact he (BitVec.eq_of_toNat_eq hnat)
  have hsmall : u64DivmodSmall n e=(udivdi3 n (e.setWidth 64),(umoddi3 n (e.setWidth 64)).setWidth 32) := by
    rw [u64DivmodSmall,bringDownLoop_eq he,udivdi3,umoddi3,udivmod64_eq hwide]
  refine ⟨?_,?_,rfl,?_,?_,?_,?_,hsmall⟩
  · rw [udivdi3,udivmod64_eq hd,BitVec.toNat_udiv]
  · rw [umoddi3,udivmod64_eq hd,BitVec.toNat_umod]
  · apply BitVec.eq_of_toInt_eq
    rw [divdi3_eq hb,BitVec.toInt_sdiv,BitVec.toInt_ofInt]
  · intro h
    rw [divdi3_eq hb,BitVec.toInt_sdiv_of_ne_or_ne a b h]
  · rw [moddi3_eq hb,BitVec.toInt_srem]
  · rw [ktimeU64DivmodU32,if_neg he]
    exact hsmall

theorem division_exact_seven : (udivdi3 7 2).toNat=3 ∧ (divdi3 (-7) 2).toInt = -3 ∧ (moddi3 (-7) 2).toInt = -1 ∧
      (u64DivmodSmall 7 2).1=udivdi3 7 2 := by
  obtain ⟨hq,_,_,_,hs,hm,_,hu⟩:=division_exact 7 2 (-7) 2 2 (by decide) (by decide) (by decide)
  exact ⟨hq,hs (.inr (by decide)),hm,congrArg Prod.fst hu⟩

end Auxv6.Libgcc

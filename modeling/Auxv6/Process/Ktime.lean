import Mathlib.Tactic
import Auxv6.Lib.Transition

/-!
# The kernel clocks (core/ktime.c)

What the hardware counters read is an argument of each call. Recorded are the ticks since boot, the last
value of `ktime_get_monotonic`, and the time last set with the monotonic time then.
-/

namespace Auxv6.Time
open Lib.Transition Nat Int

def nsecPerSec : ℕ := 1000000000
def nsecPerTick : ℕ := 10000000
def u64 (n : ℕ) : ℕ := n%2^64
def longLong (n : ℤ) : ℤ := n.bmod (2^64)

structure Ktime where
  ticks : ℕ
  tscPerTick : ℕ
  hpetPeriodFs : ℕ
  lastTickTsc : ℕ
  lastTickHpet : ℕ
  lastNs : ℕ
  realtimeReady : Bool
  useHpet : Bool
  realtimeOffsetNs : ℤ

/-- A `long` has 32 bits, and `time_t` is a `long` (`sys/types.h:41`). -/
structure Timespec where
  sec : BitVec 32
  nsec : BitVec 32

def Timespec.ns (ts : Timespec) : ℤ := ts.sec.toInt*nsecPerSec+ts.nsec.toInt

/-- The loop of `ktime_u64_divmod_u32` (`ktime.c:88-94`), with `i` bits to go. -/
def divmodLoop (n d : ℕ) : ℕ → ℕ → ℕ → ℕ × ℕ
  | 0, q, r => (q,r)
  | i+1, q, r =>
    let r:=2*r+n/2^i%2
    if d≤r then divmodLoop n d i (q+2^i) (r-d) else divmodLoop n d i q r

def divmod (n d : ℕ) : ℕ × ℕ := if d=0 then (0,0) else divmodLoop n d 64 0 0

/-- The time since the last tick (`ktime.c:115-127`). -/
def deltaNs (cycles scale d : ℕ) : ℕ :=
  let delta:=(divmod (u64 (cycles*scale)) d).1
  if nsecPerTick≤delta then nsecPerTick-1 else delta

/-- `ktime_monotonic_now_locked`: the result, which is also the new `ktime_last_ns`. -/
def monotonicNow (k : Ktime) (now : ℕ) : ℕ :=
  let base:=u64 (k.ticks*nsecPerTick)
  let ns:=if k.useHpet then
      if k.hpetPeriodFs≠0 ∧ k.lastTickHpet≠0 ∧ k.lastTickHpet<now then
        base+deltaNs (now-k.lastTickHpet) k.hpetPeriodFs 1000000
      else base
    else if k.tscPerTick≠0 ∧ k.lastTickTsc≠0 ∧ k.lastTickTsc<now then
      base+deltaNs (now-k.lastTickTsc) nsecPerTick k.tscPerTick
    else base
  if ns<k.lastNs then k.lastNs else ns

/-- `ktime_tick` (`ktime.c:166-204`), with what `hpet_available` and `hpet_period_fs` say. -/
def ktimeTick (k : Ktime) (available : Bool) (periodFs now currentTicks : ℕ) : Ktime :=
  let k:=if ¬ k.useHpet ∧ available ∧ periodFs≠0 then
    {k with useHpet := true,hpetPeriodFs := periodFs} else k
  let sample:=now-k.lastTickTsc
  let k:=if k.useHpet then {k with lastTickHpet := now}
    else if k.lastTickTsc≠0 ∧ k.lastTickTsc<now ∧ sample≤0xffffffff then
      { k with
        tscPerTick := if k.tscPerTick=0 then sample else (k.tscPerTick*7+sample)/8
        lastTickTsc := now }
    else {k with lastTickTsc := now}
  let base:=u64 (currentTicks*nsecPerTick)
  {k with ticks := currentTicks,lastNs := if k.lastNs<base then base else k.lastNs}

def toTimespec (ns : ℕ) : Timespec :=
  ⟨BitVec.ofNat 32 (divmod ns nsecPerSec).1,BitVec.ofNat 32 (divmod ns nsecPerSec).2⟩
def ktimeGetMonotonic (k : Ktime) (now : ℕ) : Timespec := toTimespec (monotonicNow k now)

/-- `ktime.c:239-270`; a negative time is read as 0. -/
def ktimeGetRealtime (k : Ktime) (now : ℕ) : Timespec :=
  toTimespec (if k.realtimeReady then (longLong (monotonicNow k now+k.realtimeOffsetNs)).toNat
    else monotonicNow k now)

/-- `ktime.c:274-299`; `none` for -1. -/
def ktimeSetRealtime (k : Ktime) (now : ℕ) (ts : Timespec) : Option Ktime :=
  if ts.sec.toInt<0 ∨ 253402300799<ts.sec.toInt then none
  else if ts.nsec.toInt<0 ∨ nsecPerSec≤ts.nsec.toInt then none
  else
    let target:=u64 (ts.sec.toNat*nsecPerSec+ts.nsec.toNat)
    some { k with
      lastNs := monotonicNow k now,realtimeReady := true
      realtimeOffsetNs := longLong target-longLong (monotonicNow k now) }

structure Clock where
  k : Ktime
  total : ℕ
  read : ℤ
  set : Option (ℤ × ℤ)

/-- After `ktime_init`, with the seconds read from the CMOS clock. -/
def boot (rtc : Option ℕ) : Clock := ⟨⟨0,0,0,0,0,0,rtc.isSome,false,rtc.getD 0*nsecPerSec⟩,0,0,none⟩

inductive Action where
  | tick (available : Bool) (periodFs now : ℕ)
  | getMonotonic (now : ℕ)
  | getRealtime (now : ℕ)
  | setRealtime (now : ℕ) (ts : Timespec)

def step (c : Clock) : Action → Option Clock
  | .tick available periodFs now => some { c with
      k := ktimeTick c.k available periodFs now ((c.total+1)%2^32),total := c.total+1 }
  | .getMonotonic now => some { c with
      k := {c.k with lastNs := monotonicNow c.k now},read := (ktimeGetMonotonic c.k now).ns }
  | .getRealtime now => some { c with k := {c.k with lastNs := monotonicNow c.k now} }
  | .setRealtime now ts => match ktimeSetRealtime c.k now ts with
    | none => some c
    | some k => some {c with k := k,set := some (ts.ns,(ktimeGetMonotonic c.k now).ns)}

/-- What a read of the clocks at `now` returns. -/
structure ClocksOk (c : Clock) (now : ℕ) : Prop where
  monotonic : c.read≤(ktimeGetMonotonic c.k now).ns
  within : c.total*nsecPerTick≤(ktimeGetMonotonic c.k now).ns ∧ (ktimeGetMonotonic c.k now).ns<(c.total+1)*nsecPerTick
  realtime : ∀ t m,c.set=some (t,m) → (ktimeGetRealtime c.k now).ns=t+((ktimeGetMonotonic c.k now).ns-m)

def TicksFit (c : Clock) : Action → Prop
  | .tick .. => c.total+1<2^32
  | _ => True

/-- The time to be read is before 19 January 2038. -/
def SecondsFit (c : Clock) (now : ℕ) : Prop :=
  ∀ t m,c.set=some (t,m) → t+((ktimeGetMonotonic c.k now).ns-m)<2^31*nsecPerSec

variable {n d : ℕ} {k : Ktime} {c c' : Clock} {a : Action}

lemma divmodLoop_eq (i q : ℕ) {r : ℕ} (hr : r<d) : divmodLoop n d i q r = (q+(r*2^i+n%2^i)/d,(r*2^i+n%2^i)%d) := by
  induction i generalizing q r with
  | zero =>
    rw [pow_zero,Nat.mod_one,Nat.mul_one,Nat.add_zero,Nat.div_eq_of_lt hr,Nat.mod_eq_of_lt hr]
    rfl
  | succ i ih =>
    have hlt : 2*r+n/2^i%2<2*d := by omega
    have hsplit : r*2^(i+1)+n%2^(i+1)=(2*r+n/2^i%2)*2^i+n%2^i := by
      rw [Nat.mod_pow_succ,pow_succ]
      ring
    rw [divmodLoop,hsplit]
    generalize 2*r+n/2^i%2=r' at hlt
    split_ifs with hd
    · have hsub : r'*2^i+n%2^i=(r'-d)*2^i+n%2^i+d*2^i := by
        rw [← Nat.sub_add_cancel hd,Nat.add_sub_cancel]
        ring
      rw [ih (q+2^i) (by omega),hsub,Nat.add_mul_div_left _ _ (by omega),Nat.add_mul_mod_self_left]
      congr 1
      omega
    · exact ih q (not_le.mp hd)

lemma divmod_eq (hn : n<2^64) (hd : 0<d) : divmod n d=(n/d,n%d) := by
  rw [divmod,if_neg hd.ne',divmodLoop_eq 64 0 hd,zero_mul,zero_add,zero_add,mod_eq_of_lt hn]
lemma toTimespec_ns (hn : n<2^31*nsecPerSec) : (toTimespec n).ns=n := by
  rw [toTimespec,divmod_eq (hn.trans (by decide)) (by decide),Timespec.ns]
  simp only [nsecPerSec,BitVec.toInt_ofNat',bmod_def] at *
  omega

lemma toTimespec_lt (hn : n<2^64) : (toTimespec n).ns<2^31*nsecPerSec := by
  have hsec:=BitVec.toInt_lt (x := (toTimespec n).sec)
  have hnsec : (toTimespec n).nsec.toInt=(n%nsecPerSec : ℕ) := by
    rw [toTimespec,divmod_eq hn (by decide),BitVec.toInt_ofNat']
    simp only [nsecPerSec,bmod_def]
    omega
  rw [Timespec.ns,hnsec]
  simp only [nsecPerSec] at *
  omega

lemma deltaNs_lt (cycles scale d : ℕ) : deltaNs cycles scale d<nsecPerTick := by
  unfold deltaNs
  dsimp only
  split_ifs with h
  · decide
  · exact not_le.mp h

lemma longLong_of_lt {x : ℤ} (h0 : 0≤x) (h : x<2^63) : longLong x=x := by
  rw [longLong,bmod_def]
  omega

/-- The last time that was computed lies in the current tick, and the offset is what the last setting asked for. -/
structure ClockInv (c : Clock) : Prop where
  ticks : c.k.ticks=c.total
  small : c.total<2^32
  last : c.total*nsecPerTick≤c.k.lastNs ∧ c.k.lastNs<(c.total+1)*nsecPerTick
  read : c.read≤c.k.lastNs
  set : ∀ t m,c.set=some (t,m) → c.k.realtimeReady=true ∧ c.k.realtimeOffsetNs=t-m ∧
    0 ≤ m ∧ m≤c.k.lastNs ∧ 0≤t ∧ t<2^31*nsecPerSec

lemma ClockInv.monotonicNow (h : ClockInv c) (now : ℕ) : c.total*nsecPerTick ≤ monotonicNow c.k now ∧
      monotonicNow c.k now<(c.total+1)*nsecPerTick ∧ c.k.lastNs ≤ monotonicNow c.k now := by
  have hsmall:=h.small
  have hlast:=h.last
  have hbase : u64 (c.total*nsecPerTick)=c.total*nsecPerTick := mod_eq_of_lt (by simp only [nsecPerTick]; omega)
  have h1:=deltaNs_lt (now-c.k.lastTickHpet) c.k.hpetPeriodFs 1000000
  have h2:=deltaNs_lt (now-c.k.lastTickTsc) nsecPerTick c.k.tscPerTick
  unfold Time.monotonicNow
  rw [h.ticks,hbase]
  simp only [nsecPerTick] at *
  split_ifs <;> omega

lemma ClockInv.monotonic_ns (h : ClockInv c) (now : ℕ) : (ktimeGetMonotonic c.k now).ns=Time.monotonicNow c.k now :=
  toTimespec_ns ((h.monotonicNow now).2.1.trans_le ((mul_le_mul_right nsecPerTick h.small).trans (by decide)))

/-- The clock moves on to `ns`, with `k` and `total` as they are after that. -/
lemma ClockInv.advance (h : ClockInv c) {total ns : ℕ} (hticks : k.ticks=total) (hsmall : total<2^32)
    (hlow : total*nsecPerTick≤ns) (hhigh : ns<(total+1)*nsecPerTick) (hle : c.k.lastNs≤ns)
    (hns : k.lastNs=ns) (hready : k.realtimeReady=c.k.realtimeReady)
    (hoff : k.realtimeOffsetNs=c.k.realtimeOffsetNs) : ClockInv ⟨k,total,c.read,c.set⟩ := by
  subst hns
  have hle' : (c.k.lastNs : ℤ)≤k.lastNs := by exact_mod_cast hle
  refine ⟨hticks,hsmall,⟨hlow,hhigh⟩,h.read.trans hle',fun t m hs => ?_⟩
  obtain ⟨h1,h2,h3,h4,h5⟩:=h.set t m hs
  exact ⟨hready.trans h1,hoff.trans h2,h3,h4.trans hle',h5⟩

lemma ktimeTick_spec (k : Ktime) (available : Bool) (periodFs now cur : ℕ) :
    (ktimeTick k available periodFs now cur).lastNs=max k.lastNs (u64 (cur*nsecPerTick)) ∧
      (ktimeTick k available periodFs now cur).realtimeReady=k.realtimeReady ∧
      (ktimeTick k available periodFs now cur).realtimeOffsetNs=k.realtimeOffsetNs := by
  unfold ktimeTick
  rw [max_def_lt]
  refine ⟨?_,?_,?_⟩ <;> dsimp only <;> split_ifs <;> rfl

lemma ktimeSetRealtime_spec {now : ℕ} {ts : Timespec} {k' : Ktime} (h : ktimeSetRealtime k now ts=some k') :
    0≤ts.ns ∧ ts.ns<2^31*nsecPerSec ∧ k' = { k with
      lastNs := monotonicNow k now,realtimeReady := true
      realtimeOffsetNs := ts.ns-longLong (monotonicNow k now) } := by
  unfold ktimeSetRealtime at h
  split_ifs at h with hsec hnsec
  have h1:=BitVec.toInt_eq_toNat_cond ts.sec
  have h2:=BitVec.toInt_eq_toNat_cond ts.nsec
  have htarget : longLong (u64 (ts.sec.toNat*nsecPerSec+ts.nsec.toNat))=ts.ns := by
    simp only [longLong,u64,bmod_def,Timespec.ns,nsecPerSec] at *
    omega
  rw [← htarget]
  refine ⟨?_,?_,(Option.some.inj h).symm⟩ <;> rw [htarget] <;> simp only [Timespec.ns,nsecPerSec] at * <;> omega

lemma ClockInv.step (h : ClockInv c) (hok : TicksFit c a) (hs : step c a=some c') : ClockInv c' := by
  have hsmall:=h.small
  cases a with
  | tick available periodFs now =>
    cases hs
    have hlt : c.total+1<2^32 := hok
    rw [mod_eq_of_lt hlt]
    obtain ⟨hlast,hready,hoff⟩:=ktimeTick_spec c.k available periodFs now (c.total+1)
    have hbase : u64 ((c.total+1)*nsecPerTick)=(c.total+1)*nsecPerTick :=
      mod_eq_of_lt (by simp only [nsecPerTick]; omega)
    have hle:=h.last.2.le
    rw [hbase,max_eq_right hle] at hlast
    exact h.advance rfl hlt le_rfl (mul_lt_mul_of_pos_right (lt_succ_self _) (by decide)) hle hlast hready
      hoff
  | getMonotonic now =>
    cases hs
    obtain ⟨h1,h2,h3⟩:=h.monotonicNow now
    have h':=h.advance (k := {c.k with lastNs := Time.monotonicNow c.k now}) h.ticks hsmall h1 h2 h3 rfl rfl rfl
    exact ⟨h'.ticks,h'.small,h'.last,(h.monotonic_ns now).le,h'.set⟩
  | getRealtime now =>
    cases hs
    obtain ⟨h1,h2,h3⟩:=h.monotonicNow now
    exact h.advance h.ticks hsmall h1 h2 h3 rfl rfl rfl
  | setRealtime now ts =>
    simp only [Time.step] at hs
    split at hs <;> cases hs
    · exact h
    rename_i k hk
    obtain ⟨ht,ht',rfl⟩:=ktimeSetRealtime_spec hk
    obtain ⟨h1,h2,h3⟩:=h.monotonicNow now
    refine ⟨h.ticks,hsmall,⟨h1,h2⟩,h.read.trans (by exact_mod_cast h3),fun t m hset => ?_⟩
    rw [Option.some.injEq,Prod.mk.injEq,h.monotonic_ns] at hset
    obtain ⟨rfl,rfl⟩:=hset
    refine ⟨rfl,?_,by omega,le_rfl,ht,ht'⟩
    rw [longLong_of_lt (by omega) (by simp only [nsecPerTick] at h2; omega)]

theorem clocks_exact (rtc : Option ℕ) (as : List Action) (c : Clock) (hok : Guarded step TicksFit (boot rtc) as)
    (hrun : run step (boot rtc) as=some c) (now : ℕ) : ClocksOk c now ↔ SecondsFit c now := by
  have h : ClockInv c := run_guarded (I := ClockInv) (fun s a t h hok hs => h.step hok hs)
    ⟨rfl,Nat.two_pow_pos 32,by simp [boot,nsecPerTick],le_rfl,fun _ _ hs => by cases hs⟩ hok hrun
  obtain ⟨hlow,hhigh,hle⟩:=h.monotonicNow now
  have hmono:=h.monotonic_ns now
  have hsmall:=h.small
  have hread : ∀ t m,c.set=some (t,m) → ∃ n : ℕ,n<2^64 ∧ (n : ℤ)=t+(monotonicNow c.k now-m) ∧
      ktimeGetRealtime c.k now=toTimespec n := by
    intro t m hset
    obtain ⟨hready,hoff,hm,hm',ht,ht'⟩:=h.set t m hset
    have hlong : longLong (monotonicNow c.k now+(t-m))=t+(monotonicNow c.k now-m) := by
      simp only [nsecPerTick,nsecPerSec] at *
      rw [longLong_of_lt] <;> omega
    refine ⟨_,?_,?_,by rw [ktimeGetRealtime,hready,if_pos rfl,hoff,hlong]⟩ <;>
      simp only [nsecPerTick,nsecPerSec] at * <;> omega
  constructor
  · intro hc t m hset
    obtain ⟨n,hn,-,heq⟩:=hread t m hset
    rw [← hc.realtime t m hset,heq]
    exact toTimespec_lt hn
  intro hfit
  refine ⟨?_,?_,fun t m hset => ?_⟩
  · rw [hmono]
    exact h.read.trans (by exact_mod_cast hle)
  · rw [hmono]
    exact ⟨by exact_mod_cast hlow,by exact_mod_cast hhigh⟩
  obtain ⟨n,-,hn,heq⟩:=hread t m hset
  have hlt:=hfit t m hset
  rw [hmono,← hn] at hlt ⊢
  rw [heq,toTimespec_ns (by exact_mod_cast hlt)]

theorem clocks_exact_one_tick : ∃ c,run step (boot none) [.setRealtime 0 ⟨1,2⟩,.tick false 0 5]=some c ∧
    ClocksOk c 7 :=
  ⟨_,rfl,(clocks_exact none [.setRealtime 0 ⟨1,2⟩,.tick false 0 5] _
    ⟨trivial,fun _ hs => by cases hs; exact ⟨show 0+1 < _ by decide,fun _ _ => trivial⟩⟩ rfl 7).mpr
    fun t m hs => by cases hs; decide +kernel⟩
theorem realtime_wraps : ∃ c,run step (boot none) [.setRealtime 0 ⟨0x7fffffff,999999999⟩,.tick false 0 5]=some c ∧
    (ktimeGetRealtime c.k 5).sec.toInt = -2^31 ∧ ¬ ClocksOk c 5 :=
  ⟨_,rfl,by decide +kernel,fun h => absurd (h.realtime _ _ rfl) (by decide +kernel)⟩

end Auxv6.Time

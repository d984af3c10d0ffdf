import Mathlib.Tactic

/-!
# Calendar conversion (libc/timecore.c)

Seconds since 1970 to the broken-down time and back. `time_t` is the `long` of i386; the `long long`
arithmetic is exact, since no int fields bring it near `2 ^ 63`.
-/

namespace Auxv6.Libc.Timecore
open List

/-- Conversion to `int` and to `time_t`, which both have 32 bits. -/
def int (x : ℤ) : ℤ := x.bmod (2^32)

structure Tm where
  sec : ℤ
  min : ℤ
  hour : ℤ
  mday : ℤ
  mon : ℤ
  year : ℤ
  wday : ℤ
  yday : ℤ
  isdst : ℤ

def isLeapYear (year : ℤ) : Bool := if year.tmod 4≠0 then false else if year.tmod 100≠0 then true else year.tmod 400=0
def daysInYear (year : ℤ) : ℤ := if isLeapYear year then 366 else 365
def monthDays : List ℤ := [31,28,31,30,31,30,31,31,30,31,30,31]
def monthDaysLeap : List ℤ := [31,29,31,30,31,30,31,31,30,31,30,31]
def daysInMonth (year : ℤ) (mon : ℕ) : ℤ :=
  if 12 ≤ mon then 31 else ((if isLeapYear year then monthDaysLeap else monthDays)[mon]?).getD 0

/-- The loops of `time_days_before_year`: the first adds (`sign` is `1`), the second subtracts. -/
def yearsLoop (sign stop y days : ℤ) : ℤ :=
  if y<stop then yearsLoop sign stop (y+1) (days+sign*daysInYear y) else days
termination_by (stop-y).toNat

def daysBeforeYear (year : ℤ) : ℤ := if 1970≤year then yearsLoop 1 year 1970 0 else yearsLoop (-1) 1970 year 0
def daysBeforeMonth (year : ℤ) (mon : ℕ) : ℤ := (range mon).foldl (fun days i => days+daysInMonth year i) 0

lemma daysInYear_pos (year : ℤ) : 0<daysInYear year := by
  rw [daysInYear]
  split_ifs <;> decide

/-- The years from 1970 on (`timecore.c:154-157`). -/
def yearUp (year days : ℤ) : ℤ × ℤ :=
  if daysInYear year≤days then yearUp (year+1) (days-daysInYear year) else (year,days)
termination_by days.toNat
decreasing_by have:=daysInYear_pos year; omega

/-- The years before (`timecore.c:159-162`). -/
def yearDown (year days : ℤ) : ℤ × ℤ :=
  if days+daysInYear (year-1)<0 then yearDown (year-1) (days+daysInYear (year-1))
  else (year-1,days+daysInYear (year-1))
termination_by (-days).toNat
decreasing_by have:=daysInYear_pos (year-1); omega

/-- The months of a year (`timecore.c:167-170`). -/
def monthUp (year : ℤ) (mon : ℕ) (days : ℤ) : ℕ × ℤ :=
  if mon<11 ∧ daysInMonth year mon≤days then monthUp year (mon+1) (days-daysInMonth year mon) else (mon,days)
termination_by 11-mon

/-- `time_epoch_to_tm`; `/` and `%` of C truncate. -/
def epochToTm (timer : ℤ) : Tm :=
  let neg:=timer.tmod 86400<0
  let days:=if neg then timer.tdiv 86400-1 else timer.tdiv 86400
  let rem:=if neg then timer.tmod 86400+86400 else timer.tmod 86400
  let y:=if 0≤days then yearUp 1970 days else yearDown 1970 days
  let m:=monthUp y.1 0 y.2
  let wday:=(days+4).tmod 7
  { sec := rem.tmod 60, min := (rem.tdiv 60).tmod 60, hour := (rem.tdiv 60).tdiv 60, mday := m.2+1
    mon := m.1, year := y.1-1900, wday := if wday<0 then wday+7 else wday, yday := y.2, isdst := 0 }

/-- The first loop over months below zero, the second over those past the year (`timecore.c:205-212`). -/
def monthUnder (mon year : ℤ) : ℤ × ℤ := if mon<0 then monthUnder (mon+12) (year-1) else (mon,year)
termination_by (-mon).toNat

def monthOver (mon year : ℤ) : ℤ × ℤ := if 12 ≤ mon then monthOver (mon-12) (year+1) else (mon,year)
termination_by mon.toNat

/-- `time_tm_to_epoch`: the value stored in `out`, and nothing for `EOVERFLOW`. -/
def tmToEpoch (tm : Tm) : Option ℤ :=
  let under:=monthUnder tm.mon (tm.year+1900)
  let m:=monthOver under.1 under.2
  let days:=daysBeforeYear (int m.2)+daysBeforeMonth (int m.2) m.1.toNat+(tm.mday-1)
  let seconds:=days*86400+tm.hour*3600+tm.min*60+tm.sec
  if seconds<0 ∨ 253402300799<seconds then none else some (int seconds)

/-! ## The proleptic Gregorian calendar -/

def Leap (year : ℤ) : Prop := 4∣year ∧ (¬100∣year ∨ 400∣year)
  deriving Decidable

/-- Days from 1970 to the first of January of a year. -/
def yearStart (year : ℤ) : ℤ := 365*(year-1970)+(year-1969)/4-(year-1901)/100+(year-1601)/400

/-- Days from the first of January to the first of a month. -/
def monthStart (year : ℤ) (mon : ℕ) : ℤ :=
  ([0,31,59,90,120,151,181,212,243,273,304,334,365][mon]?).getD 0+if 2 ≤ mon ∧ Leap year then 1 else 0

/-- The fields are the date and the time of day of `t`. -/
structure IsDate (t : ℤ) (tm : Tm) : Prop where
  mon : 0≤tm.mon ∧ tm.mon<12
  mday : 1≤tm.mday ∧ tm.mday ≤ monthStart (tm.year+1900) (tm.mon.toNat+1)-monthStart (tm.year+1900) tm.mon.toNat
  date : yearStart (tm.year+1900)+monthStart (tm.year+1900) tm.mon.toNat+(tm.mday-1)=t/86400
  yday : yearStart (tm.year+1900)+tm.yday=t/86400
  wday : tm.wday=(t/86400+4)%7
  clock : 0≤tm.sec ∧ tm.sec<60 ∧ 0≤tm.min ∧ tm.min<60 ∧ 0≤tm.hour ∧ tm.hour<24 ∧ tm.hour*3600+tm.min*60+tm.sec=t%86400

/-- The seconds to the day and the time of `tm` from its month in a year. -/
def secondsIn (tm : Tm) (year : ℤ) : ℤ :=
  (yearStart year+monthStart year (tm.mon%12).toNat+(tm.mday-1))*86400+tm.hour*3600+tm.min*60+tm.sec

/-- The instant of the normalised fields: months past the year count into the next, days and seconds run on. -/
def instant (tm : Tm) : ℤ := secondsIn tm (tm.year+1900+tm.mon/12)

/-- The fields read are C ints. -/
def Tm.Ints (tm : Tm) : Prop := ∀ x∈[tm.sec,tm.min,tm.hour,tm.mday,tm.mon,tm.year],-2^31≤x ∧ x<2^31

/-! ## The loops -/

lemma isLeapYear_iff (year : ℤ) : isLeapYear year ↔ Leap year := by
  simp only [isLeapYear,Leap,Int.dvd_iff_tmod_eq_zero]
  split_ifs with h4 h100 <;> simp_all
lemma daysInYear_eq (year : ℤ) : daysInYear year=yearStart (year+1)-yearStart year := by
  simp only [daysInYear,isLeapYear_iff,Leap,yearStart]
  split_ifs <;> omega
lemma daysInMonth_eq (year : ℤ) {mon : ℕ} (hm : mon<12) :
    daysInMonth year mon=monthStart year (mon+1)-monthStart year mon := by
  simp only [daysInMonth,monthStart,isLeapYear_iff]
  by_cases h : Leap year <;> interval_cases mon <;> simp [h,monthDays,monthDaysLeap]

lemma yearsLoop_eq (sign stop y days : ℤ) (h : y ≤ stop) :
    yearsLoop sign stop y days=days+sign*(yearStart stop-yearStart y) := by
  fun_induction yearsLoop sign stop y days with
  | case1 y days hlt ih =>
    rw [ih hlt,daysInYear_eq]
    ring
  | case2 y days hlt =>
    rw [le_antisymm h (not_lt.mp hlt)]
    ring

lemma daysBeforeYear_eq (year : ℤ) : daysBeforeYear year=yearStart year := by
  have h1970 : yearStart 1970=0 := by decide
  rw [daysBeforeYear]
  split_ifs with h
  · rw [yearsLoop_eq _ _ _ _ h,h1970]
    ring
  · rw [yearsLoop_eq _ _ _ _ (not_le.mp h).le,h1970]
    ring

lemma daysBeforeMonth_eq (year : ℤ) {mon : ℕ} (hm : mon≤12) : daysBeforeMonth year mon=monthStart year mon := by
  induction mon with
  | zero => simp [daysBeforeMonth,monthStart]
  | succ mon ih =>
    rw [daysBeforeMonth,range_succ,foldl_append,← daysBeforeMonth,ih (by omega)]
    simp [daysInMonth_eq year (Nat.lt_of_succ_le hm)]

lemma yearUp_spec (year days : ℤ) (h : 0≤days) :
    yearStart (yearUp year days).1+(yearUp year days).2=yearStart year+days ∧
      0≤(yearUp year days).2 ∧ (yearUp year days).2<daysInYear (yearUp year days).1 := by
  fun_induction yearUp year days with
  | case1 year days hle ih =>
    have hi:=ih (by omega)
    refine ⟨?_,hi.2⟩
    rw [hi.1,daysInYear_eq]
    ring
  | case2 year days hle => exact ⟨rfl,h,not_le.mp hle⟩

lemma monthUp_spec (year : ℤ) (mon : ℕ) (days : ℤ) (hm : mon≤11) (h : 0≤days)
    (hy : monthStart year mon+days<daysInYear year) :
    monthStart year (monthUp year mon days).1+(monthUp year mon days).2=monthStart year mon+days ∧
      (monthUp year mon days).1≤11 ∧ 0≤(monthUp year mon days).2 ∧
      (monthUp year mon days).2<daysInMonth year (monthUp year mon days).1 := by
  fun_induction monthUp year mon days with
  | case1 mon days hc ih =>
    have hd:=daysInMonth_eq year (show mon<12 by omega)
    have hi:=ih hc.1 (by omega) (by omega)
    exact ⟨by omega,hi.2⟩
  | case2 mon days hc =>
    refine ⟨rfl,hm,h,?_⟩
    by_cases hlt : mon<11
    · exact not_le.mp fun hle => hc ⟨hlt,hle⟩
    -- December ends with the year
    have h11 : mon=11 := by omega
    subst h11
    simp only [daysInYear,isLeapYear_iff,daysInMonth_eq year (show 11<12 by decide),monthStart] at hy ⊢
    split_ifs at hy ⊢ <;> simp_all <;> omega

lemma monthUnder_spec (mon year : ℤ) : 0≤(monthUnder mon year).1 ∧
    12*(monthUnder mon year).2+(monthUnder mon year).1=12*year+mon := by
  fun_induction monthUnder mon year with
  | case1 mon year h ih => omega
  | case2 mon year h => exact ⟨not_lt.mp h,rfl⟩
lemma monthOver_spec (mon year : ℤ) (h : 0 ≤ mon) : 0≤(monthOver mon year).1 ∧ (monthOver mon year).1<12 ∧
    12*(monthOver mon year).2+(monthOver mon year).1=12*year+mon := by
  fun_induction monthOver mon year with
  | case1 mon year hle ih => omega
  | case2 mon year hle => exact ⟨h,not_le.mp hle,rfl⟩
lemma monthStart_bound (year : ℤ) {mon : ℕ} (hm : mon≤12) : 0 ≤ monthStart year mon ∧ monthStart year mon≤366 := by
  rw [monthStart]
  split_ifs <;> interval_cases mon <;> simp
lemma int_of_mem {x : ℤ} (h : -2^31≤x ∧ x<2^31) : int x=x := Int.bmod_eq_of_le (by omega) (by omega)

/-- No int fields bring a year that far back to the range. -/
lemma secondsIn_outside {tm : Tm} (h : tm.Ints) {year : ℤ} (hy : year< -2^30 ∨ 2^30≤year) :
    secondsIn tm year<0 ∨ 253402300799<secondsIn tm year := by
  have hb:=monthStart_bound year (show (tm.mon%12).toNat≤12 by omega)
  have hstart : yearStart year< -2^37 ∨ 2^37<yearStart year := by
    rw [yearStart]
    omega
  simp only [Tm.Ints,forall_mem_cons] at h
  rw [secondsIn]
  omega

/-- Only the store into `time_t` can lose anything: a year that does not fit an int is far out of range, and so is
the year it is cut to. -/
lemma tmToEpoch_eq {tm : Tm} (h : tm.Ints) :
    tmToEpoch tm=if instant tm<0 ∨ 253402300799 < instant tm then none else some (int (instant tm)) := by
  have hmon : monthOver (monthUnder tm.mon (tm.year+1900)).1 (monthUnder tm.mon (tm.year+1900)).2 =
      (tm.mon%12,tm.year+1900+tm.mon/12) := by
    obtain ⟨h0,hu⟩:=monthUnder_spec tm.mon (tm.year+1900)
    have ho:=monthOver_spec _ (monthUnder tm.mon (tm.year+1900)).2 h0
    ext <;> dsimp only <;> omega
  have hsec : tmToEpoch tm=if secondsIn tm (int (tm.year+1900+tm.mon/12))<0 ∨
      253402300799<secondsIn tm (int (tm.year+1900+tm.mon/12)) then none
      else some (int (secondsIn tm (int (tm.year+1900+tm.mon/12)))) := by
    simp only [tmToEpoch,hmon,daysBeforeYear_eq,daysBeforeMonth_eq _ (show (tm.mon%12).toNat≤12 by omega)]
    rfl
  rw [hsec,instant]
  by_cases hr : -2^31≤tm.year+1900+tm.mon/12 ∧ tm.year+1900+tm.mon/12<2^31
  · rw [int_of_mem hr]
  have hint : int (tm.year+1900+tm.mon/12)< -2^30 ∨ 2^30 ≤ int (tm.year+1900+tm.mon/12) := by
    simp only [Tm.Ints,forall_mem_cons] at h
    rw [int,Int.bmod_def]
    omega
  rw [if_pos (secondsIn_outside h hint),if_pos (secondsIn_outside h (by omega))]

lemma IsDate.instant {t : ℤ} {tm : Tm} (h : IsDate t tm) : instant tm=t := by
  have hd:=h.date
  have hc:=h.clock
  have hm:=h.mon
  rw [Timecore.instant,secondsIn,Int.ediv_eq_zero_of_lt hm.1 hm.2,Int.emod_eq_of_lt hm.1 hm.2,add_zero]
  omega

lemma IsDate.ints {t : ℤ} {tm : Tm} (h : IsDate t tm) (h0 : 0≤t) (ht : t<2^31) : tm.Ints := by
  have hmon:=h.mon
  have hday:=h.mday
  have hdate:=h.date
  have hc:=h.clock
  have hb:=monthStart_bound (tm.year+1900) (show tm.mon.toNat≤12 by omega)
  have hb':=monthStart_bound (tm.year+1900) (show tm.mon.toNat+1≤12 by omega)
  rw [yearStart] at hdate
  simp only [Tm.Ints,forall_mem_cons]
  refine ⟨by omega,by omega,by omega,by omega,by omega,by omega,by simp⟩

lemma epochToTm_isDate {t : ℤ} (h : 0≤t) : IsDate t (epochToTm t) := by
  have hday : 0≤t/86400 := by omega
  have hrem : 0≤t%86400 := by omega
  obtain ⟨hy,hy0,hylt⟩:=yearUp_spec 1970 _ hday
  obtain ⟨hm,hm11,hm0,hmlt⟩:=monthUp_spec (yearUp 1970 (t/86400)).1 0 (yearUp 1970 (t/86400)).2 (by decide) hy0
    (by simpa [monthStart] using hylt)
  have h1970 : yearStart 1970=0 := by decide
  have hjan : monthStart (yearUp 1970 (t/86400)).1 0=0 := by simp [monthStart]
  rw [daysInMonth_eq _ (Nat.lt_succ_of_le hm11)] at hmlt
  have hq : ∀ x : ℤ,0≤x → ∀ k,x.tdiv k=x/k ∧ x.tmod k=x%k := fun x hx k =>
    ⟨Int.tdiv_eq_ediv_of_nonneg hx,Int.tmod_eq_emod_of_nonneg hx⟩
  simp only [epochToTm,hq t h,if_neg (not_lt.mpr hrem),if_pos hday,hq _ hrem,
    hq _ (show 0≤t%86400/60 by omega),hq (t/86400+4) (by omega)]
  constructor <;> simp only [sub_add_cancel,Int.toNat_natCast]
  all_goals omega

/-- A time is converted to its date and back exactly when it fits the 32 bits of `time_t`; `time_tm_to_epoch`
misses the instant exactly when it lies past them but not past the year 9999. -/
theorem calendar_conversion (t : ℤ) (tm : Tm) (h0 : 0≤t) (hmax : t≤253402300799) (htm : tm.Ints) :
    (IsDate t (epochToTm (int t)) ∧ tmToEpoch (epochToTm (int t))=some t ↔ t<2^31) ∧
      ((tmToEpoch tm=if 0 ≤ instant tm ∧ instant tm≤253402300799 then some (instant tm) else none) ↔
        instant tm<2^31 ∨ 253402300799 < instant tm) := by
  have hlt : ∀ x,int x<2^31 := fun x => by rw [int,Int.bmod_def]; omega
  refine ⟨⟨?_,?_⟩,?_⟩
  · rintro ⟨-,hback⟩
    simp only [tmToEpoch] at hback
    split_ifs at hback
    exact Option.some.inj hback ▸ hlt _
  · intro ht
    have hd:=epochToTm_isDate h0
    rw [int_of_mem (by omega)]
    refine ⟨hd,?_⟩
    rw [tmToEpoch_eq (hd.ints h0 ht),hd.instant,if_neg (by omega),int_of_mem (by omega)]
  · rw [tmToEpoch_eq htm]
    by_cases hin : 0 ≤ instant tm ∧ instant tm≤253402300799
    · rw [if_neg (by omega),if_pos hin,Option.some_inj]
      exact ⟨fun h => .inl (h ▸ hlt _),fun h => int_of_mem (by omega)⟩
    · rw [if_pos (by omega),if_neg hin]
      exact iff_of_true rfl (by omega)

/-- One day and 2000-02-30, which is the first of March. -/
theorem calendar_conversion_leap :
    IsDate 86400 (epochToTm (int 86400)) ∧ tmToEpoch ⟨0,0,0,30,1,100,0,0,0⟩=some 951868800 := by
  obtain ⟨hdate,htm⟩:=calendar_conversion 86400 ⟨0,0,0,30,1,100,0,0,0⟩ (by decide) (by decide) (by simp [Tm.Ints])
  exact ⟨(hdate.mpr (by decide)).1,(htm.mpr (.inl (by decide))).trans (by decide)⟩

/-- The first second of 2100 is stored as one in 1963. -/
theorem calendar_past_2038 : instant ⟨0,0,0,1,0,200,0,0,0⟩=4102444800 ∧
      tmToEpoch ⟨0,0,0,1,0,200,0,0,0⟩=some (-192522496) := by
  have hi : instant ⟨0,0,0,1,0,200,0,0,0⟩=4102444800 := by decide
  refine ⟨hi,?_⟩
  rw [tmToEpoch_eq (by simp [Tm.Ints]),hi]
  rfl

end Auxv6.Libc.Timecore

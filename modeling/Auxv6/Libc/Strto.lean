import Auxv6.Process.Ktime

/-!
# Parsing and printing numbers (libc/stdlib.c, libc/fmt.c)

A string is the list of its characters before the NUL, and `endptr` is given as what is left of it. The
four parsers are one function of the width and of whether the type is signed.
-/

namespace Auxv6.Libc.Strto
open List Time Nat Int

def isBlank (c : Char) : Bool := c.toNat=32 || c.toNat=9

/-- The value of a character that is a digit of the base. -/
def digit (base : ℕ) (c : Char) : Option ℕ :=
  let d:=if '0'≤c ∧ c ≤ '9' then some (c.toNat-48)
    else if 'a'≤c ∧ c ≤ 'z' then some (c.toNat-87)
    else if 'A'≤c ∧ c ≤ 'Z' then some (c.toNat-55)
    else none
  d.filter (·<base)

def sign : List Char → Bool × List Char
  | '-'::s => (true,s)
  | '+'::s => (false,s)
  | s => (false,s)
def afterHex : List Char → Option (List Char)
  | '0'::c::s => if c = 'x' ∨ c = 'X' then some s else none
  | _ => none

/-- The base, and where the loop over the digits starts. -/
def radix (base : ℕ) (s : List Char) : ℕ × List Char :=
  if base=0 ∨ base=16 then
    match afterHex s with
    | some t => (16,t)
    | none => if base=16 then (16,s) else if s.head?=some '0' then (8,s.tail) else (10,s)
  else (base,s)

def accumulate (w base : ℕ) : List Char → ℕ → ℕ × List Char
  | [],n => (n,[])
  | c::s,n =>
    match digit base c with
    | none => (n,c::s)
    | some d => accumulate w base s ((n*base+d)%2^w)

/-- `strtoul` and `strtoull` skip a minus sign. -/
def strto (w : ℕ) (signed : Bool) (s : List Char) (base : ℕ) : ℤ × List Char :=
  let r:=sign (s.dropWhile isBlank)
  let start:=radix base r.2
  let n:=accumulate w start.1 start.2 0
  (if signed then (if r.1 then -(n.1 : ℤ) else n.1).bmod (2^w) else n.1,if n.2.length=start.2.length then s else n.2)

def strtol := strto 32 true
def strtoll := strto 64 true
def strtoul := strto 32 false
def strtoull := strto 64 false

/-! ### What they should give -/

def digits (base : ℕ) : List Char → List ℕ
  | [] => []
  | c::s =>
    match digit base c with
    | none => []
    | some d => d::digits base s

def valueOf (base : ℕ) (ds : List ℕ) : ℕ := ds.foldl (fun n d => n*base+d) 0
def numeral (base : ℕ) (s : List Char) : Option (ℕ × List Char) :=
  if digits base s=[] then none
  else some (valueOf base (digits base s),s.drop (digits base s).length)
def plainBase (base : ℕ) (s : List Char) : ℕ := if base≠0 then base else if s.head?=some '0' then 8 else 10

/-- The longest subject sequence after blanks and sign, as its value and what follows it. A prefix `0x`
belongs to it only before a hexadecimal digit, and the 0 that makes a number octal is one of its digits. -/
def subject (base : ℕ) (s : List Char) : Option (ℕ × List Char) :=
  if (base=0 ∨ base=16) ∧ (afterHex s).elim [] (digits 16)≠[] then numeral 16 (s.drop 2)
  else numeral (plainBase base s) s

def expected (w : ℕ) (signed neg : Bool) (v : ℕ) : ℤ :=
  if signed then if neg then max (-2^(w-1)) (-v) else min (2^(w-1)-1) v
  else if 2^w≤v then 2^w-1 else if neg then (2^w-v)%2^w else v
def Right (parse : List Char → ℕ → ℤ × List Char) (w : ℕ) (signed : Bool) (base : ℕ) (s : List Char) : Prop :=
  parse s base=match subject base (sign (s.dropWhile isBlank)).2 with
    | none => (0,s)
    | some (v,rest) => (expected w signed (sign (s.dropWhile isBlank)).1 v,rest)

/-- The number that the loop computes for the value `v`. -/
def wrapped (w : ℕ) (signed neg : Bool) (v : ℕ) : ℤ :=
  if signed then (if neg then -(v : ℤ) else v).bmod (2^w) else v%2^w

/-- A prefix `0` or `0x` was skipped, and no digit of its base follows. -/
def LoneZero (base : ℕ) (s : List Char) : Prop :=
  (radix base s).2.length<s.length ∧ digits (radix base s).1 (radix base s).2=[]

/-- The value is one of the type. -/
def Representable (w : ℕ) : Bool → Bool → ℕ → Prop
  | true,false,v => v<2^(w-1)
  | true,true,v => v≤2^(w-1)
  | false,false,v => v<2^w
  | false,true,v => v=0
/-- What is left of the value in `w` bits happens to be the number to return. -/
def Coincides (w : ℕ) : Bool → Bool → ℕ → Prop
  | true,false,v => v%2^w+1=2^(w-1)
  | true,true,v => v%2^w=2^(w-1)
  | false,false,v => v%2^w+1=2^w
  | false,true,v => v=2^(w-1) ∨ 2^w≤v ∧ v%2^w+1=2^w

/-- No prefix was skipped in front of a missing digit, and the value is one of the type, but for the
coincidences. -/
def Parses (w : ℕ) (signed : Bool) (base : ℕ) (s : List Char) : Prop :=
  let r:=sign (s.dropWhile isBlank)
  ∀ v rest,subject base r.2=some (v,rest) →
    ¬ LoneZero base r.2 ∧ (Representable w signed r.1 v ∨ Coincides w signed r.1 v)

variable {w base : ℕ} {s t : List Char} {neg signed : Bool}

lemma accumulate_eq (s : List Char) (n : ℕ) : accumulate w base s (n%2^w)=
    ((digits base s).foldl (fun n d => n*base+d) n%2^w,s.drop (digits base s).length) := by
  induction s generalizing n with
  | nil => rfl
  | cons c s ih =>
    rw [accumulate,digits]
    cases digit base c with
    | none => rfl
    | some d =>
      have hstep : (n%2^w*base+d)%2^w=(n*base+d)%2^w := by
        rw [add_mod,mul_mod,mod_mod,← mul_mod,← add_mod]
      dsimp only
      rw [hstep,ih]
      rfl

lemma digits_length_le (base : ℕ) (s : List Char) : (digits base s).length ≤ s.length := by
  induction s with
  | nil => exact le_rfl
  | cons c s ih =>
    rw [digits]
    cases digit base c with
    | none => exact zero_le _
    | some d => exact succ_le_succ ih

lemma wrapped_mod (v : ℕ) : (if signed then (if neg then -((v%2^w : ℕ) : ℤ) else (v%2^w : ℕ)).bmod (2^w)
    else (v%2^w : ℕ) : ℤ)=wrapped w signed neg v := by
  have hv : (v : ℤ)=(v%2^w : ℕ)+((2^w : ℕ) : ℤ)*(v/2^w : ℕ) := by exact_mod_cast (mod_add_div v _).symm
  have hneg : -(v : ℤ)=-((v%2^w : ℕ) : ℤ)+((2^w : ℕ) : ℤ)*(-(v/2^w : ℕ)) := by rw [hv]; ring
  rw [wrapped]
  split_ifs
  · rw [hneg,add_mul_bmod_self_left]
  · rw [hv,add_mul_bmod_self_left]
  · push_cast
    rfl

lemma strto_eq (w : ℕ) (signed : Bool) (s : List Char) (base : ℕ) : strto w signed s base=
    match numeral (radix base (sign (s.dropWhile isBlank)).2).1 (radix base (sign (s.dropWhile isBlank)).2).2 with
    | none => (0,s)
    | some (v,rest) => (wrapped w signed (sign (s.dropWhile isBlank)).1 v,rest) := by
  simp only [strto]
  generalize radix base (sign (s.dropWhile isBlank)).2=start
  have hacc := @accumulate_eq w start.1 start.2 0
  rw [zero_mod] at hacc
  rw [hacc,wrapped_mod,numeral]
  by_cases hd : digits start.1 start.2=[]
  · simp [hd,wrapped]
  have hlen : (start.2.drop (digits start.1 start.2).length).length≠start.2.length := by
    have hpos := length_pos_iff.mpr hd
    have hle := digits_length_le start.1 start.2
    rw [length_drop]
    omega
  rw [if_neg hd,if_neg hlen]
  rfl

lemma afterHex_some (h : afterHex s=some t) : ∃ c,s = '0' :: c :: t ∧ (c = 'x' ∨ c = 'X') := by
  unfold afterHex at h
  split at h
  · split_ifs at h with hc
    cases h
    exact ⟨_,rfl,hc⟩
  · cases h

lemma digits_hexHead (hb : base=8 ∨ base=16) (h : afterHex s=some t) : digits base s=[0] := by
  obtain ⟨c,rfl,hc⟩:=afterHex_some h
  rcases hb with rfl | rfl <;> rcases hc with rfl | rfl <;> rfl

/-- The loop starts after `0x`, after the `0` of an octal number, or where the sign ends. -/
lemma radix_cases (base : ℕ) (s : List Char) : (∃ t,(base=0 ∨ base=16) ∧ afterHex s=some t ∧ radix base s=(16,t)) ∨
    (∃ t,base=0 ∧ afterHex s=none ∧ s = '0' :: t ∧ radix base s=(8,t)) ∨
    (radix base s=(plainBase base s,s) ∧ subject base s=numeral (plainBase base s) s) := by
  unfold radix subject plainBase
  by_cases hb : base=0 ∨ base=16
  · cases hx : afterHex s with
    | some t => exact .inl ⟨t,hb,rfl,if_pos hb⟩
    | none =>
      rcases hb with rfl | rfl
      · by_cases h0 : s.head?=some '0'
        · obtain ⟨t,rfl⟩:=head?_eq_some_iff.mp h0
          exact .inr (.inl ⟨t,rfl,rfl,rfl,rfl⟩)
        · exact .inr (.inr (by simp [h0]))
      · exact .inr (.inr (by simp))
  · have h0 : base≠0 := fun h0 => hb (.inl h0)
    rw [if_pos h0,if_neg hb,if_neg fun hc => hb hc.1]
    exact .inr (.inr ⟨rfl,rfl⟩)

lemma numeral_radix (h : ¬ LoneZero base s) : numeral (radix base s).1 (radix base s).2=subject base s := by
  unfold LoneZero at h
  rcases radix_cases base s with ⟨t,hb,hx,hr⟩ | ⟨t,rfl,hx,rfl,hr⟩ | ⟨hr,hs⟩
  · obtain ⟨c,rfl,-⟩:=afterHex_some hx
    rw [hr] at h ⊢
    have hd : digits 16 t≠[] := fun hd => h ⟨by simp,hd⟩
    rw [subject,hx,if_pos ⟨hb,hd⟩]
    rfl
  · rw [hr] at h ⊢
    have hd : digits 8 t≠[] := fun hd => h ⟨by simp,hd⟩
    have h0 : digits 8 ('0' :: t)=0::digits 8 t := rfl
    simp [subject,hx,plainBase,numeral,h0,hd,valueOf]
  · rw [hr,hs]

lemma numeral_lone (h : digits base s=[0]) : ∃ rest,numeral base s=some (0,rest) ∧ rest.length<s.length := by
  have hle := digits_length_le base s
  rw [h,length_singleton] at hle
  refine ⟨s.drop 1,by simp [numeral,h,valueOf],?_⟩
  rw [length_drop]
  omega

lemma subject_loneZero (h : LoneZero base s) : ∃ rest,subject base s=some (0,rest) ∧ rest.length<s.length := by
  obtain ⟨hlt,hd⟩:=h
  rcases radix_cases base s with ⟨t,hb,hx,hr⟩ | ⟨t,rfl,hx,rfl,hr⟩ | ⟨hr,hs⟩ <;> rw [hr] at hlt hd
  · have hplain : plainBase base s=8 ∨ plainBase base s=16 := by
      obtain ⟨c,rfl,-⟩:=afterHex_some hx
      rcases hb with rfl | rfl
      · exact .inl rfl
      · exact .inr rfl
    rw [subject,hx,if_neg fun hc => hc.2 hd]
    exact numeral_lone (digits_hexHead hplain hx)
  · have h0 : digits 8 ('0' :: t)=0::digits 8 t := rfl
    rw [subject,hx,if_neg fun hc => hc.2 rfl]
    exact numeral_lone (h0.trans (by rw [hd]))
  · exact absurd hlt (lt_irrefl _)

lemma sign_length_le (s : List Char) : (sign (s.dropWhile isBlank)).2.length ≤ s.length := by
  have hle := (dropWhile_suffix (l := s) isBlank).length_le
  refine le_trans ?_ hle
  generalize s.dropWhile isBlank=t
  unfold sign
  split <;> simp

lemma wrapped_eq_expected_iff (hw : w=32 ∨ w=64) (signed neg : Bool) (v : ℕ) :
    wrapped w signed neg v=expected w signed neg v ↔ Representable w signed neg v ∨ Coincides w signed neg v := by
  rcases hw with rfl | rfl <;> cases signed <;> cases neg <;>
    simp only [wrapped,expected,Representable,Coincides,bmod_def,if_true,Bool.false_eq_true,if_false] <;>
    push_cast <;> omega

lemma right_iff (hw : w=32 ∨ w=64) (signed : Bool) (base : ℕ) (s : List Char) :
    Right (strto w signed) w signed base s ↔ Parses w signed base s := by
  have hlen := sign_length_le s
  rw [Right,Parses,strto_eq]
  generalize sign (s.dropWhile isBlank)=r at hlen
  by_cases hl : LoneZero base r.2
  · obtain ⟨rest,hs,hlt⟩:=subject_loneZero hl
    rw [numeral,if_pos hl.2,hs]
    refine ⟨fun heq => ?_,fun h => absurd hl (h 0 rest rfl).1⟩
    have hrest : s=rest := congrArg Prod.snd heq
    rw [hrest] at hlen
    omega
  · rw [numeral_radix hl]
    cases subject base r.2 with
    | none => simp
    | some p => simp [hl,Prod.ext_iff,wrapped_eq_expected_iff hw]

/-! ### Printing -/

def digitChar (upper : Bool) (d : ℕ) : Char :=
  (if upper then "0123456789ABCDEF" else "0123456789abcdef").toList.getD d '0'

/-- The loop of `emit_uint` over the digits, the last one first; `u64_divmod_small` runs the same loop as
`ktime_u64_divmod_u32`. -/
def emitDigits (base : ℕ) (upper : Bool) : ℕ → ℕ → List Char
  | 0,_ => []
  | fuel+1,t =>
    if t=0 then []
    else digitChar upper (divmodLoop t base 64 0 0).2::emitDigits base upper fuel (divmodLoop t base 64 0 0).1

/-- The characters that `emit_uint` emits. -/
def emitUint (v base : ℕ) (upper neg left : Bool) (width : ℕ) (zeroPad havePrec : Bool) (prec : ℕ)
    (alt blank plus : Bool) : List Char :=
  let tmp:=if v=0 ∧ ¬(havePrec ∧ prec=0) then ['0'] else emitDigits base upper 64 v
  let pre:=(if neg then ['-'] else if plus then ['+'] else if blank then [Char.ofNat 32] else [])++
    (if alt ∧ base=16 ∧ v≠0 then ['0',if upper then 'X' else 'x'] else [])++
    (if alt ∧ base=8 ∧ tmp.getLast?≠some '0' then ['0'] else [])
  let zeros:=if havePrec then replicate (prec-tmp.length) '0' else []
  let pad:=width-(pre.length+zeros.length+tmp.length)
  if left then pre++zeros++tmp.reverse++replicate pad (Char.ofNat 32)
  else if zeroPad ∧ havePrec=false then pre++replicate pad '0'++zeros++tmp.reverse
  else replicate pad (Char.ofNat 32)++pre++zeros++tmp.reverse

/-- `vsnprintf` with the format `%ld` or `%lld`, and with `%lu` or `%llu`. -/
def printSigned (x : ℤ) : List Char := emitUint x.natAbs 10 false (x<0) false 0 false false 0 false false false

def printUnsigned (v : ℕ) : List Char := emitUint v 10 false false false 0 false false 0 false false false

lemma digits_of_map {ds : List ℕ} (h : s.map (digit base)=ds.map some) : digits base s=ds := by
  induction s generalizing ds with
  | nil => exact (map_eq_nil_iff.mp h.symm).symm
  | cons c s ih =>
    cases ds with
    | nil => cases h
    | cons d ds =>
      rw [map_cons,map_cons,cons.injEq] at h
      rw [digits,h.1,ih h.2]

lemma digit_digitChar : ∀ d<10,digit 10 (digitChar false d)=some d := by decide

lemma emitDigits_value (fuel : ℕ) {t : ℕ} (hf : t<2^fuel) (ht : t<2^64) :
    ∃ ds,(emitDigits 10 false fuel t).reverse.map (digit 10)=ds.map some ∧ valueOf 10 ds=t := by
  induction fuel generalizing t with
  | zero => exact ⟨[],rfl,by rw [pow_zero] at hf; simp [valueOf]; omega⟩
  | succ fuel ih =>
    rw [emitDigits]
    split_ifs with h0
    · exact ⟨[],rfl,h0.symm⟩
    have hdiv : divmodLoop t 10 64 0 0=(t/10,t%10) := by
      rw [divmodLoop_eq 64 0 (by decide),mod_eq_of_lt ht]
      simp
    obtain ⟨ds,hds,hv⟩:=ih (t := t/10) (by rw [pow_succ] at hf; omega) (by omega)
    refine ⟨ds++[t%10],?_,?_⟩
    · rw [hdiv,reverse_cons,map_append,hds,map_append,map_singleton,digit_digitChar _ (mod_lt _ (by decide))]
      rfl
    rw [valueOf] at hv ⊢
    rw [foldl_append,hv]
    simp only [foldl_cons,foldl_nil]
    omega

def body (v : ℕ) : List Char := (if v=0 then ['0'] else emitDigits 10 false 64 v).reverse

lemma body_value {v : ℕ} (hv : v<2^64) : numeral 10 (body v)=some (v,[]) ∧
    ∃ c s d,body v=c::s ∧ digit 10 c=some d := by
  obtain ⟨ds,hds,hval⟩ : ∃ ds,(body v).map (digit 10)=ds.map some ∧ valueOf 10 ds=v ∧ ds≠[] := by
    unfold body
    split_ifs with h0
    · exact ⟨[0],rfl,h0.symm,by simp⟩
    obtain ⟨ds,hds,hval⟩:=emitDigits_value 64 hv hv
    refine ⟨ds,hds,hval,fun hnil => h0 ?_⟩
    rw [← hval,hnil]
    rfl
  have hlen := congrArg length hds
  rw [length_map,length_map] at hlen
  constructor
  · rw [numeral,digits_of_map hds,if_neg hval.2,hval.1,← hlen,drop_length]
  cases hb : body v with
  | nil => simp_all
  | cons c s =>
    cases ds with
    | nil => exact absurd rfl hval.2
    | cons d ds =>
      rw [hb,map_cons,map_cons,cons.injEq] at hds
      exact ⟨c,s,d,rfl,hds.1⟩

lemma sign_digit {c : Char} {d : ℕ} (h : digit 10 c=some d) : isBlank c=false ∧ sign (c::s)=(false,c::s) := by
  constructor
  · by_contra hb
    simp only [isBlank,Bool.not_eq_false,Bool.or_eq_true,decide_eq_true_eq] at hb
    have hc : c=Char.ofNat c.toNat := (Char.ofNat_toNat c).symm
    rcases hb with hb | hb <;> rw [hc,hb] at h <;> cases h
  unfold sign
  split
  · rename_i heq
    cases heq
    cases h
  · rename_i heq
    cases heq
    cases h
  · rfl

/-- A sign and the digits of `v` are read as a number with that sign. -/
lemma strto_body (w : ℕ) {v : ℕ} (hv : v<2^64) :
    strto w signed ((if neg then ['-'] else [])++body v) 10=(wrapped w signed neg v,[]) := by
  obtain ⟨hnum,c,s,d,hb,hd⟩:=body_value hv
  have hc := sign_digit (s := s) hd
  have hsign : sign (((if neg then ['-'] else [])++body v).dropWhile isBlank)=(neg,body v) := by
    rw [hb]
    cases neg with
    | true => rfl
    | false => rw [if_neg (by simp),nil_append,dropWhile_cons_of_neg (by simp [hc.1]),hc.2]
  have hradix : radix 10 (body v)=(10,body v) := rfl
  rw [strto_eq,hsign,hradix,hnum]

def print (signed : Bool) (x : ℤ) : List Char := if signed then printSigned x else printUnsigned x.toNat
def Fits (w : ℕ) (signed : Bool) (x : ℤ) : Prop := if signed then -2^(w-1)≤x ∧ x<2^(w-1) else 0≤x ∧ x<2^w

lemma strto_print (hw : w=32 ∨ w=64) (signed : Bool) {x : ℤ} (h : Fits w signed x) :
    strto w signed (print signed x) 10=(x,[]) := by
  cases signed with
  | true =>
    have hp : print true x=(if decide (x<0) then ['-'] else [])++body x.natAbs := by
      simp [print,printSigned,emitUint,body]
    have hx : (if decide (x<0) then -(x.natAbs : ℤ) else x.natAbs)=x := by
      simp only [decide_eq_true_eq]
      omega
    have hfit : x.natAbs<2^64 ∧ x.bmod (2^w)=x := by
      rcases hw with rfl | rfl <;> simp [Fits] at h <;>
        exact ⟨by omega,bmod_eq_of_le (by omega) (by omega)⟩
    rw [hp,strto_body _ hfit.1,wrapped,if_pos rfl,hx,hfit.2]
  | false =>
    have hp : print false x=(if false then ['-'] else [])++body x.toNat := by
      simp [print,printUnsigned,emitUint,body]
    have hfit : x.toNat<2^64 ∧ (x.toNat : ℤ)%2^w=x := by
      rcases hw with rfl | rfl <;> simp [Fits] at h ⊢ <;> omega
    rw [hp,strto_body _ hfit.1,wrapped,if_neg (by simp),hfit.2]

/-- A parser of a type: its result is right exactly under the condition above, and at base 10 it reads back what
is printed for a number `x` of the type. -/
structure Parser (parse : List Char → ℕ → ℤ × List Char) (w : ℕ) (signed : Bool) (base : ℕ) (s : List Char)
    (x : ℤ) : Prop where
  right : Right parse w signed base s ↔ Parses w signed base s
  printed : Fits w signed x → parse (print signed x) 10=(x,[])

theorem number_parsing (base : ℕ) (s : List Char) (x : ℤ) : Parser strtol 32 true base s x ∧
    Parser strtoll 64 true base s x ∧ Parser strtoul 32 false base s x ∧ Parser strtoull 64 false base s x := by
  have hparser (w : ℕ) (hw : w=32 ∨ w=64) (signed : Bool) : Parser (strto w signed) w signed base s x :=
    ⟨right_iff hw signed base s,strto_print hw signed⟩
  exact ⟨hparser 32 (.inl rfl) true,hparser 64 (.inr rfl) true,
    hparser 32 (.inl rfl) false,hparser 64 (.inr rfl) false⟩

/-- `strtol("2147483648",&end,10)`, `strtoul("-1",&end,10)` and `strtol("0",&end,0)`. -/
theorem number_parsing_fails : ¬ Right strtol 32 true 10 ['2','1','4','7','4','8','3','6','4','8'] ∧
    ¬ Right strtoul 32 false 10 ['-','1'] ∧ ¬ Right strtol 32 true 0 ['0'] := by
  unfold Right
  decide +kernel

end Auxv6.Libc.Strto

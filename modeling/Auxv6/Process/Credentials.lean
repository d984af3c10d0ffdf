import Auxv6.Lib.Transition
import Mathlib.Data.Set.Insert
import Mathlib.Tactic

/-!
# User and group ids (core/proc.c, sysproc.c)

The id fields of a process and the seven calls that change them. A call reads its
arguments with `argint`, which fails when the user stack is not readable; `none` stands
for that. `setgroups` also copies the array of the caller into the kernel.
-/

namespace Auxv6.Process
open Lib Function Option Transition

def procNgroupsMax : ℕ := 16

structure Cred where
  ruid : Int
  uid : Int
  suid : Int
  rgid : Int
  gid : Int
  sgid : Int
  ngroups : ℕ
  groups : ℕ → Int

/-- `cred_matches_current_uid` (`proc.c:1169-1173`). -/
def Cred.matchesUid (p : Cred) (id : Int) : Bool := id=p.ruid ∨ id=p.uid ∨ id=p.suid

/-- `cred_matches_current_gid` (`proc.c:1175-1179`). -/
def Cred.matchesGid (p : Cred) (id : Int) : Bool := id=p.rgid ∨ id=p.gid ∨ id=p.sgid

/-- `proc.c:1181-1215`. -/
def procSetresuid (p : Cred) (ruid euid suid : Int) : Int × Cred :=
  if ruid < -1 ∨ euid < -1 ∨ suid < -1 then (-1,p)
  else
    let newRuid:=if ruid = -1 then p.ruid else ruid
    let newEuid:=if euid = -1 then p.uid else euid
    let newSuid:=if suid = -1 then p.suid else suid
    if p.uid≠0 ∧ ¬ (p.matchesUid newRuid ∧ p.matchesUid newEuid ∧ p.matchesUid newSuid) then (-1,p)
    else (0,{p with ruid := newRuid,uid := newEuid,suid := newSuid})

/-- `proc.c:1217-1253`. -/
def procSetresgid (p : Cred) (rgid egid sgid : Int) : Int × Cred :=
  if rgid < -1 ∨ egid < -1 ∨ sgid < -1 then (-1,p)
  else
    let newRgid:=if rgid = -1 then p.rgid else rgid
    let newEgid:=if egid = -1 then p.gid else egid
    let newSgid:=if sgid = -1 then p.sgid else sgid
    if p.uid≠0 ∧ ¬ (p.matchesGid newRgid ∧ p.matchesGid newEgid ∧ p.matchesGid newSgid) then (-1,p)
    else (0,{ p with
      rgid := newRgid,gid := newEgid,sgid := newSgid
      groups := if 0<p.ngroups then update p.groups 0 newEgid else p.groups })

/-- `proc_setuid` and `proc_setgid` (`proc.c:1143-1167`). -/
def procSetuid (p : Cred) (uid : Int) : Int × Cred :=
  if uid<0 then (-1,p)
  else if p.uid=0 then procSetresuid p uid uid uid else procSetresuid p (-1) uid (-1)

def procSetgid (p : Cred) (gid : Int) : Int × Cred :=
  if gid<0 then (-1,p)
  else if p.uid=0 then procSetresgid p gid gid gid else procSetresgid p (-1) gid (-1)

/-- `proc.c:1281-1316`. -/
def procSetgroups (p : Cred) (groups : ℕ → Int) (n : Int) : Int × Cred :=
  if n<0 ∨ (procNgroupsMax : Int)<n then (-1,p)
  else if p.uid≠0 then (-1,p)
  else if n=0 then
    (0,{p with ngroups := 1,groups := fun i => if i=0 then p.gid else 0})
  else (0,{p with ngroups := n.toNat,groups := fun i => if (i : Int)<n then groups i else 0})

/-- `proc.c:1318-1332`. -/
def procInGroup (p : Cred) (gid : Int) : Bool :=
  decide (p.gid=gid) || (List.range (min p.ngroups procNgroupsMax)).any fun i => decide (p.groups i=gid)

inductive CredCall where
  | setuid
  | setreuid
  | setresuid
  | setgid
  | setregid
  | setresgid
  | setgroups
  deriving DecidableEq

structure CallArgs where
  argint : ℕ → Option Int
  copyin : Option (ℕ → Int)

/-- `sysproc.c:672-700`. -/
def sysSetgroups (p : Cred) (a : CallArgs) : Option (Int × Cred) := do
  let size ← a.argint 0
  if size<0 ∨ (procNgroupsMax : Int)<size then none
  else if 0<size then
    let _ ← a.argint 1
    let kgroups ← a.copyin
    return procSetgroups p kgroups size
  else return procSetgroups p (fun _ => 0) size

/-- The `sys_` functions (`sysproc.c:612-630`, `:672-724`, `:1441-1459`); `none` when an
argument cannot be read. -/
def credBody (p : Cred) (a : CallArgs) : CredCall → Option (Int × Cred)
  | .setuid => do return procSetuid p (← a.argint 0)
  | .setreuid => do return procSetresuid p (← a.argint 0) (← a.argint 1) (-1)
  | .setresuid => do return procSetresuid p (← a.argint 0) (← a.argint 1) (← a.argint 2)
  | .setgid => do return procSetgid p (← a.argint 0)
  | .setregid => do return procSetresgid p (← a.argint 0) (← a.argint 1) (-1)
  | .setresgid => do return procSetresgid p (← a.argint 0) (← a.argint 1) (← a.argint 2)
  | .setgroups => sysSetgroups p a

def credCall (p : Cred) (call : CredCall × CallArgs) : Int × Cred := (credBody p call.2 call.1).getD (-1,p)
def credStep (p : Cred) (call : CredCall × CallArgs) : Option Cred := some (credCall p call).2
def Cred.userIds (p : Cred) : Set Int := {p.ruid,p.uid,p.suid}
def Cred.groupIds (p : Cred) : Set Int :=
  {p.rgid,p.gid,p.sgid} ∪ { g | procInGroup p g=true } ∪ { g | ∃ i<p.ngroups,p.groups i=g }
def Within (p q : Cred) : Prop := q.userIds ⊆ p.userIds ∧ q.groupIds ⊆ p.groupIds

lemma Within.refl (p : Cred) : Within p p := ⟨subset_rfl,subset_rfl⟩
lemma Within.trans {p q r : Cred} (h : Within p q) (h' : Within q r) : Within p r := ⟨h'.1.trans h.1,h'.2.trans h.2⟩

lemma mem_groupIds {p : Cred} {g : Int} : g∈p.groupIds ↔ p.matchesGid g=true ∨ ∃ i<p.ngroups,p.groups i=g := by
  simp only [Cred.groupIds,Cred.matchesGid,Set.mem_union,Set.mem_insert_iff,
    Set.mem_singleton_iff,Set.mem_ofPred_eq,procInGroup,Bool.or_eq_true,List.any_eq_true,
    List.mem_range,decide_eq_true_eq]
  constructor
  · rintro ((h | h | ⟨i,hi,h⟩) | h)
    · exact Or.inl h
    · exact Or.inl (Or.inr (Or.inl h.symm))
    · exact Or.inr ⟨i,lt_of_lt_of_le hi (Nat.min_le_left ..),h⟩
    · exact Or.inr h
  · rintro (h | h)
    · exact Or.inl (Or.inl h)
    · exact Or.inr h

lemma mem_userIds {p : Cred} {u : Int} : u∈p.userIds ↔ p.matchesUid u=true := by
  simp [Cred.userIds,Cred.matchesUid]

variable {p q : Cred}

lemma procSetresuid_cases (p : Cred) (ruid euid suid : Int) (hp : p.uid≠0) : (procSetresuid p ruid euid suid).2=p ∨
    ∃ r e s,p.matchesUid r=true ∧ p.matchesUid e=true ∧ p.matchesUid s=true ∧
      (procSetresuid p ruid euid suid).2 = {p with ruid := r,uid := e,suid := s} := by
  unfold procSetresuid
  split
  · exact Or.inl rfl
  generalize (if ruid = -1 then p.ruid else ruid)=r
  generalize (if euid = -1 then p.uid else euid)=e
  generalize (if suid = -1 then p.suid else suid)=s
  by_cases h : p.matchesUid r ∧ p.matchesUid e ∧ p.matchesUid s
  · dsimp only
    rw [if_neg fun hn => hn.2 h]
    exact Or.inr ⟨r,e,s,h.1,h.2.1,h.2.2,rfl⟩
  · dsimp only
    rw [if_pos ⟨hp,h⟩]
    exact Or.inl rfl

lemma procSetresuid_within (ruid euid suid : Int) (hp : p.uid≠0) : Within p (procSetresuid p ruid euid suid).2 := by
  obtain h | ⟨r,e,s,hr,he,hs,h⟩:=procSetresuid_cases p ruid euid suid hp
  · rw [h]
    exact Within.refl p
  rw [h]
  refine ⟨?_,subset_rfl⟩
  rintro u (rfl | rfl | rfl)
  · exact mem_userIds.mpr hr
  · exact mem_userIds.mpr he
  · exact mem_userIds.mpr hs

lemma procSetresgid_cases (p : Cred) (rgid egid sgid : Int) (hp : p.uid≠0) : (procSetresgid p rgid egid sgid).2=p ∨
    ∃ r e s,p.matchesGid r=true ∧ p.matchesGid e=true ∧ p.matchesGid s=true ∧
      (procSetresgid p rgid egid sgid).2 = { p with
        rgid := r,gid := e,sgid := s
        groups := if 0<p.ngroups then update p.groups 0 e else p.groups } := by
  unfold procSetresgid
  split
  · exact Or.inl rfl
  generalize (if rgid = -1 then p.rgid else rgid)=r
  generalize (if egid = -1 then p.gid else egid)=e
  generalize (if sgid = -1 then p.sgid else sgid)=s
  by_cases h : p.matchesGid r ∧ p.matchesGid e ∧ p.matchesGid s
  · dsimp only
    rw [if_neg fun hn => hn.2 h]
    exact Or.inr ⟨r,e,s,h.1,h.2.1,h.2.2,rfl⟩
  · dsimp only
    rw [if_pos ⟨hp,h⟩]
    exact Or.inl rfl

lemma procSetresgid_within (rgid egid sgid : Int) (hp : p.uid≠0) : Within p (procSetresgid p rgid egid sgid).2 := by
  obtain h | ⟨r,e,s,hr,he,hs,h⟩:=procSetresgid_cases p rgid egid sgid hp
  · rw [h]
    exact Within.refl p
  rw [h]
  refine ⟨subset_rfl,fun g hg => ?_⟩
  obtain hg | ⟨i,hi,hg⟩:=mem_groupIds.mp hg
  · simp only [Cred.matchesGid,decide_eq_true_eq] at hg
    rcases hg with rfl | rfl | rfl
    · exact mem_groupIds.mpr (Or.inl hr)
    · exact mem_groupIds.mpr (Or.inl he)
    · exact mem_groupIds.mpr (Or.inl hs)
  -- the list changes at its first entry only, which becomes the new effective group
  dsimp only at hi hg
  rw [if_pos (by omega)] at hg
  by_cases h0 : i=0
  · rw [h0,update_self] at hg
    exact mem_groupIds.mpr (Or.inl (hg ▸ he))
  · rw [update_of_ne h0] at hg
    exact mem_groupIds.mpr (Or.inr ⟨i,hi,hg⟩)

lemma procSetgroups_refused (groups : ℕ → Int) (n : Int) (hp : p.uid≠0) : (procSetgroups p groups n).2=p := by
  unfold procSetgroups
  rw [if_pos hp]
  split <;> rfl
lemma procSetuid_within (uid : Int) (hp : p.uid≠0) : Within p (procSetuid p uid).2 := by
  unfold procSetuid
  split
  · exact Within.refl p
  · exact procSetresuid_within _ _ _ hp
lemma procSetgid_within (gid : Int) (hp : p.uid≠0) : Within p (procSetgid p gid).2 := by
  unfold procSetgid
  split
  · exact Within.refl p
  · exact procSetresgid_within _ _ _ hp

variable {r : Int × Cred} {a : CallArgs}

lemma sysSetgroups_refused (hp : p.uid≠0) (h : sysSetgroups p a=some r) : r.2=p := by
  obtain ⟨size,-,h⟩:=bind_eq_some_iff.mp h
  split at h
  · cases h
  split at h
  · obtain ⟨-,-,h⟩:=bind_eq_some_iff.mp h
    obtain ⟨kgroups,-,h⟩:=bind_eq_some_iff.mp h
    cases h
    exact procSetgroups_refused _ _ hp
  · cases h
    exact procSetgroups_refused _ _ hp

lemma credBody_within {call : CredCall} (hp : p.uid≠0) (h : credBody p a call=some r) : Within p r.2 := by
  cases call <;> simp only [credBody,bind_eq_bind,bind_eq_some_iff, pure_def,some.injEq] at h
  case setuid => obtain ⟨-,-,rfl⟩ := h; exact procSetuid_within _ hp
  case setreuid => obtain ⟨-,-,-,-,rfl⟩ := h; exact procSetresuid_within _ _ _ hp
  case setresuid => obtain ⟨-,-,-,-,-,-,rfl⟩ := h; exact procSetresuid_within _ _ _ hp
  case setgid => obtain ⟨-,-,rfl⟩ := h; exact procSetgid_within _ hp
  case setregid => obtain ⟨-,-,-,-,rfl⟩ := h; exact procSetresgid_within _ _ _ hp
  case setresgid => obtain ⟨-,-,-,-,-,-,rfl⟩ := h; exact procSetresgid_within _ _ _ hp
  case setgroups =>
    rw [sysSetgroups_refused hp h]
    exact Within.refl p

lemma credStep_within {call : CredCall × CallArgs} (hp : p.uid≠0) (h : credStep p call=some q) : Within p q := by
  cases h
  unfold credCall
  cases hb : credBody p call.2 call.1 with
  | none => exact Within.refl p
  | some r => exact credBody_within hp hb

lemma ne_zero_of_within (h : Within p q) (h0 : 0∉p.userIds) : q.uid≠0 :=
  fun hq => h0 (h.1 (by simp [Cred.userIds,hq]))

/-- A run of calls made without the superuser's effective id gains no user or group id. -/
theorem credentials_closed (p : Cred) (calls : List (CredCall × CallArgs)) :
    (∀ q,Guarded credStep (fun p _ => p.uid≠0) p calls →
      run credStep p calls=some q → q.userIds ⊆ p.userIds ∧ q.groupIds ⊆ p.groupIds) ∧
    (0∉p.userIds → ∀ q,run credStep p calls=some q → q.uid≠0) := by
  constructor
  · intro q hok h
    exact run_guarded (I := Within p) (fun _ _ _ hI hp hs => hI.trans (credStep_within hp hs)) (Within.refl p) hok h
  -- without 0 among the user ids the guard holds by itself
  intro h0 q h
  refine ne_zero_of_within (run_invariant (I := Within p) ?_ (Within.refl p) h) h0
  intro s a t hI hs
  exact hI.trans (credStep_within (ne_zero_of_within hI h0) hs)

def intArgs (l : List Int) : CallArgs := ⟨fun i => l[i]?,none⟩
def sampleCred : Cred := ⟨1000,1001,1002,100,101,102,2,fun i => if i=0 then 101 else 50⟩
def sampleCalls : List (CredCall × CallArgs) :=
  [(.setresuid,intArgs [-1,1002,1000]),(.setgid,intArgs [102]),(.setuid,intArgs [1001])]

theorem credentials_closed_sample : ∃ q,run credStep sampleCred sampleCalls=some q ∧
    q.uid=1002 ∧ q.gid=102 ∧ q.userIds ⊆ sampleCred.userIds ∧ q.groupIds ⊆ sampleCred.groupIds ∧ q.uid≠0 := by
  have hguard : Guarded credStep (fun p _ => p.uid≠0) sampleCred sampleCalls := by
    refine ⟨by decide,fun t ht => ?_⟩
    cases ht
    refine ⟨by decide,fun t ht => ?_⟩
    cases ht
    exact ⟨by decide,fun _ _ => trivial⟩
  have h:=credentials_closed sampleCred sampleCalls
  have hsub:=h.1 _ hguard rfl
  exact ⟨_,rfl,by decide,by decide,hsub.1,hsub.2,h.2 (by simp [Cred.userIds,sampleCred]) _ rfl⟩

end Auxv6.Process

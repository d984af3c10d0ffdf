import Auxv6.Lib.Transition
import Auxv6.Machine

/-!
# The routing table (net/route.c, net/device.c)

The entries with `RTF_UP`, and the addresses and flags of the interfaces. A call with a null
interface returns at once.
-/

namespace Auxv6.Net.Routes

open Function Machine Lib.Transition List Option

def routeTableMax : ℕ := 128

abbrev Addr := BitVec 32

structure Key where
  ifp : ℕ
  dst : Addr
  mask : Addr
deriving DecidableEq

structure Entry where
  key : Key
  gateway : Addr
  src : Addr

abbrev Tab := Fin routeTableMax → Option Entry

structure Ifnet where
  addr : Addr
  netmask : Addr
  up : Bool
  listed : Bool

structure State where
  tab : Tab
  ifnet : ℕ → Ifnet

def Holds (k : Key) (o : Option Entry) : Prop := ∃ e∈o,e.key=k
  deriving Decidable

/-- `route.c:43-79`; `none` for -1. -/
def routeAdd (t : Tab) (e : Entry) : Option Tab :=
  ((finRange _).find? fun i => Holds e.key (t i) ∨ t i=none).map fun i => update t i (some e)

/-- `route.c:82-112`. -/
def routeDelete (t : Tab) (k : Key) : Option Tab :=
  ((finRange _).find? fun i => Holds k (t i)).map fun i => update t i none

/-- `mask_prefix_len` (`route.c:11-22`), for at most `n` bits. -/
def maskPrefixLen : ℕ → Addr → ℕ
  | 0, _ => 0
  | n+1, mask => if mask.msb then maskPrefixLen n (mask <<< 1)+1 else 0

def Entry.len (e : Entry) : ℕ := maskPrefixLen 32 e.key.mask
def Matches (s : State) (dst : Addr) (e : Entry) : Prop :=
  (s.ifnet e.key.ifp).up=true ∧ dst &&& e.key.mask=e.key.dst &&& e.key.mask
  deriving Decidable

/-- A turn of the loop of `route_lookup`. -/
def better (s : State) (dst : Addr) (best : Option Entry) (e : Entry) : Option Entry :=
  if Matches s dst e ∧ ∀ b∈best,b.len<e.len then some e else best

/-- `route.c:114-155`. -/
def routeLookup (s : State) (dst : Addr) : Option ℕ :=
  (((finRange _).filterMap s.tab).foldl (better s dst) none).map (·.key.ifp)

def netKey (ifp : ℕ) (addr mask : Addr) : Key := ⟨ifp,addr &&& mask,mask⟩
def Ifnet.route (x : Ifnet) (ifp : ℕ) : Option Key :=
  if x.addr≠0 ∧ x.netmask≠0 then some (netKey ifp x.addr x.netmask) else none
def dropRoute (t : Tab) (k : Option Key) : Tab := (k.bind (routeDelete t)).getD t
def State.stale (s : State) (ifp : ℕ) (addr mask : Addr) : Option Key :=
  if (s.ifnet ifp).addr≠addr ∨ (s.ifnet ifp).netmask≠mask then (s.ifnet ifp).route ifp else none

/-- `device.c:294-317`. -/
def ifSetAddr (s : State) (ifp : ℕ) (addr mask : Addr) : State :=
  let t:=dropRoute s.tab (s.stale ifp addr mask)
  ⟨if addr≠0 ∧ mask≠0 then (routeAdd t ⟨netKey ifp addr mask,0,addr⟩).getD t else t,
    update s.ifnet ifp {s.ifnet ifp with addr := addr,netmask := mask}⟩

/-- `device.c:150-180`. -/
def ifUnregister (s : State) (ifp : ℕ) : State :=
  if (s.ifnet ifp).listed then
    ⟨dropRoute s.tab ((s.ifnet ifp).route ifp),update s.ifnet ifp ⟨0,0,false,false⟩⟩
  else s

inductive Action where
  | add (e : Entry)
  | delete (k : Key)
  | setAddr (ifp : ℕ) (addr mask : Addr)
  | unregister (ifp : ℕ)

def step (s : State) : Action → Option State
  | .add e => some {s with tab := (routeAdd s.tab e).getD s.tab}
  | .delete k => some {s with tab := dropRoute s.tab (some k)}
  | .setAddr ifp addr mask => some (ifSetAddr s ifp addr mask)
  | .unregister ifp => some (ifUnregister s ifp)

structure RoutesOk (s : State) : Prop where
  unique : ∀ i j k,Holds k (s.tab i) → Holds k (s.tab j) → i=j
  deleted : ∀ k t,routeDelete s.tab k=some t → ∀ i,¬ Holds k (t i)
  found : ∀ dst ifp,routeLookup s dst=some ifp → ∃ i e,s.tab i=some e ∧ e.key.ifp=ifp ∧
    Matches s dst e ∧ ∀ j e',s.tab j=some e' → Matches s dst e' → e'.len≤e.len
  missing : ∀ dst,routeLookup s dst=none ↔ ∀ i e,s.tab i=some e → ¬ Matches s dst e

/-- No slot before that of `k` is free, or free once the route `freed` is deleted. -/
def NoHole (t : Tab) (freed : Option Key) (k : Key) : Prop :=
  freed=some k ∨ ∀ j,Holds k (t j) → ∀ i<j,∃ e,t i=some e ∧ freed≠some e.key
  deriving Decidable

def Sound (s : State) : Action → Prop
  | .add e => NoHole s.tab none e.key
  | .setAddr ifp addr mask => addr≠0 → mask≠0 → NoHole s.tab (s.stale ifp addr mask) (netKey ifp addr mask)
  | _ => True

variable {s : State} {t u : Tab} {e : Entry} {k : Key} {dst : Addr}

def Unique (t : Tab) : Prop := ∀ i j k,Holds k (t i) → Holds k (t j) → i=j

lemma not_holds_none : ¬ Holds k none := fun ⟨_,he,_⟩ => nomatch he
lemma holds_some : Holds k (some e) ↔ e.key=k := ⟨fun ⟨_,he,hk⟩ => some.inj he ▸ hk,fun hk => ⟨e,rfl,hk⟩⟩

lemma Unique.update_none (h : Unique t) (i : Fin routeTableMax) : Unique (update t i none) := by
  have hkeep : ∀ {k j},Holds k (update t i none j) → Holds k (t j) := by
    intro k j hj
    by_cases hij : j=i
    · rw [hij,update_self] at hj
      exact absurd hj not_holds_none
    · rwa [update_of_ne hij] at hj
  exact fun a b k ha hb => h a b k (hkeep ha) (hkeep hb)

lemma routeDelete_cases (h : routeDelete t k=some u) : ∃ i,Holds k (t i) ∧ u=update t i none := by
  obtain ⟨i,hi,rfl⟩:=map_eq_some_iff.mp h
  exact ⟨i,by simpa using find?_some hi,rfl⟩

lemma Unique.deleted (h : Unique t) (hd : routeDelete t k=some u) (j : Fin routeTableMax) : ¬ Holds k (u j) := by
  obtain ⟨i,hi,rfl⟩:=routeDelete_cases hd
  intro hj
  by_cases hij : j=i
  · rw [hij,update_self] at hj
    exact not_holds_none hj
  · rw [update_of_ne hij] at hj
    exact hij (h j i k hj hi)

lemma Unique.add (h : Unique t) (hole : ∀ j,Holds e.key (t j) → ∀ i<j,t i≠none) : Unique ((routeAdd t e).getD t) := by
  rw [routeAdd]
  cases hf : (finRange _).find? fun i => Holds e.key (t i) ∨ t i=none with
  | none => exact h
  | some i =>
    have hother : ∀ j≠i,¬ Holds e.key (t j) := by
      intro j hne hj
      rcases lt_or_gt_of_ne hne with hlt | hlt
      · simpa [hj] using finRange_find?_lt hf hlt
      have hi : Holds e.key (t i) ∨ t i=none := by simpa using find?_some hf
      rcases hi with hi | hi
      · exact hne (h j i _ hj hi)
      · exact hole j hj i hlt hi
    have hcases : ∀ k j,Holds k (update t i (some e) j) → j=i ∧ k=e.key ∨ j≠i ∧ Holds k (t j) := by
      intro k j hj
      by_cases hij : j=i
      · rw [hij,update_self,holds_some] at hj
        exact .inl ⟨hij,hj.symm⟩
      · rw [update_of_ne hij] at hj
        exact .inr ⟨hij,hj⟩
    intro a b k ha hb
    rcases hcases k a ha with ⟨rfl,rfl⟩ | ⟨hne,ha'⟩ <;> rcases hcases _ b hb with ⟨rfl,hk⟩ | ⟨hne',hb'⟩
    · rfl
    · exact absurd hb' (hother b hne')
    · exact absurd (hk ▸ ha') (hother a hne)
    · exact h a b k ha' hb'

lemma dropRoute_cases (t : Tab) (freed : Option Key) : dropRoute t freed=t ∧ (∀ k∈freed,∀ i,¬ Holds k (t i)) ∨
      ∃ k i,freed=some k ∧ Holds k (t i) ∧ dropRoute t freed=update t i none := by
  cases freed with
  | none => exact .inl ⟨rfl,fun _ h => nomatch h⟩
  | some k =>
    rw [dropRoute,bind_some]
    cases hd : routeDelete t k with
    | none =>
      refine .inl ⟨rfl,fun k' hk i hi => ?_⟩
      cases hk
      simpa [hi] using find?_eq_none.mp (map_eq_none_iff.mp hd) i (mem_finRange i)
    | some u =>
      obtain ⟨i,hi,rfl⟩:=routeDelete_cases hd
      exact .inr ⟨k,i,rfl,hi,rfl⟩

lemma Unique.drop (h : Unique t) (freed : Option Key) : Unique (dropRoute t freed) := by
  obtain ⟨heq,-⟩ | ⟨-,i,-,-,heq⟩:=dropRoute_cases t freed <;> rw [heq]
  · exact h
  · exact h.update_none i

lemma NoHole.drop {freed : Option Key} (h : Unique t) (hole : NoHole t freed k) (j : Fin routeTableMax)
    (hj : Holds k (dropRoute t freed j)) : ∀ i<j,dropRoute t freed i≠none := by
  obtain ⟨heq,hno⟩ | ⟨k',d,rfl,hd,heq⟩:=dropRoute_cases t freed <;> rw [heq] at hj ⊢
  · rcases hole with rfl | hole
    · exact absurd hj (hno k rfl j)
    · intro i hi
      obtain ⟨e,he,-⟩:=hole j hj i hi
      simp [he]
  have hjd : j≠d := by
    rintro rfl
    rw [update_self] at hj
    exact not_holds_none hj
  rw [update_of_ne hjd] at hj
  rcases hole with hk | hole
  · cases hk
    exact absurd (h j d k hj hd) hjd
  intro i hi
  obtain ⟨e,he,hne⟩:=hole j hj i hi
  have hid : i≠d := by
    rintro rfl
    rw [he,holds_some] at hd
    exact hne (hd ▸ rfl)
  simp [hid,he]

lemma Unique.step {a : Action} {s' : State} (h : Unique s.tab) (hok : Sound s a) (hs : step s a=some s') :
    Unique s'.tab := by
  cases a with
  | add e =>
    cases hs
    exact h.add (NoHole.drop h hok)
  | delete k =>
    cases hs
    exact h.drop _
  | setAddr ifp addr mask =>
    cases hs
    dsimp only [ifSetAddr]
    split_ifs with hset
    · exact (h.drop _).add (NoHole.drop h (hok hset.1 hset.2))
    · exact h.drop _
  | unregister ifp =>
    cases hs
    rw [ifUnregister]
    split_ifs
    · exact h.drop _
    · exact h

lemma lookup_spec (l : List Entry) : (∀ b∈l.foldl (better s dst) none,b∈l ∧ Matches s dst b) ∧
    ∀ e∈l,Matches s dst e → ∃ b∈l.foldl (better s dst) none,e.len≤b.len := by
  induction l using reverseRecOn with
  | nil => exact ⟨fun _ h => (nomatch h),fun _ h => (nomatch h)⟩
  | append_singleton l x ih =>
    obtain ⟨hin,hmax⟩:=ih
    rw [foldl_append,foldl_cons,foldl_nil,better]
    split_ifs with hx
    · refine ⟨fun b hb => ?_,fun e he hm => ⟨x,rfl,?_⟩⟩
      · cases hb
        exact ⟨by simp,hx.1⟩
      rcases mem_append.mp he with he | he
      · obtain ⟨b,hb,hle⟩:=hmax e he hm
        exact hle.trans (hx.2 b hb).le
      · rw [mem_singleton.mp he]
    · refine ⟨fun b hb => ⟨by simp [(hin b hb).1],(hin b hb).2⟩,fun e he hm => ?_⟩
      rcases mem_append.mp he with he | he
      · exact hmax e he hm
      · -- some entry found before is as long
        cases mem_singleton.mp he
        simpa [hm] using hx

lemma Unique.routesOk (h : Unique s.tab) : RoutesOk s := by
  have hmem : ∀ e,e∈(finRange _).filterMap s.tab ↔ ∃ i,s.tab i=some e := by simp
  refine ⟨h,fun k t hd => h.deleted hd,fun dst ifp hl => ?_,fun dst => ?_⟩
  · obtain ⟨b,hb,rfl⟩:=map_eq_some_iff.mp hl
    obtain ⟨hin,hmax⟩:=@lookup_spec s dst ((finRange _).filterMap s.tab)
    obtain ⟨i,hi⟩:=(hmem b).mp (hin b hb).1
    refine ⟨i,b,hi,rfl,(hin b hb).2,fun j e he hm => ?_⟩
    obtain ⟨b',hb',hle⟩:=hmax e ((hmem e).mpr ⟨j,he⟩) hm
    rw [hb] at hb'
    cases hb'
    exact hle
  obtain ⟨hin,hmax⟩:=@lookup_spec s dst ((finRange _).filterMap s.tab)
  rw [routeLookup,map_eq_none_iff]
  constructor
  · intro hnone i e he hm
    obtain ⟨b,hb,-⟩:=hmax e ((hmem e).mpr ⟨i,he⟩) hm
    rw [hnone] at hb
    cases hb
  intro hno
  by_contra hne
  obtain ⟨b,hb⟩:=ne_none_iff_exists'.mp hne
  obtain ⟨i,hi⟩:=(hmem b).mp (hin b hb).1
  exact hno i b hi (hin b hb).2

/-- In every run of calls none of which adds a key behind a hole. -/
theorem routes_sound {s t : State} {acts : List Action} (hinit : s.tab=fun _ => none)
    (hok : Guarded step Sound s acts) (hrun : run step s acts=some t) :
    RoutesOk t ∧ ∀ n≤32,maskPrefixLen 32 (BitVec.allOnes 32 <<< (32-n))=n := by
  have hstart : Unique s.tab := by
    rw [hinit]
    exact fun i j k hi => absurd hi not_holds_none
  refine ⟨(run_guarded (I := fun s => Unique s.tab) (fun _ _ _ h hok hs => h.step hok hs)
    hstart hok hrun).routesOk,by decide⟩

def emptyTable : State := ⟨fun _ => none,fun _ => ⟨0,0,true,true⟩⟩
def hostRoute (addr : Addr) : Entry := ⟨⟨1,addr,BitVec.allOnes 32⟩,0,0⟩

instance : NeZero routeTableMax := ⟨by decide⟩
instance (s : State) : (a : Action) → Decidable (Sound s a)
  | .add _ => inferInstanceAs (Decidable (NoHole ..))
  | .setAddr _ _ _ => inferInstanceAs (Decidable (_ → _ → NoHole ..))
  | .delete _ | .unregister _ => .isTrue trivial

abbrev addTwo (more : List Action) : List Action := .add (hostRoute 5)::.add (hostRoute 6)::more

/-- The first route is added again, into its own slot. -/
theorem routes_sound_two : ∃ t,run step emptyTable (addTwo [.add (hostRoute 5)])=some t ∧
    t.tab 0=some (hostRoute 5) ∧ t.tab 1=some (hostRoute 6) ∧ t.tab 2=none ∧ RoutesOk t := by
  have hok : Guarded step Sound emptyTable (addTwo [.add (hostRoute 5)]) := by decide +kernel
  obtain ⟨t,ht,h0,h1,h2⟩ : ∃ t,run step emptyTable (addTwo [.add (hostRoute 5)])=some t ∧
      t.tab 0=some (hostRoute 5) ∧ t.tab 1=some (hostRoute 6) ∧ t.tab 2=none := ⟨_,rfl,rfl,rfl,rfl⟩
  exact ⟨t,ht,h0,h1,h2,(routes_sound rfl hok ht).1⟩

/-- The second route is added again, into the slot of the first, which was deleted. -/
theorem route_added_twice : ∃ t,run step emptyTable
      (addTwo [.delete (hostRoute 5).key,.add (hostRoute 6)])=some t ∧ ¬ RoutesOk t := by
  obtain ⟨t,ht,h0,h1⟩ : ∃ t,run step emptyTable (addTwo [.delete (hostRoute 5).key,.add (hostRoute 6)])=some t ∧
      Holds (hostRoute 6).key (t.tab 0) ∧ Holds (hostRoute 6).key (t.tab 1) := by
    decide +kernel
  exact ⟨t,ht,fun h => absurd (h.unique 0 1 _ h0 h1) (by decide)⟩

end Auxv6.Net.Routes

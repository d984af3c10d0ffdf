import Auxv6.Fs.Bcache

/-!
# Safety of the buffer cache

A transfer on a partition changes the identity of a buffer in use, and a write that fails leaves
the buffer dirty for good; the rest keeps the cache.
-/

namespace Auxv6.Fs
open Lib Machine Lib.Transition Function List Option Transition Fs Dll

variable {part : ℕ → Option Part} {s t : Cache} {Q : List BufId} {H : Bucket → List BufId} {b : BufId} {i : ℕ}

def Task.home : Task → Option (ℕ × ℕ)
  | .reading _ home | .writing _ home => home
  | _ => none

structure CacheInv (s : Cache) (Q : List BufId) (H : Bucket → List BufId) : Prop where
  lru : Rep s.lru fun _ => Q
  all : ∀ b,b∈Q
  chains : Buckets.Rep s.hash H
  mem : ∀ k b,b∈H k ↔ (s.buf b).inhash=true ∧ bhash (s.buf b).dev (s.buf b).blockno=k
  unique : ∀ b b',(s.buf b).inhash=true → (s.buf b').inhash=true →
    (s.buf b).dev=(s.buf b').dev → (s.buf b).blockno=(s.buf b').blockno → b=b'
  refs : ∀ b,(s.buf b).refcnt=s.tasks.countP (Task.on b)
  used : ∀ b,0<(s.buf b).refcnt → (s.buf b).inhash=true
  clean : ∀ b,(s.buf b).dirty=true → (s.buf b).pinned=true ∨ ∃ home,Task.writing b home∈s.tasks
  home : ∀ x∈s.tasks,x.home=none

lemma nodup_length_le {l : List BufId} (h : l.Nodup) : l.length≤nbuf := by
  simpa using h.length_le_card
lemma CacheInv.chain_eq (h : CacheInv s Q H) (k : Bucket) : s.chain k=H k := by
  rw [Cache.chain,h.chains.head k]
  exact (h.chains.linked k).walk (nodup_length_le (h.chains.nodup k))
lemma CacheInv.lruList_eq (h : CacheInv s Q H) : s.lruList=Q := by
  rw [Cache.lruList,h.lru.head ()]
  exact (h.lru.chain ()).walk (nodup_length_le (h.lru.nodup ()))

variable {x y : Task} {l : List Task} {blockno dev : ℕ}

lemma countP_set_same (hi : l[i]? = some x) (p : Task → Bool) (hp : p y=p x) : (l.set i y).countP p=l.countP p := by
  obtain ⟨hlt,hx⟩:=List.getElem?_eq_some_iff.mp hi
  rw [countP_set hlt,hx,hp]
  by_cases h : p x=true
  · have hpos : 0<l.countP p := countP_pos_iff.mpr ⟨x,hx ▸ getElem_mem hlt,h⟩
    simp only [h,if_true]
    omega
  · simp [h]

lemma countP_set_drop (hi : l[i]? = some x) (p : Task → Bool) (hp : p x=true) (hq : p y=false) :
    (l.set i y).countP p=l.countP p-1 := by
  obtain ⟨hlt,hx⟩:=List.getElem?_eq_some_iff.mp hi
  rw [countP_set hlt,hx,hp,hq]
  simp

lemma mem_set_of_mem {z : Task} (hi : l[i]? = some x) (hz : z∈l) (hne : z≠x) : z∈l.set i y := by
  obtain ⟨j,hj,rfl⟩:=mem_iff_getElem.mp hz
  refine mem_iff_getElem.mpr ⟨j,by simpa using hj,?_⟩
  rw [getElem_set_of_ne]
  rintro rfl
  rw [getElem?_eq_getElem hj] at hi
  exact hne (some.inj hi)

structure SameShape (s t : Cache) : Prop where
  lru : t.lru=s.lru
  hash : t.hash=s.hash
  dev : ∀ b,(t.buf b).dev=(s.buf b).dev
  blockno : ∀ b,(t.buf b).blockno=(s.buf b).blockno
  inhash : ∀ b,(t.buf b).inhash=(s.buf b).inhash

lemma CacheInv.keep (h : CacheInv s Q H) (hs : SameShape s t)
    (hrefs : ∀ b,(t.buf b).refcnt=t.tasks.countP (Task.on b)) (hused : ∀ b,0<(t.buf b).refcnt → (s.buf b).inhash=true)
    (hclean : ∀ b,(t.buf b).dirty=true → (t.buf b).pinned=true ∨ ∃ home,Task.writing b home∈t.tasks)
    (hhome : ∀ x∈t.tasks,x.home=none) : CacheInv t Q H := by
  refine ⟨hs.lru ▸ h.lru,h.all,hs.hash ▸ h.chains,?_,?_,hrefs,?_,hclean,hhome⟩
  · intro k b
    rw [hs.inhash,hs.dev,hs.blockno]
    exact h.mem k b
  · intro b b'
    rw [hs.inhash,hs.inhash,hs.dev,hs.dev,hs.blockno,hs.blockno]
    exact h.unique b b'
  · intro b hb
    rw [hs.inhash]
    exact hused b hb

lemma buf_set (s : Cache) (b : BufId) (f : Buf → Buf) (i : ℕ) (x : Task) (c : BufId) :
    ((s.setBuf b f).setTask i x).buf c=if c=b then f (s.buf b) else s.buf c := by
  by_cases hc : c=b
  · subst hc
    simp [Cache.setBuf,Cache.setTask]
  · simp [Cache.setBuf,Cache.setTask,hc]

variable {f : Buf → Buf}

lemma sameShape_of_buf (hlru : t.lru=s.lru) (hhash : t.hash=s.hash)
    (hbuf : ∀ c,t.buf c=if c=b then f (s.buf b) else s.buf c)
    (hdev : (f (s.buf b)).dev=(s.buf b).dev) (hblk : (f (s.buf b)).blockno=(s.buf b).blockno)
    (hin : (f (s.buf b)).inhash=(s.buf b).inhash) : SameShape s t := by
  refine ⟨hlru,hhash,fun c => ?_,fun c => ?_,fun c => ?_⟩
  all_goals
    rw [hbuf]
    split_ifs with hc
    · rw [hc]
      assumption
    · rfl

structure Advances (s : Cache) (b : BufId) (f : Buf → Buf) (i : ℕ) (x y : Task) : Prop where
  task : s.tasks[i]? = some x
  before : x.buf=some b
  after : y.buf=some b
  home : y.home=none
  dev : (f (s.buf b)).dev=(s.buf b).dev
  blockno : (f (s.buf b)).blockno=(s.buf b).blockno
  inhash : (f (s.buf b)).inhash=(s.buf b).inhash
  refcnt : (f (s.buf b)).refcnt=(s.buf b).refcnt
  clean : (f (s.buf b)).dirty=true → (f (s.buf b)).pinned=true ∨ (∃ g,y=.writing b g) ∨
    ((s.buf b).dirty=true ∧ ((s.buf b).pinned=true → (f (s.buf b)).pinned=true) ∧ ∀ g,x≠.writing b g)

lemma CacheInv.advance (h : CacheInv s Q H) (ha : Advances s b f i x y) :
    CacheInv ((s.setBuf b f).setTask i y) Q H := by
  have hi:=ha.task
  obtain ⟨hlt,-⟩:=List.getElem?_eq_some_iff.mp hi
  refine h.keep (sameShape_of_buf rfl rfl (buf_set s b f i y) ha.dev ha.blockno ha.inhash) ?_ ?_ ?_ ?_
  · intro c
    show _ = (s.tasks.set i y).countP _
    rw [countP_set_same hi _ (by simp [Task.on,ha.before,ha.after]),buf_set,← h.refs c]
    split_ifs with hc
    · rw [hc,ha.refcnt]
    · rfl
  · intro c hc
    apply h.used
    rw [buf_set] at hc
    split_ifs at hc with hcb
    · rw [hcb,← ha.refcnt]
      exact hc
    · exact hc
  · intro c hd
    rw [buf_set] at hd ⊢
    by_cases hc : c=b
    · subst hc
      rw [if_pos rfl] at hd ⊢
      rcases ha.clean hd with hp | ⟨g,rfl⟩ | ⟨hd',hp,hne⟩
      · exact .inl hp
      · exact .inr ⟨g,mem_set hlt _⟩
      · rcases h.clean c hd' with hp' | ⟨g,hg⟩
        · exact .inl (hp hp')
        · exact .inr ⟨g,mem_set_of_mem hi hg fun he => hne g he.symm⟩
    · rw [if_neg hc] at hd ⊢
      rcases h.clean c hd with hp | ⟨g,hg⟩
      · exact .inl hp
      · refine .inr ⟨g,mem_set_of_mem hi hg ?_⟩
        rintro rfl
        exact hc (some.inj ha.before)
  · intro z hz
    rcases mem_or_eq_of_mem_set hz with hz | rfl
    · exact h.home z hz
    · exact ha.home

lemma CacheInv.addUser (h : CacheInv s Q H) (hs : SameShape s t)
    (htasks : t.tasks=s.tasks++[.waiting b]) (hb : (t.buf b).refcnt=(s.buf b).refcnt+1)
    (hother : ∀ c,c≠b → (t.buf c).refcnt=(s.buf c).refcnt)
    (hin : (s.buf b).inhash=true) (hdirty : ∀ c,(t.buf c).dirty=(s.buf c).dirty)
    (hpin : ∀ c,(t.buf c).pinned=(s.buf c).pinned) : CacheInv t Q H := by
  refine h.keep hs ?_ ?_ ?_ ?_
  · intro c
    rw [htasks,countP_append,← h.refs c]
    by_cases hc : c=b
    · subst hc
      rw [hb]
      simp [Task.on,Task.buf]
    · rw [hother c hc]
      simp [Task.on,Task.buf,Ne.symm hc]
  · intro c hc
    by_cases hcb : c=b
    · rw [hcb]
      exact hin
    · exact h.used c (hother c hcb ▸ hc)
  · intro c hd
    rw [hdirty] at hd
    rw [hpin,htasks]
    exact (h.clean c hd).imp_right fun ⟨g,hg⟩ => ⟨g,mem_append_left _ hg⟩
  · rw [htasks]
    intro x hx
    rcases mem_append.mp hx with hx | hx
    · exact h.home x hx
    · rw [mem_singleton.mp hx]
      rfl

lemma Buf.carries_iff {x : Buf} : x.carries dev blockno=true ↔ x.dev=dev ∧ x.blockno=blockno := by
  simp [Buf.carries]
lemma Buf.idle_iff {x : Buf} : x.idle=true ↔ x.refcnt=0 ∧ x.dirty=false := by
  simp [Buf.idle]

def Cache.key (s : Cache) (b : BufId) : Option (ℕ × ℕ) :=
  if (s.buf b).inhash then some ((s.buf b).dev,(s.buf b).blockno) else none

lemma Cache.key_eq_some {i : ℕ × ℕ} : s.key b=some i ↔
    (s.buf b).inhash=true ∧ (s.buf b).dev=i.1 ∧ (s.buf b).blockno=i.2 := by
  rw [Cache.key]
  split_ifs with hin <;> simp [hin,Prod.ext_iff]

section
variable (h : CacheInv s Q H)
include h

lemma CacheInv.keyed : Buckets.Keyed s.hash H s.key fun i => bhash i.1 i.2 := by
  refine ⟨h.chains,fun k b => ?_,fun b c i hb hc => ?_⟩
  · rw [h.mem k b]
    simp [Cache.key_eq_some,and_assoc]
  · rw [Cache.key_eq_some] at hb hc
    exact h.unique b c hb.1 hc.1 (hb.2.1.trans hc.2.1.symm) (hb.2.2.trans hc.2.2.symm)

lemma CacheInv.recycle (hidle : (s.buf b).idle=true)
    (hnew : ∀ c,(s.buf c).inhash=true → (s.buf c).carries dev blockno=false) :
    ∃ H',CacheInv {s.recycle b dev blockno with tasks := s.tasks++[.waiting b]} Q H' := by
  obtain ⟨hzero,hclean⟩:=Buf.idle_iff.mp hidle
  have hself : (s.recycle b dev blockno).buf b = ⟨dev,blockno,1,false,false,false,true,(s.buf b).locked,false⟩ :=
    update_self ..
  have hother : ∀ c,c≠b → (s.recycle b dev blockno).buf c=s.buf c := fun c hc => update_of_ne hc ..
  have hfree : ∀ c,s.key c≠some (dev,blockno) := by
    intro c hc
    obtain ⟨hin,hcar⟩:=Cache.key_eq_some.mp hc
    have := hnew c hin
    rw [Buf.carries_iff.mpr hcar] at this
    cases this
  obtain ⟨H',hk⟩:=h.keyed.rekey (fun k => nodup_length_le (h.chains.nodup k)) b hfree
  have hkey : update s.key b (some (dev,blockno))=(s.recycle b dev blockno).key := by
    funext c
    by_cases hc : c=b
    · rw [hc,update_self,Cache.key,hself]
      rfl
    · rw [update_of_ne hc,Cache.key,Cache.key,hother c hc]
  have hhash : (s.hash.drop nbuf (fun i => bhash i.1 i.2) b (s.key b)).insert (bhash dev blockno) b =
      (s.recycle b dev blockno).hash := by
    rw [Cache.recycle,Cache.key]
    cases (s.buf b).inhash <;> rfl
  rw [hkey,hhash] at hk
  refine ⟨H',⟨h.lru,h.all,hk.rep,fun k c => ?_,fun c c' hc hc' hd hb => ?_,?_,?_,?_,?_⟩⟩
  · rw [hk.mem k c]
    simp [Cache.key_eq_some,and_assoc]
  · have hi:=hk.unique c c' (((s.recycle b dev blockno).buf c).dev,((s.recycle b dev blockno).buf c).blockno)
    exact hi (Cache.key_eq_some.mpr ⟨hc,rfl,rfl⟩) (Cache.key_eq_some.mpr ⟨hc',hd.symm,hb.symm⟩)
  · intro c
    rw [countP_append,← h.refs c]
    by_cases hc : c=b
    · subst hc
      rw [hself,hzero]
      simp [Task.on,Task.buf]
    · rw [hother c hc]
      simp [Task.on,Task.buf,Ne.symm hc]
  · intro c
    by_cases hc : c=b
    · rw [hc,hself]
      intro _
      rfl
    · rw [hother c hc]
      exact h.used c
  · intro c
    by_cases hc : c=b
    · rw [hc,hself]
      intro hd
      cases hd
    · rw [hother c hc]
      intro hd
      exact (h.clean c hd).imp_right fun ⟨g,hg⟩ => ⟨g,mem_append_left _ hg⟩
  · intro x hx
    rcases mem_append.mp hx with hx | hx
    · exact h.home x hx
    · rw [mem_singleton.mp hx]
      rfl

lemma CacheInv.lookup {s' : Cache} (hg : bget s dev blockno=some (b,s')) :
    ∃ H',CacheInv {s' with tasks := s'.tasks++[.waiting b]} Q H' := by
  unfold bget at hg
  split at hg
  next c hfind =>
    cases hg
    rw [h.chain_eq] at hfind
    have hin:=((h.mem _ b).mp (mem_of_find?_eq_some hfind)).1
    refine ⟨H,h.addUser ⟨rfl,rfl,?_,?_,?_⟩ rfl ?_ ?_ hin ?_ ?_⟩
    all_goals intros
    all_goals simp only [Cache.setBuf,update_apply]
    all_goals split_ifs <;> simp_all
  rename_i hfind
  split at hg
  next c hidle =>
    cases hg
    refine h.recycle (by simpa using find?_some hidle) ?_
    intro c hin
    by_contra hc
    have hc' : (s.buf c).carries dev blockno=true := by simpa using hc
    obtain ⟨rfl,rfl⟩:=Buf.carries_iff.mp hc'
    rw [h.chain_eq] at hfind
    have := find?_eq_none.mp hfind c ((h.mem _ c).mpr ⟨hin,rfl⟩)
    exact this hc'
  next => cases hg

lemma CacheInv.moveFront (b : BufId) :
    Rep ((s.lru.remove () b).append () b) (fun _ => Q.erase b++[b]) ∧ ∀ c,c∈Q.erase b++[b] := by
  have hrm:=h.lru.remove (q := ()) (h.all b)
  have hnot : ∀ q : Unit,b∉update (fun _ : Unit => Q) () (Q.erase b) q := by
    simp [(h.lru.nodup ()).mem_erase_iff]
  have hap:=hrm.append () hnot
  constructor
  · convert hap using 1
    funext q
    simp
  intro c
  by_cases hc : c=b
  · simp [hc]
  · exact mem_append_left _ ((mem_erase_of_ne hc).mpr (h.all c))

end

lemma release_buf (s : Cache) (b : BufId) (i : ℕ) (c : BufId) : ((s.release b).setTask i .done).buf c =
    if c=b then {s.buf b with refcnt := (s.buf b).refcnt-1} else s.buf c := by
  have hset:=buf_set s b (fun x => {x with refcnt := x.refcnt-1}) i .done c
  unfold Cache.release
  split_ifs at hset ⊢ <;> exact hset

lemma CacheInv.drop (h : CacheInv s Q H) (hi : s.tasks[i]? = some (.leaving b)) :
    ∃ Q',CacheInv ((s.release b).setTask i .done) Q' H := by
  have hbuf:=release_buf s b i
  have htasks : ((s.release b).setTask i .done).tasks=s.tasks.set i .done := by
    unfold Cache.release
    split_ifs <;> rfl
  have hhash : ((s.release b).setTask i .done).hash=s.hash := by
    unfold Cache.release
    split_ifs <;> rfl
  -- the same cache with the old LRU list
  have hold : CacheInv {(s.release b).setTask i .done with lru := s.lru} Q H := by
    refine h.keep (sameShape_of_buf (f := fun x => {x with refcnt := x.refcnt-1}) rfl hhash hbuf rfl rfl rfl)
      ?_ ?_ ?_ ?_
    · intro c
      rw [hbuf,htasks]
      split_ifs with hc
      · subst hc
        rw [countP_set_drop hi _ (by simp [Task.on,Task.buf]) (by simp [Task.on,Task.buf]),← h.refs c]
      · rw [countP_set_same hi _ (by simp [Task.on,Task.buf,Ne.symm hc]),← h.refs c]
    · intro c
      rw [hbuf]
      split_ifs with hc
      · intro hpos
        rw [hc]
        exact h.used b (by dsimp only at hpos; omega)
      · exact h.used c
    · intro c
      rw [hbuf,htasks]
      intro hd
      have hd' : (s.buf c).dirty=true := by
        split_ifs at hd with hc
        · rw [hc]
          exact hd
        · exact hd
      rcases h.clean c hd' with hp | ⟨g,hg⟩
      · left
        split_ifs with hc
        · rw [hc] at hp
          exact hp
        · exact hp
      · exact .inr ⟨g,mem_set_of_mem hi hg (by simp)⟩
    · show ∀ x∈((s.release b).setTask i .done).tasks,_
      rw [htasks]
      intro x hx
      rcases mem_or_eq_of_mem_set hx with hx | rfl
      · exact h.home x hx
      · rfl
  by_cases hz : (s.buf b).refcnt-1=0
  · obtain ⟨hrep,hall⟩:=h.moveFront b
    have hlru : ((s.release b).setTask i .done).lru=(s.lru.remove () b).append () b := by
      unfold Cache.release
      rw [if_pos hz]
      rfl
    exact ⟨_,⟨hlru ▸ hrep,hall,hold.chains,hold.mem,hold.unique,hold.refs,hold.used,hold.clean,hold.home⟩⟩
  · have hlru : ((s.release b).setTask i .done).lru=s.lru := by
      unfold Cache.release
      rw [if_neg hz]
      rfl
    exact ⟨Q,⟨hlru ▸ h.lru,h.all,hold.chains,hold.mem,hold.unique,hold.refs,hold.used,hold.clean,hold.home⟩⟩

variable (part)

def Sound (s : Cache) : Action → Prop
  | .enter i => ∀ b,s.tasks[i]? = some (.entered b) → (s.buf b).valid=false → partBlock part (s.buf b)=none
  | .bwrite i => ∀ b,s.tasks[i]? = some (.held b) → partBlock part (s.buf b)=none
  | .finish i ok => ∀ b home,s.tasks[i]? = some (.writing b home) → ok=true
  | _ => True

variable {part}

lemma startTransfer_none {task : Option (ℕ × ℕ) → Task}
    (h : partBlock part (s.buf b)=none) : startTransfer part s i b task=s.setTask i (task none) := by
  rw [startTransfer,h]
lemma setTask_eq (s : Cache) (b : BufId) (i : ℕ) (x : Task) : s.setTask i x=(s.setBuf b id).setTask i x := by
  simp [Cache.setBuf]

lemma advances_of_keep (hi : s.tasks[i]? = some x) (hx : x.buf=some b)
    (hy : y.buf=some b) (hhome : y.home=none) (hne : ∀ g,x≠.writing b g)
    (hf : ∃ valid locked,f (s.buf b) = {s.buf b with valid := valid,locked := locked}) : Advances s b f i x y := by
  obtain ⟨v,l,hf⟩:=hf
  refine ⟨hi,hx,hy,hhome,?_,?_,?_,?_,?_⟩ <;> rw [hf]
  exact fun hd => .inr (.inr ⟨hd,id,hne⟩)

variable {a : Action}

lemma CacheInv.step_cases (h : CacheInv s Q H) (hok : Sound part s a) (hs : step part s a=some t) :
    (∃ dev blockno b s',bget s dev blockno=some (b,s') ∧ t = {s' with tasks := s'.tasks++[.waiting b]}) ∨
    (∃ i b,s.tasks[i]? = some (.leaving b) ∧ t=(s.release b).setTask i .done) ∨
    ∃ b f i x y,Advances s b f i x y ∧ t=(s.setBuf b f).setTask i y := by
  cases a with
  | lookup dev blockno =>
    obtain ⟨⟨b,s'⟩,hg,rfl⟩:=map_eq_some_iff.mp hs
    exact .inl ⟨dev,blockno,b,s',hg,rfl⟩
  | lock i =>
    simp only [step] at hs
    split at hs
    next b hi =>
      split_ifs at hs
      cases hs
      exact .inr (.inr ⟨b,_,i,_,_,advances_of_keep hi rfl rfl rfl (fun g hg => by cases hg) ⟨_,_,rfl⟩,rfl⟩)
    next => cases hs
  | enter i =>
    simp only [step] at hs
    split at hs
    next b hi =>
      split_ifs at hs with hv
      · cases hs
        rw [setTask_eq s b]
        exact .inr (.inr ⟨b,_,i,_,_,advances_of_keep hi rfl rfl rfl (fun g hg => by cases hg) ⟨_,_,rfl⟩,rfl⟩)
      · cases hs
        rw [startTransfer_none (hok b hi (by simpa using hv)),setTask_eq s b]
        exact .inr (.inr ⟨b,_,i,_,_,advances_of_keep hi rfl rfl rfl (fun g hg => by cases hg) ⟨_,_,rfl⟩,rfl⟩)
    next => cases hs
  | finish i ok =>
    simp only [step] at hs
    split at hs
    next b home hi =>
      cases hs
      obtain rfl : home=none := h.home _ (mem_of_getElem? hi)
      refine .inr (.inr ⟨b,_,i,_,_,⟨hi,rfl,rfl,rfl,?_,?_,?_,?_,?_⟩,rfl⟩)
      · cases ok <;> rfl
      · cases ok <;> rfl
      · cases ok <;> rfl
      · cases ok <;> rfl
      cases ok with
      | true =>
        intro hd
        cases hd
      | false => exact fun hd => .inr (.inr ⟨hd,id,fun g hg => by cases hg⟩)
    next b home hi =>
      cases hs
      obtain rfl : home=none := h.home _ (mem_of_getElem? hi)
      obtain rfl:=hok b none hi
      exact .inr (.inr ⟨b,_,i,_,_,⟨hi,rfl,rfl,rfl,rfl,rfl,rfl,rfl,fun hd => by cases hd⟩,rfl⟩)
    next => cases hs
  | bwrite i =>
    simp only [step] at hs
    split at hs
    next b hi =>
      cases hs
      have hpart : partBlock part ((s.setBuf b fun x => {x with dirty := true}).buf b)=none := by
        have := hok b hi
        simpa [Cache.setBuf,partBlock] using this
      rw [startTransfer_none hpart]
      exact .inr (.inr ⟨b,_,i,_,_,⟨hi,rfl,rfl,rfl,rfl,rfl,rfl,rfl,fun _ => .inr (.inl ⟨none,rfl⟩)⟩,rfl⟩)
    next => cases hs
  | logWrite i =>
    simp only [step] at hs
    split at hs
    next b hi =>
      cases hs
      refine .inr (.inr ⟨b,fun x => {x with dirty := true,pinned := true},i,_,.held b,
        ⟨hi,rfl,rfl,rfl,rfl,rfl,rfl,rfl,fun _ => .inl rfl⟩,?_⟩)
      obtain ⟨hlt,hget⟩:=List.getElem?_eq_some_iff.mp hi
      simp only [Cache.setTask,Cache.setBuf]
      rw [← hget,set_getElem_self]
    next => cases hs
  | unlock i =>
    simp only [step] at hs
    split at hs
    next b hi =>
      cases hs
      exact .inr (.inr ⟨b,_,i,_,_,advances_of_keep hi rfl rfl rfl (fun g hg => by cases hg) ⟨_,_,rfl⟩,rfl⟩)
    next => cases hs
  | drop i =>
    simp only [step] at hs
    split at hs
    next b hi =>
      cases hs
      exact .inr (.inl ⟨i,b,hi,rfl⟩)
    next => cases hs

lemma CacheInv.step (h : CacheInv s Q H) (hok : Sound part s a)
    (hs : step part s a=some t) : ∃ Q' H',CacheInv t Q' H' := by
  obtain ⟨dev,blockno,b,s',hg,rfl⟩ | ⟨i,b,hi,rfl⟩ | ⟨b,f,i,x,y,ha,rfl⟩:=h.step_cases hok hs
  · exact ⟨Q,h.lookup hg⟩
  · obtain ⟨Q',h'⟩:=h.drop hi
    exact ⟨Q',H,h'⟩
  · exact ⟨Q,H,h.advance ha⟩

lemma bget_identity (hg : bget s dev blockno=some (b,t)) {c : BufId}
    (hbusy : (s.buf c).idle=false) : (t.buf c).dev=(s.buf c).dev ∧ (t.buf c).blockno=(s.buf c).blockno := by
  unfold bget at hg
  split at hg
  next =>
    cases hg
    by_cases hc : c=b
    · subst hc
      simp [Cache.setBuf]
    · simp [Cache.setBuf,hc]
  split at hg
  next b' hidle =>
    cases hg
    have hcb : c≠b := by
      rintro rfl
      have hb : (s.buf c).idle=true := by simpa using find?_some hidle
      rw [hbusy] at hb
      cases hb
    have hbuf : (s.recycle b dev blockno).buf c=s.buf c := update_of_ne hcb ..
    exact ⟨congrArg Buf.dev hbuf,congrArg Buf.blockno hbuf⟩
  next => cases hg

lemma CacheInv.identity (h : CacheInv s Q H) (hok : Sound part s a) (hs : Fs.step part s a=some t) (c : BufId)
    (hbusy : 0<(s.buf c).refcnt ∨ (s.buf c).dirty=true) :
    (t.buf c).dev=(s.buf c).dev ∧ (t.buf c).blockno=(s.buf c).blockno := by
  obtain ⟨dev,blockno,b,s',hg,rfl⟩ | ⟨i,b,-,rfl⟩ | ⟨b,f,i,x,y,ha,rfl⟩:=h.step_cases hok hs
  · refine bget_identity hg (Bool.eq_false_iff.mpr fun hidle => ?_)
    obtain ⟨hz,hd⟩:=Buf.idle_iff.mp hidle
    rcases hbusy with hr | hr
    · omega
    · rw [hd] at hr
      cases hr
  · rw [release_buf]
    split_ifs with hc
    · rw [hc]
      exact ⟨rfl,rfl⟩
    · exact ⟨rfl,rfl⟩
  · have hs : SameShape s ((s.setBuf b f).setTask i y) :=
      sameShape_of_buf rfl rfl (buf_set s b f i y) ha.dev ha.blockno ha.inhash
    exact ⟨hs.dev c,hs.blockno c⟩

lemma CacheInv.panic (h : CacheInv s Q H) (hp : bget s dev blockno=none) :
    ∀ b,0<(s.buf b).refcnt ∨ (s.buf b).pinned=true := by
  unfold bget at hp
  split at hp
  next => cases hp
  next =>
    split at hp
    next => cases hp
    next hnone =>
      rw [h.lruList_eq,find?_eq_none] at hnone
      intro b
      by_cases hr : 0<(s.buf b).refcnt
      · exact .inl hr
      have hz : (s.buf b).refcnt=0 := by omega
      have hd : (s.buf b).dirty=true := by
        by_contra hd
        exact hnone b (h.all b) (Buf.idle_iff.mpr ⟨hz,by simpa using hd⟩)
      rcases h.clean b hd with hpin | ⟨g,hg⟩
      · exact .inr hpin
      -- a write in progress holds the buffer
      have hpos : 0<s.tasks.countP (Task.on b) := countP_pos_iff.mpr ⟨_,hg,by simp [Task.on,Task.buf]⟩
      rw [h.refs b] at hr
      exact absurd hpos hr

lemma binit_lru (l acc : List BufId) (p : Pool BufId Unit) (hp : Rep p fun _ => acc)
    (hnd : (acc++l).Nodup) : Rep (l.foldl (fun l b => l.append () b) p) fun _ => acc++l := by
  induction l generalizing acc p with
  | nil => simpa using hp
  | cons b l ih =>
    have hb : b∉acc := by
      intro hm
      exact (nodup_append.mp hnd).2.2 b hm b (mem_cons_self ..) rfl
    have hstep : Rep (p.append () b) fun _ => acc++[b] := by
      convert hp.append () (fun _ => hb) using 1
      funext q
      simp
    have hrest:=ih (acc++[b]) (p.append () b) hstep (by simpa using hnd)
    simpa using hrest

lemma binit_cacheInv : CacheInv binit (finRange nbuf) fun _ => [] := by
  have hempty : Rep (⟨fun _ => none,fun _ => none,fun _ => none,fun _ => none,fun _ => 0⟩ :
      Pool BufId Unit) fun _ => [] :=
    ⟨fun _ => trivial,fun _ => rfl,fun _ => rfl,fun _ => rfl,fun _ => nodup_nil,
      fun _ _ _ hp => (not_mem_nil hp).elim,fun _ _ => ⟨rfl,rfl⟩⟩
  refine ⟨?_,mem_finRange,⟨fun _ => rfl,fun _ => trivial,fun _ => nodup_nil,
    fun _ _ _ hp => (not_mem_nil hp).elim⟩,?_,?_,?_,?_,?_,?_⟩
  · have h:=binit_lru (finRange nbuf) [] _ hempty (by simpa using nodup_finRange nbuf)
    exact h
  all_goals simp [binit]

structure CacheSafe (s : Cache) : Prop where
  unique : ∀ b b',(s.buf b).inhash=true → (s.buf b').inhash=true →
    (s.buf b).dev=(s.buf b').dev → (s.buf b).blockno=(s.buf b').blockno → b=b'
  chain : ∀ b k,(0<(s.buf b).refcnt ∨ (s.buf b).inhash=true) →
    (s.chain k).count b=if k=bhash (s.buf b).dev (s.buf b).blockno then 1 else 0
  lru : s.lruList.Perm (finRange nbuf)
  panic : ∀ dev blockno,bget s dev blockno=none →
    nbuf≤(Finset.univ.filter fun b => 0<(s.buf b).refcnt ∨ (s.buf b).pinned=true).card

lemma CacheInv.safe (h : CacheInv s Q H) : CacheSafe s := by
  refine ⟨h.unique,?_,?_,?_⟩
  · intro b k hb
    have hin : (s.buf b).inhash=true := hb.elim (h.used b) id
    rw [h.chain_eq]
    split_ifs with hk
    · exact count_eq_one_of_mem (h.chains.nodup k) ((h.mem k b).mpr ⟨hin,hk.symm⟩)
    · rw [count_eq_zero]
      intro hm
      exact hk ((h.mem k b).mp hm).2.symm
  · rw [h.lruList_eq]
    exact (perm_ext_iff_of_nodup (h.lru.nodup ()) (nodup_finRange nbuf)).mpr fun b =>
      ⟨fun _ => mem_finRange b,fun _ => h.all b⟩
  · intro dev blockno hp
    rw [Finset.filter_true_of_mem fun b _ => h.panic hp b]
    simp

/-- Over every run without a transfer on a partition and without a failed write, the
cache is safe in every state, and every step keeps the blocks of the buffers in use. -/
theorem bcache_safe {as : List Action} (hok : Guarded (step part) (Sound part) binit as)
    (hrun : run (step part) binit as=some s) :
    CacheSafe s ∧ ∀ a t,Sound part s a → step part s a=some t → ∀ b,0<(s.buf b).refcnt ∨ (s.buf b).dirty=true →
        (t.buf b).dev=(s.buf b).dev ∧ (t.buf b).blockno=(s.buf b).blockno := by
  obtain ⟨Q,H,h⟩:=run_guarded (I := fun s => ∃ Q H,CacheInv s Q H)
    (fun _ _ _ ⟨_,_,h⟩ hok hs => h.step hok hs) ⟨_,_,binit_cacheInv⟩ hok hrun
  exact ⟨h.safe,fun a t ha ht b hb => h.identity ha ht b hb⟩

def buf0 : BufId := ⟨0,by decide⟩
def buf1 : BufId := ⟨1,by decide⟩
def logOnce : List Action := [.lookup 1 7,.lock 0,.enter 0,.finish 0 true,.logWrite 0,.unlock 0,.drop 0]

theorem bcache_safe_logged : ∃ s,run (step fun _ => none) binit logOnce=some s ∧
    (s.buf buf0).blockno=7 ∧ (s.buf buf0).pinned=true ∧ CacheSafe s := by
  obtain ⟨s,hs,h1,h2⟩ : ∃ s,run (step fun _ => none) binit logOnce=some s ∧
      (s.buf buf0).blockno=7 ∧ (s.buf buf0).pinned=true := by
    decide +kernel
  have hsound : Guarded (step fun _ => none) (Sound fun _ => none) binit logOnce :=
    guarded_of_forall fun a ha s => by
      fin_cases ha <;> first | trivial | exact fun _ _ _ => rfl
  exact ⟨s,hs,h1,h2,(bcache_safe hsound hs).1⟩

def partitioned (dev : ℕ) : Option Part := if dev=5 then some ⟨4,100,50⟩ else none

theorem bcache_partition_two_buffers : ∃ s,run (step partitioned) binit
      [.lookup 5 3,.lock 0,.enter 0,.lookup 5 3,.finish 0 true]=some s ∧
    (s.buf buf0).inhash=true ∧ (s.buf buf1).inhash=true ∧
    (s.buf buf0).dev=(s.buf buf1).dev ∧ (s.buf buf0).blockno=(s.buf buf1).blockno ∧
    0<(s.buf buf0).refcnt ∧ 0<(s.buf buf1).refcnt := by
  decide +kernel

/-- Over those runs a buffer counts its holders, and a dirty one is pinned or being written. -/
theorem buffers_counted {as : List Action} (hok : Guarded (step part) (Sound part) binit as)
    (hrun : run (step part) binit as=some s) : ∃ Q H,CacheInv s Q H :=
  run_guarded (I := fun s => ∃ Q H,CacheInv s Q H) (fun _ _ _ ⟨_,_,h⟩ hok hs => h.step hok hs)
    ⟨_,_,binit_cacheInv⟩ hok hrun

def writeOnce : List Action :=
  [.lookup 1 7,.lock 0,.enter 0,.finish 0 true,.bwrite 0,.finish 0 true,.unlock 0,.drop 0,.lookup 1 8]

theorem buffers_counted_written : ∃ s,run (step fun _ => none) binit writeOnce=some s ∧
    (s.buf buf0).refcnt=0 ∧ (s.buf buf1).refcnt=1 ∧ ∃ Q H,CacheInv s Q H := by
  obtain ⟨s,hs,h0,h1⟩ : ∃ s,run (step fun _ => none) binit writeOnce=some s ∧
      (s.buf buf0).refcnt=0 ∧ (s.buf buf1).refcnt=1 := by
    decide +kernel
  have hok : Guarded (step fun _ => none) (Sound fun _ => none) binit writeOnce :=
    guarded_of_forall fun a ha s => by
      fin_cases ha <;> first | exact fun _ _ => rfl | exact fun _ _ _ => rfl | trivial
  exact ⟨s,hs,h0,h1,buffers_counted hok hs⟩

end Auxv6.Fs

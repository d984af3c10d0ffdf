import Auxv6.Fs.Tmpfs
import Auxv6.Lib.Transition

/-!
# What a tmpfs file holds

`pageByte` is the byte the page list has at a position. A write that fails half way leaves the turns
it made.
-/

namespace Auxv6.Fs.Tmpfs
open Lib Function List Option Nat Transition

def pageByte (pages : List Page) (k : ℕ) : Byte :=
  match pageLookup pages (k/pageSize) with
  | none => 0
  | some pg => pg.data (k%pageSize)
def overwrite (f : ℕ → Byte) (off : ℕ) (src : List Byte) : ℕ → Byte := fun k =>
  if off≤k ∧ k<off+src.length then src.getD (k-off) 0 else f k

section

variable {pages pages' : List Page} {index off k : ℕ} {src : List Byte}

lemma pageLookup_putBytes (pages : List Page) (index off : ℕ) (src : List Byte) (j : ℕ) :
    pageLookup (putBytes pages index off src) j=(pageLookup pages j).map fun pg => if j=index then
        {pg with data := overwrite pg.data off src} else pg := by
  induction pages with
  | nil => rfl
  | cons pg pages ih =>
    rw [putBytes]
    by_cases hpg : pg.index=index
    · rw [if_pos hpg]
      by_cases hj : pg.index=j
      · simp only [pageLookup,hj,hpg.symm.trans hj,find?_cons_of_pos,decide_true,map_some,if_true]
        rfl
      · have hne : j≠index := fun heq => hj (hpg.trans heq.symm)
        simp [pageLookup,hj,hne]
    rw [if_neg hpg]
    by_cases hj : pg.index=j
    · have hne : j≠index := fun heq => hpg (hj.trans heq)
      simp [pageLookup,hj,hne]
    · have hcons : ∀ l,pageLookup (pg::l) j=pageLookup l j := fun l => by simp [pageLookup,hj]
      rw [hcons,hcons,ih]

lemma pageByte_putBytes (h : (pageLookup pages index).isSome) (hfit : off+src.length≤pageSize) (k : ℕ) :
    pageByte (putBytes pages index off src) k=overwrite (pageByte pages) (index*pageSize+off) src k := by
  obtain ⟨pg,hpg⟩:=isSome_iff_exists.mp h
  have hdiv:=div_add_mod k pageSize
  rw [pageByte,pageLookup_putBytes]
  by_cases hk : k/pageSize=index
  · have hcomm : pageSize*(k/pageSize)=index*pageSize := by rw [hk,mul_comm]
    have hsub : k-(index*pageSize+off)=k%pageSize-off := by omega
    rw [hk,hpg,map_some,if_pos rfl,overwrite,pageByte,hk,hpg,hsub]
    exact if_congr (by omega) rfl rfl
  have hout : ¬ (index*pageSize+off≤k ∧ k < index*pageSize+off+src.length) := by
    simp only [pageSize] at hk hfit ⊢
    omega
  rw [overwrite,if_neg hout,pageByte]
  cases pageLookup pages (k/pageSize) with
  | none => rfl
  | some pg => rw [map_some,if_neg hk]

lemma pageGet_spec {alloc : Bool} (h : pageGet pages index alloc=some pages') :
    (pageLookup pages' index).isSome ∧ ∀ k,pageByte pages' k=pageByte pages k := by
  rw [pageGet] at h
  cases hl : pageLookup pages index with
  | some pg =>
    rw [hl] at h
    cases h
    exact ⟨by rw [hl]; rfl,fun _ => rfl⟩
  | none =>
    rw [hl] at h
    cases alloc with
    | false => cases h
    | true =>
      cases h
      refine ⟨by simp [pageLookup],fun k => ?_⟩
      by_cases hk : k/pageSize=index
      · simp [pageByte,pageLookup,hk,show pages.find? (fun pg => pg.index=index)=none from hl]
      · simp [pageByte,pageLookup,Ne.symm hk]

lemma word_turn {off done j : ℕ} (hj : j<pageSize-word (off+done)%pageSize) :
    word (off+(done+j))=word (off+done)+j := by
  simp only [word,pageSize] at hj ⊢
  omega
lemma word_inj {off i j : ℕ} (hi : i<2^32) (hj : j<2^32) (h : word (off+i)=word (off+j)) : i=j := by
  simp only [word] at h
  omega

variable {alloc : ℕ → Bool} {copied : ℕ → ℕ}

lemma writeTurn_spec (src : List Byte) {done n : ℕ} (hlook : (pageLookup pages (word (off+done)/pageSize)).isSome)
    (hn : n≤pageSize-word (off+done)%pageSize) (k : ℕ) :
    pageByte (putBytes pages (word (off+done)/pageSize) (word (off+done)%pageSize) ((src.drop done).take n)) k =
      overwrite (pageByte pages) (word (off+done)) ((src.drop done).take n) k := by
  have hlt:=length_take_le n (src.drop done)
  rw [pageByte_putBytes hlook,mul_comm,div_add_mod]
  have := mod_lt (word (off+done)) (show 0<pageSize by decide)
  omega

lemma writeLoop_spec (hsrc : src.length≤2^32) (fuel done : ℕ) {ok : Bool} (hfuel : src.length-done≤fuel)
    (h : writeLoop off src alloc copied fuel done pages=(ok,pages')) :
    (∀ k,(∀ i,done ≤ i → i<src.length → word (off+i)≠k) → pageByte pages' k=pageByte pages k) ∧
    (ok=true → ∀ i,done ≤ i → i<src.length → pageByte pages' (word (off+i))=src.getD i 0) := by
  induction fuel generalizing done pages with
  | zero =>
    cases h
    exact ⟨fun _ _ => rfl,fun _ i hi hlt => by omega⟩
  | succ fuel ih =>
    rw [writeLoop] at h
    by_cases hdone : done<src.length
    · rw [if_pos hdone] at h
      dsimp only at h
      generalize hchunk : min (pageSize-word (off+done)%pageSize) (src.length-done)=chunk at h
      have hpos : 0<chunk := by
        have := Nat.mod_lt (word (off+done)) (show 0<pageSize by decide)
        omega
      cases hget : pageGet pages (word (off+done)/pageSize) (alloc done) with
      | none =>
        rw [hget] at h
        cases h
        exact ⟨fun _ _ => rfl,fun hc => by cases hc⟩
      | some pages1 =>
        rw [hget] at h
        obtain ⟨hlook,hsame⟩:=pageGet_spec hget
        have hturn:=writeTurn_spec src (n := min chunk (copied done)) hlook (by omega)
        have hlen : ((src.drop done).take (min chunk (copied done))).length=min chunk (copied done) := by
          rw [length_take,length_drop]
          omega
        -- the bytes of this turn are at `done .. done + chunk`
        have hframe : ∀ k,(∀ i,done ≤ i → i<done+min chunk (copied done) → word (off+i)≠k) →
            pageByte (putBytes pages1 (word (off+done)/pageSize) (word (off+done)%pageSize)
              ((src.drop done).take (min chunk (copied done)))) k=pageByte pages k := by
          intro k hk
          rw [hturn,overwrite,hlen,if_neg,hsame]
          rintro ⟨hlo,hhi⟩
          refine hk (done+(k-word (off+done))) (by omega) (by omega) ?_
          rw [word_turn (by omega)]
          omega
        split_ifs at h with hshort
        · cases h
          exact ⟨fun k hk => hframe k fun i h1 h2 => hk i h1 (by omega),fun hc => by cases hc⟩
        obtain ⟨hout,hin⟩:=ih (done+chunk) (by omega) h
        refine ⟨fun k hk => ?_,fun hok i hi hlt => ?_⟩
        · rw [hout k fun i h1 h2 => hk i (by omega) h2]
          exact hframe k fun i h1 h2 => hk i h1 (by omega)
        by_cases hic : done+chunk ≤ i
        · exact hin hok i hic hlt
        have hij : word (off+i)=word (off+done)+(i-done) := by
          rw [← word_turn (by omega)]
          congr 2
          omega
        rw [hout _ fun j h1 h2 heq => by
          have := word_inj (by omega) (by omega) heq
          omega]
        rw [hturn,overwrite,hlen,if_pos (by omega),hij,Nat.add_sub_cancel_left,
          getD_eq_getElem?_getD,getElem?_take_of_lt (by omega),getElem?_drop,getD_eq_getElem?_getD]
        congr 2
        omega
    · rw [if_neg hdone] at h
      cases h
      exact ⟨fun _ _ => rfl,fun _ i hi hlt => by omega⟩

lemma readLoop_eq (pages : List Page) (off n fuel done : ℕ) (hfuel : n-done≤fuel) : readLoop pages off n fuel done =
      (List.range' done (n-done)).map fun i => pageByte pages (word (off+i)) := by
  induction fuel generalizing done with
  | zero =>
    rw [show n-done=0 by omega]
    rfl
  | succ fuel ih =>
    rw [readLoop]
    by_cases hdone : done<n
    · rw [if_pos hdone]
      dsimp only
      generalize hchunk : min (pageSize-word (off+done)%pageSize) (n-done)=chunk
      have hpos:=mod_lt (word (off+done)) (show 0<pageSize by decide)
      have hsplit : n-done=chunk+(n-(done+chunk)) := by omega
      rw [ih (done+chunk) (by omega),hsplit,← List.range'_append_1,List.map_append]
      congr 1
      have hbyte : ∀ j<chunk,pageByte pages (word (off+(done+j))) =
          match pageLookup pages (word (off+done)/pageSize) with
          | none => 0
          | some pg => pg.data (word (off+done)%pageSize+j) := by
        intro j hj
        rw [word_turn (by omega),pageByte]
        have hdiv : (word (off+done)+j)/pageSize=word (off+done)/pageSize := by
          simp only [pageSize] at hchunk hj ⊢
          omega
        have hmod : (word (off+done)+j)%pageSize=word (off+done)%pageSize+j := by
          simp only [pageSize] at hchunk hj ⊢
          omega
        rw [hdiv,hmod]
      rw [List.range'_eq_map_range (s := done),List.map_map]
      refine Eq.trans ?_ (List.map_congr_left fun j hj => (hbyte j (List.mem_range.mp hj)).symm)
      cases pageLookup pages (word (off+done)/pageSize) with
      | none => rw [List.map_const',List.length_range]
      | some pg =>
        dsimp only
        rw [List.range'_eq_map_range,List.map_map]
        rfl
    · rw [if_neg hdone,show n-done=0 by omega]
      rfl

lemma readPages_getElem? {nd : Node} {n i : ℕ} (hsize : nd.size≤2^32) (hi : i<n) (hlt : off+i<nd.size) :
    (readPages nd off n)[i]? = some (pageByte nd.pages (off+i)) := by
  have hword : word (off+i)=off+i := Nat.mod_eq_of_lt (by omega)
  rw [readPages,if_neg (by omega),readLoop_eq _ _ _ _ _ (Nat.sub_le _ _),Nat.sub_zero,getElem?_map,
    getElem?_range' (by split_ifs <;> omega),map_some,Nat.zero_add,Nat.one_mul,hword]

end

structure Contents where
  fs : Mount
  content : NodeId → ℕ → Byte

inductive Op where
  | write (p : NodeId) (src : List Byte) (off : ℕ) (alloc : ℕ → Bool) (copied : ℕ → ℕ)
  | truncate (p : NodeId)

def contentStep (s : Contents) : Op → Option Contents
  | .write p src off alloc copied =>
    if off+src.length<2^32 then
      match writePages s.fs p src off alloc copied with
      | (false,fs) => some {s with fs := fs}
      | (true,fs) => some ⟨fs,update s.content p (overwrite (s.content p) off src)⟩
    else none
  | .truncate p => some ⟨truncateNode s.fs p 0,update s.content p fun _ => 0⟩

def Refused (fs : Mount) (p : NodeId) (n off : ℕ) : Prop :=
  word (off+n) > (fs.node p).size ∧ word (fs.usedBytes+(word (off+n)-(fs.node p).size)) > fs.maxBytes

/-- A turn of a write of `n` bytes starts at its beginning or at a page. -/
def IsTurn (off n done : ℕ) : Prop := done<n ∧ (done=0 ∨ (off+done)%pageSize=0)
/-- The turn finds its page or memory for one, and copies its whole chunk. -/
def Turns (off n : ℕ) (alloc : ℕ → Bool) (copied : ℕ → ℕ) (pages : List Page) (done : ℕ) : Prop :=
  ((pageLookup pages ((off+done)/pageSize)).isSome=true ∨ alloc done=true) ∧
    min (pageSize-(off+done)%pageSize) (n-done) ≤ copied done

/-- No write fails after its first byte was copied: all its turns succeed, or the first one
fails before copying, or the quota refuses it. -/
def Untorn (s : Contents) : Op → Prop
  | .write p src off alloc copied =>
    (∀ done,IsTurn off src.length done → Turns off src.length alloc copied (s.fs.node p).pages done) ∨ copied 0=0 ∨
      (alloc 0=false ∧ pageLookup (s.fs.node p).pages (off/pageSize)=none) ∨ Refused s.fs p src.length off
  | .truncate _ => True

structure Holds (s : Contents) (p : NodeId) : Prop where
  bytes : ∀ k,pageByte (s.fs.node p).pages k=s.content p k
  zero : ∀ k,(s.fs.node p).size≤k → s.content p k=0
  size : (s.fs.node p).size<2^32

section

variable {s t : Contents} {p q : NodeId} {src : List Byte} {off : ℕ} {alloc : ℕ → Bool} {copied : ℕ → ℕ}

lemma pageGet_isSome {pages pages' : List Page} {index j : ℕ} {alloc : Bool}
    (h : pageGet pages index alloc=some pages') (hj : (pageLookup pages j).isSome) :
    (pageLookup pages' j).isSome := by
  rw [pageGet] at h
  split at h
  · cases h
    exact hj
  split_ifs at h
  cases h
  rw [pageLookup,find?_cons]
  split
  · rfl
  · exact hj

lemma writeLoop_all {pages0 : List Page} (hsrc : off+src.length<2^32)
    (hall : ∀ done,IsTurn off src.length done → Turns off src.length alloc copied pages0 done) (fuel done : ℕ)
    (hturn : done<src.length → IsTurn off src.length done) (pages : List Page)
    (hpages : ∀ j,(pageLookup pages0 j).isSome → (pageLookup pages j).isSome) :
    (writeLoop off src alloc copied fuel done pages).1=true := by
  induction fuel generalizing done pages with
  | zero => rfl
  | succ fuel ih =>
    rw [writeLoop]
    split_ifs with hdone
    · have hword : word (off+done)=off+done := mod_eq_of_lt (by omega)
      obtain ⟨hpage,hcopy⟩:=hall done (hturn hdone)
      have hget : ∃ pages',pageGet pages ((off+done)/pageSize) (alloc done)=some pages' := by
        rw [pageGet]
        split
        · exact ⟨_,rfl⟩
        rename_i hnone
        have ha : alloc done=true := hpage.resolve_left fun hsome => by
          have := hpages _ hsome
          rw [hnone] at this
          cases this
        exact ⟨_,by rw [if_pos ha]⟩
      obtain ⟨pages',hget⟩:=hget
      dsimp only
      rw [hword,hget]
      dsimp only
      rw [if_neg (not_lt.mpr hcopy)]
      refine ih _ (fun hlt => ⟨hlt,.inr ?_⟩) _ fun j hj => ?_
      · have := mod_lt (off+done) (show 0<pageSize by decide)
        simp only [pageSize] at hlt ⊢
        omega
      · rw [pageLookup_putBytes,isSome_map]
        exact pageGet_isSome hget (hpages j hj)
    · rfl

variable {ok : Bool}

lemma writeLoop_none {pages pages' : List Page} (fuel : ℕ) (hfuel : src.length≤fuel) (hsrc : src≠[])
    (hfirst : copied 0=0 ∨ (alloc 0=false ∧ pageLookup pages (word off/pageSize)=none))
    (h : writeLoop off src alloc copied fuel 0 pages=(ok,pages')) :
    ok=false ∧ ∀ k,pageByte pages' k=pageByte pages k := by
  have hlen:=length_pos_iff.mpr hsrc
  obtain ⟨fuel,rfl⟩ : ∃ m,fuel=m+1 := ⟨fuel-1,by omega⟩
  rw [writeLoop,if_pos hlen] at h
  dsimp only at h
  rw [Nat.add_zero,Nat.sub_zero] at h
  have hpos:=Nat.mod_lt (word off) (show 0<pageSize by decide)
  cases hget : pageGet pages (word off/pageSize) (alloc 0) with
  | none =>
    rw [hget] at h
    cases h
    exact ⟨rfl,fun _ => rfl⟩
  | some pages1 =>
    rw [hget] at h
    have hzero : copied 0=0 := hfirst.resolve_right fun hc => by
      rw [pageGet,hc.2,hc.1] at hget
      cases hget
    dsimp only at h
    rw [hzero,if_pos (by omega)] at h
    cases h
    obtain ⟨hlook,hsame⟩:=pageGet_spec hget
    refine ⟨rfl,fun k => ?_⟩
    rw [pageByte_putBytes hlook (by simp; omega),overwrite,if_neg (by simp),hsame]

lemma modify_node (fs : Mount) (p : NodeId) (f : Node → Node) :
    (fs.modify p f).node p=f (fs.node p) ∧ ∀ q,q≠p → (fs.modify p f).node q=fs.node q :=
  ⟨update_self ..,fun _ hq => update_of_ne hq ..⟩

lemma writePages_cases {fs fs' : Mount} (hw : writePages fs p src off alloc copied=(ok,fs')) :
    (Refused fs p src.length off ∧ ok=false ∧ fs'=fs) ∨ (¬ Refused fs p src.length off ∧
      ∃ pages,writeLoop off src alloc copied src.length 0 (fs.node p).pages=(ok,pages) ∧
        (fs'.node p).pages=pages ∧ (∀ q,q≠p → fs'.node q=fs.node q) ∧ (fs'.node p).size =
          if ok=true then max (fs.node p).size (word (off+src.length)) else (fs.node p).size) := by
  rw [writePages] at hw
  by_cases href : Refused fs p src.length off
  · rw [if_pos (by exact href)] at hw
    cases hw
    exact .inl ⟨href,rfl,rfl⟩
  rw [if_neg (by exact href)] at hw
  rcases hloop : writeLoop off src alloc copied src.length 0 (fs.node p).pages with ⟨b,pages⟩
  rw [hloop] at hw
  obtain ⟨hself,hother⟩:=modify_node fs p fun nd => {nd with pages := pages}
  refine .inr ⟨href,pages,?_⟩
  cases b with
  | false =>
    cases hw
    exact ⟨rfl,by rw [hself],hother,by rw [hself]; rfl⟩
  | true =>
    dsimp only at hw
    by_cases hgrow : word (off+src.length) > (fs.node p).size
    · rw [if_pos hgrow] at hw
      cases hw
      obtain ⟨hself',hother'⟩:=modify_node (fs.modify p fun nd => {nd with pages := pages}) p
        fun nd => {nd with size := word (off+src.length)}
      refine ⟨rfl,?_,fun q hq => (hother' q hq).trans (hother q hq),?_⟩
      · dsimp only
        rw [hself',hself]
      · dsimp only
        rw [hself',if_pos rfl]
        exact (Nat.max_eq_right hgrow.le).symm
    · rw [if_neg hgrow] at hw
      cases hw
      refine ⟨rfl,by rw [hself],hother,?_⟩
      rw [hself,if_pos rfl]
      exact (Nat.max_eq_left (Nat.le_of_not_lt hgrow)).symm

lemma write_holds {fs' : Mount} (h : Holds s p) (hsrc : off+src.length<2^32)
    (hun : Untorn s (.write p src off alloc copied)) (hw : writePages s.fs p src off alloc copied=(ok,fs')) :
    Holds ⟨fs',if ok=true then update s.content p (overwrite (s.content p) off src) else s.content⟩ p := by
  have hword : word (off+src.length)=off+src.length := Nat.mod_eq_of_lt hsrc
  rcases writePages_cases hw with ⟨-,rfl,rfl⟩ | ⟨hno,pages,hloop,hpages,-,hsize⟩
  · exact h
  have hpos : ∀ i<src.length,word (off+i)=off+i := fun i hi => Nat.mod_eq_of_lt (by omega)
  obtain ⟨hout,hin⟩:=writeLoop_spec (by omega) src.length 0 (Nat.sub_le _ _) hloop
  cases ok with
  | true =>
    rw [if_pos rfl] at hsize ⊢
    have hover : ∀ k,overwrite (s.content p) off src k=pageByte pages k := fun k => by
      rw [overwrite]
      split_ifs with hk
      · have := hin rfl (k-off) (Nat.zero_le _) (by omega)
        rw [hpos _ (by omega),Nat.add_sub_cancel' hk.1] at this
        exact this.symm
      · rw [hout k fun i _ hi heq => hk (by rw [hpos i hi] at heq; omega),h.bytes]
    refine ⟨fun k => ?_,fun k hk => ?_,?_⟩
    · dsimp only
      rw [update_self,hover,hpages]
    · dsimp only at hk ⊢
      rw [update_self,overwrite,if_neg (by omega),h.zero k (by omega)]
    · have := h.size
      rw [hsize,hword]
      omega
  | false =>
    rw [if_neg (by decide)] at hsize ⊢
    have hsame : ∀ k,pageByte pages k=pageByte (s.fs.node p).pages k := by
      by_cases hnil : src=[]
      · exact fun k => hout k fun i _ hi => by simp [hnil] at hi
      have hoff : word off=off := Nat.mod_eq_of_lt (by omega)
      rcases hun with hall | hzero | halloc | href
      · have := writeLoop_all hsrc hall src.length 0 (fun h => ⟨h,.inl rfl⟩) (s.fs.node p).pages fun _ h => h
        rw [hloop] at this
        cases this
      · exact (writeLoop_none src.length le_rfl hnil (.inl hzero) hloop).2
      · exact (writeLoop_none src.length le_rfl hnil (.inr (by rwa [hoff])) hloop).2
      · exact absurd href hno
    refine ⟨fun k => ?_,fun k hk => ?_,?_⟩
    · rw [hpages,hsame,h.bytes]
    · exact h.zero k (hsize ▸ hk)
    · rw [hsize]
      exact h.size

lemma Holds.congr (h : Holds s p) (hnode : t.fs.node p=s.fs.node p) (hcont : t.content p=s.content p) : Holds t p :=
  ⟨fun k => by rw [hnode,hcont,h.bytes],fun k hk => by rw [hcont]; exact h.zero k (hnode ▸ hk),
    by rw [hnode]; exact h.size⟩

lemma truncate_holds (h : Holds s p) : Holds ⟨truncateNode s.fs p 0,update s.content p fun _ => 0⟩ p := by
  rw [truncateNode]
  split_ifs with hold
  · -- an empty file keeps its pages, which hold zeros
    refine ⟨fun k => ?_,fun k _ => ?_,h.size⟩
    · dsimp only
      rw [update_self,h.bytes,h.zero k (by omega)]
    · dsimp only
      rw [update_self]
  have hpages : ∀ l : List Page,l.filter (fun pg => decide (pg.index<word (0+pageSize-1)/pageSize))=[] := by
    rw [show word (0+pageSize-1)/pageSize=0 from by decide]
    simp
  obtain ⟨hself,-⟩:=modify_node s.fs p fun nd => { nd with
    pages := nd.pages.filter (fun pg => decide (pg.index<word (0+pageSize-1)/pageSize)),size := 0 }
  refine ⟨fun k => ?_,fun k _ => ?_,?_⟩
  · dsimp only
    rw [hself,update_self]
    rw [hpages]
    rfl
  · dsimp only
    rw [update_self]
  · dsimp only
    rw [hself]
    exact Nat.two_pow_pos 32

lemma contentStep_holds (a : Op) (h : Holds s p) (hun : Untorn s a) (hs : contentStep s a=some t) : Holds t p := by
  cases a with
  | write q src off alloc copied =>
    rw [contentStep] at hs
    split_ifs at hs with hsrc
    rcases hw : writePages s.fs q src off alloc copied with ⟨ok,fs'⟩
    rw [hw] at hs
    have ht : t=⟨fs',if ok=true then update s.content q (overwrite (s.content q) off src)
        else s.content⟩ := by
      cases ok <;> cases hs <;> rfl
    subst ht
    by_cases hpq : p=q
    · subst hpq
      exact write_holds h hsrc hun hw
    have hnode : fs'.node p=s.fs.node p := by
      rcases writePages_cases hw with ⟨-,-,rfl⟩ | ⟨-,pages,-,-,hother,-⟩
      · rfl
      · exact hother p hpq
    refine h.congr hnode ?_
    split_ifs
    · exact update_of_ne hpq ..
    · rfl
  | truncate q =>
    cases hs
    by_cases hpq : p=q
    · subst hpq
      exact truncate_holds h
    refine h.congr ?_ (update_of_ne hpq ..)
    rw [truncateNode]
    split_ifs
    · rfl
    · exact update_of_ne hpq ..

/-- In every run of writes and truncations none of which is torn, a read inside the file
delivers what the successful writes since the last truncation put there, and zeros elsewhere. -/
theorem tmpfs_contents (as : List Op) (s0 s : Contents) (p : NodeId)
    (hfresh : (s0.fs.node p).pages=[] ∧ (s0.fs.node p).size=0 ∧ ∀ k,s0.content p k=0)
    (hrun : run contentStep s0 as=some s) (hun : Guarded contentStep Untorn s0 as)
    (off n i : ℕ) (hi : i<n) (hlt : off+i<(s.fs.node p).size) :
    (readPages (s.fs.node p) off n)[i]? = some (s.content p (off+i)) := by
  have hstart : Holds s0 p := by
    obtain ⟨hpages,hsize,hzero⟩:=hfresh
    refine ⟨fun k => ?_,fun k _ => hzero k,?_⟩
    · rw [hpages,hzero k]
      rfl
    · rw [hsize]
      decide
  have h:=run_guarded (I := fun s => Holds s p) (fun s a t h hun hs => contentStep_holds a h hun hs) hstart hun hrun
  rw [readPages_getElem? h.size.le hi hlt,h.bytes]

end

def emptyFile : Contents :=
  ⟨⟨10000,0,1,0,∅,fun _ => ⟨1,.file,1,0,0,[],fun _ => [],[],[]⟩,fun _ => ⟨0,false,.file,0,0,none⟩⟩,fun _ _ => 0⟩

theorem tmpfs_contents_two_pages :
    let as : List Op := [.write 0 [7,8] 4095 (fun _ => true) (fun _ => 4096)]
    ∃ s,run contentStep emptyFile as=some s ∧ (readPages (s.fs.node 0) 4096 1)[0]? = some (s.content 0 4096) := by
  intro as
  have hun : Guarded contentStep Untorn emptyFile as :=
    ⟨.inl fun done _ => ⟨.inr rfl,(min_le_left _ _).trans (sub_le _ _)⟩,fun _ _ => trivial⟩
  obtain ⟨s,hrun,hsize⟩ : ∃ s,run contentStep emptyFile as=some s ∧ 4096<(s.fs.node 0).size := by
    decide +kernel
  exact ⟨s,hrun,tmpfs_contents as emptyFile s 0 ⟨rfl,rfl,fun _ => rfl⟩ hrun hun 4096 1 0 (by decide) hsize⟩

/-- A write that fails on its second page leaves a byte past the end of the file, which a
later write further out brings to light: the file reads 7 where nothing was written. -/
theorem tmpfs_torn_write_shows : ∃ s,run contentStep emptyFile
    [.write 0 [7,7] 4095 (fun done => done == 0) (fun _ => 4096),
      .write 0 [1] 5000 (fun _ => true) (fun _ => 4096)]=some s ∧
      4095<(s.fs.node 0).size ∧ s.content 0 4095=0 ∧ readPages (s.fs.node 0) 4095 1=[7] := by
  refine ⟨_,rfl,?_,?_,?_⟩ <;> decide

end Auxv6.Fs.Tmpfs

import Mathlib.Algebra.Order.BigOperators.Group.Finset
import Auxv6.Fs.Tmpfs
import Auxv6.Lib.ParentTree

/-!
# The tree of a tmpfs

While an entry is taken out and not yet put back, its node stands in the list `moving`.
-/

namespace Auxv6.Fs.Tmpfs
open Lib.ParentTree Function List Finset

structure DirOk (nd : Node) : Prop where
  nodup : (nd.children.map Dirent.name).Nodup
  hash : ∀ h,nd.hash h=nd.children.filter fun de => nameHash de.name=h
  leaf : nd.type≠.dir → nd.children=[]

variable {nd : Node} {name : Name} {de : Dirent}

lemma DirOk.lookup (h : DirOk nd) (name : Name) : direntLookup nd name=nd.children.find? fun de => de.name=name := by
  unfold direntLookup
  rw [h.hash,find?_filter]
  congr 1
  funext de
  by_cases hn : de.name=name <;> simp [hn]

lemma DirOk.lookup_eq_none (h : DirOk nd) (name : Name) :
    direntLookup nd name=none ↔ name∉nd.children.map Dirent.name := by
  rw [h.lookup,find?_eq_none]
  simp
lemma DirOk.lookup_mem (h : DirOk nd) (hl : direntLookup nd name=some de) : de∈nd.children ∧ de.name=name := by
  rw [h.lookup] at hl
  exact ⟨mem_of_find?_eq_some hl,by simpa using find?_some hl⟩

lemma DirOk.add (h : DirOk nd) (hdir : nd.type=.dir) (hnew : direntLookup nd de.name=none) :
    DirOk (nd.addDirent de) := by
  refine ⟨?_,fun k => ?_,fun hne => absurd hdir hne⟩
  · exact nodup_cons.mpr ⟨(h.lookup_eq_none de.name).mp hnew,h.nodup⟩
  unfold Node.addDirent
  dsimp only
  by_cases hk : k=nameHash de.name
  · subst hk
    rw [update_self,h.hash]
    simp
  · rw [update_of_ne hk,h.hash]
    simp [Ne.symm hk]

variable {l : List Dirent}

lemma eraseP_name (h : (l.map Dirent.name).Nodup) (name : Name) :
    l.eraseP (fun de => de.name=name)=l.filter fun de => de.name≠name := by
  induction l with
  | nil => rfl
  | cons de l ih =>
    rw [List.map_cons,List.nodup_cons] at h
    by_cases hn : de.name=name
    · rw [List.eraseP_cons_of_pos (by simpa using hn),List.filter_cons_of_neg (by simpa using hn)]
      symm
      refine List.filter_eq_self.mpr fun e he => ?_
      have hne : e.name≠name := fun heq => h.1 (hn ▸ heq ▸ List.mem_map_of_mem he)
      simpa using hne
    · rw [List.eraseP_cons_of_neg (by simpa using hn),List.filter_cons_of_pos (by simpa using hn),ih h.2]

lemma DirOk.remove (h : DirOk nd) (name : Name) : DirOk (nd.removeDirent name) := by
  refine ⟨?_,fun k => ?_,fun hne => ?_⟩
  · show ((nd.children.eraseP _).map Dirent.name).Nodup
    exact h.nodup.sublist (List.eraseP_sublist.map Dirent.name)
  · unfold Node.removeDirent
    dsimp only
    rw [eraseP_name h.nodup,List.filter_filter]
    by_cases hk : k=nameHash name
    · subst hk
      have hnd : ((nd.hash (nameHash name)).map Dirent.name).Nodup := by
        rw [h.hash]
        exact h.nodup.sublist (List.filter_sublist.map Dirent.name)
      rw [update_self,eraseP_name hnd,h.hash,List.filter_filter]
      congr 1
      funext de
      exact Bool.and_comm ..
    · rw [update_of_ne hk,h.hash]
      refine List.filter_congr fun de _ => ?_
      by_cases hn : de.name=name
      · simp [hn,Ne.symm hk]
      · simp [hn]
  · show nd.children.eraseP _ = []
    rw [h.leaf hne]
    rfl

lemma countP_eraseP {name : Name} {de : Dirent} (q : Dirent → Bool) (h : l.find? (fun de => de.name=name)=some de) :
    (l.eraseP fun de => de.name=name).countP q+(if q de then 1 else 0)=l.countP q := by
  induction l with
  | nil => cases h
  | cons e l ih =>
    by_cases hn : e.name=name
    · rw [find?_cons_of_pos (by simpa using hn)] at h
      cases h
      rw [eraseP_cons_of_pos (by simpa using hn),countP_cons]
    · rw [find?_cons_of_neg (by simpa using hn)] at h
      rw [eraseP_cons_of_neg (by simpa using hn),countP_cons,countP_cons,← ih h]
      omega

def Mount.entries (fs : Mount) (p : NodeId) : ℕ := ∑ d∈fs.live,(fs.node d).children.countP fun de => de.node=p
def Mount.Linked (fs : Mount) (d : NodeId) : Prop := d∈fs.live ∧ (fs.node d).type=.dir ∧ (fs.node d).nlink≠0
def Mount.parent (fs : Mount) (p : NodeId) : NodeId := (fs.node p).parent

structure TreeInv (moving : List NodeId) (fs : Mount) : Prop where
  root : fs.Linked fs.root
  dirs : ∀ p∈fs.live,DirOk (fs.node p)
  named : ∀ d∈fs.live,∀ de∈(fs.node d).children,de.node∈fs.live
  live : ∀ p∈moving,p∈fs.live
  links : ∀ p∈fs.live,(fs.node p).nlink=fs.entries p+(if p=fs.root then 1 else 0)+moving.count p
  range : ∀ p∈fs.live,(fs.node p).nlink<2^15
  once : ∀ p∈fs.live,(fs.node p).type=.dir → (fs.node p).nlink≤1
  parents : ∀ p,fs.Linked p → p≠fs.root → fs.Linked (fs.parent p)
  holds : ∀ p,fs.Linked p → p≠fs.root → p∉moving → ∃ de∈(fs.node (fs.parent p)).children,de.node=p
  rooted : ∀ p,fs.Linked p → Rooted fs.root fs.parent p
  empty : ∀ p∈fs.live,(fs.node p).nlink=0 → (fs.node p).children=[]
  top : fs.parent fs.root=fs.root

variable {moving : List NodeId} {fs fs' : Mount} {p d : NodeId}

@[simp] lemma modify_self (fs : Mount) (p : NodeId) (f : Node → Node) :
    (fs.modify p f).node p=f (fs.node p) := update_self ..
lemma modify_ne (fs : Mount) {p q : NodeId} (h : q≠p) (f : Node → Node) :
    (fs.modify p f).node q=fs.node q := update_of_ne h ..

variable {f : Node → Node}

lemma modify_field {α : Type*} (fs : Mount) (g : Node → α) (h : g (f (fs.node d))=g (fs.node d))
    (q : NodeId) : g ((fs.modify d f).node q)=g (fs.node q) := by
  by_cases hq : q=d
  · subst hq
    rw [modify_self,h]
  · rw [modify_ne fs hq]

lemma modify_comm (fs : Mount) (h : p≠d) (f g : Node → Node) :
    (fs.modify p f).modify d g=(fs.modify d g).modify p f := by
  unfold Mount.modify
  simp only [update_of_ne h,update_of_ne (Ne.symm h)]
  rw [update_comm h]

structure TreeSame (nd nd' : Node) : Prop where
  type : nd'.type=nd.type
  nlink : nd'.nlink=nd.nlink
  parent : nd'.parent=nd.parent
  children : nd'.children=nd.children
  hash : nd'.hash=nd.hash

lemma TreeSame.refl (nd : Node) : TreeSame nd nd := ⟨rfl,rfl,rfl,rfl,rfl⟩
lemma TreeSame.dirOk {nd' : Node} (h : TreeSame nd nd') (hd : DirOk nd) : DirOk nd' :=
  ⟨h.children ▸ hd.nodup,by rw [h.hash,h.children]; exact hd.hash,by rw [h.type,h.children]; exact hd.leaf⟩

lemma TreeInv.congr (h : TreeInv moving fs) (hlive : fs'.live=fs.live) (hroot : fs'.root=fs.root)
    (hnode : ∀ p∈fs.live,TreeSame (fs.node p) (fs'.node p)) : TreeInv moving fs' := by
  have hlinked : ∀ p,fs'.Linked p ↔ fs.Linked p := by
    intro p
    unfold Mount.Linked
    rw [hlive]
    refine and_congr_right fun hp => ?_
    rw [(hnode p hp).type,(hnode p hp).nlink]
  have hentries : ∀ p,fs'.entries p=fs.entries p := by
    intro p
    unfold Mount.entries
    rw [hlive]
    exact sum_congr rfl fun d hd => by rw [(hnode d hd).children]
  have hparent : ∀ p,fs.Linked p → fs'.parent p=fs.parent p := fun p hp => (hnode p hp.1).parent
  refine ⟨?_,fun p hp => ?_,fun d hd => ?_,fun p hp => ?_,fun p hp => ?_,fun p hp => ?_,
    fun p hp => ?_,fun p hp hne => ?_,fun p hp hne hm => ?_,fun p hp => ?_,fun p hp => ?_,?_⟩
  · rw [hroot]
    exact (hlinked _).mpr h.root
  · rw [hlive] at hp
    exact (hnode p hp).dirOk (h.dirs p hp)
  · rw [hlive] at hd ⊢
    rw [(hnode d hd).children]
    exact h.named d hd
  · rw [hlive]
    exact h.live p hp
  · rw [hlive] at hp
    rw [(hnode p hp).nlink,hentries,hroot]
    exact h.links p hp
  · rw [hlive] at hp
    rw [(hnode p hp).nlink]
    exact h.range p hp
  · rw [hlive] at hp
    rw [(hnode p hp).nlink,(hnode p hp).type]
    exact h.once p hp
  · have hp':=(hlinked p).mp hp
    rw [hroot] at hne
    rw [hlinked,hparent p hp']
    exact h.parents p hp' hne
  · have hp':=(hlinked p).mp hp
    rw [hroot] at hne
    rw [hparent p hp',(hnode _ (h.parents p hp' hne).1).children]
    exact h.holds p hp' hne hm
  · have hp':=(hlinked p).mp hp
    rw [hroot]
    exact (h.rooted p hp').congr (S := fs.Linked) h.parents (fun q hq _ => hparent q hq) hp'
  · rw [hlive] at hp
    rw [(hnode p hp).nlink,(hnode p hp).children]
    exact h.empty p hp
  · rw [hroot,hparent _ h.root]
    exact h.top

lemma entries_modify (fs : Mount) (hd : d∈fs.live) (f : Node → Node) (p : NodeId) :
    (fs.modify d f).entries p+(fs.node d).children.countP (fun de => de.node=p) =
      fs.entries p+(f (fs.node d)).children.countP fun de => de.node=p := by
  unfold Mount.entries
  rw [← add_sum_erase (fs.modify d f).live _ hd,← add_sum_erase fs.live _ hd,modify_self]
  have hrest : ∑ e∈fs.live.erase d,((fs.modify d f).node e).children.countP (fun de => de.node=p) =
      ∑ e∈fs.live.erase d,(fs.node e).children.countP fun de => de.node=p :=
    sum_congr rfl fun e he => by rw [modify_ne fs (ne_of_mem_erase he)]
  have hsame : (fs.modify d f).live=fs.live := rfl
  rw [hsame,hrest]
  omega

lemma entries_modify_same (fs : Mount) (hd : d∈fs.live)
    (hf : (f (fs.node d)).children=(fs.node d).children) (p : NodeId) : (fs.modify d f).entries p=fs.entries p := by
  have := entries_modify fs hd f p
  rw [hf] at this
  omega

lemma TreeInv.entries_eq_zero (h : TreeInv moving fs) (hp : p∉fs.live) : fs.entries p=0 := by
  refine sum_eq_zero fun d hd => countP_eq_zero.mpr fun de hde => ?_
  have hne : de.node≠p := fun heq => hp (heq ▸ h.named d hd de hde)
  simpa using hne

structure ListsOnly (fs fs' : Mount) : Prop where
  live : fs'.live=fs.live
  root : fs'.root=fs.root
  type : ∀ q,(fs'.node q).type=(fs.node q).type
  nlink : ∀ q,(fs'.node q).nlink=(fs.node q).nlink
  parent : ∀ q,fs'.parent q=fs.parent q

lemma listsOnly_modify (fs : Mount) (d : NodeId)
    (ht : (f (fs.node d)).type=(fs.node d).type) (hn : (f (fs.node d)).nlink=(fs.node d).nlink)
    (hp : (f (fs.node d)).parent=(fs.node d).parent) : ListsOnly fs (fs.modify d f) :=
  ⟨rfl,rfl,modify_field fs Node.type ht,modify_field fs Node.nlink hn,modify_field fs Node.parent hp⟩
lemma ListsOnly.linked (h : ListsOnly fs fs') (q : NodeId) : fs'.Linked q ↔ fs.Linked q := by
  unfold Mount.Linked
  rw [h.live,h.type,h.nlink]

lemma ListsOnly.inv {moving' : List NodeId} (h : ListsOnly fs fs') (hi : TreeInv moving fs)
    (hdirs : ∀ q∈fs.live,DirOk (fs'.node q)) (hnamed : ∀ e∈fs.live,∀ de∈(fs'.node e).children,de.node∈fs.live)
    (hmoving : ∀ q∈moving',q∈fs.live) (hcount : ∀ q∈fs.live,fs'.entries q+moving'.count q=fs.entries q+moving.count q)
    (hholds : ∀ q,fs.Linked q → q≠fs.root → q∉moving' → ∃ de∈(fs'.node (fs.parent q)).children,de.node=q)
    (hempty : ∀ q∈fs.live,(fs.node q).nlink=0 → (fs'.node q).children=[]) : TreeInv moving' fs' := by
  have hpar : fs'.parent=fs.parent := funext h.parent
  refine ⟨?_,?_,?_,?_,fun q hq => ?_,fun q hq => ?_,fun q hq => ?_,fun q hq hne => ?_,
    fun q hq hne hm => ?_,fun q hq => ?_,fun q hq => ?_,?_⟩
  · rw [h.root,h.linked]
    exact hi.root
  · rw [h.live]
    exact hdirs
  · rw [h.live]
    exact hnamed
  · rw [h.live]
    exact hmoving
  · rw [h.live] at hq
    have hl:=hi.links q hq
    have hc:=hcount q hq
    rw [h.nlink,h.root]
    omega
  · rw [h.live] at hq
    rw [h.nlink]
    exact hi.range q hq
  · rw [h.live] at hq
    rw [h.nlink,h.type]
    exact hi.once q hq
  · rw [h.linked] at hq ⊢
    rw [h.root] at hne
    rw [hpar]
    exact hi.parents q hq hne
  · rw [h.linked] at hq
    rw [h.root] at hne
    rw [hpar]
    exact hholds q hq hne hm
  · rw [h.linked] at hq
    rw [h.root,hpar]
    exact hi.rooted q hq
  · rw [h.live] at hq
    rw [h.nlink]
    exact hempty q hq
  · rw [h.root,hpar]
    exact hi.top

lemma TreeInv.add (h : TreeInv (p::moving) fs) (hd : fs.Linked d) (hnew : direntLookup (fs.node d) name=none)
    (hpar : (fs.node p).type=.dir → fs.parent p=d) : TreeInv moving (fs.modify d (·.addDirent ⟨name,p⟩)) := by
  have hlo : ListsOnly fs (fs.modify d (·.addDirent ⟨name,p⟩)) := listsOnly_modify fs d rfl rfl rfl
  refine hlo.inv h (fun q hq => ?_) (fun e he de hde => ?_)
    (fun q hq => h.live q (mem_cons_of_mem _ hq)) (fun q hq => ?_) (fun q hq hne hm => ?_)
    (fun q hq h0 => ?_)
  · by_cases hqd : q=d
    · subst hqd
      rw [modify_self]
      exact (h.dirs q hq).add hd.2.1 hnew
    · rw [modify_ne fs hqd]
      exact h.dirs q hq
  · by_cases hed : e=d
    · subst hed
      rw [modify_self] at hde
      rcases mem_cons.mp hde with rfl | hde
      · exact h.live p (mem_cons_self ..)
      · exact h.named e he de hde
    · rw [modify_ne fs hed] at hde
      exact h.named e he de hde
  · have hm:=entries_modify fs hd.1 (·.addDirent ⟨name,p⟩) q
    have hc : ((fs.node d).addDirent ⟨name,p⟩).children.countP (fun de => de.node=q) =
        (fs.node d).children.countP (fun de => de.node=q)+if p=q then 1 else 0 := by
      unfold Node.addDirent
      simp [countP_cons]
    rw [count_cons]
    simp only [beq_iff_eq]
    omega
  · by_cases hqp : q=p
    · subst hqp
      rw [hpar hq.2.1,modify_self]
      exact ⟨⟨name,q⟩,mem_cons_self ..,rfl⟩
    obtain ⟨de,hde,hnode⟩:=h.holds q hq hne (by simp [hqp,hm])
    by_cases hpd : fs.parent q=d
    · rw [hpd] at hde ⊢
      rw [modify_self]
      exact ⟨de,mem_cons_of_mem _ hde,hnode⟩
    · rw [modify_ne fs hpd]
      exact ⟨de,hde,hnode⟩
  · have hqd : q≠d := by
      rintro rfl
      exact hd.2.2 h0
    rw [modify_ne fs hqd]
    exact h.empty q hq h0

lemma TreeInv.remove (h : TreeInv moving fs) (hd : d∈fs.live)
    (hfind : (fs.node d).children.find? (fun de => de.name=name)=some de) :
    TreeInv (de.node::moving) (fs.modify d (·.removeDirent name)) := by
  have hlo : ListsOnly fs (fs.modify d (·.removeDirent name)) := listsOnly_modify fs d rfl rfl rfl
  have hmem:=List.mem_of_find?_eq_some hfind
  have hname : de.name=name := by simpa using List.find?_some hfind
  refine hlo.inv h (fun q hq => ?_) (fun e he de' hde => ?_) (fun q hq => ?_) (fun q hq => ?_)
    (fun q hq hne hm => ?_) (fun q hq h0 => ?_)
  · by_cases hqd : q=d
    · subst hqd
      rw [modify_self]
      exact (h.dirs q hq).remove name
    · rw [modify_ne fs hqd]
      exact h.dirs q hq
  · by_cases hed : e=d
    · subst hed
      rw [modify_self] at hde
      exact h.named e he de' (List.mem_of_mem_eraseP hde)
    · rw [modify_ne fs hed] at hde
      exact h.named e he de' hde
  · rcases List.mem_cons.mp hq with rfl | hq
    · exact h.named d hd de hmem
    · exact h.live q hq
  · have hm:=entries_modify fs hd (·.removeDirent name) q
    have hc:=countP_eraseP (fun de => de.node=q) hfind
    change ((fs.node d).removeDirent name).children.countP _ + _ = _ at hc
    rw [List.count_cons]
    simp only [beq_iff_eq,decide_eq_true_eq] at hc ⊢
    omega
  · rw [List.mem_cons,not_or] at hm
    obtain ⟨e,he,hnode⟩:=h.holds q hq hne hm.2
    by_cases hpd : fs.parent q=d
    · rw [hpd] at he ⊢
      rw [modify_self]
      refine ⟨e,?_,hnode⟩
      show e∈(fs.node d).children.eraseP _
      rw [eraseP_name (h.dirs d hd).nodup,List.mem_filter]
      refine ⟨he,?_⟩
      have hne' : e.name≠name := fun heq => by
        have : e=de := List.inj_on_of_nodup_map (h.dirs d hd).nodup he hmem (heq.trans hname.symm)
        exact hm.1 (this ▸ hnode.symm)
      simpa using hne'
    · rw [modify_ne fs hpd]
      exact ⟨e,he,hnode⟩
  · by_cases hqd : q=d
    · subst hqd
      rw [modify_self]
      show (fs.node q).children.eraseP _ = []
      rw [h.empty q hq h0]
      rfl
    · rw [modify_ne fs hqd]
      exact h.empty q hq h0

section
variable (h : TreeInv (p::moving) fs)
include h

lemma TreeInv.moving_ne_root : p≠fs.root := by
  intro heq
  have hlp:=h.links p (h.live p (mem_cons_self ..))
  have honce:=h.once p (h.live p (mem_cons_self ..)) (heq ▸ h.root.2.1)
  rw [if_pos heq,count_cons_self] at hlp
  omega

lemma TreeInv.setParent (hd : fs.Linked d) (hav : (fs.node p).type=.dir → Avoids fs.root fs.parent p d) :
    TreeInv (p::moving) (fs.modify p fun nd => {nd with parent := d}) := by
  have htype : ∀ q,_ := modify_field fs Node.type (d := p) (f := fun nd => {nd with parent := d}) rfl
  have hnlink : ∀ q,_ := modify_field fs Node.nlink (d := p) (f := fun nd => {nd with parent := d}) rfl
  have hchild : ∀ q,_ := modify_field fs Node.children (d := p) (f := fun nd => {nd with parent := d}) rfl
  have hhash : ∀ q,_ := modify_field fs Node.hash (d := p) (f := fun nd => {nd with parent := d}) rfl
  have hpar : (fs.modify p fun nd => {nd with parent := d}).parent=update fs.parent p d := by
    funext q
    by_cases hq : q=p
    · subst hq
      rw [update_self]
      exact congrArg Node.parent (modify_self fs q _)
    · rw [update_of_ne hq]
      exact congrArg Node.parent (modify_ne fs hq _)
  have hlinked : ∀ q,(fs.modify p fun nd => {nd with parent := d}).Linked q ↔ fs.Linked q := by
    intro q
    unfold Mount.Linked
    rw [htype,hnlink]
    exact Iff.rfl
  have hentries : ∀ q,(fs.modify p fun nd => {nd with parent := d}).entries q=fs.entries q :=
    entries_modify_same fs (h.live p (mem_cons_self ..)) rfl
  refine ⟨(hlinked _).mpr h.root,fun q hq => ?_,fun e he => ?_,h.live,fun q hq => ?_,fun q hq => ?_,
    fun q hq => ?_,fun q hq hne => ?_,fun q hq hne hm => ?_,fun q hq => ?_,fun q hq => ?_,?_⟩
  · obtain ⟨h1,h2,h3⟩:=h.dirs q hq
    exact ⟨hchild q ▸ h1,by rw [hhash,hchild]; exact h2,by rw [htype,hchild]; exact h3⟩
  · rw [hchild]
    exact h.named e he
  · rw [hnlink,hentries]
    exact h.links q hq
  · rw [hnlink]
    exact h.range q hq
  · rw [hnlink,htype]
    exact h.once q hq
  · rw [hlinked] at hq ⊢
    rw [hpar]
    by_cases hqp : q=p
    · rw [hqp,update_self]
      exact hd
    · rw [update_of_ne hqp]
      exact h.parents q hq hne
  · rw [hlinked] at hq
    have hqp : q≠p := fun heq => hm (heq ▸ mem_cons_self ..)
    rw [hpar,update_of_ne hqp,hchild]
    exact h.holds q hq hne hm
  · rw [hlinked] at hq
    rw [hpar]
    by_cases hdir : (fs.node p).type=.dir
    · exact (h.rooted q hq).reparent (hav hdir)
    · refine (h.rooted q hq).congr (S := fs.Linked) h.parents (fun r hr _ => ?_) hq
      exact update_of_ne (fun heq : r=p => hdir (heq ▸ hr.2.1)) ..
  · rw [hnlink,hchild]
    exact h.empty q hq
  · rw [hpar]
    exact (update_of_ne h.moving_ne_root.symm ..).trans h.top

lemma TreeInv.attach (hd : fs.Linked d) (hnew : direntLookup (fs.node d) name=none)
    (hav : (fs.node p).type=.dir → Avoids fs.root fs.parent p d) :
    TreeInv moving ((fs.modify d (·.addDirent ⟨name,p⟩)).modify p fun nd => {nd with parent := d}) := by
  have hdp : d≠p := by
    rintro rfl
    exact (hav hd.2.1).ne rfl
  rw [modify_comm fs hdp]
  have hset:=h.setParent hd hav
  refine hset.add ⟨hd.1,?_⟩ ?_ fun _ => ?_
  · rw [modify_ne fs hdp]
    exact hd.2
  · rw [modify_ne fs hdp]
    exact hnew
  · exact congrArg Node.parent (modify_self fs p _)

end

lemma short_of_range {n : ℤ} (h1 : -2^15≤n) (h2 : n<2^15) : short n=n := by
  unfold short
  rw [Int.bmod_eq_of_le] <;> omega

abbrev Node.relink (g : ℤ → ℤ) (nd : Node) : Node := {nd with nlink := g nd.nlink}

/-- A node gets the link count that its names and the list of moving nodes ask for. -/
lemma TreeInv.setNlink {moving' : List NodeId} {g : ℤ → ℤ} (h : TreeInv moving fs) (hp : p∈fs.live)
    (hlive : ∀ q∈moving',q∈fs.live) (hcount : ∀ q,q≠p → moving'.count q=moving.count q)
    (hg : g (fs.node p).nlink+moving.count p=(fs.node p).nlink+moving'.count p) (hrange : g (fs.node p).nlink<2^15)
    (hdir : (fs.node p).type=.dir → g (fs.node p).nlink=0 ∧ (fs.node p).children=[] ∧ p≠fs.root ∧ ∀ q∈moving,q=p) :
    TreeInv moving' (fs.modify p (Node.relink g)) := by
  have htype : ∀ q,_ := modify_field fs Node.type (d := p) (f := Node.relink g) rfl
  have hchild : ∀ q,_ := modify_field fs Node.children (d := p) (f := Node.relink g) rfl
  have hhash : ∀ q,_ := modify_field fs Node.hash (d := p) (f := Node.relink g) rfl
  have hpar : (fs.modify p (Node.relink g)).parent=fs.parent :=
    funext (modify_field fs Node.parent rfl)
  have hentries : ∀ q,_ := entries_modify_same fs hp (f := Node.relink g) rfl
  have hself : ((fs.modify p (Node.relink g)).node p).nlink=g (fs.node p).nlink := by
    rw [modify_self]
  have hother : ∀ q,q≠p → (fs.modify p (Node.relink g)).node q=fs.node q :=
    fun q hq => modify_ne fs hq _
  -- a directory whose count changes has lost its last name
  have hlinked : ∀ q,(fs.modify p (Node.relink g)).Linked q ↔ fs.Linked q ∧ q≠p := by
    intro q
    unfold Mount.Linked
    by_cases hq : q=p
    · subst hq
      rw [htype,hself]
      exact ⟨fun hl => absurd (hdir hl.2.1).1 hl.2.2,fun hl => absurd rfl hl.2⟩
    · rw [hother q hq]
      exact ⟨fun hl => ⟨hl,hq⟩,fun hl => hl.1⟩
  refine ⟨?_,fun q hq => ?_,fun e he => ?_,hlive,fun q hq => ?_,fun q hq => ?_,fun q hq hd => ?_,
    fun q hq hne => ?_,fun q hq hne hm => ?_,fun q hq => ?_,fun q hq h0 => ?_,hpar ▸ h.top⟩
  · exact (hlinked _).mpr ⟨h.root,fun heq => (hdir (heq ▸ h.root.2.1)).2.2.1 heq.symm⟩
  · obtain ⟨h1,h2,h3⟩:=h.dirs q hq
    exact ⟨hchild q ▸ h1,by rw [hhash,hchild]; exact h2,by rw [htype,hchild]; exact h3⟩
  · rw [hchild]
    exact h.named e he
  · rw [hentries]
    have hl:=h.links q hq
    by_cases hqp : q=p
    · subst hqp
      show _ = _ + (if q=fs.root then 1 else 0) + _
      omega
    · rw [hother q hqp,hcount q hqp]
      exact hl
  · by_cases hqp : q=p
    · subst hqp
      rwa [hself]
    · rw [hother q hqp]
      exact h.range q hq
  · rw [htype] at hd
    by_cases hqp : q=p
    · subst hqp
      rw [hself,(hdir hd).1]
      exact zero_le_one
    · rw [hother q hqp]
      exact h.once q hq hd
  · obtain ⟨hq,hqp⟩:=(hlinked q).mp hq
    have hparent:=h.parents q hq hne
    rw [hlinked,hpar]
    refine ⟨hparent,fun heq => ?_⟩
    obtain ⟨-,hnil,-,hmv⟩:=hdir (heq ▸ hparent.2.1)
    obtain ⟨de,hde,-⟩:=h.holds q hq hne fun hm => hqp (hmv q hm)
    rw [heq,hnil] at hde
    exact not_mem_nil hde
  · obtain ⟨hq,hqp⟩:=(hlinked q).mp hq
    rw [hpar,hchild]
    refine h.holds q hq hne ?_
    rwa [← count_eq_zero,← hcount q hqp,count_eq_zero]
  · rw [hpar]
    exact h.rooted q ((hlinked q).mp hq).1
  · rw [hchild]
    by_cases hqp : q=p
    · subst hqp
      by_cases hd : (fs.node q).type=.dir
      · exact (hdir hd).2.1
      · exact (h.dirs q hq).leaf hd
    · rw [hother q hqp] at h0
      exact h.empty q hq h0

lemma TreeInv.unlink (h : TreeInv (p::moving) fs)
    (hdir : (fs.node p).type=.dir → (fs.node p).children=[] ∧ moving=[]) :
    TreeInv moving (fs.modify p Node.decLink) := by
  have hp:=h.live p (List.mem_cons_self ..)
  have hlp:=h.links p hp
  have hrange:=h.range p hp
  rw [List.count_cons_self] at hlp
  have hshort : short ((fs.node p).nlink-1)=(fs.node p).nlink-1 := short_of_range (by omega) (by omega)
  refine h.setNlink (g := fun n => short (n-1)) hp (fun q hq => h.live q (List.mem_cons_of_mem _ hq))
    (fun q hq => (List.count_cons_of_ne (Ne.symm hq)).symm) ?_ (by rw [hshort]; omega) fun hd => ?_
  · rw [hshort,List.count_cons_self]
    omega
  -- directories have one name
  have := h.once p hp hd
  obtain ⟨hnil,rfl⟩:=hdir hd
  exact ⟨by rw [hshort]; omega,hnil,h.moving_ne_root,fun q => List.mem_singleton.mp⟩

lemma TreeInv.free (h : TreeInv moving fs) (hp : p∈fs.live) (h0 : (fs.node p).nlink=0) :
    TreeInv moving (freeNode fs p) := by
  have hlp:=h.links p hp
  have hroot : p≠fs.root := fun heq => h.root.2.2 (heq ▸ h0)
  have hnone : ∀ d∈fs.live,∀ de∈(fs.node d).children,de.node≠p := by
    intro d hd de hde heq
    have hpos : 0<(fs.node d).children.countP fun de => de.node=p := countP_pos_iff.mpr ⟨de,hde,by simpa using heq⟩
    have hle : (fs.node d).children.countP (fun de => de.node=p)≤fs.entries p :=
      single_le_sum (f := fun d => (fs.node d).children.countP fun de => de.node=p) (fun _ _ => Nat.zero_le _) hd
    omega
  have hmoving : p∉moving := fun hm => by
    have := count_pos_iff.mpr hm
    omega
  have hentries : ∀ q,(freeNode fs p).entries q=fs.entries q := by
    intro q
    unfold Mount.entries
    refine sum_erase _ ?_
    show (fs.node p).children.countP _ = 0
    rw [h.empty p hp h0]
    rfl
  have hlinked : ∀ q,(freeNode fs p).Linked q ↔ fs.Linked q := by
    intro q
    refine ⟨fun hl => ⟨mem_of_mem_erase hl.1,hl.2⟩,fun hl => ⟨mem_erase.mpr ⟨?_,hl.1⟩,hl.2⟩⟩
    rintro rfl
    exact hl.2.2 h0
  have hin : ∀ {q},q∈(freeNode fs p).live → q∈fs.live := mem_of_mem_erase
  refine ⟨(hlinked _).mpr h.root,fun q hq => h.dirs q (hin hq),fun d hd de hde => ?_,fun q hq => ?_,
    fun q hq => ?_,fun q hq => h.range q (hin hq),fun q hq => h.once q (hin hq),
    fun q hq hne => ?_,fun q hq => h.holds q ((hlinked q).mp hq),fun q hq => h.rooted q ((hlinked q).mp hq),
    fun q hq => h.empty q (hin hq),h.top⟩
  · exact mem_erase.mpr ⟨hnone d (hin hd) de hde,h.named d (hin hd) de hde⟩
  · exact mem_erase.mpr ⟨fun heq => hmoving (heq ▸ hq),h.live q hq⟩
  · rw [hentries]
    exact h.links q (hin hq)
  · exact (hlinked _).mpr (h.parents q ((hlinked q).mp hq) hne)

lemma TreeInv.alloc (h : TreeInv moving fs) (hd : fs.Linked d) (hp : p∉fs.live) {type : FileType}
    (ha : allocNode fs type d (some p)=some (p,fs')) : TreeInv (p::moving) fs' := by
  simp only [allocNode,Option.some.injEq,Prod.mk.injEq,true_and] at ha
  subst ha
  have hne : ∀ {q},q∈fs.live → q≠p := fun hq heq => hp (heq ▸ hq)
  have hself : ∀ nd : Node,update fs.node p nd p=nd := fun nd => update_self ..
  have hother : ∀ {q} (nd : Node),q∈fs.live → update fs.node p nd q=fs.node q := fun nd hq => update_of_ne (hne hq) ..
  generalize hnd : (⟨fs.nextInum,type,1,0,d,[],fun _ => [],[],[]⟩ : Node)=nd
  have hchild : nd.children=[] := by rw [← hnd]
  have hnlink : nd.nlink=1 := by rw [← hnd]
  have hparent : nd.parent=d := by rw [← hnd]
  have hdirok : DirOk nd := by
    rw [← hnd]
    exact ⟨List.nodup_nil,fun _ => rfl,fun _ => rfl⟩
  set u : Mount:={ fs with
    nextInum := word (fs.nextInum+1),live := insert p fs.live
    node := update fs.node p nd } with hu
  have hentries : ∀ q,u.entries q=fs.entries q := by
    intro q
    unfold Mount.entries
    rw [hu]
    dsimp only
    rw [sum_insert hp,hself,hchild,List.countP_nil,Nat.zero_add]
    exact sum_congr rfl fun d hd => by rw [hother nd hd]
  have hlinked : ∀ q,fs.Linked q → u.Linked q := by
    intro q hq
    refine ⟨mem_insert_of_mem hq.1,?_⟩
    rw [hu]
    dsimp only
    rw [hother nd hq.1]
    exact hq.2
  have hcases : ∀ q,u.Linked q → q=p ∨ fs.Linked q := by
    intro q hq
    rcases mem_insert.mp hq.1 with rfl | hm
    · exact .inl rfl
    refine .inr ⟨hm,?_⟩
    have := hq.2
    rw [hu] at this
    dsimp only at this
    rwa [hother nd hm] at this
  have hpar : ∀ q,fs.Linked q → u.parent q=fs.parent q := fun q hq => by
    unfold Mount.parent
    rw [hu]
    dsimp only
    rw [hother nd hq.1]
  have hparp : u.parent p=d := by
    unfold Mount.parent
    rw [hu]
    dsimp only
    rw [hself,hparent]
  have hrooted : ∀ q,fs.Linked q → Rooted fs.root u.parent q := fun q hq =>
    (h.rooted q hq).congr (S := fs.Linked) h.parents (fun r hr _ => hpar r hr) hq
  have hnode : ∀ q∈u.live,q=p ∧ u.node q=nd ∨ q∈fs.live ∧ u.node q=fs.node q := by
    intro q hq
    rcases mem_insert.mp hq with rfl | hm
    · exact .inl ⟨rfl,hself nd⟩
    · exact .inr ⟨hm,hother nd hm⟩
  refine ⟨hlinked _ h.root,fun q hq => ?_,fun e he de hde => ?_,fun q hq => ?_,fun q hq => ?_,
    fun q hq => ?_,fun q hq _ => ?_,fun q hq hne' => ?_,fun q hq hne' hm => ?_,fun q hq => ?_,
    fun q hq h0 => ?_,(hpar _ h.root).trans h.top⟩
  · rcases hnode q hq with ⟨-,heq⟩ | ⟨hm,heq⟩
    · rw [heq]
      exact hdirok
    · rw [heq]
      exact h.dirs q hm
  · rcases hnode e he with ⟨-,heq⟩ | ⟨hm,heq⟩
    · rw [heq,hchild] at hde
      exact (List.not_mem_nil hde).elim
    · rw [heq] at hde
      exact mem_insert_of_mem (h.named e hm de hde)
  · rcases List.mem_cons.mp hq with rfl | hq
    · exact mem_insert_self ..
    · exact mem_insert_of_mem (h.live q hq)
  · rw [hentries,List.count_cons]
    rcases hnode q hq with ⟨rfl,heq⟩ | ⟨hm,heq⟩
    · rw [heq,hnlink,h.entries_eq_zero hp,if_neg (show q≠u.root from (hne h.root.1).symm)]
      rw [List.count_eq_zero_of_not_mem fun hm => hp (h.live q hm)]
      simp
    rw [heq]
    have := h.links q hm
    simp only [beq_iff_eq,if_neg (Ne.symm (hne hm)),Nat.add_zero]
    exact this
  · rcases hnode q hq with ⟨-,heq⟩ | ⟨hm,heq⟩
    · rw [heq,hnlink]
      omega
    · rw [heq]
      exact h.range q hm
  · rcases hnode q hq with ⟨-,heq⟩ | ⟨hm,heq⟩
    · rw [heq,hnlink]
    · rename_i hty
      rw [heq] at hty ⊢
      exact h.once q hm hty
  · rcases hcases q hq with rfl | hq
    · rw [hparp]
      exact hlinked d hd
    · rw [hpar q hq]
      exact hlinked _ (h.parents q hq hne')
  · rw [List.mem_cons,not_or] at hm
    have hq:=(hcases q hq).resolve_left hm.1
    obtain ⟨de,hde,hn⟩:=h.holds q hq hne' hm.2
    refine ⟨de,?_,hn⟩
    rw [hpar q hq,hu]
    dsimp only
    rw [hother nd (h.parents q hq hne').1]
    exact hde
  · rcases hcases q hq with rfl | hq
    · refine .up ?_
      rw [hparp]
      exact hrooted d hd
    · exact hrooted q hq
  · rcases hnode q hq with ⟨-,heq⟩ | ⟨hm,heq⟩
    · rw [heq]
      exact hchild
    · rw [heq] at h0 ⊢
      exact h.empty q hm h0

end Auxv6.Fs.Tmpfs

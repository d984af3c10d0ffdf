import Auxv6.Net.SocketSyscalls

/-!
# Lifetime of sockets

No call may lose track of a reference, as `shutdown` of an established stream, a second `listen` and
the teardown of an `AF_INET` end whose peer is on this machine do.
-/

namespace Auxv6.Net.Sockets
open Lib Lib.Transition List Nat Transition

variable {t u : Table}

def Sound (t : Table) : Action → Prop
  | .listen i _ => ∀ f,t.files[i]? = some f → (t.sock f.sock).listenq=[]
  | .accept i file fd route _ => ∀ f,t.files[i]? = some f → file=false ∨ fd=false →
      ∀ c∈(t.sock f.sock).listenq.head?,Closable t c route
  | .shutdown i how _ _ => ∀ f,t.files[i]? = some f → how≠.rd →
      (t.sock f.sock).type=.stream → finable (t.sock f.sock)=false
  | .close i route _ => ∀ f,t.files[i]? = some f → f.ref=1 → NoneWaits t f.sock ∧ Closable t f.sock route
  | _ => True

lemma onFile_cases {i : ℕ} {g : SockId → Option Table} (h : t.onFile i g=some u) :
    ∃ f,t.files[i]? = some f ∧ 0<t.filesOf f.sock ∧ g f.sock=some u := by
  unfold Table.onFile at h
  split at h
  · rename_i f hf
    split at h
    · cases h
    · rename_i href
      exact ⟨f,hf,filesOf_pos (mem_of_getElem? hf) (pos_of_ne_zero href),h⟩
  · cases h

lemma step_inv {a : Action} (h : Inv [] t) (hok : Sound t a) (hs : step t a=some u) : Inv [] u := by
  cases a
  all_goals simp only [step] at hs
  case socket family type protocol bufs file fd route now =>
    cases hs
    exact sysSocket_inv h family type protocol bufs file fd route now
  case socketpair bufsA bufsB fileA fileB fdA fdB copy route now =>
    cases hs
    exact sysSocketpair_inv h bufsA bufsB fileA fileB fdA fdB copy route now
  case bindUnix i path =>
    obtain ⟨f,-,-,hs⟩:=onFile_cases hs
    split at hs
    · cases hs
      exact bindUnix_inv h path
    · cases hs
  case bindInet i family addr =>
    obtain ⟨f,-,-,hs⟩:=onFile_cases hs
    split at hs
    · cases hs
    · cases hs
      exact bindInet_inv h family addr
  case listen i backlog =>
    obtain ⟨f,hf,hpos,hs⟩:=onFile_cases hs
    cases hs
    exact sysListen_inv h hpos backlog (hok f hf)
  case connectUnix i path bufs =>
    obtain ⟨f,-,hpos,hs⟩:=onFile_cases hs
    split at hs
    · cases hs
      exact connectUnix_inv h hpos path bufs
    · cases hs
  case connectInet i dst route src port iss iss' now bufs =>
    obtain ⟨f,-,hpos,hs⟩:=onFile_cases hs
    split at hs
    · cases hs
    · cases hs
      exact connectInet_inv h hpos dst route src port iss iss' now bufs
  case connectTimeout i =>
    obtain ⟨f,-,-,hs⟩:=onFile_cases hs
    cases hs
    exact SameRefs.inv (sameRefs_modify t f.sock (tcpConnectTimeout_keeps _)) h
  case accept i file fd route now =>
    obtain ⟨f,hf,-,hs⟩:=onFile_cases hs
    exact sysAccept_inv h file fd route now (hok f hf) hs
  case dup i =>
    split at hs
    · rename_i f hf
      split at hs
      · cases hs
      · rename_i href
        cases hs
        exact h.setFile hf (pos_of_ne_zero href) (succ_pos _)
    · cases hs
  case shutdown i how route now =>
    obtain ⟨f,hf,-,hs⟩:=onFile_cases hs
    cases hs
    exact sysShutdown_inv h how route now (hok f hf)
  case close i route now =>
    split at hs
    · split at hs
      · cases hs
      · cases hs
        exact h.fileclose i route now fun f hf href => ⟨rfl,hok f hf href⟩
    · cases hs
  case send x payload page now =>
    split at hs
    · cases hs
    · cases hs
      exact SameRefs.inv (sameRefs_modify t x (tcpOutput_keeps _ payload page now)) h
  case segment src dst g now =>
    cases hs
    exact tcpArrive_inv h src dst g now
  case tick route now =>
    obtain rfl:=Option.some.inj hs
    exact foldl_slowtimoTurn_inv route now _ h

lemma socketInit_inv : Inv [] socketInit := by
  have hq : ∀ x,socketInit.queued x=0 := by
    simp [Table.queued,socketInit]
  refine ⟨⟨fun x => ?_,fun f hf => ?_,fun e he => ?_,fun x _ => rfl,fun l hl => ?_⟩,fun x _ => ⟨rfl,?_⟩⟩
  · rw [hq]
    exact slotOk_free rfl rfl
  · exact (not_mem_nil hf).elim
  · exact (not_mem_nil he).elim
  · exact (not_mem_nil hl).elim
  · exact not_mem_nil

structure SocketSafe (t : Table) : Prop where
  ref : ∀ x,(t.sock x).ref=t.filesOf x+(if ∃ y,x∈(t.sock y).listenq then 1 else 0) +
    if (t.sock x).tcp.closePending then 1 else 0
  kept : ∀ f∈t.files,0<f.ref → t.gen f.sock=f.gen
  freed : ∀ l∈t.links,(∀ f∈t.files,0<f.ref → (f.sock,f.gen)≠l.client ∧ (f.sock,f.gen)≠l.server) →
    t.gen l.client.1≠l.client.2 ∧ t.gen l.server.1≠l.server.2

lemma Core.queued_eq {hand : List SockId} (h : Core hand t) (x : SockId) :
    t.queued x=if ∃ y,x∈(t.sock y).listenq then 1 else 0 := by
  have honce:=(h.slot x).once
  split
  · rename_i hy
    obtain ⟨y,hy⟩:=hy
    have hpos : 0<(t.sock y).listenq.count x := count_pos_iff.mpr hy
    have hle:=count_le_queued t y x
    omega
  · rename_i hno
    refine Finset.sum_eq_zero fun y _ => count_eq_zero_of_not_mem fun hy => hno ⟨y,hy⟩

lemma Inv.unnamed (h : Inv [] t) {e : SockId × ℕ} (he : e∈t.ends)
    (hno : ∀ f∈t.files,0<f.ref → (f.sock,f.gen)≠e) (hg : t.gen e.1=e.2) : 0<t.queued e.1 := by
  by_contra hq
  have hmem : (e.1,t.gen e.1)∈t.ends := by
    rw [hg]
    exact he
  have hfiles : t.filesOf e.1=0 := by
    by_contra hne
    obtain ⟨f,hf,hfe⟩:=countP_pos_iff.mp (pos_of_ne_zero hne)
    simp only [decide_eq_true_eq] at hfe
    refine hno f hf hfe.1 ?_
    rw [h.gen f hf hfe.1,hfe.2,hg]
  have hr:=(h.slot e.1).ref
  rw [hfiles,pending_false (h.ends e.1 hmem)] at hr
  refine (h.free e.1 ?_).2 hmem
  rw [hr,count_nil]
  omega

lemma Inv.safe (h : Inv [] t) : SocketSafe t := by
  refine ⟨fun x => ?_,fun f hf href => (h.gen f hf href).symm,fun l hl hno => ?_⟩
  · have hr:=(h.slot x).ref
    rw [count_nil,add_zero,h.toCore.queued_eq x] at hr
    exact hr
  obtain ⟨hcl,hsv⟩:=mem_ends hl
  have hclient : t.gen l.client.1≠l.client.2 := fun hg => by
    have hpos:=h.unnamed hcl (fun f hf href => (hno f hf href).1) hg
    have hzero:=(h.link l hl).client hg
    omega
  refine ⟨hclient,fun hg => ?_⟩
  have hpos:=h.unnamed hsv (fun f hf href => (hno f hf href).2) hg
  exact hclient ((h.link l hl).server hg hpos).1

/-- In a run whose calls keep track of their references, every count is right, no slot goes
while an open file names it, and a local connection that no file names leaves its slots free. -/
theorem sockets_safe {actions : List Action} (hok : Guarded step Sound socketInit actions)
    (hrun : run step socketInit actions=some t) : SocketSafe t :=
  (run_guarded (I := Inv []) (fun _ _ _ h hok hs => step_inv h hok hs)
    socketInit_inv hok hrun).safe

instance (t : Table) (a : Action) : Decidable (Sound t a) := by
  cases a <;> dsimp only [Sound] <;> infer_instance

def nowhere : ℕ → Route := fun _ => .unreachable
def pair : Action := .socketpair true true true true true true true nowhere 0

abbrev closeFile (i : ℕ) : Action := .close i nowhere 0

theorem sockets_safe_pair : ∃ t,run step socketInit [pair,closeFile 0,closeFile 1]=some t ∧
      t.links.length=1 ∧ SocketSafe t := by
  obtain ⟨t,ht,hlen⟩ : ∃ t,run step socketInit [pair,closeFile 0,closeFile 1]=some t ∧ t.links.length=1 := by
    decide +kernel
  have hok : Guarded step Sound socketInit [pair,closeFile 0,closeFile 1] := by
    decide +kernel
  exact ⟨t,ht,hlen,sockets_safe hok ht⟩

theorem shutdown_frees_open_socket :
    ∃ t,run step socketInit [pair,.shutdown 0 .wr nowhere 0]=some t ∧ ¬ SocketSafe t := by
  obtain ⟨t,ht,f,hf,hpos,hgen⟩ : ∃ t,run step socketInit [pair,.shutdown 0 .wr nowhere 0]=some t ∧
      ∃ f∈t.files,0<f.ref ∧ t.gen f.sock≠f.gen := by
    decide +kernel
  exact ⟨t,ht,fun hs => hgen (hs.kept f hf hpos)⟩

/-- In such a run one file names a socket at most, and one in a queue is open nowhere. -/
theorem sockets_counted {actions : List Action} (hok : Guarded step Sound socketInit actions)
    (hrun : run step socketInit actions=some t) : Inv [] t :=
  run_guarded (fun _ _ _ h hok hs => step_inv h hok hs) socketInit_inv hok hrun

abbrev unixStream : Action := .socket .unix .stream 0 true true true nowhere 0

/-- Beside a socket pair with one end closed, a connection waits in the queue of a listener. -/
def oneQueued : List Action :=
  [pair,unixStream,.bindUnix 2 [47],.listen 2 1,unixStream,.connectUnix 3 [47] true,closeFile 0]

theorem sockets_counted_queued : ∃ t,run step socketInit oneQueued=some t ∧
    (∃ f∈t.files,0<f.ref ∧ (t.sock f.sock).listenq≠[]) ∧ Inv [] t := by
  obtain ⟨t,ht,hq⟩ : ∃ t,run step socketInit oneQueued=some t ∧ ∃ f∈t.files,0<f.ref ∧ (t.sock f.sock).listenq≠[] := by
    decide +kernel
  have hok : Guarded step Sound socketInit oneQueued :=
    guarded_of_check (fun t a => of_decide_eq_true (p := Sound t a)) (by decide +kernel)
  exact ⟨t,ht,hq,sockets_counted hok ht⟩

end Auxv6.Net.Sockets

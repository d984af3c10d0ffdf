import Mathlib.Data.Fintype.Basic
import Mathlib.Logic.Function.Basic
import Auxv6.Lib.Transition
import Auxv6.Net.Tcp

/-!
# The socket table (net/socket.c, net/tcp.c)

`sockets[NSOCKET]` and the open files that name a slot: the socket calls, `close`, arriving segments and
the timer. What `route_lookup`, `socket_alloc_port_locked`, `kalloc`, `filealloc`, `socket_fdalloc` and
`copyout` answer is an argument, and so are the number of `tcp_iss` and the time. `gen` counts how often a
slot was reset, and `links` are the connections made without a network.
-/

namespace Auxv6.Net.Sockets
open List

def listenqMax : ℕ := 16

structure OpenFile where
  sock : SockId
  ref : ℕ
  gen : ℕ

structure Link where
  client : SockId × ℕ
  server : SockId × ℕ

structure Table where
  sock : SockId → Socket
  files : List OpenFile
  gen : SockId → ℕ
  links : List Link

def Table.ends (t : Table) : List (SockId × ℕ) := t.links.flatMap fun l => [l.client,l.server]
def Table.modify (t : Table) (x : SockId) (f : Socket → Socket) : Table :=
  {t with sock := Function.update t.sock x (f (t.sock x))}

/-- `socket_reset_locked` (`socket.c:119-170`); `ref` and the timers stay. -/
def resetSocket (s : Socket) : Socket :=
  { s with
    state := .closed,type := .none,family := .unspec,localAddr := ⟨0,0⟩,remoteAddr := ⟨0,0⟩
    unixPath := [],recvBuf := none,recvCap := 0
    tcp := { s.tcp with
      state := .closed,iss := 0,sndNxt := 0,sndUna := 0,sndWnd := 0,irs := 0,rcvNxt := 0
      closePending := false,finSeq := 0,timeWaitStart := 0
      unackedBuf := none,unackedLen := 0,unackedSeq := 0 }
    peer := none,backlog := 0,listenq := [],reuseaddr := false,shutRd := false,shutWr := false }

def Table.reset (t : Table) (x : SockId) : Table :=
  {t.modify x resetSocket with gen := Function.update t.gen x (t.gen x+1)}

/-- A queued socket in `socket_free_locked` (`socket.c:180-192`). -/
def freeChild (t : Table) (c : SockId) : Table :=
  if 0<(t.sock c).ref then (t.modify c fun s => {s with ref := 0}).reset c else t

def dropPeer (t : Table) (x : SockId) : Table :=
  match (t.sock x).peer with
  | some y => t.modify y fun s => {s with peer := none}
  | none => t

/-- `socket.c:172-217`. -/
def socketFree (t : Table) (x : SockId) : Table := (dropPeer ((t.sock x).listenq.foldl freeChild t) x).reset x

/-- `socket.c:815-828`. -/
def socketDeref (t : Table) (x : SockId) : Table :=
  let t:=if 0<(t.sock x).ref then t.modify x fun s => {s with ref := s.ref-1} else t
  if (t.sock x).ref=0 then socketFree t x else t

abbrev Table.claim (t : Table) (i : SockId) : Table := (t.modify i fun s => {s with ref := 1}).reset i

/-- `socket.c:219-232`. -/
def socketAlloc (t : Table) : Option (SockId × Table) :=
  match (finRange nsocket).find? fun i => (t.sock i).ref=0 with
  | none => none
  | some i => some (i,t.claim i)

/-- `socket.c:234-254`. -/
def socketBuffersInit (t : Table) (x : SockId) (bufs : Bool) : Table :=
  t.modify x fun s => {s with recvCap := 4096,recvBuf := if bufs then some [] else none}

/-- `socket.c:256-271`. -/
def enqueue (t : Table) (listener child : SockId) : Option Table :=
  let l:=t.sock listener
  let maxq:=if l.backlog=0 ∨ l.backlog > listenqMax then listenqMax else l.backlog
  if l.listenq.length ≥ maxq then none
  else some (t.modify listener fun s => {s with listenq := s.listenq++[child]})

/-! ### Closing -/

def startTeardown (t : Table) (x : SockId) (route : ℕ → Route) (now : Word) (freeBuf : Bool) : Table :=
  let t:=t.modify x fun s => { s with ref := s.ref+1,tcp := {s.tcp with closePending := true} }
  match route (t.sock x).remoteAddr.addr with
  | .unreachable => t.modify x fun s =>
      { s with
        ref := if s.tcp.closePending then s.ref-1 else s.ref
        state := .closed
        tcp := { s.tcp with
          closePending := false,state := .closed
          unackedBuf := if freeBuf then none else s.tcp.unackedBuf } }
  | r => t.modify x fun s => (tcpClose s r now).sock

def finable (s : Socket) : Bool := s.tcp.state=.established ∨ s.tcp.state=.closeWait

/-- `socket.c:2782-2840`. -/
def socketClose (t : Table) (x : SockId) (route : ℕ → Route) (now : Word) : Table :=
  let s:=t.sock x
  if s.type=.stream ∧ s.family=.inet then
    if finable s then socketDeref (startTeardown t x route now true) x
    else
      socketDeref (t.modify x fun s => { s with
        state := .closed,tcp := {s.tcp with unackedBuf := none,state := .closed} }) x
  else
    let t:=if s.family=.unix then (dropPeer t x).modify x fun s => {s with peer := none} else t
    socketDeref (t.modify x fun s => {s with state := .closed}) x

def fileclose (t : Table) (i : ℕ) (route : ℕ → Route) (now : Word) : Table :=
  match t.files[i]? with
  | none => t
  | some f =>
    if f.ref=0 then t
    else
      let t:={ t with files := t.files.set i {f with ref := f.ref-1} }
      if f.ref-1 > 0 then t else socketClose t f.sock route now

def newFile (t : Table) (x : SockId) : Table := {t with files := t.files++[⟨x,1,t.gen x⟩]}

/-- The tests of `sys_socket` (`socket.c:1121-1136`). -/
def socketArgs (family : Family) (type : SockType) (protocol : ℤ) : Bool :=
  match family with
  | .inet => type≠.none ∧ (type=.raw → 0≤protocol)
  | .unix => type=.stream ∧ protocol=0
  | .unspec => false

/-- `socket.c:1109-1174`. -/
def sysSocket (t : Table) (family : Family) (type : SockType) (protocol : ℤ) (bufs file fd : Bool)
    (route : ℕ → Route) (now : Word) : Table :=
  if socketArgs family type protocol=false then t
  else match socketAlloc t with
    | none => t
    | some (x,t) =>
      let t:=t.modify x fun s =>
        { s with family := family,type := type,state := .closed,tcp := {s.tcp with state := .closed} }
      let t:=socketBuffersInit t x bufs
      if bufs=false then socketDeref t x
      else if file=false then socketDeref t x
      else
        let t:=newFile t x
        if fd=false then fileclose t (t.files.length-1) route now else t

def Table.link (t : Table) (x c : SockId) : Table := {t with links := t.links++[⟨(x,t.gen x),(c,t.gen c)⟩]}
def pairEnd (t : Table) (x y : SockId) : Table :=
  t.modify x fun s => { s with
    family := .unix,type := .stream,state := .estab,tcp := {s.tcp with state := .established}
    peer := some y }

/-- `socket.c:1176-1283`. -/
def sysSocketpair (t : Table) (bufsA bufsB fileA fileB fdA fdB copy : Bool) (route : ℕ → Route)
    (now : Word) : Table :=
  match socketAlloc t with
  | none => t
  | some (a,t) =>
    match socketAlloc t with
    | none => socketDeref t a
    | some (b,t) =>
      let t:=socketBuffersInit t a bufsA
      if bufsA=false then socketDeref (socketDeref t a) b
      else
        let t:=socketBuffersInit t b bufsB
        if bufsB=false then socketDeref (socketDeref t a) b
        else
          let t:=(pairEnd (pairEnd t a b) b a).link a b
          -- the first file has no type yet when the second cannot be had
          if fileA=false ∨ fileB=false then socketDeref (socketDeref t a) b
          else
            let i:=t.files.length
            let t:=newFile (newFile t a) b
            if fdA=false ∨ fdB=false ∨ copy=false then
              fileclose (fileclose t i route now) (i+1) route now
            else t

/-- `sys_bind` for `AF_UNIX` (`socket.c:1693-1724`). -/
def bindUnix (t : Table) (x : SockId) (path : List Byte) : Table :=
  if (t.sock x).type≠.stream then t
  else if (t.sock x).state≠.closed then t
  else if (finRange nsocket).any fun i => i≠x ∧ (t.sock i).ref≠0 ∧
      (t.sock i).family=.unix ∧ (t.sock i).unixPath≠[] ∧ (t.sock i).unixPath=path then t
  else t.modify x fun s => {s with unixPath := path,state := .bound}

/-- `sys_bind` for `AF_INET` (`socket.c:1726-1768`). It does not look at the state. -/
def bindInet (t : Table) (x : SockId) (family : Family) (addr : SockAddr) : Table :=
  if addr.port=0 then t
  else if (finRange nsocket).any fun i => i≠x ∧ (t.sock i).ref≠0 ∧
      (t.sock i).family=family ∧ (t.sock i).localAddr.port=addr.port ∧
      ¬ (addr.addr≠0 ∧ (t.sock i).localAddr.addr≠0 ∧ (t.sock i).localAddr.addr≠addr.addr) ∧
      ¬ ((t.sock x).reuseaddr ∧ (t.sock i).reuseaddr) then t
  else t.modify x fun s => {s with localAddr := addr,state := .bound}

/-- `socket.c:1909-1940`. -/
def sysListen (t : Table) (x : SockId) (backlog : ℤ) : Table :=
  if (t.sock x).type≠.stream ∨ (t.sock x).state≠.bound then t
  else
    let backlog:=if backlog≤0 then 1 else backlog.toNat
    let backlog:=if backlog > listenqMax then listenqMax else backlog
    t.modify x fun s =>
      { s with state := .listen,tcp := {s.tcp with state := .listen},backlog := backlog,listenq := [] }

/-- `socket.c:1943-2038`; `none` while it sleeps. -/
def sysAccept (t : Table) (x : SockId) (file fd : Bool) (route : ℕ → Route) (now : Word) : Option Table :=
  if (t.sock x).type≠.stream ∨ (t.sock x).state≠.listen then some t
  else match (t.sock x).listenq with
    | [] => none
    | c::rest =>
      let t:=t.modify x fun s => {s with listenq := rest}
      if file=false then some (socketClose t c route now)
      else
        let t:=newFile t c
        some (if fd=false then fileclose t (t.files.length-1) route now else t)

def unixEstablish (t : Table) (x c listener : SockId) : Table :=
  let t:=t.modify c fun s => { s with
    family := .unix,type := .stream,state := .estab,tcp := {s.tcp with state := .established}
    unixPath := (t.sock listener).unixPath,peer := some x }
  t.modify x fun s => { s with
    state := .estab,tcp := {s.tcp with state := .established},peer := some c }

/-- `sys_connect` for `AF_UNIX` (`socket.c:1802-1879`). -/
def connectUnix (t : Table) (x : SockId) (path : List Byte) (bufs : Bool) : Table :=
  if (t.sock x).type≠.stream then t
  else match socketAlloc t with
    | none => t
    | some (c,t) =>
      let t:=socketBuffersInit t c bufs
      if bufs=false then socketDeref t c
      else if (t.sock x).peer≠none ∨ ((t.sock x).state≠.closed ∧ (t.sock x).state≠.bound) then
        socketDeref t c
      else match (finRange nsocket).find? fun i => (t.sock i).ref≠0 ∧ i≠x ∧
          (t.sock i).family=.unix ∧ (t.sock i).type=.stream ∧ (t.sock i).state=.listen ∧ (t.sock i).unixPath=path with
        | none => socketDeref t c
        | some l =>
          if (t.sock l).listenq.length ≥ (t.sock l).backlog then socketDeref t c
          else
            let state:=(t.sock x).state
            let tcpState:=(t.sock x).tcp.state
            let t:=unixEstablish t x c l
            match enqueue t l c with
            | some t => t.link x c
            | none =>
              let t:=t.modify x fun s =>
                { s with peer := none,state := state,tcp := {s.tcp with state := tcpState} }
              socketDeref (t.modify c fun s => {s with peer := none}) c

/-- `socket.c:303-320`. -/
def prepareClient (s : Socket) (port : ℕ) (iss : Word) : Option Socket :=
  if s.localAddr.port=0 ∧ port=0 then none
  else some { s with
    localAddr := if s.localAddr.port=0 then {s.localAddr with port := port} else s.localAddr
    tcp := {s.tcp with state := .synSent,iss := iss,sndNxt := iss+1} }

def loopEstablish (t : Table) (x c listener : SockId) (dst : SockAddr) (iss : Word) : Table :=
  let client:=t.sock x
  let t:=t.modify c fun s => { s with
    family := .inet,type := .stream,localAddr := (t.sock listener).localAddr
    remoteAddr := client.localAddr,state := .estab
    tcp := { s.tcp with
      state := .established,irs := client.tcp.iss,rcvNxt := client.tcp.iss+1,iss := iss
      sndNxt := iss+1 } }
  t.modify x fun s => { s with
    remoteAddr := dst,state := .estab
    tcp := {s.tcp with state := .established,irs := iss,rcvNxt := iss+1} }

/-- `socket.c:690-783`. -/
def socketStreamConnect (t : Table) (x : SockId) (dst : SockAddr) (port : ℕ) (iss iss' : Word)
    (bufs : Bool) : Table :=
  match socketAlloc t with
  | none => t
  | some (c,t) =>
    let t:=socketBuffersInit t c bufs
    if bufs=false then socketDeref t c
    else if (t.sock x).state=.listen ∨ (t.sock x).tcp.state≠.closed then socketDeref t c
    else match prepareClient (t.sock x) port iss with
      | none => socketDeref t c
      | some s =>
        let t:=t.modify x fun _ => s
        match (finRange nsocket).find? fun i => i≠x ∧ (t.sock i).ref≠0 ∧
            (t.sock i).family=.inet ∧ (t.sock i).type=.stream ∧
            (t.sock i).localAddr.port=dst.port ∧ (t.sock i).state=.listen ∧
            ((t.sock i).localAddr.addr=0 ∨ (t.sock i).localAddr.addr=dst.addr) with
        | none => socketDeref t c
        | some l =>
          if (t.sock l).listenq.length ≥ (t.sock l).backlog then socketDeref t c
          else
            let t:=loopEstablish t x c l dst iss'
            match enqueue t l c with
            | some t => t.link x c
            | none => socketDeref t c

/-- `sys_connect` for `AF_INET` (`socket.c:1881-1906`); `src` is the address of the route. -/
def connectInet (t : Table) (x : SockId) (dst : SockAddr) (route : ℕ → Route) (src port : ℕ)
    (iss iss' now : Word) (bufs : Bool) : Table :=
  if route dst.addr=.unreachable then t
  else
    let t:=t.modify x fun s =>
      { s with localAddr := if s.localAddr.addr=0 then {s.localAddr with addr := src} else s.localAddr }
    if (t.sock x).type=.stream then
      if route dst.addr=.loopback then socketStreamConnect t x dst port iss iss' bufs
      else match tcpConnect (t.sock x) dst port iss now with
        | none => t
        | some o => t.modify x fun _ => o.sock
    else t.modify x fun s => {s with remoteAddr := dst,state := .connect}

inductive How where
  | rd | wr | rdwr
  deriving DecidableEq

/-- `socket.c:2995-3052`. -/
def sysShutdown (t : Table) (x : SockId) (how : How) (route : ℕ → Route) (now : Word) : Table :=
  let t:=t.modify x fun s => { s with
    shutRd := if how=.rd ∨ how=.rdwr then true else s.shutRd
    shutWr := if how=.wr ∨ how=.rdwr then true else s.shutWr }
  if (how=.wr ∨ how=.rdwr) ∧ (t.sock x).type=.stream ∧ finable (t.sock x) then
    socketDeref (startTeardown t x route now false) x
  else t

/-! ### Segments and timers -/

def afterTcp (t : Table) (x : SockId) (o : Outcome) : Table :=
  let t:=t.modify x fun _ => o.sock
  if o.deref then socketDeref t x else t

/-- `tcp_find_client_socket_locked` (`tcp.c:391-414`). -/
def tcpFindClient (t : Table) (src dst : SockAddr) : Option SockId :=
  (finRange nsocket).find? fun i => (t.sock i).ref≠0 ∧ (t.sock i).family=.inet ∧
    (t.sock i).type=.stream ∧ (t.sock i).localAddr.port=dst.port ∧
    ((t.sock i).remoteAddr.port=0 ∨ (t.sock i).remoteAddr.port=src.port) ∧
    ((t.sock i).remoteAddr.addr=0 ∨ (t.sock i).remoteAddr.addr=src.addr) ∧
    ((t.sock i).localAddr.addr=0 ∨ (t.sock i).localAddr.addr=dst.addr)

/-- `tcp_input` (`tcp.c:596-861`). -/
def tcpArrive (t : Table) (src dst : SockAddr) (g : Segment) (now : Word) : Table :=
  match tcpFindClient t src dst with
  | none => t
  | some x => afterTcp t x (tcpInput (t.sock x) src g now)

/-- The turn of a slot in `tcp_slowtimo` (`tcp.c:991-1024`). -/
def slowtimoTurn (route : ℕ → Route) (now : Word) (t : Table) (x : SockId) : Table :=
  let s:=t.sock x
  if s.ref=0 then t
  else if s.family≠.inet ∨ s.type≠.stream then t
  else afterTcp t x (tcpSlowtimo s (route s.remoteAddr.addr) now)

inductive Action where
  | socket (family : Family) (type : SockType) (protocol : ℤ) (bufs file fd : Bool)
      (route : ℕ → Route) (now : Word)
  | socketpair (bufsA bufsB fileA fileB fdA fdB copy : Bool) (route : ℕ → Route) (now : Word)
  | bindUnix (i : ℕ) (path : List Byte)
  | bindInet (i : ℕ) (family : Family) (addr : SockAddr)
  | listen (i : ℕ) (backlog : ℤ)
  | connectUnix (i : ℕ) (path : List Byte) (bufs : Bool)
  | connectInet (i : ℕ) (dst : SockAddr) (route : ℕ → Route) (src port : ℕ) (iss iss' now : Word)
      (bufs : Bool)
  | connectTimeout (i : ℕ)
  | accept (i : ℕ) (file fd : Bool) (route : ℕ → Route) (now : Word)
  | dup (i : ℕ)
  | shutdown (i : ℕ) (how : How) (route : ℕ → Route) (now : Word)
  | close (i : ℕ) (route : ℕ → Route) (now : Word)
  | send (x : SockId) (payload : List Byte) (page : Bool) (now : Word)
  | segment (src dst : SockAddr) (g : Segment) (now : Word)
  | tick (route : ℕ → Route) (now : Word)

def Table.onFile (t : Table) (i : ℕ) (f : SockId → Option Table) : Option Table :=
  match t.files[i]? with
  | some file => if file.ref=0 then none else f file.sock
  | none => none

def step (t : Table) : Action → Option Table
  | .socket family type protocol bufs file fd route now =>
    some (sysSocket t family type protocol bufs file fd route now)
  | .socketpair bufsA bufsB fileA fileB fdA fdB copy route now =>
    some (sysSocketpair t bufsA bufsB fileA fileB fdA fdB copy route now)
  | .bindUnix i path => t.onFile i fun x =>
    if (t.sock x).family=.unix then some (bindUnix t x path) else none
  | .bindInet i family addr => t.onFile i fun x =>
    if (t.sock x).family=.unix then none else some (bindInet t x family addr)
  | .listen i backlog => t.onFile i fun x => some (sysListen t x backlog)
  | .connectUnix i path bufs => t.onFile i fun x =>
    if (t.sock x).family=.unix then some (connectUnix t x path bufs) else none
  | .connectInet i dst route src port iss iss' now bufs => t.onFile i fun x =>
    if (t.sock x).family=.unix then none
    else some (connectInet t x dst route src port iss iss' now bufs)
  | .connectTimeout i => t.onFile i fun x => some (t.modify x tcpConnectTimeout)
  | .accept i file fd route now => t.onFile i fun x => sysAccept t x file fd route now
  | .dup i => match t.files[i]? with
    | some f => if f.ref=0 then none else some { t with files := t.files.set i {f with ref := f.ref+1} }
    | none => none
  | .shutdown i how route now => t.onFile i fun x => some (sysShutdown t x how route now)
  | .close i route now => match t.files[i]? with
    | some f => if f.ref=0 then none else some (fileclose t i route now)
    | none => none
  | .send x payload page now =>
    if (t.sock x).ref=0 then none else some (t.modify x fun s => (tcpOutput s payload page now).sock)
  | .segment src dst g now => some (tcpArrive t src dst g now)
  | .tick route now => some ((finRange nsocket).foldl (slowtimoTurn route now) t)

def zeroTcpcb : Tcpcb := ⟨.closed,0,0,0,0,0,0,0,0,0,0,none,0,0,0,0,false⟩

/-- `socket.c:288-301`. -/
def socketInit : Table where
  sock := fun _ => ⟨.closed,.none,.unspec,⟨0,0⟩,⟨0,0⟩,[],none,0,zeroTcpcb,none,0,[],0,false,false,false⟩
  files := []
  gen := fun _ => 0
  links := []

end Auxv6.Net.Sockets

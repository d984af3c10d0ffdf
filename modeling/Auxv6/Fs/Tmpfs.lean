import Mathlib.Data.Finset.Basic
import Mathlib.Logic.Function.Basic
import Mathlib.Tactic

/-!
# tmpfs (fs/vfs_tmpfs.c) and the calls on it (core/sysfile.c, fs/fs.c)

One mounted tmpfs: its nodes, named by their addresses, the directory lists with their hash chains, the
page lists, the quota, and the inodes of `icache` for this device. What `kalloc`, `iaccess`, `filealloc`
and `copyin` answer is an argument. Owner, mode, device numbers and locks are left out, and `iget` finds a
slot. Beside it stands the list of inode numbers that open files and working directories hold.
-/

namespace Auxv6.Fs.Tmpfs

open Function

abbrev Byte := UInt8
abbrev Name := List Byte
abbrev NodeId := ℕ

def slash : Byte := 47
def dot : Byte := 46
def nameMax : ℕ := 256
def pageSize : ℕ := 4096
def word (n : ℕ) : ℕ := n%2^32
def short (n : ℤ) : ℤ := n.bmod (2^16)

inductive FileType where
  | dir | file | dev | symlink
  deriving DecidableEq

structure Dirent where
  name : Name
  node : NodeId
  deriving DecidableEq

structure Page where
  index : ℕ
  data : ℕ → Byte

structure Node where
  inum : ℕ
  type : FileType
  nlink : ℤ
  size : ℕ
  parent : NodeId
  children : List Dirent
  hash : Fin 32 → List Dirent
  pages : List Page
  symlink : List Byte

structure Inode where
  ref : ℕ
  valid : Bool
  type : FileType
  nlink : ℤ
  size : ℕ
  node : Option NodeId

structure Mount where
  maxBytes : ℕ
  usedBytes : ℕ
  nextInum : ℕ
  root : NodeId
  live : Finset NodeId
  node : NodeId → Node
  cache : ℕ → Inode

def Mount.modify (fs : Mount) (p : NodeId) (f : Node → Node) : Mount :=
  {fs with node := update fs.node p (f (fs.node p))}
def Mount.modifyInode (fs : Mount) (i : ℕ) (f : Inode → Inode) : Mount :=
  {fs with cache := update fs.cache i (f (fs.cache i))}

/-! ### Directories -/

/-- `tmpfs_name_hash`, with the mask its callers apply (`vfs_tmpfs.c:212-224`). -/
def nameHash (name : Name) : Fin 32 :=
  Fin.ofNat 32 (name.foldl (fun h c => (h ^^^ c.toUInt32)*16777619) (2166136261 : UInt32)).toNat

/-- `vfs_tmpfs.c:196-210`. -/
def direntLookup (dir : Node) (name : Name) : Option Dirent := (dir.hash (nameHash name)).find? fun de => de.name=name

def Node.addDirent (dir : Node) (de : Dirent) : Node :=
  { dir with
    hash := update dir.hash (nameHash de.name) (de::dir.hash (nameHash de.name))
    children := de::dir.children }
def Node.removeDirent (dir : Node) (name : Name) : Node :=
  { dir with
    hash := update dir.hash (nameHash name) ((dir.hash (nameHash name)).eraseP fun de => de.name=name)
    children := dir.children.eraseP fun de => de.name=name }

/-- `vfs_tmpfs.c:226-253`. -/
def direntAdd (fs : Mount) (dir : NodeId) (name : Name) (node : NodeId) (page : Bool) : Option Mount :=
  if name.length=0 ∨ name.length > nameMax then none
  else if (direntLookup (fs.node dir) name).isSome then none
  else if page=false then none
  else some (fs.modify dir fun d => d.addDirent ⟨name,node⟩)

/-- `vfs_tmpfs.c:255-298`. -/
def direntRemove (fs : Mount) (dir : NodeId) (name : Name) : Option (NodeId × Mount) :=
  match direntLookup (fs.node dir) name with
  | none => none
  | some _ =>
    match (fs.node dir).children.find? fun de => de.name=name with
    | none => none
    | some de => some (de.node,fs.modify dir fun d => d.removeDirent name)

/-! ### Nodes and inodes -/

/-- `vfs_tmpfs.c:148-171`. -/
def allocNode (fs : Mount) (type : FileType) (parent : NodeId) (page : Option NodeId) :
    Option (NodeId × Mount) :=
  match page with
  | none => none
  | some p => some (p,{ fs with
      nextInum := word (fs.nextInum+1)
      live := insert p fs.live
      node := update fs.node p ⟨fs.nextInum,type,1,0,parent,[],fun _ => [],[],[]⟩ })

/-- `vfs_tmpfs.c:173-194`. -/
def freeNode (fs : Mount) (p : NodeId) : Mount := {fs with live := fs.live.erase p}

/-- `vfs_tmpfs.c:117-146`. -/
def makeInode (fs : Mount) (p : NodeId) : Mount :=
  let nd:=fs.node p
  fs.modifyInode nd.inum fun ip =>
    { ref := ip.ref+1,valid := true,type := nd.type,nlink := nd.nlink,size := nd.size,node := some p }

/-- `vfs_tmpfs.c:766-788`. -/
def drop (fs : Mount) (i : ℕ) : Mount :=
  match (fs.cache i).node with
  | none => fs
  | some p =>
    let nd:=fs.node p
    let fs:=if (nd.type=.file ∨ nd.type=.symlink) ∧ nd.size > 0 ∧ fs.usedBytes ≥ nd.size then
        {fs with usedBytes := fs.usedBytes-nd.size} else fs
    (freeNode fs p).modifyInode i fun ip => {ip with node := none}

/-- `fs.c:464-497`. -/
def iput (fs : Mount) (i : ℕ) : Mount :=
  let ip:=fs.cache i
  let fs:=if ip.valid ∧ ip.nlink=0 ∧ ip.ref=1 then
      (drop fs i).modifyInode i fun ip => {ip with valid := false} else fs
  fs.modifyInode i fun ip => {ip with ref := ip.ref-1}

/-! ### File contents -/

def pageLookup (pages : List Page) (index : ℕ) : Option Page := pages.find? fun pg => pg.index=index

/-- `vfs_tmpfs.c:472-504`. -/
def pageGet (pages : List Page) (index : ℕ) (alloc : Bool) : Option (List Page) :=
  match pageLookup pages index with
  | some _ => some pages
  | none => if alloc then some (⟨index,fun _ => 0⟩::pages) else none

def putBytes : List Page → ℕ → ℕ → List Byte → List Page
  | [], _, _, _ => []
  | pg::pages, index, off, src =>
    if pg.index=index then
      {pg with data := fun k => if off≤k ∧ k<off+src.length then src.getD (k-off) 0 else pg.data k}
        :: pages
    else pg::putBytes pages index off src

/-- The loop of `tmpfs_write_pages` (`vfs_tmpfs.c:388-409`); `alloc` and `copied` say for the
turn that starts at `done` whether a page can be had and how many bytes `copyin` copies. -/
def writeLoop (off : ℕ) (src : List Byte) (alloc : ℕ → Bool) (copied : ℕ → ℕ) :
    ℕ → ℕ → List Page → Bool × List Page
  | 0, _, pages => (true,pages)
  | fuel+1, done, pages =>
    if done<src.length then
      let pos:=word (off+done)
      let index:=pos/pageSize
      let pageOff:=pos%pageSize
      let chunk:=min (pageSize-pageOff) (src.length-done)
      match pageGet pages index (alloc done) with
      | none => (false,pages)
      | some pages =>
        let data:=(src.drop done).take (min chunk (copied done))
        let pages:=putBytes pages index pageOff data
        if copied done<chunk then (false,pages)
        else writeLoop off src alloc copied fuel (done+chunk) pages
    else (true,pages)

/-- `vfs_tmpfs.c:360-415`. -/
def writePages (fs : Mount) (p : NodeId) (src : List Byte) (off : ℕ) (alloc : ℕ → Bool)
    (copied : ℕ → ℕ) : Bool × Mount :=
  let size:=(fs.node p).size
  let newSize:=word (off+src.length)
  if newSize > size ∧ word (fs.usedBytes+(newSize-size)) > fs.maxBytes then (false,fs)
  else
    match writeLoop off src alloc copied src.length 0 (fs.node p).pages with
    | (false,pages) => (false,fs.modify p fun nd => {nd with pages := pages})
    | (true,pages) =>
      let fs:=fs.modify p fun nd => {nd with pages := pages}
      if newSize > size then
        (true,{ fs.modify p fun nd => {nd with size := newSize} with
          usedBytes := word (fs.usedBytes+(newSize-size)) })
      else (true,fs)

/-- The loop of `tmpfs_read_pages` (`vfs_tmpfs.c:327-355`): the bytes delivered. A page that is
not there reads as zeros. -/
def readLoop (pages : List Page) (off n : ℕ) : ℕ → ℕ → List Byte
  | 0, _ => []
  | fuel+1, done =>
    if done<n then
      let pos:=word (off+done)
      let pageOff:=pos%pageSize
      let chunk:=min (pageSize-pageOff) (n-done)
      let data:=match pageLookup pages (pos/pageSize) with
        | none => List.replicate chunk 0
        | some pg => (List.range' pageOff chunk).map pg.data
      data++readLoop pages off n fuel (done+chunk)
    else []

/-- `tmpfs_read_pages` (`vfs_tmpfs.c:306-358`), with a destination that can be written. -/
def readPages (nd : Node) (off n : ℕ) : List Byte :=
  if nd.size≤off then []
  else
    let n:=if word (off+n) > nd.size then nd.size-off else n
    readLoop nd.pages off n n 0

/-- `vfs_tmpfs.c:417-456`. -/
def truncateNode (fs : Mount) (p : NodeId) (size : ℕ) : Mount :=
  let old:=(fs.node p).size
  if size ≥ old then fs
  else
    let needPages:=word (size+pageSize-1)/pageSize
    { fs.modify p fun nd =>
        {nd with pages := nd.pages.filter (fun pg => pg.index<needPages),size := size} with
      usedBytes := word (fs.usedBytes+2^32-(old-size)) }

/-! ### Vnode operations -/

/-- `vfs_tmpfs.c:719-741`. -/
def tmpfsWrite (fs : Mount) (i : ℕ) (src : List Byte) (off : ℕ) (alloc : ℕ → Bool) (copied : ℕ → ℕ) : Mount :=
  match (fs.cache i).node with
  | none => fs
  | some p =>
    if (fs.node p).type≠.file then fs
    else match writePages fs p src off alloc copied with
      | (false,fs) => fs
      | (true,fs) => fs.modifyInode i fun ip => {ip with size := (fs.node p).size}

/-- `vfs_tmpfs.c:743-764`; `none` is a failure. -/
def tmpfsTruncate (fs : Mount) (i : ℕ) : Option Mount :=
  match (fs.cache i).node with
  | none => none
  | some p =>
    if (fs.node p).type≠.file then none
    else some ((truncateNode fs p 0).modifyInode i fun ip => {ip with size := 0})

/-- `vfs_tmpfs.c:833-876`. -/
def tmpfsDirlookup (fs : Mount) (dp : ℕ) (name : Name) : Option (ℕ × Mount) :=
  match (fs.cache dp).node with
  | none => none
  | some d =>
    if (fs.node d).type≠.dir then none
    else if name=[dot] then
      some (dp,fs.modifyInode dp fun ip => {ip with ref := ip.ref+1})
    else if name=[dot,dot] then
      let p:=(fs.node d).parent
      some ((fs.node p).inum,makeInode fs p)
    else match direntLookup (fs.node d) name with
      | none => none
      | some de => some ((fs.node de.node).inum,makeInode fs de.node)

/-- `vfs_tmpfs.c:909-929`. -/
def tmpfsLink (fs : Mount) (ip dp : ℕ) (name : Name) (page : Bool) : Option Mount :=
  match (fs.cache ip).node, (fs.cache dp).node with
  | some p, some d =>
    if (fs.node d).type≠.dir then none
    else match direntAdd fs d name p page with
      | none => none
      | some fs =>
        let fs:=fs.modify p fun nd => {nd with nlink := short (nd.nlink+1)}
        some (fs.modifyInode ip fun c => {c with nlink := (fs.node p).nlink})
  | _, _ => none

abbrev Node.decLink (nd : Node) : Node := {nd with nlink := short (nd.nlink-1)}

/-- A name of the node is gone: `nlink--`, and the inode is put (`vfs_tmpfs.c:958-965`,
`1008-1016`). -/
def unlinkNode (fs : Mount) (p : NodeId) : Mount :=
  let fs:=fs.modify p Node.decLink
  iput (makeInode fs p) (fs.node p).inum

/-- `vfs_tmpfs.c:931-967`. -/
def tmpfsRemove (fs : Mount) (dp : ℕ) (name : Name) : Option Mount :=
  match (fs.cache dp).node with
  | none => none
  | some d =>
    if (fs.node d).type≠.dir then none
    else match direntLookup (fs.node d) name with
      | none => none
      | some de =>
        if (fs.node de.node).type=.dir ∧ (fs.node de.node).children≠[] then none
        else match direntRemove fs d name with
          | none => none
          | some (p,fs) => some (unlinkNode fs p)

def restore (fs : Mount) (srcdir : NodeId) (oldname : Name) (p : NodeId) (page : Bool) : Mount :=
  (direntAdd fs srcdir oldname p page).getD fs

/-- The end of `tmpfs_rename`: the entry at its new place (`vfs_tmpfs.c:1019-1025`). -/
def attach (fs : Mount) (srcdir dstdir : NodeId) (oldname newname : Name) (p : NodeId)
    (page page' : Bool) : Mount :=
  match direntAdd fs dstdir newname p page with
  | none => restore fs srcdir oldname p page'
  | some fs => fs.modify p fun nd => {nd with parent := dstdir}

/-- `vfs_tmpfs.c:969-1026`. It does not look at the type of the directories,
nor whether the new one lies below what is moved. -/
def tmpfsRename (fs : Mount) (olddp : ℕ) (oldname : Name) (newdp : ℕ) (newname : Name)
    (page page' : Bool) : Mount :=
  if olddp=newdp ∧ oldname=newname then fs
  else match (fs.cache olddp).node, (fs.cache newdp).node with
    | some srcdir, some dstdir =>
      match direntRemove fs srcdir oldname with
      | none => fs
      | some (p,fs) =>
        match direntLookup (fs.node dstdir) newname with
        | none => attach fs srcdir dstdir oldname newname p page page'
        | some exist =>
          if (fs.node exist.node).type=.dir ∨ (fs.node p).type=.dir then
            restore fs srcdir oldname p page'
          else match direntRemove fs dstdir newname with
            | none => attach fs srcdir dstdir oldname newname p page page'
            | some (replace,fs) =>
              attach (unlinkNode fs replace) srcdir dstdir oldname newname p page page'
    | _, _ => fs

/-- `vfs_tmpfs.c:1028-1074`; `none` is a failure. -/
def tmpfsCreate (fs : Mount) (dp : ℕ) (name : Name) (type : FileType) (page : Option NodeId)
    (dirPage : Bool) : Option ℕ × Mount :=
  match (fs.cache dp).node with
  | none => (none,fs)
  | some d =>
    if (fs.node d).type≠.dir then (none,fs)
    else match allocNode fs type d page with
      | none => (none,fs)
      | some (p,fs) =>
        match direntAdd fs d name p dirPage with
        | none => (none,freeNode fs p)
        | some fs => (some (fs.node p).inum,makeInode fs p)

/-- `vfs_tmpfs.c:1096-1145`. -/
def tmpfsSymlink (fs : Mount) (dp : ℕ) (name : Name) (target : List Byte) (page : Option NodeId)
    (text dirPage : Bool) : Mount :=
  match (fs.cache dp).node with
  | none => fs
  | some d =>
    if (fs.node d).type≠.dir then fs
    else if target.length=0 then fs
    else if word (fs.usedBytes+target.length) > fs.maxBytes then fs
    else match allocNode fs .symlink d page with
      | none => fs
      | some (p,fs) =>
        if text=false then freeNode fs p
        else
          let target:=target.take (pageSize-1)
          let fs:={ fs.modify p fun nd => {nd with symlink := target,size := target.length} with
            usedBytes := word (fs.usedBytes+target.length) }
          match direntAdd fs d name p dirPage with
          | none => freeNode {fs with usedBytes := word (fs.usedBytes+2^32-target.length)} p
          | some fs => fs

/-! ### Paths -/

/-- The loop of `tmpfs_walk` (`vfs_tmpfs.c:592-640`) from a node; `up` is what `..` leads to. A
turn takes a name off the path, and the fuel is its length. -/
def walkLoop (fs : Mount) (up : NodeId → Option NodeId) (parent : Bool) :
    ℕ → NodeId → List Byte → Option (NodeId × Name)
  | 0, p, _ => if parent then none else some (p,[])
  | fuel+1, p, path =>
    match path.dropWhile (· = slash) with
    | [] => if parent then none else some (p,[])
    | c::path' =>
      let elem:=(c::path').takeWhile (· ≠ slash)
      let rest:=(c::path').dropWhile (· ≠ slash)
      if elem.length > nameMax then none
      else if parent ∧ rest.dropWhile (· = slash)=[] then some (p,elem)
      else if elem=[dot] then walkLoop fs up parent fuel p rest
      else if elem=[dot,dot] then
        match up p with
        | none => none
        | some q => walkLoop fs up parent fuel q rest
      else if (fs.node p).type≠.dir then none
      else match direntLookup (fs.node p) elem with
        | none => none
        | some de => walkLoop fs up parent fuel de.node rest

def Mount.up (fs : Mount) (p : NodeId) : Option NodeId := some (fs.node p).parent

/-- `vfs_tmpfs.c:572-648`, up to `tmpfs_make_inode`. -/
def tmpfsWalk (fs : Mount) (path : List Byte) (parent : Bool) : Option (NodeId × Name) :=
  walkLoop fs fs.up parent path.length fs.root path

def resolve (fs : Mount) (path : List Byte) : Option (ℕ × Mount) :=
  (tmpfsWalk fs path false).map fun r => ((fs.node r.1).inum,makeInode fs r.1)
def resolveParent (fs : Mount) (path : List Byte) : Option (ℕ × Name × Mount) :=
  (tmpfsWalk fs path true).map fun r => ((fs.node r.1).inum,r.2,makeInode fs r.1)

/-! ### System calls -/

/-- `sysfile.c:1477-1567`. -/
def create (fs : Mount) (path : List Byte) (type : FileType) (page : Option NodeId) (dirPage : Bool) :
    Option ℕ × Mount :=
  match resolveParent fs path with
  | none => (none,fs)
  | some (dp,name,fs) =>
    match tmpfsDirlookup fs dp name with
    | some (ip,fs) =>
      let fs:=iput fs dp
      if type=.file ∧ (fs.cache ip).type=.file then (some ip,fs) else (none,iput fs ip)
    | none =>
      match tmpfsCreate fs dp name type page dirPage with
      | (r,fs) => (r,iput fs dp)

/-- `sys_mkdir` and `sys_mknod` (`sysfile.c:1729-1776`). -/
def sysMkdir (fs : Mount) (path : List Byte) (type : FileType) (page : Option NodeId) (dirPage : Bool) :
    Mount :=
  match create fs path type page dirPage with
  | (none,fs) => fs
  | (some ip,fs) => iput fs ip

/-- The inode that `sys_open` goes on with (`sysfile.c:1597-1632`); `target` is the path that
`vfs_lookup_follow` ends with. -/
def openInode (fs : Mount) (path : List Byte) (target : Option (List Byte)) (creat : Bool)
    (page : Option NodeId) (dirPage : Bool) : Option ℕ × Mount :=
  match target.bind (resolve fs) with
  | some (ip,fs) => (some ip,fs)
  | none => if creat then create fs path .file page dirPage else (none,fs)

/-- `sysfile.c:1570-1727`; `write` and `rdonly` say whether the mode asks for writing and whether it is `O_RDONLY`.
The inode of a successful call stays referenced. -/
def sysOpen (fs : Mount) (path : List Byte) (target : Option (List Byte))
    (creat trunc write rdonly access file : Bool) (page : Option NodeId) (dirPage : Bool) :
    Option ℕ × Mount :=
  match openInode fs path target creat page dirPage with
  | (none,fs) => (none,fs)
  | (some ip,fs) =>
    if access=false then (none,iput fs ip)
    else if creat=false ∧ (fs.cache ip).type=.dir ∧ rdonly=false then (none,iput fs ip)
    else if file=false then (none,iput fs ip)
    else if trunc ∧ write then
      match tmpfsTruncate fs ip with
      | none => (none,iput fs ip)
      | some fs => (some ip,fs)
    else (some ip,fs)

/-- `sysfile.c:1189-1266`. -/
def sysLink (fs : Mount) (old new : List Byte) (access page : Bool) : Mount :=
  match resolve fs old with
  | none => fs
  | some (ip,fs) =>
    if (fs.cache ip).type=.dir then iput fs ip
    else match resolveParent fs new with
      | none => iput fs ip
      | some (dp,name,fs) =>
        if access=false then iput (iput fs dp) ip
        else match tmpfsLink fs ip dp name page with
          | none => iput (iput fs dp) ip
          | some fs => iput (iput fs dp) ip

/-- `sysfile.c:3217-3256`. -/
def sysSymlink (fs : Mount) (target path : List Byte) (page : Option NodeId) (text dirPage : Bool) : Mount :=
  match resolveParent fs path with
  | none => fs
  | some (dp,name,fs) => iput (tmpfsSymlink fs dp name target page text dirPage) dp

/-- `sysfile.c:1373-1448`: `sys_unlink` and `sys_rmdir`; `none` is its panic. A
tmpfs directory has size 0, so `isdirempty` answers 1. -/
def removePath (fs : Mount) (path : List Byte) (dironly access : Bool) : Option Mount :=
  match resolveParent fs path with
  | none => some fs
  | some (dp,name,fs) =>
    if access=false then some (iput fs dp)
    else if name=[dot] ∨ name=[dot,dot] then some (iput fs dp)
    else match tmpfsDirlookup fs dp name with
      | none => some (iput fs dp)
      | some (ip,fs) =>
        if (fs.cache ip).nlink<1 then none
        else if dironly≠decide ((fs.cache ip).type=.dir) then some (iput (iput fs ip) dp)
        else
          let fs:=iput fs ip
          match tmpfsRemove fs dp name with
          | none => some (iput fs dp)
          | some fs => some (iput fs dp)

/-- `sysfile.c:1268-1355`. Both lookups take a reference; where they end in one
directory, only one is put. -/
def sysRename (fs : Mount) (old new : List Byte) (access page page' : Bool) : Mount :=
  if old=new then fs
  else match resolveParent fs old with
    | none => fs
    | some (olddp,oldname,fs) =>
      match resolveParent fs new with
      | none => iput fs olddp
      | some (newdp,newname,fs) =>
        if oldname=[dot] ∨ oldname=[dot,dot] ∨ newname=[dot] ∨ newname=[dot,dot] then
          iput (iput fs olddp) newdp
        else if olddp=newdp then
          if access=false then iput fs olddp
          else iput (tmpfsRename fs olddp oldname olddp newname page page') olddp
        else
          let first:=if newdp<olddp then newdp else olddp
          let second:=if newdp<olddp then olddp else newdp
          if access=false then iput (iput fs second) first
          else iput (iput (tmpfsRename fs olddp oldname newdp newname page page') second) first

/-- `sysfile.c:2911-2966` to length `len`. -/
def sysTruncate (fs : Mount) (path : List Byte) (len : ℕ) (access : Bool) : Mount :=
  match resolve fs path with
  | none => fs
  | some (ip,fs) =>
    if access=false then iput fs ip
    else if len=(fs.cache ip).size then iput fs ip
    else if len≠0 then iput fs ip
    else match tmpfsTruncate fs ip with
      | none => iput fs ip
      | some fs => iput fs ip

/-- `sysfile.c:2968-3019`. -/
def sysFtruncate (fs : Mount) (ip len : ℕ) (access : Bool) : Mount :=
  if access=false ∨ len=(fs.cache ip).size ∨ len≠0 then fs
  else (tmpfsTruncate fs ip).getD fs

structure Sys where
  fs : Mount
  held : List ℕ

inductive Action where
  | openFile (path : List Byte) (target : Option (List Byte))
      (creat trunc write rdonly access file : Bool) (page : Option NodeId) (dirPage : Bool)
  | mkdir (path : List Byte) (type : FileType) (page : Option NodeId) (dirPage : Bool)
  | link (old new : List Byte) (access page : Bool)
  | symlink (target path : List Byte) (page : Option NodeId) (text dirPage : Bool)
  | remove (path : List Byte) (dironly access : Bool)
  | rename (old new : List Byte) (access page page' : Bool)
  | truncate (path : List Byte) (len : ℕ) (access : Bool)
  | ftruncate (i len : ℕ) (access : Bool)
  | write (i : ℕ) (src : List Byte) (off : ℕ) (alloc : ℕ → Bool) (copied : ℕ → ℕ)
  | close (i : ℕ)

def Mount.spare (fs : Mount) (page : Option NodeId) : Bool := ∀ p∈page,p∉fs.live

def step (s : Sys) : Action → Option Sys
  | .openFile path target creat trunc write rdonly access file page dirPage =>
    if s.fs.spare page=false then none
    else match sysOpen s.fs path target creat trunc write rdonly access file page dirPage with
      | (none,fs) => some {s with fs := fs}
      | (some ip,fs) => some ⟨fs,ip::s.held⟩
  | .mkdir path type page dirPage =>
    if s.fs.spare page=false ∨ type=.file ∨ type=.symlink then none
    else some {s with fs := sysMkdir s.fs path type page dirPage}
  | .link old new access page => some {s with fs := sysLink s.fs old new access page}
  | .symlink target path page text dirPage =>
    if s.fs.spare page=false then none
    else some {s with fs := sysSymlink s.fs target path page text dirPage}
  | .remove path dironly access =>
    (removePath s.fs path dironly access).map fun fs => {s with fs := fs}
  | .rename old new access page page' =>
    some {s with fs := sysRename s.fs old new access page page'}
  | .truncate path len access => some {s with fs := sysTruncate s.fs path len access}
  | .ftruncate i len access =>
    if i∈s.held then some {s with fs := sysFtruncate s.fs i len access} else none
  | .write i src off alloc copied =>
    if i∈s.held then some {s with fs := tmpfsWrite s.fs i src off alloc copied} else none
  | .close i => if i∈s.held then some ⟨iput s.fs i,s.held.erase i⟩ else none

/-! ### Mounting -/

/-- `vfs_tmpfs.c:529-556`. -/
def parseSize (data : List Byte) : Option ℕ :=
  if data.take 5≠[115,105,122,101,61] ∨ data.drop 5=[] then none
  else
    let digits:=data.drop 5
    if digits.any fun c => c<48 ∨ 57<c then none
    else
      let value:=digits.foldl (fun v c => word (v*10+(c.toNat-48))) 0
      if value=0 then none else some value

/-- `tmpfs_mount_init` (`vfs_tmpfs.c:1147-1180`), on a device none of whose inodes is referenced. -/
def mountInit (data : List Byte) (page : Option NodeId) : Option Sys :=
  match parseSize data, page with
  | some size, some root =>
    some ⟨{ maxBytes := size,usedBytes := 0,nextInum := 2,root := root,live := {root}
            node := fun _ => ⟨1,.dir,1,0,root,[],fun _ => [],[],[]⟩
            cache := fun _ => ⟨0,false,.dir,0,0,none⟩ },[]⟩
  | _, _ => none

end Auxv6.Fs.Tmpfs

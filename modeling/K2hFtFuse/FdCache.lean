import Mathlib.Data.List.Lex
import K2hFtFuse.Lib.ByteSeq
import K2hFtFuse.Lib.OpenFiles
import K2hFtFuse.Lib.Transition

/-!
# FdCache — the cache of output files that are open

`K2hFtFdCache` keeps the output files open that lines are written to. Callers of `Write` and `Register`
put files into the cache; the worker thread watches them with inotify and takes a file out that is
moved or removed. A step is what happens between two operations on `lockval`, or one call of the kernel
outside the lock. The answers of the kernel (descriptor numbers, watch numbers, failures) come with
the step; other programs make, rename and remove files in between.

The worker holds `lockval` while it adds watches. Everything else under the lock is one step.

Of the libfullock library, `FLCK_CLOSE` is taken to close its number if it is valid, and
`fullock_rwlock_wrlock` and `fullock_rwlock_unlock` to keep one writer at a time on a file.
-/

namespace K2hFtFuse

open ByteSeq

/-! ## The cache -/

/-- For whom a descriptor of the process is open: something outside the cache, the epoll set, the
signals of the worker, an entry of the cache for its file and for its watch, a call that opened the
file by itself. -/
inductive FdHolder
  | foreign (n : Nat)
  | epoll
  | signal
  | opened (path : Bytes)
  | inotify (path : Bytes)
  | direct (call : Nat)
  deriving DecidableEq

/-- What was written to a file: by which call, and the bytes of one `write`. -/
abbrev FdKernel := Kernel Bytes (Nat × Bytes) FdHolder

/-- `K2HFTFW`, with the invalid handle as `none`. No two of them have the same `id`, so a call that
holds a pointer knows its object by it. -/
structure K2hFtFw where
  id : Nat
  filepath : Bytes
  inotify_fd : Option Nat
  watch_fd : Option Nat
  opened_fd : Option Nat
  st_dev : Nat
  st_ino : Nat
  deriving DecidableEq

/-- The members of `K2hFtFdCache` under `lockval`, and the kernel that its methods call. -/
structure K2hFtFdCache where
  kernel : FdKernel
  epollfd : Option Nat
  curfwmap : OrdMap Bytes K2hFtFw
  nextId : Nat

/-- The answers of `open` and `fstat`; a file that `open` makes gets `new`. -/
structure OpenAnswer where
  fd : Option Nat
  new : NewFile
  fstat : Bool

/-- How `inotify_init1`, `inotify_add_watch` and `epoll_ctl` answer `AddFileWatchEpoll`. -/
inductive AddAnswer
  | noInotify
  | noWatch (inotify_fd : Nat)
  | noEpoll (inotify_fd watch_fd : Nat)
  | added (inotify_fd watch_fd : Nat)

/-- `K2HFT_CLOSE`. -/
def closeFd (k : FdKernel) : Option Nat → FdKernel
  | none => k
  | some fd => k.close fd

namespace K2hFtFdCache

/-- `open` of an output file, then `st_dev` and `st_ino` of what was opened: 0 where `fstat`
fails. -/
def openOutput (kernel : FdKernel) (holder : FdHolder) (filepath : Bytes) (fd : Nat)
    (answer : OpenAnswer) : Option (FdKernel × Nat × Nat) :=
  (kernel.openFile holder filepath fd answer.new).map fun kernel =>
    (kernel, if answer.fstat then (kernel.fstat fd).getD (0, 0) else (0, 0))

/-- `GetFileWatch` under the lock: the entry, or NULL. There is no step where the kernel cannot answer
so. -/
def getFileWatch (answer : OpenAnswer) (filepath : Bytes) (c : K2hFtFdCache) :
    Option (K2hFtFdCache × Option Nat) :=
  if filepath = [] then
    some (c, none)
  else
    match c.curfwmap.find? filepath with
    | some pfw =>
        match pfw.opened_fd with
        | some _ => some (c, some pfw.id)
        | none =>
            -- the entry is there and its file is not open
            match answer.fd with
            | none => some (c, none)
            | some fd =>
                (openOutput c.kernel (.opened filepath) pfw.filepath fd answer).map fun r =>
                  ({ c with
                      kernel := r.1
                      curfwmap := c.curfwmap.insert filepath
                        { pfw with
                          opened_fd := some fd
                          st_dev := r.2.1
                          st_ino := r.2.2 } },
                    some pfw.id)
    | none =>
        match answer.fd with
        | none => some (c, none)
        | some fd =>
            (openOutput c.kernel (.opened filepath) filepath fd answer).map fun r =>
              ({ c with
                  kernel := r.1
                  nextId := c.nextId + 1
                  curfwmap := c.curfwmap.insert filepath
                    { id := c.nextId
                      filepath := filepath
                      inotify_fd := none
                      watch_fd := none
                      opened_fd := some fd
                      st_dev := r.2.1
                      st_ino := r.2.2 } },
                some c.nextId)

/-- `AddFileWatchEpoll` for the entry of a path. -/
def addFileWatchEpoll (answer : AddAnswer) (path : Bytes) (c : K2hFtFdCache) :
    Option K2hFtFdCache :=
  match c.curfwmap.find? path with
  | none => some c
  | some pfw =>
      if c.epollfd = none then
        some c
      else if pfw.inotify_fd ≠ none then
        -- the file is watched already
        some c
      else
        match answer with
        | .noInotify => some c
        | .noWatch inotify_fd => do
            let kernel ← c.kernel.newDescriptor (.inotify path) (.watcher .fresh) inotify_fd
            return { c with kernel := kernel.close inotify_fd }
        | .noEpoll inotify_fd watch_fd => do
            let kernel ← c.kernel.newDescriptor (.inotify path) (.watcher .fresh) inotify_fd
            let kernel ← kernel.addWatch inotify_fd watch_fd pfw.filepath
            -- the number of the watch is closed like a descriptor
            return { c with
              kernel := ((kernel.rmWatch inotify_fd watch_fd).close watch_fd).close inotify_fd }
        | .added inotify_fd watch_fd => do
            let kernel ← c.kernel.newDescriptor (.inotify path) (.watcher .fresh) inotify_fd
            let kernel ← kernel.addWatch inotify_fd watch_fd pfw.filepath
            return { c with
              kernel := kernel.arm inotify_fd
              curfwmap := c.curfwmap.insert path
                { pfw with
                  inotify_fd := some inotify_fd
                  watch_fd := some watch_fd } }

/-- `DeleteFileWatchEpoll` before it closes anything. -/
def removeWatch (c : K2hFtFdCache) (pfw : K2hFtFw) : FdKernel :=
  match pfw.inotify_fd with
  | none => c.kernel
  | some inotify_fd =>
      let kernel := if c.epollfd = none then c.kernel else c.kernel.disarm inotify_fd
      match pfw.watch_fd with
      | none => kernel
      | some watch_fd => kernel.rmWatch inotify_fd watch_fd

/-- `DeleteFileWatchEpoll`: `watch_fd` is closed as well, though it is not a descriptor. -/
def deleteFileWatchEpoll (c : K2hFtFdCache) (pfw : K2hFtFw) : FdKernel :=
  closeFd (closeFd (closeFd (c.removeWatch pfw) pfw.watch_fd) pfw.inotify_fd) pfw.opened_fd

/-- An entry is deleted and leaves the map. -/
def removeEntry (c : K2hFtFdCache) (entry : Bytes × K2hFtFw) : K2hFtFdCache :=
  { c with
    kernel := c.deleteFileWatchEpoll entry.2
    curfwmap := c.curfwmap.erase entry.1 }

/-- The search of `DeleteFileWatch` and `CheckRemoveFileWatch`. -/
def findInotify (c : K2hFtFdCache) (inotifyfd : Nat) : Option (Bytes × K2hFtFw) :=
  c.curfwmap.entries.find? fun entry => entry.2.inotify_fd = some inotifyfd

/-- `DeleteFileWatch`. -/
def deleteFileWatch (inotifyfd : Nat) (c : K2hFtFdCache) : K2hFtFdCache :=
  match c.findInotify inotifyfd with
  | none => c
  | some entry => c.removeEntry entry

/-- `Find`. -/
def find (c : K2hFtFdCache) (filepath : Bytes) (st_dev st_ino : Nat) : Bool :=
  if filepath = [] then
    false
  else
    match c.curfwmap.find? filepath with
    | none => false
    | some pfw => pfw.st_dev == st_dev && pfw.st_ino == st_ino

/-- `Close` after the worker has ended. -/
def closeEntries (c : K2hFtFdCache) : K2hFtFdCache :=
  let c := c.curfwmap.entries.foldl removeEntry c
  { c with
    kernel := closeFd c.kernel c.epollfd
    epollfd := none }

end K2hFtFdCache

/-! ## The threads -/

/-- Where `WorkerThread` stands. `handling` goes through what `epoll_pwait` gave, with the signal as
`none`; `checking` and `stating` are the two halves of `CheckRemoveFileWatch`. -/
inductive WatchPhase
  | off
  | starting
  | loop
  | adding (todo : List Bytes)
  | waiting
  | handling (events : List (Option Nat))
  | checking (fd : Nat) (rest : List (Option Nat))
  | stating (path : Bytes) (id fd : Nat) (rest : List (Option Nat))
  | deleting (fd : Nat) (rest : List (Option Nat))
  | leaving
  | exited
  deriving DecidableEq

/-- The worker holds `lockval`. -/
def WatchPhase.locks : WatchPhase → Bool
  | .adding _ => true
  | _ => false

/-- Where a call of `Write` or `Register` stands: `GetFileWatch` gave it the entry or NULL, it has a
descriptor, it holds the lock of the file, it has written, it is done. `freed` is a call that has
looked into an entry that was deleted. -/
inductive CallPhase
  | got (id : Nat)
  | refused
  | ready (fd : Nat)
  | writing (fd : Nat) (rest : Bytes)
  | wrote (fd : Nat) (result : Bool)
  | done (result : Bool)
  | registered (st_dev st_ino : Nat)
  | freed
  deriving DecidableEq

/-- A call of `Write` with its data, or of `Register`. -/
structure FdCall where
  filepath : Bytes
  data : Option Bytes
  phase : CallPhase
  direct_fd : Option Nat
  deriving DecidableEq

/-- The cache, its threads, and the locks that `fullock_rwlock_wrlock` has given for files. -/
structure FdSystem where
  cache : K2hFtFdCache
  foreign : List Nat
  run_thread : Bool
  sigfd : Option Nat
  worker : WatchPhase
  calls : OrdMap Nat FdCall
  wrlocks : OrdMap Nat Nat

/-- The steps, with what the kernel answers. -/
inductive FdAction
  | init (fd : Nat)
  | start (fd : Nat) (registered : Bool)
  | startFails
  | loop
  | add (answer : AddAnswer)
  | wait (events : List (Option Nat))
  | waitFails
  | handle
  | check
  | stat (fails : Bool)
  | delete
  | leave
  | stop
  | close
  | call (c : Nat) (filepath : Bytes) (data : Option Bytes) (answer : OpenAnswer)
  | direct (c : Nat) (answer : OpenAnswer)
  | fetch (c : Nat)
  | lock (c : Nat)
  | write (c : Nat) (accepted : Option Nat)
  | unlock (c : Nat)
  | change (change : Kernel.Change Bytes)

/-- The events that a buffer of 4096 bytes has room for. -/
def INOTIFY_BUFF_EVENTS : Nat := 4096 / 16

/-- `WAIT_EVENT_MAX`. -/
def WAIT_EVENT_MAX : Nat := 32

namespace FdSystem

/-! ### The worker -/

/-- `epoll_pwait` can give an event: the signal, or a watcher that has something to report. -/
def canReport (s : FdSystem) : Option Nat → Bool
  | none => true
  | some fd => (s.cache.kernel.watcherOf fd).any fun w => w.armed && w.ready

/-- One round of `CheckInotifyEvents`: at most one buffer is read, and the first event in it decides that
is not of another kind. -/
def checkInotifyEvents (s : FdSystem) (fd : Nat) (rest : List (Option Nat)) : FdSystem :=
  match s.cache.kernel.watcherOf fd with
  | none => { s with worker := .handling rest }
  | some w =>
      if w.queue = [] then
        { s with worker := .handling rest }
      else
        { s with
          cache := { s.cache with kernel := s.cache.kernel.readEvents fd INOTIFY_BUFF_EVENTS }
          worker :=
            match (w.queue.take INOTIFY_BUFF_EVENTS).find? fun e => e != .other with
            | some .moved => .deleting fd rest
            | some .attrib => .checking fd rest
            | _ => .handling (some fd :: rest) }

/-- The second half of `CheckRemoveFileWatch`: the file of the path is gone, or is another one. -/
def isRemoved (s : FdSystem) (pfw : K2hFtFw) (fails : Bool) : Bool :=
  fails || s.cache.kernel.stat pfw.filepath != some (pfw.st_dev, pfw.st_ino)

/-- The entry that a pointer means, while it is there. -/
def deref (s : FdSystem) (path : Bytes) (id : Nat) : Option K2hFtFw :=
  (s.cache.curfwmap.find? path).filter fun pfw => pfw.id == id

/-! ### The callers -/

def setCall (s : FdSystem) (c : Nat) (call : FdCall) : FdSystem :=
  { s with calls := s.calls.insert c call }

/-- `Write` and `Register` with the entry that `GetFileWatch` gave. -/
def fetchFrom (call : FdCall) (pfw : Option K2hFtFw) : CallPhase :=
  match pfw, call.data with
  | none, _ => .freed
  | some pfw, none => .registered pfw.st_dev pfw.st_ino
  | some pfw, some data =>
      match pfw.opened_fd with
      | some fd => .ready fd
      -- neither the lock nor the writing gets anywhere
      | none => .done data.isEmpty

/-- `fullock_rwlock_wrlock` waits for the lock of the file; without a file it gives no lock, and the call
goes on. -/
def takeLock (s : FdSystem) (c fd : Nat) : Option (OrdMap Nat Nat) :=
  match s.cache.kernel.fileOf fd with
  | none => some s.wrlocks
  | some f => if s.wrlocks.find? f = none then some (s.wrlocks.insert f c) else none

/-- `fullock_rwlock_unlock`. -/
def releaseLock (s : FdSystem) (c fd : Nat) : OrdMap Nat Nat :=
  match s.cache.kernel.fileOf fd with
  | none => s.wrlocks
  | some f => if s.wrlocks.find? f = some c then s.wrlocks.erase f else s.wrlocks

/-- The end of `Write`. -/
def finish (s : FdSystem) (c : Nat) (call : FdCall) (fd : Nat) (result : Bool) : FdSystem :=
  { s with
    cache := { s.cache with kernel := closeFd s.cache.kernel call.direct_fd }
    wrlocks := s.releaseLock c fd
    calls := s.calls.insert c
      { call with
        phase := .done result
        direct_fd := none } }

/-! ### Steps -/

/-- What the worker, and the thread that starts and stops it, do. -/
def stepWorker (s : FdSystem) : FdAction → Option FdSystem
  | .init fd =>
      match s.run_thread, s.worker with
      | false, .off | false, .exited =>
          match s.cache.epollfd with
          | some _ => some { s with run_thread := true, worker := .starting }
          | none =>
              (s.cache.kernel.newDescriptor .epoll .other fd).map fun kernel =>
                { s with
                  cache := { s.cache with kernel := kernel, epollfd := some fd }
                  run_thread := true
                  worker := .starting }
      | _, _ => none
  | .start fd registered =>
      if s.worker = .starting then
        (s.cache.kernel.newDescriptor .signal .other fd).map fun kernel =>
          { s with
            cache := { s.cache with kernel := kernel }
            -- a thread that ends here does not close its descriptor
            sigfd := if registered then some fd else s.sigfd
            worker := if registered then .loop else .exited }
      else
        none
  | .startFails => if s.worker = .starting then some { s with worker := .exited } else none
  | .loop =>
      if s.worker = .loop then
        some { s with worker := if s.run_thread then .adding s.cache.curfwmap.keys else .leaving }
      else
        none
  | .add answer =>
      match s.worker with
      | .adding [] => some { s with worker := .waiting }
      | .adding (path :: todo) =>
          (s.cache.addFileWatchEpoll answer path).map fun cache =>
            { s with cache := cache, worker := .adding todo }
      | _ => none
  | .wait events =>
      if s.worker = .waiting ∧ events.Nodup ∧ events.length ≤ WAIT_EVENT_MAX ∧
          ∀ e ∈ events, s.canReport e = true then
        some
          { s with
            cache :=
              { s.cache with
                kernel := (events.filterMap id).foldl Kernel.report s.cache.kernel }
            worker := .handling events }
      else
        none
  | .waitFails => if s.worker = .waiting then some { s with worker := .leaving } else none
  | .handle =>
      match s.worker with
      | .handling [] => some { s with worker := .loop }
      | .handling (none :: rest) =>
          some { s with worker := if s.run_thread then .handling rest else .loop }
      | .handling (some fd :: rest) => some (s.checkInotifyEvents fd rest)
      | _ => none
  | .check =>
      match s.worker with
      | .checking fd rest =>
          match s.cache.findInotify fd with
          | none => some { s with worker := .handling rest }
          | some (path, pfw) => some { s with worker := .stating path pfw.id fd rest }
      | _ => none
  | .stat fails =>
      match s.worker with
      | .stating path id fd rest =>
          (s.deref path id).map fun pfw =>
            { s with
              worker := if s.isRemoved pfw fails then .deleting fd rest else .handling rest }
      | _ => none
  | .delete =>
      match s.worker with
      | .deleting fd rest =>
          some { s with cache := s.cache.deleteFileWatch fd, worker := .handling rest }
      | _ => none
  | .leave =>
      if s.worker = .leaving then
        some
          { s with
            cache := { s.cache with kernel := closeFd s.cache.kernel s.sigfd }
            sigfd := none
            worker := .exited }
      else
        none
  | .stop => some { s with run_thread := false }
  | .close =>
      match s.run_thread, s.worker with
      -- the worker is joined before
      | false, .off | false, .exited => some { s with cache := s.cache.closeEntries }
      | _, _ => none
  | _ => none

/-- What the callers of `Write` and `Register` do. -/
def stepCall (s : FdSystem) : FdAction → Option FdSystem
  | .call c filepath data answer =>
      if s.calls.find? c = none ∧ s.worker.locks = false then
        (s.cache.getFileWatch answer filepath).map fun r =>
          { s with
            cache := r.1
            calls := s.calls.insert c
              { filepath := filepath
                data := data
                phase :=
                  match r.2, data with
                  | some id, _ => .got id
                  | none, some _ => .refused
                  | none, none => .done false
                direct_fd := none } }
      else
        none
  | .direct c answer =>
      match s.calls.find? c with
      | some call =>
          if call.phase = .refused then
            match answer.fd with
            | none => some (s.setCall c { call with phase := .done false })
            | some fd =>
                (s.cache.kernel.openFile (.direct c) call.filepath fd answer.new).map fun kernel =>
                  { s with
                    cache := { s.cache with kernel := kernel }
                    calls := s.calls.insert c
                      { call with
                        phase := .ready fd
                        direct_fd := some fd } }
          else
            none
      | none => none
  | .fetch c =>
      match s.calls.find? c with
      | some call =>
          match call.phase with
          | .got id =>
              some (s.setCall c { call with phase := fetchFrom call (s.deref call.filepath id) })
          | _ => none
      | none => none
  | .lock c =>
      match s.calls.find? c with
      | some call =>
          match call.phase, call.data with
          | .ready fd, some data =>
              (s.takeLock c fd).map fun wrlocks =>
                { s with
                  wrlocks := wrlocks
                  calls := s.calls.insert c { call with phase := .writing fd data } }
          | _, _ => none
      | none => none
  | .write c accepted =>
      match s.calls.find? c with
      | some call =>
          match call.phase with
          | .writing fd rest =>
              if rest = [] then
                none
              else
                match accepted with
                | none => some (s.setCall c { call with phase := .wrote fd false })
                | some n =>
                    if n ≤ rest.length then
                      (s.cache.kernel.append fd (c, rest.take n)).map fun kernel =>
                        { s with
                          cache := { s.cache with kernel := kernel }
                          calls := s.calls.insert c { call with phase := .writing fd (rest.drop n) } }
                    else
                      none
          | _ => none
      | none => none
  | .unlock c =>
      match s.calls.find? c with
      | some call =>
          match call.phase with
          | .writing fd [] => some (s.finish c call fd true)
          | .wrote fd result => some (s.finish c call fd result)
          | _ => none
      | none => none
  | _ => none

/-- The steps of the process and of the other programs. -/
def step (s : FdSystem) (action : FdAction) : Option FdSystem :=
  match action with
  | .change c =>
      (s.cache.kernel.change c).map fun kernel =>
        { s with cache := { s.cache with kernel := kernel } }
  | .call _ _ _ _ | .direct _ _ | .fetch _ | .lock _ | .write _ _ | .unlock _ => s.stepCall action
  | _ => s.stepWorker action

/-- The process before `Initialize`, with the descriptors that it has already. -/
def start (names : OrdMap Bytes Nat) (files : OrdMap Nat (FileNode (Nat × Bytes)))
    (foreign : List Nat) : FdSystem :=
  { cache :=
      { kernel :=
          { names := names
            files := files
            fds := foreign.foldl (fun fds n => fds.insert n (.foreign n, .other)) ∅ }
        epollfd := none
        curfwmap := ∅
        nextId := 0 }
    foreign := foreign
    run_thread := false
    sigfd := none
    worker := .off
    calls := ∅
    wrlocks := ∅ }

end FdSystem

end K2hFtFuse

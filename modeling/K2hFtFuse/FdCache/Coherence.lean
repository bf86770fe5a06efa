import K2hFtFuse.FdCache.Frames

/-!
# FdCache.Coherence — the cache finds out when a file is replaced

Other programs may move or remove a file while the cache has it open. Its watcher is told, the epoll set
reports the watcher once, and the worker takes the entry out. An event that is queued behind one that was
read is not reported again, so the worker must look at the file after it has read.

This file defines:
* `Watchful`: the conditions on a step under which nothing is missed,
* `Watched`: an entry that is watched names the file it has open, or an event is there to be read and
  will be, or the worker is about to look at the entry,
* `Coherent`: this of every entry, and that `st_dev` and `st_ino` are those of the open file.

The result is about the moments at which the worker has nothing to do
(`entry_current_of_settled`): the path of a watched entry names the file that the entry has open.
-/

namespace K2hFtFuse

open ByteSeq Transition

/-! ## What the worker is about to do -/

/-- The reports that the worker has from `epoll_pwait` and has not come to. -/
def WatchPhase.toRead : WatchPhase → List (Option Nat)
  | .handling events => events
  | .checking _ rest => rest
  | .stating _ _ _ rest => rest
  | .deleting _ rest => rest
  | _ => []

/-- The worker is about to look at an entry, or to delete it. -/
def WatchPhase.Attends (phase : WatchPhase) (path : Bytes) (id i : Nat) : Prop :=
  match phase with
  | .checking fd _ => fd = i
  | .stating path' id' fd _ => path' = path ∧ id' = id ∧ fd = i
  | .deleting fd _ => fd = i
  | _ => False

namespace FdSystem

/-- `AddFileWatchEpoll` watches the file that the entry has open. -/
def addsOwn (s : FdSystem) : Bool :=
  match s.worker with
  | .adding (path :: _) =>
      (s.cache.curfwmap.find? path).all fun pfw =>
        s.cache.kernel.names.find? pfw.filepath == pfw.opened_fd.bind s.cache.kernel.fileOf
  | _ => true

/-- One buffer has room for all events of the watcher that is read next. -/
def readsAll (s : FdSystem) : Bool :=
  match s.worker with
  | .handling (some fd :: _) =>
      (s.cache.kernel.watcherOf fd).all fun w => decide (w.queue.length ≤ INOTIFY_BUFF_EVENTS)
  | _ => true

/-- The cache is empty when it is initialized, `fstat` tells what was opened, the file is not replaced
before it is watched, and a buffer takes all events. -/
def meets (s : FdSystem) : FdAction → Bool
  | .init _ => s.cache.curfwmap.entries.isEmpty
  | .call _ _ _ answer => answer.fstat
  | .add (.added _ _) => s.addsOwn
  | .handle => s.readsAll
  | _ => true

def Watchful (s : FdSystem) (action : FdAction) : Prop := s.Spares action ∧ s.meets action = true

instance instDecidableWatchful (s : FdSystem) (action : FdAction) : Decidable (s.Watchful action) :=
  inferInstanceAs (Decidable (_ ∧ _))

/-- A watched entry: its watcher is in the epoll set and watches the file that is open; what it has to
tell was reported or will be; and the path names that file, or else there is something to tell or the
worker is at the entry already. -/
def Watched (k : FdKernel) (phase : WatchPhase) (path : Bytes) (pfw : K2hFtFw) (i : Nat) : Prop :=
  ∃ w f, k.watcherOf i = some w ∧ pfw.opened_fd.bind k.fileOf = some f ∧ w.armed = true ∧
    w.watches f = true ∧ (w.Tells → w.ready = true ∨ some i ∈ phase.toRead) ∧
      (k.names.find? path = some f ∨ w.Tells ∨ phase.Attends path pfw.id i)

structure Coherent (s : FdSystem) : Prop where
  wf : s.cache.kernel.Wf
  path : ∀ path pfw, s.cache.curfwmap.find? path = some pfw → pfw.filepath = path
  file : ∀ path pfw, s.cache.curfwmap.find? path = some pfw →
    ∃ d f, pfw.opened_fd = some d ∧ s.cache.kernel.fileOf d = some f ∧
      s.cache.kernel.numbers f = some (pfw.st_dev, pfw.st_ino)
  watched : s.run_thread = true → ∀ path pfw i, s.cache.curfwmap.find? path = some pfw →
    pfw.inotify_fd = some i → Watched s.cache.kernel s.worker path pfw i

/-! ## Frames -/

theorem fileOf_congr {k k' : FdKernel} {d : Nat} (h : k'.fds.find? d = k.fds.find? d) :
    k'.fileOf d = k.fileOf d := by
  rw [Kernel.fileOf, Kernel.fileOf, h]

theorem watcherOf_congr {k k' : FdKernel} {d : Nat} (h : k'.fds.find? d = k.fds.find? d) :
    k'.watcherOf d = k.watcherOf d := by
  rw [Kernel.watcherOf, Kernel.watcherOf, h]

/-- The worker goes on without dropping a report and without leaving an entry that it was at. -/
theorem Watched.of_phase {k : FdKernel} {phase phase' : WatchPhase} {path : Bytes} {pfw : K2hFtFw}
    {i : Nat} (h : Watched k phase path pfw i)
    (hread : some i ∈ phase.toRead → some i ∈ phase'.toRead)
    (hattends : phase.Attends path pfw.id i → phase'.Attends path pfw.id i) :
    Watched k phase' path pfw i := by
  rcases h with ⟨w, f, hw, hf, harmed, hwatches, htells, hnow⟩
  refine ⟨w, f, hw, hf, harmed, hwatches, fun ht => ?_, ?_⟩
  · exact (htells ht).imp_right hread
  · exact hnow.imp_right fun hnow => hnow.imp_right hattends

/-- The kernel goes on without touching the descriptors of the entry and the name. -/
theorem Watched.of_kernel {k k' : FdKernel} {phase : WatchPhase} {path : Bytes} {pfw : K2hFtFw}
    {i : Nat} (h : Watched k phase path pfw i) (hi : k'.fds.find? i = k.fds.find? i)
    (hd : ∀ d, pfw.opened_fd = some d → k'.fds.find? d = k.fds.find? d)
    (hnames : ∀ f, k.names.find? path = some f → k'.names.find? path = some f) :
    Watched k' phase path pfw i := by
  rcases h with ⟨w, f, hw, hf, harmed, hwatches, htells, hnow⟩
  refine ⟨w, f, (watcherOf_congr hi).trans hw, ?_, harmed, hwatches, htells, hnow.imp_left (hnames f)⟩
  rcases Option.bind_eq_some_iff.1 hf with ⟨d, hopened, hfile⟩
  rw [hopened, Option.bind_some, fileOf_congr (hd d hopened), hfile]

/-- Where the entries of a state were entries before, with their descriptors and the numbers of their
files, only their watches are left to look at. -/
theorem Coherent.of_frame {s s' : FdSystem} (h : s.Coherent) (hwf : s'.cache.kernel.Wf)
    (hmap : ∀ path pfw, s'.cache.curfwmap.find? path = some pfw →
      s.cache.curfwmap.find? path = some pfw)
    (hfile : ∀ path pfw d, s'.cache.curfwmap.find? path = some pfw → pfw.opened_fd = some d →
      s'.cache.kernel.fileOf d = s.cache.kernel.fileOf d)
    (hnumbers : ∀ f, s.cache.kernel.Live f → s'.cache.kernel.numbers f = s.cache.kernel.numbers f)
    (hwatched : s'.run_thread = true → ∀ path pfw i, s'.cache.curfwmap.find? path = some pfw →
      pfw.inotify_fd = some i → Watched s'.cache.kernel s'.worker path pfw i) : s'.Coherent := by
  refine ⟨hwf, fun path pfw hfind => h.path path pfw (hmap path pfw hfind), ?_, hwatched⟩
  intro path pfw hfind
  rcases h.file path pfw (hmap path pfw hfind) with ⟨d, f, hopened, hf, hnum⟩
  refine ⟨d, f, hopened, (hfile path pfw d hfind hopened).trans hf, ?_⟩
  rw [hnumbers f (.inr ⟨d, hf⟩), hnum]

/-- A step that changes nothing but where the worker stands. -/
theorem Coherent.of_worker {s : FdSystem} (h : s.Coherent) (phase : WatchPhase)
    (hwatched : s.run_thread = true → ∀ path pfw i, s.cache.curfwmap.find? path = some pfw →
      pfw.inotify_fd = some i → Watched s.cache.kernel phase path pfw i) :
    ({ s with worker := phase } : FdSystem).Coherent :=
  ⟨h.wf, h.path, h.file, hwatched⟩

/-- The worker is at no entry and has nothing to read, so it may go anywhere. -/
theorem Coherent.of_idle {s : FdSystem} (h : s.Coherent) (phase : WatchPhase)
    (hread : s.worker.toRead = []) (hattends : ∀ path id i, ¬ s.worker.Attends path id i) :
    ({ s with worker := phase } : FdSystem).Coherent := by
  refine h.of_worker phase ?_
  intro hrun path pfw i hfind hinotify
  refine (h.watched hrun path pfw i hfind hinotify).of_phase ?_ ?_
  · simp [hread]
  · exact fun hat => absurd hat (hattends path pfw.id i)

/-! ## Descriptors of entries -/

/-- Two entries do not share a watcher. -/
theorem inotify_unique {s : FdSystem} (hsound : s.table.Sound) {path path' : Bytes}
    {pfw pfw' : K2hFtFw} {i : Nat} (hfind : s.cache.curfwmap.find? path = some pfw)
    (hinotify : pfw.inotify_fd = some i) (hfind' : s.cache.curfwmap.find? path' = some pfw')
    (hinotify' : pfw'.inotify_fd = some i) : path = path' := by
  have howner := owner_inotify hsound hfind hinotify
  rw [owner_inotify hsound hfind' hinotify'] at howner
  simpa using howner.symm

/-- The search by a watcher ends at the entry that has it. -/
theorem findInotify_eq {s : FdSystem} (hsound : s.table.Sound) {path : Bytes} {pfw : K2hFtFw} {i : Nat}
    (hfind : s.cache.curfwmap.find? path = some pfw) (hinotify : pfw.inotify_fd = some i) :
    s.cache.findInotify i = some (path, pfw) := by
  cases hsearch : s.cache.findInotify i with
  | none =>
      have hnot := List.find?_eq_none.1 hsearch (path, pfw) (OrdMap.mem_entries_iff.2 hfind)
      simp [hinotify] at hnot
  | some entry =>
      have hentry : s.cache.curfwmap.find? entry.1 = some entry.2 :=
        OrdMap.mem_entries_iff.1 (List.mem_of_find?_eq_some hsearch)
      have hinotify' : entry.2.inotify_fd = some i := by
        simpa using List.find?_some hsearch
      have hpath := inotify_unique hsound hfind hinotify hentry hinotify'
      subst hpath
      rw [hfind] at hentry
      rw [Option.some.inj hentry]

theorem fds_close_of_owner {k : FdKernel} {fd : Option Nat} {d : Nat} {w : FdHolder}
    (h : (closeFd k fd).owners.find? d = some w) :
    (closeFd k fd).fds.find? d = k.fds.find? d ∧ k.owners.find? d = some w := by
  rw [find?_owners_closeFd] at h
  split at h
  · cases h
  · rename_i hne
    refine ⟨?_, h⟩
    cases fd with
    | none => rfl
    | some n => exact OrdMap.find?_erase_ne _ fun heq => hne (congrArg some heq.symm)

/-- What is open after an entry is deleted is as it was. -/
theorem fds_deleteFileWatchEpoll_of_owner {c : K2hFtFdCache} {pfw : K2hFtFw} {d : Nat} {w : FdHolder}
    (h : (c.deleteFileWatchEpoll pfw).owners.find? d = some w) (hne : pfw.inotify_fd ≠ some d) :
    (c.deleteFileWatchEpoll pfw).fds.find? d = c.kernel.fds.find? d := by
  unfold K2hFtFdCache.deleteFileWatchEpoll at h ⊢
  rcases fds_close_of_owner h with ⟨h₁, h⟩
  rcases fds_close_of_owner h with ⟨h₂, h⟩
  rcases fds_close_of_owner h with ⟨h₃, -⟩
  rw [h₁, h₂, h₃]
  unfold K2hFtFdCache.removeWatch
  cases hinotify : pfw.inotify_fd with
  | none => rfl
  | some i =>
      have hd : d ≠ i := fun heq => hne (by rw [hinotify, heq])
      cases pfw.watch_fd with
      | none =>
          simp only
          split
          · rfl
          · rw [Kernel.disarm, Kernel.fds_updateWatcher, if_neg hd]
      | some watch_fd =>
          simp only
          rw [Kernel.rmWatch, Kernel.fds_updateWatcher, if_neg hd]
          split
          · rfl
          · rw [Kernel.disarm, Kernel.fds_updateWatcher, if_neg hd]

/-! ## The worker -/

/-- The system with another kernel. -/
def withKernel (s : FdSystem) (kernel : FdKernel) : FdSystem :=
  { s with cache := { s.cache with kernel := kernel } }

/-- The kernel goes on and every open descriptor stays what it is. -/
theorem Coherent.of_kernel {s : FdSystem} (h : s.Coherent) (hsound : s.table.Sound) {kernel : FdKernel}
    (hwf : kernel.Wf)
    (hfds : ∀ d w, (∃ path, w = .opened path ∨ w = .inotify path) → s.held w = some d →
      s.cache.kernel.owners.find? d = some w →
        kernel.fds.find? d = s.cache.kernel.fds.find? d)
    (hnumbers : ∀ f, s.cache.kernel.Live f → kernel.numbers f = s.cache.kernel.numbers f)
    (hnames : ∀ path f, s.cache.kernel.names.find? path = some f → kernel.names.find? path = some f) :
    (s.withKernel kernel).Coherent := by
  have hopened : ∀ path pfw d, s.cache.curfwmap.find? path = some pfw → pfw.opened_fd = some d →
      kernel.fds.find? d = s.cache.kernel.fds.find? d := by
    intro path pfw d hfind hd
    exact hfds d (.opened path) ⟨path, .inl rfl⟩ (by simp [held, hfind, hd])
      (owner_opened hsound hfind hd)
  refine h.of_frame hwf (fun path pfw hfind => hfind) ?_ hnumbers ?_
  · intro path pfw d hfind hd
    exact fileOf_congr (hopened path pfw d hfind hd)
  · intro hrun path pfw i hfind hinotify
    have hentry : s.cache.curfwmap.find? path = some pfw := hfind
    refine (h.watched hrun path pfw i hentry hinotify).of_kernel ?_ (fun d hd => hopened path pfw d hentry hd)
      (hnames path)
    exact hfds i (.inotify path) ⟨path, .inr rfl⟩ (by simp [held, hentry, hinotify])
      (owner_inotify hsound hentry hinotify)

theorem fds_newDescriptor {k k' : FdKernel} {owner : FdHolder} {obj : OpenObject} {d d' : Nat}
    {w : FdHolder} (hnew : k.newDescriptor owner obj d = some k')
    (howner : k.owners.find? d' = some w) : k'.fds.find? d' = k.fds.find? d' := by
  have hne : d' ≠ d := by
    rintro rfl
    rw [(Kernel.owners_newDescriptor hnew).1] at howner
    cases howner
  obtain ⟨-, rfl⟩ := Kernel.newDescriptor_eq_some.1 hnew
  exact OrdMap.find?_insert_ne _ _ hne

/-- A descriptor that is not a file's is opened. -/
theorem Coherent.of_newDescriptor {s : FdSystem} (h : s.Coherent) (hsound : s.table.Sound)
    {kernel : FdKernel} {owner : FdHolder} {obj : OpenObject} {d : Nat} (hobj : ∀ f, obj ≠ .file f)
    (hnew : s.cache.kernel.newDescriptor owner obj d = some kernel) :
    (s.withKernel kernel).Coherent := by
  refine h.of_kernel hsound (h.wf.newDescriptor (fun f hf => absurd hf (hobj f)) hnew) ?_ ?_ ?_
  · intro d' w _ _ howner
    exact fds_newDescriptor hnew howner
  · obtain ⟨-, rfl⟩ := Kernel.newDescriptor_eq_some.1 hnew
    exact fun f _ => rfl
  · obtain ⟨-, rfl⟩ := Kernel.newDescriptor_eq_some.1 hnew
    exact fun path f hname => hname

/-- A descriptor is closed that no slot keeps. -/
theorem Coherent.of_close {s : FdSystem} (h : s.Coherent) (hsound : s.table.Sound) (fd : Option Nat)
    (hafter : ∀ d w, (∃ path, w = .opened path ∨ w = .inotify path) → s.held w = some d →
      (closeFd s.cache.kernel fd).owners.find? d = some w) :
    (s.withKernel (closeFd s.cache.kernel fd)).Coherent := by
  refine h.of_kernel hsound (wf_closeFd h.wf fd) ?_ ?_ ?_
  · intro d w hw hheld _
    exact (fds_close_of_owner (hafter d w hw hheld)).1
  · intro f _
    rw [Kernel.numbers, files_closeFd, Kernel.numbers]
  · intro path f hname
    rwa [names_closeFd]

/-- `epoll_pwait` has taken the reports. -/
theorem watcherOf_foldl_report (fds : List Nat) (k : FdKernel) (i : Nat) :
    (fds.foldl Kernel.report k).watcherOf i =
      if i ∈ fds then (k.watcherOf i).map fun w => { w with ready := false } else k.watcherOf i := by
  induction fds generalizing k with
  | nil => simp
  | cons fd fds ih =>
      rw [List.foldl_cons, ih, Kernel.report, Kernel.watcherOf_updateWatcher]
      by_cases hi : i = fd
      · subst hi
        by_cases hmem : i ∈ fds <;> simp [hmem, Function.comp_def]
      · simp [hi]

theorem Coherent.of_report {s : FdSystem} (h : s.Coherent) {events : List (Option Nat)}
    (hworker : s.worker = .waiting) :
    ({ s with
        cache :=
          { s.cache with kernel := (events.filterMap id).foldl Kernel.report s.cache.kernel }
        worker := .handling events } : FdSystem).Coherent := by
  rcases foldl_report (events.filterMap id) s.cache.kernel with ⟨hnames, hfiles, hfile, hwf⟩
  refine h.of_frame (hwf h.wf) (fun _ _ hfind => hfind) (fun _ _ d _ _ => hfile d) ?_ ?_
  · intro f _
    change Option.map _ (((events.filterMap id).foldl Kernel.report s.cache.kernel).files.find? f) = _
    rw [hfiles]
    rfl
  · intro hrun path pfw i hfind hinotify
    rcases h.watched hrun path pfw i hfind hinotify with
      ⟨w, f, hw, hf, harmed, hwatches, htells, hnow⟩
    have hf' : pfw.opened_fd.bind ((events.filterMap id).foldl Kernel.report s.cache.kernel).fileOf =
        some f := by
      rw [show ((events.filterMap id).foldl Kernel.report s.cache.kernel).fileOf =
        s.cache.kernel.fileOf from funext hfile]
      exact hf
    have hnow' : ((events.filterMap id).foldl Kernel.report s.cache.kernel).names.find? path = some f ∨
        w.Tells := by
      rw [hnames]
      rcases hnow with hname | ht | hat
      · exact .inl hname
      · exact .inr ht
      · simp [hworker, WatchPhase.Attends] at hat
    have hmem : i ∈ events.filterMap id ↔ some i ∈ events := by simp
    by_cases hi : some i ∈ events
    · -- the report is in the hands of the worker now
      refine ⟨{ w with ready := false }, f, ?_, hf', harmed, hwatches, fun _ => .inr hi, ?_⟩
      · simp [watcherOf_foldl_report, hi, hw]
      · exact hnow'.imp_right .inl
    · refine ⟨w, f, ?_, hf', harmed, hwatches, ?_, hnow'.imp_right .inl⟩
      · simp [watcherOf_foldl_report, hi, hw]
      · intro ht
        have hready := htells ht
        simp only [hworker, WatchPhase.toRead, List.not_mem_nil, or_false] at hready
        exact .inl hready

/-! ### Watching a file -/

/-- A descriptor that is open is none that a call gives. -/
theorem ne_of_owner {k : FdKernel} {d d' : Nat} {w : FdHolder} (hfree : k.fds.find? d = none)
    (howner : k.owners.find? d' = some w) : d' ≠ d := by
  rintro rfl
  simp [Kernel.owners, hfree] at howner

/-- A watch that the entry of a path gets is on the file that the path names. -/
theorem addWatch_eq_some {k k' : FdKernel} {d wd : Nat} {path : Bytes}
    (h : k.addWatch d wd path = some k') :
    ∃ f, k.names.find? path = some f ∧
      k' = k.updateWatcher d fun w => { w with watch := some (wd, f) } := by
  rcases Option.map_eq_some_iff.1 h with ⟨f, hname, rfl⟩
  exact ⟨f, hname, rfl⟩

theorem coherent_add {s : FdSystem} (h : s.Coherent) (hsound : s.table.Sound) {answer : AddAnswer}
    {path : Bytes} {todo : List Bytes} {cache : K2hFtFdCache}
    (hworker : s.worker = .adding (path :: todo))
    (hsound' : ({ s with cache := cache, worker := .adding todo } : FdSystem).table.Sound)
    (hmeets : s.meets (.add answer) = true)
    (hadd : s.cache.addFileWatchEpoll answer path = some cache) :
    ({ s with cache := cache, worker := .adding todo } : FdSystem).Coherent := by
  have hidle : ∀ {t : FdSystem}, t.Coherent → t.worker = .adding (path :: todo) →
      ({ t with worker := .adding todo } : FdSystem).Coherent := by
    intro t ht hphase
    exact ht.of_idle _ (by simp [hphase, WatchPhase.toRead]) (by simp [hphase, WatchPhase.Attends])
  rcases K2hFtFdCache.addFileWatchEpoll_cases hadd with ⟨rfl, -⟩ | ⟨inotify_fd, kernel, hnew, -, rfl⟩ |
    ⟨pfw, inotify_fd, watch_fd, kernel, watched, hfind, hnone, hepoll, -, hnew, hwatch, rfl⟩ |
    ⟨pfw, inotify_fd, watch_fd, kernel, watched, hfind, hnone, rfl, hnew, hwatch, rfl⟩
  · exact hidle h hworker
  · have hwf : kernel.Wf := h.wf.newDescriptor (by simp) hnew
    obtain ⟨hfree, rfl⟩ := Kernel.newDescriptor_eq_some.1 hnew
    refine hidle (h.of_kernel hsound (hwf.close inotify_fd) ?_ (fun _ _ => rfl) fun _ _ hname => hname)
      hworker
    intro d w _ _ howner
    have hne := ne_of_owner hfree howner
    rw [Kernel.close, OrdMap.find?_erase_ne _ hne, OrdMap.find?_insert_ne _ _ hne]
  · -- the number of the watch is closed, and no entry has it
    have hwf : kernel.Wf := h.wf.newDescriptor (by simp) hnew
    obtain ⟨hfree, rfl⟩ := Kernel.newDescriptor_eq_some.1 hnew
    rcases addWatch_eq_some hwatch with ⟨f, hname, rfl⟩
    refine hidle (h.of_kernel hsound ((((hwf.updateWatcher _ _).updateWatcher _ _).close _).close _)
      ?_ ?_ ?_) hworker
    · intro d w _ hheld howner
      have hne := ne_of_owner hfree howner
      have hopen : _ = some w := hsound' w d (by cases w <;> exact hheld)
      simp only [table, Kernel.find?_owners_close, if_neg hne] at hopen
      have hstray : d ≠ watch_fd := by
        rintro rfl
        simp at hopen
      simp only [Kernel.close]
      rw [OrdMap.find?_erase_ne _ hne, OrdMap.find?_erase_ne _ hstray, Kernel.fds_updateWatcher,
        if_neg hne, Kernel.fds_updateWatcher, if_neg hne, OrdMap.find?_insert_ne _ _ hne]
    · intro g _
      simp [Kernel.numbers, Kernel.close]
    · intro path' g hname'
      simpa [Kernel.close, Kernel.rmWatch] using hname'
  · have hwf : (watched.arm inotify_fd).Wf :=
      ((h.wf.newDescriptor (by simp) hnew).addWatch hwatch).updateWatcher _ _
    rcases Kernel.watching_arm hnew hwatch with ⟨f, hwatching⟩
    -- what was open before is as it was
    have hfds : ∀ d w, s.cache.kernel.owners.find? d = some w →
        (watched.arm inotify_fd).fds.find? d = s.cache.kernel.fds.find? d :=
      fun d w howner => hwatching.fds d (ne_of_owner (Kernel.newDescriptor_eq_some.1 hnew).1 howner)
    have hnumbers : (watched.arm inotify_fd).numbers = s.cache.kernel.numbers := by
      funext g
      rw [Kernel.numbers, hwatching.files, Kernel.numbers]
    have hown : s.cache.kernel.names.find? pfw.filepath =
        pfw.opened_fd.bind s.cache.kernel.fileOf := by
      simpa [meets, addsOwn, hworker, hfind] using hmeets
    rcases h.file path pfw hfind with ⟨d₀, f₀, hopened, hf₀, hnum₀⟩
    have hf₀f : f₀ = f := by
      rw [hwatching.name, hopened, Option.bind_some, hf₀] at hown
      exact (Option.some.inj hown).symm
    subst hf₀f
    refine ⟨hwf, ?_, ?_, ?_⟩
    · intro path' pfw' hfind'
      simp only [OrdMap.find?_insert] at hfind'
      split at hfind'
      · rename_i heq
        cases hfind'
        exact heq ▸ h.path path pfw hfind
      · exact h.path path' pfw' hfind'
    · intro path' pfw' hfind'
      simp only [OrdMap.find?_insert] at hfind'
      split at hfind'
      · cases hfind'
        refine ⟨d₀, f₀, hopened, ?_, ?_⟩
        · exact (fileOf_congr (hfds d₀ _ (owner_opened hsound hfind hopened))).trans hf₀
        · exact (congrFun hnumbers f₀).trans hnum₀
      · rcases h.file path' pfw' hfind' with ⟨d, g, hopened', hg, hnum⟩
        refine ⟨d, g, hopened', ?_, ?_⟩
        · exact (fileOf_congr (hfds d _ (owner_opened hsound hfind' hopened'))).trans hg
        · exact (congrFun hnumbers g).trans hnum
    · intro hrun path' pfw' i hfind' hinotify
      simp only [OrdMap.find?_insert] at hfind'
      split at hfind'
      · rename_i heq
        cases hfind'
        cases hinotify
        refine ⟨_, f₀, hwatching.watcher, ?_, rfl, by simp [Watcher.watches], ?_, .inl ?_⟩
        · simp only [hopened, Option.bind_some]
          exact (fileOf_congr (hfds d₀ _ (owner_opened hsound hfind hopened))).trans hf₀
        · rintro ⟨e, he, -⟩
          simp at he
        · rw [heq, ← h.path path pfw hfind]
          exact hwatching.names ▸ hwatching.name
      · have hold : Watched _ (.adding todo) path' pfw' i :=
          (h.watched hrun path' pfw' i hfind' hinotify).of_phase
            (by simp [hworker, WatchPhase.toRead]) (by simp [hworker, WatchPhase.Attends])
        refine hold.of_kernel ?_ ?_ ?_
        · exact hfds i _ (owner_inotify hsound hfind' hinotify)
        · exact fun d hd => hfds d _ (owner_opened hsound hfind' hd)
        · intro g hg
          exact hwatching.names ▸ hg

/-! ### Reading and looking -/

/-- What is read from a watcher is either about the entry, and then the worker turns to it, or of no
account. -/
theorem coherent_read {s : FdSystem} (h : s.Coherent) {fd : Nat} {rest : List (Option Nat)}
    (hworker : s.worker = .handling (some fd :: rest)) (hmeets : s.meets .handle = true) :
    (s.checkInotifyEvents fd rest).Coherent := by
  have hnot : ∀ path id i, ¬ s.worker.Attends path id i := by
    simp [hworker, WatchPhase.Attends]
  have hread : ∀ {i}, some i ∈ s.worker.toRead → i ≠ fd → some i ∈ rest := by
    intro i hmem hne
    simpa [hworker, WatchPhase.toRead, hne] using hmem
  -- nothing that is told is lost when a watcher without events is passed over
  have hpass : (∀ w, s.cache.kernel.watcherOf fd = some w → w.queue = []) →
      ({ s with worker := .handling rest } : FdSystem).Coherent := by
    intro hempty
    refine h.of_worker _ ?_
    intro hrun path pfw i hfind hinotify
    rcases h.watched hrun path pfw i hfind hinotify with
      ⟨w, f, hw, hf, harmed, hwatches, htells, hnow⟩
    refine ⟨w, f, hw, hf, harmed, hwatches, fun ht => ?_, ?_⟩
    · rcases htells ht with hready | hmem
      · exact .inl hready
      · refine .inr (hread hmem ?_)
        rintro rfl
        rcases ht with ⟨e, he, -⟩
        simp [hempty w hw] at he
    · exact hnow.imp_right fun hnow => .inl (hnow.resolve_right (hnot path pfw.id i))
  unfold checkInotifyEvents
  split
  · rename_i hnone
    exact hpass (by simp [hnone])
  · rename_i w hw
    split
    · rename_i hqueue
      refine hpass ?_
      intro w' hw'
      rw [hw] at hw'
      rw [← Option.some.inj hw', hqueue]
    · -- the buffer takes all events
      have hlength : w.queue.length ≤ INOTIFY_BUFF_EVENTS := by
        simpa [meets, readsAll, hworker, hw] using hmeets
      rw [List.take_of_length_le hlength]
      refine h.of_frame (h.wf.updateWatcher _ _) (fun _ _ hfind => hfind) ?_ ?_ ?_
      · intro path pfw d _ _
        simp [Kernel.readEvents]
      · intro f _
        simp [Kernel.readEvents, Kernel.numbers]
      · intro hrun path pfw i hfind hinotify
        rcases h.watched hrun path pfw i hfind hinotify with
          ⟨w', f, hw', hf, harmed, hwatches, htells, hnow⟩
        have hnow' : s.cache.kernel.names.find? path = some f ∨ w'.Tells :=
          hnow.imp_right fun hnow => hnow.resolve_right (hnot path pfw.id i)
        have hf' : pfw.opened_fd.bind (s.cache.kernel.readEvents fd INOTIFY_BUFF_EVENTS).fileOf =
            some f := by
          rw [show (s.cache.kernel.readEvents fd INOTIFY_BUFF_EVENTS).fileOf =
            s.cache.kernel.fileOf from funext fun d => Kernel.fileOf_updateWatcher _ _ _ d]
          exact hf
        by_cases hi : i = fd
        · subst hi
          obtain rfl : w = w' := Option.some.inj (hw.symm.trans hw')
          refine ⟨{ w with queue := w.queue.drop INOTIFY_BUFF_EVENTS }, f, ?_, hf', harmed, hwatches,
            ?_, ?_⟩
          · simp [Kernel.readEvents, Kernel.watcherOf_updateWatcher, hw]
          · rintro ⟨e, he, -⟩
            simp [List.drop_of_length_le hlength] at he
          · rcases hnow' with hname | ht
            · exact .inl (by simpa [Kernel.readEvents] using hname)
            · -- an event of account was among those that were read
              refine .inr (.inr ?_)
              rcases ht with ⟨e, he, hother⟩
              cases hsome : w.queue.find? fun e => e != .other with
              | none =>
                  have hall := List.find?_eq_none.1 hsome e he
                  simp [hother] at hall
              | some e' =>
                  have hsig : e' ≠ .other := by
                    simpa using List.find?_some hsome
                  cases e' with
                  | moved => simp [WatchPhase.Attends]
                  | attrib => simp [WatchPhase.Attends]
                  | other => exact absurd rfl hsig
        · refine ⟨w', f, ?_, hf', harmed, hwatches, fun ht => ?_, ?_⟩
          · simp [Kernel.readEvents, Kernel.watcherOf_updateWatcher, hi, hw']
          · refine (htells ht).imp_right fun hmem => ?_
            have hrest := hread hmem hi
            split <;> simp [WatchPhase.toRead, hrest]
          · refine hnow'.imp ?_ .inl
            intro hname
            simpa [Kernel.readEvents] using hname

/-- An entry that is still there and whose file is found at its path has its own file there. -/
theorem names_of_not_removed {s : FdSystem} (h : s.Coherent) {path : Bytes} {pfw : K2hFtFw}
    {fails : Bool} {d f : Nat} (hfind : s.cache.curfwmap.find? path = some pfw)
    (hopened : pfw.opened_fd = some d) (hf : s.cache.kernel.fileOf d = some f)
    (hnot : s.isRemoved pfw fails = false) : s.cache.kernel.names.find? path = some f := by
  simp only [isRemoved, Bool.or_eq_false_iff, bne_eq_false_iff_eq] at hnot
  rcases Option.bind_eq_some_iff.1 hnot.2 with ⟨g, hname, hg⟩
  rw [h.path path pfw hfind] at hname
  rcases h.file path pfw hfind with ⟨d', f', hopened', hf', hnum⟩
  rw [hopened] at hopened'
  cases hopened'
  rw [hf] at hf'
  cases hf'
  have hgf : g = f := h.wf.distinct g f (.inl ⟨path, hname⟩) (.inr ⟨d, hf⟩) (hg.trans hnum.symm)
  rw [hname, hgf]

theorem coherent_stat {s : FdSystem} (h : s.Coherent) {fails : Bool} {path : Bytes} {id fd : Nat}
    {rest : List (Option Nat)} {pfw : K2hFtFw} (hworker : s.worker = .stating path id fd rest)
    (hderef : s.deref path id = some pfw) :
    ({ s with worker := if s.isRemoved pfw fails then .deleting fd rest else .handling rest } :
      FdSystem).Coherent := by
  have hentry : s.cache.curfwmap.find? path = some pfw := by
    unfold deref at hderef
    exact (Option.filter_eq_some_iff.1 hderef).1
  refine h.of_worker _ ?_
  intro hrun path' pfw' i hfind hinotify
  have hold := h.watched hrun path' pfw' i hfind hinotify
  by_cases hremoved : s.isRemoved pfw fails = true
  · rw [if_pos hremoved]
    refine hold.of_phase ?_ ?_
    · simp [hworker, WatchPhase.toRead]
    · simp only [hworker, WatchPhase.Attends]
      exact fun hat => hat.2.2
  · rw [if_neg hremoved]
    rcases hold with ⟨w, f, hw, hf, harmed, hwatches, htells, hnow⟩
    refine ⟨w, f, hw, hf, harmed, hwatches, ?_, ?_⟩
    · simpa [hworker, WatchPhase.toRead] using htells
    · rcases hnow with hname | ht | hat
      · exact .inl hname
      · exact .inr (.inl ht)
      · simp only [hworker, WatchPhase.Attends] at hat
        rcases hat with ⟨rfl, -, -⟩
        rw [hentry] at hfind
        cases hfind
        rcases Option.bind_eq_some_iff.1 hf with ⟨d, hopened, hfile⟩
        exact .inl (names_of_not_removed h hentry hopened hfile (by simpa using hremoved))

/-! ### Deleting -/

theorem coherent_delete {s : FdSystem} (h : s.Coherent) (hsound : s.table.Sound) {fd : Nat}
    {rest : List (Option Nat)} (hworker : s.worker = .deleting fd rest)
    (hsound' : ({ s with
      cache := s.cache.deleteFileWatch fd
      worker := .handling rest } : FdSystem).table.Sound) :
    ({ s with cache := s.cache.deleteFileWatch fd, worker := .handling rest } : FdSystem).Coherent := by
  have hread : ∀ {i}, some i ∈ s.worker.toRead → some i ∈ rest := by
    simp [hworker, WatchPhase.toRead]
  -- the entry of the watcher that the worker is at is not among those that stay
  have hattends : ∀ path pfw i, s.cache.curfwmap.find? path = some pfw → pfw.inotify_fd = some i →
      s.worker.Attends path pfw.id i → s.cache.findInotify fd = some (path, pfw) := by
    intro path pfw i hfind hinotify hat
    simp only [hworker, WatchPhase.Attends] at hat
    rw [hat]
    exact findInotify_eq hsound hfind hinotify
  unfold K2hFtFdCache.deleteFileWatch at hsound' ⊢
  cases hsearch : s.cache.findInotify fd with
  | none =>
      simp only
      refine h.of_worker _ ?_
      intro hrun path pfw i hfind hinotify
      refine (h.watched hrun path pfw i hfind hinotify).of_phase hread ?_
      intro hat
      rw [hattends path pfw i hfind hinotify hat] at hsearch
      cases hsearch
  | some entry =>
      simp only [hsearch] at hsound' ⊢
      rcases names_deleteFileWatchEpoll s.cache entry.2 with ⟨hnames, hfiles, hwf⟩
      have hentry : s.cache.curfwmap.find? entry.1 = some entry.2 :=
        OrdMap.mem_entries_iff.1 (List.mem_of_find?_eq_some hsearch)
      have hstays : ∀ {path pfw}, (s.cache.curfwmap.erase entry.1).find? path = some pfw →
          path ≠ entry.1 ∧ s.cache.curfwmap.find? path = some pfw := by
        intro path pfw hfind
        rw [OrdMap.find?_erase] at hfind
        split at hfind
        · cases hfind
        · rename_i hne
          exact ⟨hne, hfind⟩
      have hfds : ∀ {path pfw d w}, path ≠ entry.1 → (w = .opened path ∨ w = .inotify path) →
          s.cache.kernel.owners.find? d = some w →
          (s.cache.deleteFileWatchEpoll entry.2).owners.find? d = some w →
          (s.cache.curfwmap.erase entry.1).find? path = some pfw →
          (s.cache.deleteFileWatchEpoll entry.2).fds.find? d = s.cache.kernel.fds.find? d := by
        intro path pfw d w hne hw howner howner' hfind
        refine fds_deleteFileWatchEpoll_of_owner howner' ?_
        intro hinotify
        rw [owner_inotify hsound hentry hinotify] at howner
        rcases hw with rfl | rfl
        · cases howner
        · simp only [Option.some.injEq, FdHolder.inotify.injEq] at howner
          exact hne howner.symm
      have hopenedFds : ∀ path pfw d, (s.cache.curfwmap.erase entry.1).find? path = some pfw →
          pfw.opened_fd = some d →
          (s.cache.deleteFileWatchEpoll entry.2).fds.find? d = s.cache.kernel.fds.find? d := by
        intro path pfw d hfind hopened
        rcases hstays hfind with ⟨hne, hold⟩
        exact hfds hne (.inl rfl) (owner_opened hsound hold hopened)
          (owner_opened hsound' hfind hopened) hfind
      refine h.of_frame (hwf h.wf) (fun _ _ hfind => (hstays hfind).2) ?_ ?_ ?_
      · intro path pfw d hfind hopened
        exact fileOf_congr (hopenedFds path pfw d hfind hopened)
      · intro f _
        change Option.map _ ((s.cache.deleteFileWatchEpoll entry.2).files.find? f) = _
        rw [hfiles]
        rfl
      · intro hrun path pfw i hfind hinotify
        rcases hstays hfind with ⟨hne, hold⟩
        have hhandling : Watched s.cache.kernel (.handling rest) path pfw i := by
          refine (h.watched hrun path pfw i hold hinotify).of_phase hread ?_
          intro hat
          rw [hattends path pfw i hold hinotify hat] at hsearch
          cases hsearch
          exact absurd rfl hne
        refine hhandling.of_kernel ?_ (fun d hd => hopenedFds path pfw d hfind hd) ?_
        · exact hfds hne (.inr rfl) (owner_inotify hsound hold hinotify)
            (owner_inotify hsound' hfind hinotify) hfind
        · intro f hname
          exact hnames ▸ hname

/-- Without entries there is nothing to watch. -/
theorem Coherent.of_empty {s : FdSystem} (hwf : s.cache.kernel.Wf) (hempty : s.cache.curfwmap = ∅) :
    s.Coherent := by
  have hnone : ∀ path, s.cache.curfwmap.find? path = none := by
    simp [hempty]
  refine ⟨hwf, ?_, ?_, ?_⟩
  · intro path pfw hfind
    simp [hnone] at hfind
  · intro path pfw hfind
    simp [hnone] at hfind
  · intro _ path pfw i hfind
    simp [hnone] at hfind

theorem coherent_worker {s s' : FdSystem} {action : FdAction} (h : s.Coherent) (hsound : s.table.Sound)
    (hsound' : s'.table.Sound) (hmeets : s.meets action = true) (hstep : s.WorkerStep action s') :
    s'.Coherent := by
  cases hstep with
  | restart fd hstop hworker hepoll =>
      refine .of_empty h.wf (OrdMap.eq_empty_of_entries ?_)
      simpa [meets] using hmeets
  | init fd kernel hstop hworker hepoll hnew =>
      refine .of_empty (h.wf.newDescriptor (by simp) hnew) (OrdMap.eq_empty_of_entries ?_)
      simpa [meets] using hmeets
  | start fd registered kernel hworker hnew =>
      have hnext := h.of_newDescriptor hsound (by simp) hnew
      have hidle := hnext.of_idle (if registered then .loop else .exited)
        (by simp [withKernel, hworker, WatchPhase.toRead])
        (by simp [withKernel, hworker, WatchPhase.Attends])
      exact ⟨hidle.wf, hidle.path, hidle.file, hidle.watched⟩
  | startFails hworker =>
      exact h.of_idle _ (by simp [hworker, WatchPhase.toRead]) (by simp [hworker, WatchPhase.Attends])
  | loop hworker =>
      exact h.of_idle _ (by simp [hworker, WatchPhase.toRead]) (by simp [hworker, WatchPhase.Attends])
  | added answer hworker =>
      exact h.of_idle _ (by simp [hworker, WatchPhase.toRead]) (by simp [hworker, WatchPhase.Attends])
  | add answer path todo cache hworker hadd =>
      exact coherent_add h hsound hworker hsound' hmeets hadd
  | wait events hworker hnodup hlength hready => exact h.of_report hworker
  | waitFails hworker =>
      exact h.of_idle _ (by simp [hworker, WatchPhase.toRead]) (by simp [hworker, WatchPhase.Attends])
  | handled hworker =>
      exact h.of_idle _ (by simp [hworker, WatchPhase.toRead]) (by simp [hworker, WatchPhase.Attends])
  | signal rest hworker =>
      refine h.of_worker _ ?_
      intro hrun path pfw i hfind hinotify
      refine (h.watched hrun path pfw i hfind hinotify).of_phase ?_ ?_
      · simp [hworker, hrun, WatchPhase.toRead]
      · simp [hworker, WatchPhase.Attends]
  | read fd rest hworker => exact coherent_read h hworker hmeets
  | checkNone fd rest hworker hsearch =>
      refine h.of_worker _ ?_
      intro hrun path pfw i hfind hinotify
      refine (h.watched hrun path pfw i hfind hinotify).of_phase ?_ ?_
      · simp [hworker, WatchPhase.toRead]
      · simp only [hworker, WatchPhase.Attends]
        rintro rfl
        rw [findInotify_eq hsound hfind hinotify] at hsearch
        cases hsearch
  | check fd rest path pfw hworker hsearch =>
      refine h.of_worker _ ?_
      intro hrun path' pfw' i hfind hinotify
      refine (h.watched hrun path' pfw' i hfind hinotify).of_phase ?_ ?_
      · simp [hworker, WatchPhase.toRead]
      · simp only [hworker, WatchPhase.Attends]
        rintro rfl
        rw [findInotify_eq hsound hfind hinotify] at hsearch
        cases hsearch
        exact ⟨rfl, rfl, rfl⟩
  | stat fails path id fd rest pfw hworker hderef => exact coherent_stat h hworker hderef
  | delete fd rest hworker => exact coherent_delete h hsound hworker hsound'
  | leave hworker =>
      have hnext := h.of_close hsound s.sigfd ?_
      · have hidle := hnext.of_idle .exited
          (by simp [withKernel, hworker, WatchPhase.toRead])
          (by simp [withKernel, hworker, WatchPhase.Attends])
        exact ⟨hidle.wf, hidle.path, hidle.file, hidle.watched⟩
      · intro d w hw hheld
        refine hsound' w d ?_
        rcases hw with ⟨path, rfl | rfl⟩
        · exact hheld
        · exact hheld
  | stop => exact ⟨h.wf, h.path, h.file, by simp⟩
  | close hstop hworker =>
      refine .of_empty ?_ (table_removeEntries rfl).2
      exact wf_closeFd ((names_removeEntries s.cache.curfwmap.entries s.cache).2.2 h.wf) _

/-! ## The callers and the other programs -/

/-- A call goes on and the cache stays. -/
theorem Coherent.of_cache {s s' : FdSystem} (h : s.Coherent) (hcache : s'.cache = s.cache)
    (hrun : s'.run_thread = s.run_thread) (hworker : s'.worker = s.worker) : s'.Coherent := by
  refine ⟨hcache ▸ h.wf, hcache ▸ h.path, hcache ▸ h.file, ?_⟩
  rw [hcache, hrun, hworker]
  exact h.watched

/-- A file is opened, for an entry or not. -/
theorem Coherent.of_open {s : FdSystem} (h : s.Coherent) (hsound : s.table.Sound) {kernel : FdKernel}
    {holder : FdHolder} {filepath : Bytes} {fd : Nat} {new : NewFile}
    (hopen : s.cache.kernel.openFile holder filepath fd new = some kernel) :
    (s.withKernel kernel).Coherent := by
  rcases Kernel.opened_openFile h.wf hopen with ⟨f, hopened⟩
  refine h.of_kernel hsound (h.wf.openFile hopen) ?_ hopened.numbers hopened.names
  intro d w _ _ howner
  refine hopened.fds d ?_
  rintro rfl
  rw [(Kernel.owners_openFile hopen).1] at howner
  cases howner

/-- A new entry has the file open that its path names, and is not watched yet. -/
theorem coherent_newEntry {s : FdSystem} (h : s.Coherent) (hsound : s.table.Sound) {filepath : Bytes}
    {fd id nextId : Nat} {answer : OpenAnswer} {opened : FdKernel × Nat × Nat}
    (hopen : K2hFtFdCache.openOutput s.cache.kernel (.opened filepath) filepath fd answer = some opened)
    (hfstat : answer.fstat = true) :
    (s.withCache
      { s.cache with
        kernel := opened.1
        nextId := nextId
        curfwmap := s.cache.curfwmap.insert filepath
          { id := id
            filepath := filepath
            inotify_fd := none
            watch_fd := none
            opened_fd := some fd
            st_dev := opened.2.1
            st_ino := opened.2.2 } }).Coherent := by
  rcases Option.map_eq_some_iff.1 hopen with ⟨kernel, hkernel, rfl⟩
  have hnext := h.of_open hsound hkernel
  rcases Kernel.opened_openFile h.wf hkernel with ⟨f, hopened⟩
  have hpresent := hnext.wf.present f (.inr ⟨fd, hopened.file⟩)
  have hfstat' : kernel.fstat fd = kernel.numbers f := by
    rw [Kernel.fstat, hopened.file, Option.bind_some]
  refine ⟨hnext.wf, ?_, ?_, ?_⟩
  · intro path pfw hfind
    simp only [withCache, OrdMap.find?_insert] at hfind
    split at hfind
    · rename_i heq
      cases hfind
      exact heq.symm
    · exact h.path path pfw hfind
  · intro path pfw hfind
    simp only [withCache, OrdMap.find?_insert] at hfind
    split at hfind
    · cases hfind
      refine ⟨fd, f, rfl, hopened.file, ?_⟩
      rcases Option.isSome_iff_exists.1 hpresent with ⟨numbers, hnumbers⟩
      change kernel.numbers f = _
      simp only [hfstat']
      rw [show kernel.numbers f = some numbers from hnumbers]
      rfl
    · exact hnext.file path pfw hfind
  · intro hrun path pfw i hfind hinotify
    simp only [withCache, OrdMap.find?_insert] at hfind
    split at hfind
    · cases hfind
      cases hinotify
    · exact hnext.watched hrun path pfw i hfind hinotify

theorem coherent_call {s s' : FdSystem} {action : FdAction} (h : s.Coherent) (hsound : s.table.Sound)
    (hmeets : s.meets action = true) (hsound' : s'.table.Sound) (hstep : s.CallStep action s') :
    s'.Coherent := by
  cases hstep with
  | call c filepath data answer cache r phase hnew hlock hget hphase =>
      rcases K2hFtFdCache.getFileWatch_cases hget with ⟨rfl, -⟩ |
        ⟨fd, pfw, opened, hfind, hnone, hopen, -, rfl⟩ | ⟨fd, opened, -, hfind, hopen, -, rfl⟩
      · exact h.of_cache rfl rfl rfl
      · -- the file of an entry is always open
        rcases h.file filepath pfw hfind with ⟨d, f, hopened, -, -⟩
        rw [hnone] at hopened
        cases hopened
      · exact (coherent_newEntry h hsound hopen hmeets).of_cache rfl rfl rfl
  | directFails c answer call hcall hphase => exact h.of_cache rfl rfl rfl
  | direct c answer call fd kernel hcall hphase hopen =>
      exact (h.of_open hsound hopen).of_cache rfl rfl rfl
  | fetch c call id hcall hphase => exact h.of_cache rfl rfl rfl
  | lock c call fd data wrlocks hcall hphase hdata hlock => exact h.of_cache rfl rfl rfl
  | writeFails c call fd rest hcall hphase hrest => exact h.of_cache rfl rfl rfl
  | write c call fd rest n kernel hcall hphase hrest hn happ =>
      rcases Kernel.append_frame happ with ⟨hnames, hfds, hnumbers⟩
      refine (h.of_kernel hsound (h.wf.append happ) ?_ ?_ ?_).of_cache rfl rfl rfl
      · intro d w _ _ _
        rw [hfds]
      · intro f _
        rw [hnumbers]
      · intro path f hname
        rwa [hnames]
  | unlock c call fd result hcall hphase =>
      refine (h.of_close hsound call.direct_fd ?_).of_cache rfl rfl rfl
      intro d w hw hheld
      refine hsound' w d ?_
      rcases hw with ⟨path, rfl | rfl⟩
      · exact hheld
      · exact hheld

/-- Whatever is done to the names, the watcher of an entry is told when the entry loses its file. -/
theorem coherent_change {s : FdSystem} (h : s.Coherent) {c : Kernel.Change Bytes} {kernel : FdKernel}
    (hchange : s.cache.kernel.change c = some kernel) : (s.withKernel kernel).Coherent := by
  refine h.of_frame (h.wf.change hchange) (fun _ _ hfind => hfind) ?_ ?_ ?_
  · intro path pfw d _ _
    exact Kernel.fileOf_change hchange d
  · intro f hf
    exact Kernel.numbers_change h.wf hchange hf
  · intro hrun path pfw i hfind hinotify
    rcases h.watched hrun path pfw i hfind hinotify with
      ⟨w, f, hw, hf, harmed, hwatches, htells, hnow⟩
    rcases Kernel.change_watcher hchange hw with ⟨w', hw', hhears, hlost⟩
    have hf' : pfw.opened_fd.bind kernel.fileOf = some f := by
      rw [show kernel.fileOf = s.cache.kernel.fileOf from funext (Kernel.fileOf_change hchange)]
      exact hf
    refine ⟨w', f, hw', hf', hhears.armed.trans harmed, ?_, ?_, ?_⟩
    · rw [Watcher.watches, hhears.watch]
      exact hwatches
    · intro ht
      rcases hhears.news with hsame | hnews
      · have hold : w.Tells := by
          rcases ht with ⟨e, he, hne⟩
          exact ⟨e, hsame ▸ he, hne⟩
        exact (htells hold).imp_left hhears.ready
      · exact .inl (hnews harmed)
    · rcases hnow with hname | ht | hat
      · by_cases hstill : kernel.names.find? path = some f
        · exact .inl hstill
        · exact .inr (.inl (hlost path f hwatches hname hstill))
      · exact .inr (.inl (hhears.tells ht))
      · exact .inr (.inr hat)

/-! ## Runs -/

/-- The slots are right, every slot has its own descriptor, and no replaced file goes unnoticed. -/
structure Sure (s : FdSystem) : Prop where
  slots : s.Slots
  sound : s.table.Sound
  coherent : s.Coherent

theorem sure_step {s s' : FdSystem} {action : FdAction} (h : s.Sure) (hok : s.Watchful action)
    (hstep : s.step action = some s') : s'.Sure := by
  have hsound' : s'.table.Sound := (sound_moves_iff (step_moves h.slots hstep) h.sound).2 hok.1
  refine ⟨slots_step h.slots hstep, hsound', ?_⟩
  rcases step_cases hstep with hworker | hcall | ⟨c, kernel, rfl, hchange, rfl⟩
  · exact coherent_worker h.coherent h.sound hsound' hok.2 hworker
  · exact coherent_call h.coherent h.sound hok.2 hsound' hcall
  · exact coherent_change h.coherent hchange

/-- The worker waits, and no watcher has anything to report. -/
def Settled (s : FdSystem) : Prop :=
  s.run_thread = true ∧ s.worker = .waiting ∧
    ∀ fd ∈ s.cache.kernel.fds.keys, s.canReport (some fd) = false

instance instDecidableSettled (s : FdSystem) : Decidable s.Settled :=
  inferInstanceAs (Decidable (_ ∧ _))

theorem Watched.names_of_settled {s : FdSystem} (hsettled : s.Settled) {path : Bytes} {pfw : K2hFtFw}
    {i : Nat} (h : Watched s.cache.kernel s.worker path pfw i) :
    ∃ d f, pfw.opened_fd = some d ∧ s.cache.kernel.fileOf d = some f ∧
      s.cache.kernel.names.find? path = some f := by
  rcases hsettled with ⟨-, hworker, hquiet⟩
  rcases h with ⟨w, f, hw, hf, harmed, -, htells, hnow⟩
  have hmem : i ∈ s.cache.kernel.fds.keys := by
    rcases Kernel.watcherOf_eq_some.1 hw with ⟨owner, hfd⟩
    exact OrdMap.mem_keys_iff.2 ⟨_, hfd⟩
  have hnot : ¬ w.Tells := by
    intro ht
    have hready : w.ready = false := by
      simpa [canReport, hw, harmed] using hquiet i hmem
    simpa [hready, hworker, WatchPhase.toRead] using htells ht
  rcases Option.bind_eq_some_iff.1 hf with ⟨d, hopened, hfile⟩
  refine ⟨d, f, hopened, hfile, ?_⟩
  rcases hnow with hname | ht | hat
  · exact hname
  · exact absurd ht hnot
  · simp [hworker, WatchPhase.Attends] at hat

section Start

variable (names : OrdMap Bytes Nat) (files : OrdMap Nat (FileNode (Nat × Bytes))) (foreign : List Nat)

/-- However other programs move, remove and make files, when the worker has nothing left to do the path
of every watched entry names the file that the entry has open, with the numbers that `Find` and
`Register` tell. -/
theorem entry_current_of_settled (hwf : (start names files foreign).cache.kernel.Wf)
    {actions : List FdAction} {s : FdSystem}
    (hrun : run step (start names files foreign) actions = some s)
    (hguard : Guarded step Watchful (start names files foreign) actions) (hsettled : s.Settled)
    {path : Bytes} {pfw : K2hFtFw} (hfind : s.cache.curfwmap.find? path = some pfw)
    (hinotify : pfw.inotify_fd ≠ none) :
    ∃ d f, pfw.opened_fd = some d ∧ s.cache.kernel.fileOf d = some f ∧
      s.cache.kernel.names.find? path = some f ∧
      s.cache.kernel.stat path = some (pfw.st_dev, pfw.st_ino) := by
  have hsure : s.Sure := by
    refine invariant_run_of_guarded ?_ hguard hrun ⟨slots_start names files foreign, ?_, ?_⟩
    · exact fun t action t' h hok hstep => sure_step h hok hstep
    · exact (matched_start names files foreign).sound
    · exact .of_empty hwf rfl
  obtain ⟨i, hi⟩ := Option.ne_none_iff_exists'.1 hinotify
  have hwatched := hsure.coherent.watched hsettled.1 path pfw i hfind hi
  rcases hwatched.names_of_settled hsettled with ⟨d, f, hopened, hfile, hname⟩
  refine ⟨d, f, hopened, hfile, hname, ?_⟩
  rcases hsure.coherent.file path pfw hfind with ⟨d', f', hopened', hfile', hnumbers⟩
  rw [hopened] at hopened'
  cases hopened'
  rw [hfile] at hfile'
  cases hfile'
  rw [Kernel.stat, hname, Option.bind_some, hnumbers]

end Start

/-- A file gets a second name while the cache has it open, and the worker finds it where it was. -/
def linkedRun : List FdAction :=
  [.init 3, .start 4 true,
    .call 0 (ascii "/o") (some [1, 2])
      { fd := some 5
        new :=
          { file := 0
            dev := 8
            ino := 9 }
        fstat := true },
    .loop, .add (.added 6 40), .add .noInotify, .change (.link (ascii "/o") (ascii "/p")),
    .wait [some 6], .handle, .check, .stat false, .handle, .loop, .add .noInotify, .add .noInotify]

theorem linkedRun_current : ∃ s pfw, run step (start ∅ ∅ [0, 1, 2]) linkedRun = some s ∧
    s.cache.curfwmap.find? (ascii "/o") = some pfw ∧
      s.cache.kernel.stat (ascii "/o") = some (pfw.st_dev, pfw.st_ino) := by
  have hwf : (start ∅ ∅ [0, 1, 2]).cache.kernel.Wf := by
    have hnil : (start ∅ ∅ [0, 1, 2]).cache.kernel.liveFiles = [] := by decide
    have hnone : ∀ f, ¬ (start ∅ ∅ [0, 1, 2]).cache.kernel.Live f := by
      intro f hf
      rw [← Kernel.mem_liveFiles_iff, hnil] at hf
      cases hf
    exact ⟨fun f hf => absurd hf (hnone f), fun f g hf => absurd hf (hnone f)⟩
  have hsome : ((run step (start ∅ ∅ [0, 1, 2]) linkedRun).bind fun s =>
      if s.Settled then (s.cache.curfwmap.find? (ascii "/o")).filter fun pfw => pfw.inotify_fd != none
      else none).isSome := by
    decide
  rcases Option.isSome_iff_exists.1 hsome with ⟨pfw, hpfw⟩
  rcases Option.bind_eq_some_iff.1 hpfw with ⟨s, hrun, hrest⟩
  rw [Option.ite_none_right_eq_some] at hrest
  rcases hrest with ⟨hsettled, hentry⟩
  rcases Option.filter_eq_some_iff.1 hentry with ⟨hfind, hinotify⟩
  rcases entry_current_of_settled ∅ ∅ [0, 1, 2] hwf hrun (by decide) hsettled hfind
    (by simpa using hinotify) with ⟨-, -, -, -, -, hstat⟩
  exact ⟨s, pfw, hrun, hfind, hstat⟩

end FdSystem

end K2hFtFuse

import K2hFtFuse.FdCache.Descriptors

/-!
# FdCache.Frames — what a step of the cache leaves as it is

A descriptor that stays in its slot is open on the same file (`held_step`, `fileOf_step`), an entry that is
not deleted keeps its object and its open file (`entry_step`), and the worker touches neither the calls nor
what is written (`worker_frame`).
-/

namespace K2hFtFuse

open ByteSeq

namespace FdSystem

/-! ## Closing and reporting -/

theorem owner_opened {s : FdSystem} (hsound : s.table.Sound) {path : Bytes} {pfw : K2hFtFw} {d : Nat}
    (hfind : s.cache.curfwmap.find? path = some pfw) (hopened : pfw.opened_fd = some d) :
    s.cache.kernel.owners.find? d = some (.opened path) :=
  hsound (.opened path) d (by simp [table, held, hfind, hopened])

theorem owner_inotify {s : FdSystem} (hsound : s.table.Sound) {path : Bytes} {pfw : K2hFtFw} {i : Nat}
    (hfind : s.cache.curfwmap.find? path = some pfw) (hinotify : pfw.inotify_fd = some i) :
    s.cache.kernel.owners.find? i = some (.inotify path) :=
  hsound (.inotify path) i (by simp [table, held, hfind, hinotify])

theorem wf_closeFd {k : FdKernel} (h : k.Wf) (fd : Option Nat) : (closeFd k fd).Wf := by
  cases fd with
  | none => exact h
  | some n => exact h.close n

theorem names_closeFd (k : FdKernel) (fd : Option Nat) : (closeFd k fd).names = k.names := by
  cases fd <;> rfl

theorem files_closeFd (k : FdKernel) (fd : Option Nat) : (closeFd k fd).files = k.files := by
  cases fd <;> rfl

theorem foldl_report (fds : List Nat) (k : FdKernel) :
    (fds.foldl Kernel.report k).names = k.names ∧ (fds.foldl Kernel.report k).files = k.files ∧
      (∀ d, (fds.foldl Kernel.report k).fileOf d = k.fileOf d) ∧
      (k.Wf → (fds.foldl Kernel.report k).Wf) := by
  induction fds generalizing k with
  | nil => exact ⟨rfl, rfl, fun _ => rfl, id⟩
  | cons fd fds ih =>
      rcases ih (k.report fd) with ⟨hnames, hfiles, hfile, hwf⟩
      refine ⟨hnames.trans (by simp [Kernel.report]), hfiles.trans (by simp [Kernel.report]),
        fun d => (hfile d).trans (by simp [Kernel.report]), fun h => hwf (h.updateWatcher fd _)⟩

theorem names_removeWatch (c : K2hFtFdCache) (pfw : K2hFtFw) :
    (c.removeWatch pfw).names = c.kernel.names ∧ (c.removeWatch pfw).files = c.kernel.files ∧
      (c.kernel.Wf → (c.removeWatch pfw).Wf) := by
  unfold K2hFtFdCache.removeWatch
  cases pfw.inotify_fd with
  | none => exact ⟨rfl, rfl, id⟩
  | some i =>
      cases pfw.watch_fd with
      | none =>
          simp only
          split
          · exact ⟨rfl, rfl, id⟩
          · exact ⟨by simp [Kernel.disarm], by simp [Kernel.disarm], fun h => h.updateWatcher _ _⟩
      | some watch_fd =>
          simp only
          split
          · exact ⟨by simp [Kernel.rmWatch], by simp [Kernel.rmWatch], fun h => h.updateWatcher _ _⟩
          · exact ⟨by simp [Kernel.rmWatch, Kernel.disarm], by simp [Kernel.rmWatch, Kernel.disarm],
              fun h => (h.updateWatcher _ _).updateWatcher _ _⟩

theorem names_deleteFileWatchEpoll (c : K2hFtFdCache) (pfw : K2hFtFw) :
    (c.deleteFileWatchEpoll pfw).names = c.kernel.names ∧
      (c.deleteFileWatchEpoll pfw).files = c.kernel.files ∧
      (c.kernel.Wf → (c.deleteFileWatchEpoll pfw).Wf) := by
  rcases names_removeWatch c pfw with ⟨hnames, hfiles, hwf⟩
  unfold K2hFtFdCache.deleteFileWatchEpoll
  refine ⟨by simp [names_closeFd, hnames], by simp [files_closeFd, hfiles], fun h => ?_⟩
  exact wf_closeFd (wf_closeFd (wf_closeFd (hwf h) _) _) _

theorem names_removeEntries (entries : List (Bytes × K2hFtFw)) (c : K2hFtFdCache) :
    (entries.foldl K2hFtFdCache.removeEntry c).kernel.names = c.kernel.names ∧
      (entries.foldl K2hFtFdCache.removeEntry c).kernel.files = c.kernel.files ∧
      (c.kernel.Wf → (entries.foldl K2hFtFdCache.removeEntry c).kernel.Wf) := by
  induction entries generalizing c with
  | nil => exact ⟨rfl, rfl, id⟩
  | cons entry entries ih =>
      rcases names_deleteFileWatchEpoll c entry.2 with ⟨hnames, hfiles, hwf⟩
      rcases ih (c.removeEntry entry) with ⟨hnames', hfiles', hwf'⟩
      exact ⟨hnames'.trans hnames, hfiles'.trans hfiles, fun h => hwf' (hwf h)⟩

/-! ## Descriptors -/

theorem held_step {s s' : FdSystem} {action : FdAction} (hmoves : s.Moves s' action) {w : FdHolder}
    {d : Nat} (hheld : s.held w = some d) (hkept : w ∉ s.released action) : s'.held w = some d := by
  cases hmoves with
  | acquire w' d' hstep hstrays =>
      simp only [HandleTable.step, Option.ite_none_right_eq_some, Option.some.injEq] at hstep
      rcases hstep with ⟨⟨hempty, -⟩, htable⟩
      have hne : w ≠ w' := by
        rintro rfl
        rw [show s.table.held w = s.held w from rfl, hheld] at hempty
        cases hempty
      have hsame : s'.table.held w = s.table.held w := by
        rw [← htable]
        exact HandleTable.hold_acquire_ne _ d' hne
      exact hsame.trans hheld
  | release hrelease =>
      have hsame : s'.table.held w = s.table.held w := by
        rw [hrelease]
        exact HandleTable.held_release_of_not_mem _ hkept _
      exact hsame.trans hheld
  | leak fd haction hsame howners =>
      rw [hsame]
      exact hheld

theorem keeps_closeFd (k : FdKernel) (fd : Option Nat) : k.Keeps (closeFd k fd) := by
  cases fd with
  | none => exact .refl k
  | some n => exact Kernel.keeps_close k n

theorem keeps_deleteFileWatchEpoll (c : K2hFtFdCache) (pfw : K2hFtFw) :
    c.kernel.Keeps (c.deleteFileWatchEpoll pfw) := by
  have hwatch : c.kernel.Keeps (c.removeWatch pfw) := by
    unfold K2hFtFdCache.removeWatch
    split
    · exact .refl _
    · have hdisarm : ∀ fd, c.kernel.Keeps (if c.epollfd = none then c.kernel else c.kernel.disarm fd) := by
        intro fd
        split
        · exact .refl _
        · exact Kernel.keeps_updateWatcher _ _ _
      simp only
      split
      · exact hdisarm _
      · exact (hdisarm _).trans (Kernel.keeps_updateWatcher _ _ _)
  exact ((hwatch.trans (keeps_closeFd _ _)).trans (keeps_closeFd _ _)).trans (keeps_closeFd _ _)

theorem keeps_removeEntries (entries : List (Bytes × K2hFtFw)) (c : K2hFtFdCache) :
    c.kernel.Keeps (entries.foldl K2hFtFdCache.removeEntry c).kernel := by
  induction entries generalizing c with
  | nil => exact .refl _
  | cons entry entries ih =>
      exact (keeps_deleteFileWatchEpoll c entry.2).trans (ih (c.removeEntry entry))

theorem keeps_foldl_report (fds : List Nat) (k : FdKernel) : k.Keeps (fds.foldl Kernel.report k) := by
  induction fds generalizing k with
  | nil => exact .refl k
  | cons fd fds ih => exact (Kernel.keeps_updateWatcher k fd _).trans (ih _)

theorem keeps_checkInotifyEvents (s : FdSystem) (fd : Nat) (rest : List (Option Nat)) :
    s.cache.kernel.Keeps (s.checkInotifyEvents fd rest).cache.kernel := by
  unfold checkInotifyEvents
  split
  · exact .refl _
  · split
    · exact .refl _
    · exact Kernel.keeps_updateWatcher _ _ _

/-- A descriptor that was open before a step and is open for the same owner after it is on the same
file. -/
theorem fileOf_step {s s' : FdSystem} {action : FdAction} (hstep : s.step action = some s') {d : Nat}
    {w : FdHolder} (hbefore : s.cache.kernel.owners.find? d = some w)
    (hafter : s'.cache.kernel.owners.find? d = some w) :
    s'.cache.kernel.fileOf d = s.cache.kernel.fileOf d := by
  have hkeeps : s.cache.kernel.Keeps s'.cache.kernel →
      s'.cache.kernel.fileOf d = s.cache.kernel.fileOf d := fun hkeeps => (hkeeps d w hafter).2
  rcases step_cases hstep with hworker | hcall | ⟨c, kernel, rfl, hchange, rfl⟩
  · cases hworker with
    | init fd kernel hstop hworker hepoll hnew => exact Kernel.fileOf_newDescriptor hnew hbefore
    | start fd registered kernel hworker hnew => exact Kernel.fileOf_newDescriptor hnew hbefore
    | add answer path todo cache hworker hadd =>
        rcases K2hFtFdCache.addFileWatchEpoll_cases hadd with ⟨rfl, -⟩ |
          ⟨inotify_fd, kernel, hnew, -, rfl⟩ |
          ⟨pfw, inotify_fd, watch_fd, kernel, watched, -, -, -, -, hnew, hwatch, rfl⟩ |
          ⟨pfw, inotify_fd, watch_fd, kernel, watched, -, -, -, hnew, hwatch, rfl⟩
        · rfl
        · exact ((Kernel.keeps_close kernel inotify_fd) d w hafter).2.trans
            (Kernel.fileOf_newDescriptor hnew hbefore)
        · have hremoved := (Kernel.keeps_addWatch hwatch).trans
            (((Kernel.keeps_rmWatch watched inotify_fd watch_fd).trans
              (Kernel.keeps_close _ watch_fd)).trans (Kernel.keeps_close _ inotify_fd))
          exact (hremoved d w hafter).2.trans (Kernel.fileOf_newDescriptor hnew hbefore)
        · have harmed := (Kernel.keeps_addWatch hwatch).trans (Kernel.keeps_arm watched inotify_fd)
          exact (harmed d w hafter).2.trans (Kernel.fileOf_newDescriptor hnew hbefore)
    | wait events hworker hnodup hlength hready => exact hkeeps (keeps_foldl_report _ _)
    | read fd rest hworker => exact hkeeps (keeps_checkInotifyEvents s fd rest)
    | delete fd rest hworker =>
        refine hkeeps ?_
        unfold K2hFtFdCache.deleteFileWatch
        split
        · exact .refl _
        · exact keeps_deleteFileWatchEpoll _ _
    | leave hworker => exact hkeeps (keeps_closeFd _ _)
    | close hstop hworker =>
        exact hkeeps ((keeps_removeEntries s.cache.curfwmap.entries s.cache).trans (keeps_closeFd _ _))
    | _ => rfl
  · cases hcall with
    | call c filepath data answer cache r phase hnew hlock hget hphase =>
        rcases K2hFtFdCache.getFileWatch_cases hget with ⟨rfl, -⟩ |
          ⟨fd, pfw, opened, -, -, hopen, -, rfl⟩ | ⟨fd, opened, -, -, hopen, -, rfl⟩
        · rfl
        · rcases Option.map_eq_some_iff.1 hopen with ⟨kernel, hkernel, rfl⟩
          exact Kernel.fileOf_openFile hkernel hbefore
        · rcases Option.map_eq_some_iff.1 hopen with ⟨kernel, hkernel, rfl⟩
          exact Kernel.fileOf_openFile hkernel hbefore
    | direct c answer call fd kernel hcall hphase hopen => exact Kernel.fileOf_openFile hopen hbefore
    | write c call fd rest n kernel hcall hphase hrest hn happ =>
        exact hkeeps (Kernel.keeps_append happ)
    | unlock c call fd result hcall hphase => exact hkeeps (keeps_closeFd _ _)
    | _ => rfl
  · exact hkeeps (Kernel.keeps_change hchange)

/-! ## Calls and entries -/

/-- The worker leaves the calls, the locks of files and what is written alone. -/
theorem worker_frame {s s' : FdSystem} {action : FdAction} (h : s.WorkerStep action s') :
    s'.calls = s.calls ∧ s'.wrlocks = s.wrlocks ∧ s'.cache.kernel.files = s.cache.kernel.files := by
  cases h with
  | init fd kernel hstop hworker hepoll hnew =>
      obtain ⟨-, rfl⟩ := Kernel.newDescriptor_eq_some.1 hnew
      exact ⟨rfl, rfl, rfl⟩
  | start fd registered kernel hworker hnew =>
      obtain ⟨-, rfl⟩ := Kernel.newDescriptor_eq_some.1 hnew
      exact ⟨rfl, rfl, rfl⟩
  | add answer path todo cache hworker hadd =>
      refine ⟨rfl, rfl, ?_⟩
      rcases K2hFtFdCache.addFileWatchEpoll_cases hadd with ⟨rfl, -⟩ |
        ⟨inotify_fd, kernel, hnew, -, rfl⟩ |
        ⟨pfw, inotify_fd, watch_fd, kernel, watched, -, -, -, -, hnew, hwatch, rfl⟩ |
        ⟨pfw, inotify_fd, watch_fd, kernel, watched, -, -, -, hnew, hwatch, rfl⟩
      · rfl
      · obtain ⟨-, rfl⟩ := Kernel.newDescriptor_eq_some.1 hnew
        rfl
      · obtain ⟨-, rfl⟩ := Kernel.newDescriptor_eq_some.1 hnew
        rcases Option.map_eq_some_iff.1 hwatch with ⟨f, -, rfl⟩
        simp [Kernel.close, Kernel.rmWatch]
      · rcases Kernel.watching_arm hnew hwatch with ⟨f, hwatching⟩
        exact hwatching.files
  | wait events hworker hnodup hlength hready => exact ⟨rfl, rfl, (foldl_report _ _).2.1⟩
  | read fd rest hworker =>
      unfold checkInotifyEvents
      repeat' split
      all_goals simp [Kernel.readEvents]
  | delete fd rest hworker =>
      refine ⟨rfl, rfl, ?_⟩
      unfold K2hFtFdCache.deleteFileWatch
      split
      · rfl
      · exact (names_deleteFileWatchEpoll _ _).2.1
  | leave hworker => exact ⟨rfl, rfl, files_closeFd _ _⟩
  | close hstop hworker =>
      refine ⟨rfl, rfl, (files_closeFd _ _).trans ?_⟩
      exact (names_removeEntries s.cache.curfwmap.entries s.cache).2.1
  | _ => exact ⟨rfl, rfl, rfl⟩

/-- The entries that a step deletes. -/
def removedPaths (s : FdSystem) : FdAction → List Bytes
  | .delete =>
      match s.worker with
      | .deleting fd _ => (s.cache.findInotify fd).toList.map Prod.fst
      | _ => []
  | .close => s.cache.curfwmap.keys
  | _ => []

/-- An entry that a step does not delete keeps its object and its open file. -/
theorem entry_step {s s' : FdSystem} {action : FdAction} (hstep : s.step action = some s')
    {path : Bytes} {pfw : K2hFtFw} {d : Nat} (hfind : s.cache.curfwmap.find? path = some pfw)
    (hopened : pfw.opened_fd = some d) (hkept : path ∉ s.removedPaths action) :
    ∃ pfw', s'.cache.curfwmap.find? path = some pfw' ∧ pfw'.id = pfw.id ∧ pfw'.opened_fd = some d := by
  have hsame : s'.cache.curfwmap = s.cache.curfwmap →
      ∃ pfw', s'.cache.curfwmap.find? path = some pfw' ∧ pfw'.id = pfw.id ∧
        pfw'.opened_fd = some d :=
    fun hmap => ⟨pfw, hmap ▸ hfind, rfl, hopened⟩
  rcases step_cases hstep with hworker | hcall | ⟨c, kernel, rfl, hchange, rfl⟩
  · cases hworker with
    | add answer path' todo cache hworker hadd =>
        rcases K2hFtFdCache.addFileWatchEpoll_cases hadd with ⟨rfl, -⟩ |
          ⟨inotify_fd, kernel, hnew, -, rfl⟩ |
          ⟨pfw', inotify_fd, watch_fd, kernel, watched, -, -, -, -, hnew, hwatch, rfl⟩ |
          ⟨pfw', inotify_fd, watch_fd, kernel, watched, hfind', -, -, hnew, hwatch, rfl⟩
        · exact hsame rfl
        · exact hsame rfl
        · exact hsame rfl
        · -- the entry of the path gets its watch
          by_cases hpath : path = path'
          · rw [← hpath, hfind] at hfind'
            cases hfind'
            subst hpath
            refine ⟨{ pfw with
              inotify_fd := some inotify_fd
              watch_fd := some watch_fd }, ?_, rfl, hopened⟩
            exact OrdMap.find?_insert_self s.cache.curfwmap path _
          · exact ⟨pfw, (OrdMap.find?_insert_ne _ _ hpath).trans hfind, rfl, hopened⟩
    | read fd rest hworker =>
        refine hsame ?_
        unfold checkInotifyEvents
        repeat' split
        all_goals rfl
    | delete fd rest hworker =>
        unfold K2hFtFdCache.deleteFileWatch
        cases hsearch : s.cache.findInotify fd with
        | none => exact ⟨pfw, hfind, rfl, hopened⟩
        | some entry =>
            have hne : path ≠ entry.1 := by
              rintro rfl
              exact hkept (by simp [removedPaths, hworker, hsearch])
            exact ⟨pfw, (OrdMap.find?_erase_ne _ hne).trans hfind, rfl, hopened⟩
    | close hstop hworker =>
        have hmem : path ∈ s.cache.curfwmap.keys := OrdMap.mem_keys_iff.2 ⟨pfw, hfind⟩
        exact absurd hmem hkept
    | _ => exact hsame rfl
  · cases hcall with
    | call c filepath data answer cache r phase hnew hlock hget hphase =>
        rcases K2hFtFdCache.getFileWatch_cases hget with ⟨rfl, -⟩ |
          ⟨fd, pfw', opened, hfind', hnone, hopen, -, rfl⟩ | ⟨fd, opened, -, hfind', hopen, -, rfl⟩
        · exact hsame rfl
        · have hne : path ≠ filepath := by
            rintro rfl
            rw [hfind] at hfind'
            cases hfind'
            rw [hopened] at hnone
            cases hnone
          exact ⟨pfw, (OrdMap.find?_insert_ne _ _ hne).trans hfind, rfl, hopened⟩
        · have hne : path ≠ filepath := by
            rintro rfl
            rw [hfind] at hfind'
            cases hfind'
          exact ⟨pfw, (OrdMap.find?_insert_ne _ _ hne).trans hfind, rfl, hopened⟩
    | _ => exact hsame rfl
  · exact hsame rfl

end FdSystem

end K2hFtFuse

import K2hFtFuse.FdCache

/-!
# FdCache.Steps — what a step of the cache can do

The inversions of the step function and of the two methods with many ways through. Each has the
conditions under which a step is taken and the state it ends in, so that an invariant is proved by cases
on them.
-/

namespace K2hFtFuse

open ByteSeq

namespace K2hFtFdCache

/-- The three ways through `GetFileWatch`: nothing is opened, an entry whose file is not open gets it
opened, a new entry is made. -/
theorem getFileWatch_cases {c c' : K2hFtFdCache} {answer : OpenAnswer} {filepath : Bytes}
    {r : Option Nat} (h : c.getFileWatch answer filepath = some (c', r)) :
    (c' = c ∧ ∀ id, r = some id →
      ∃ pfw, c.curfwmap.find? filepath = some pfw ∧ pfw.id = id ∧ pfw.opened_fd ≠ none) ∨
    (∃ fd pfw opened, c.curfwmap.find? filepath = some pfw ∧ pfw.opened_fd = none ∧
      openOutput c.kernel (.opened filepath) pfw.filepath fd answer = some opened ∧
      r = some pfw.id ∧
      c' = { c with
        kernel := opened.1
        curfwmap := c.curfwmap.insert filepath
          { pfw with
            opened_fd := some fd
            st_dev := opened.2.1
            st_ino := opened.2.2 } }) ∨
    (∃ fd opened, filepath ≠ [] ∧ c.curfwmap.find? filepath = none ∧
      openOutput c.kernel (.opened filepath) filepath fd answer = some opened ∧
      r = some c.nextId ∧
      c' = { c with
        kernel := opened.1
        nextId := c.nextId + 1
        curfwmap := c.curfwmap.insert filepath
          { id := c.nextId
            filepath := filepath
            inotify_fd := none
            watch_fd := none
            opened_fd := some fd
            st_dev := opened.2.1
            st_ino := opened.2.2 } }) := by
  unfold getFileWatch at h
  split at h
  · cases h
    exact .inl ⟨rfl, by simp⟩
  · rename_i hpath
    split at h
    · rename_i pfw hfind
      split at h
      · rename_i fd hopened
        cases h
        refine .inl ⟨rfl, ?_⟩
        rintro id hid
        cases hid
        exact ⟨pfw, hfind, rfl, by simp [hopened]⟩
      · rename_i hopened
        split at h
        · cases h
          exact .inl ⟨rfl, by simp⟩
        · rename_i fd hfd
          rcases Option.map_eq_some_iff.1 h with ⟨opened, hopen, heq⟩
          cases heq
          exact .inr (.inl ⟨fd, pfw, opened, hfind, hopened, hopen, rfl, rfl⟩)
    · rename_i hfind
      split at h
      · cases h
        exact .inl ⟨rfl, by simp⟩
      · rename_i fd hfd
        rcases Option.map_eq_some_iff.1 h with ⟨opened, hopen, heq⟩
        cases heq
        exact .inr (.inr ⟨fd, opened, hpath, hfind, hopen, rfl, rfl⟩)

/-- The four ways through `AddFileWatchEpoll`: nothing to do or no inotify descriptor, one of the two
later calls fails, the watch is added. -/
theorem addFileWatchEpoll_cases {c c' : K2hFtFdCache} {answer : AddAnswer} {path : Bytes}
    (h : c.addFileWatchEpoll answer path = some c') :
    (c' = c ∧ ∀ pfw inotify_fd watch_fd, c.curfwmap.find? path = some pfw →
      c.epollfd ≠ none → pfw.inotify_fd = none → answer ≠ .noEpoll inotify_fd watch_fd) ∨
    (∃ inotify_fd kernel, c.kernel.newDescriptor (.inotify path) (.watcher .fresh) inotify_fd =
        some kernel ∧ answer = .noWatch inotify_fd ∧
      c' = { c with kernel := kernel.close inotify_fd }) ∨
    (∃ pfw inotify_fd watch_fd kernel watched, c.curfwmap.find? path = some pfw ∧
      pfw.inotify_fd = none ∧ c.epollfd ≠ none ∧ answer = .noEpoll inotify_fd watch_fd ∧
      c.kernel.newDescriptor (.inotify path) (.watcher .fresh) inotify_fd = some kernel ∧
      kernel.addWatch inotify_fd watch_fd pfw.filepath = some watched ∧
      c' = { c with
        kernel := ((watched.rmWatch inotify_fd watch_fd).close watch_fd).close inotify_fd }) ∨
    (∃ pfw inotify_fd watch_fd kernel watched, c.curfwmap.find? path = some pfw ∧
      pfw.inotify_fd = none ∧ answer = .added inotify_fd watch_fd ∧
      c.kernel.newDescriptor (.inotify path) (.watcher .fresh) inotify_fd = some kernel ∧
      kernel.addWatch inotify_fd watch_fd pfw.filepath = some watched ∧
      c' = { c with
        kernel := watched.arm inotify_fd
        curfwmap := c.curfwmap.insert path
          { pfw with
            inotify_fd := some inotify_fd
            watch_fd := some watch_fd } }) := by
  unfold addFileWatchEpoll at h
  split at h
  · rename_i hfind
    refine .inl ⟨(Option.some.inj h).symm, ?_⟩
    intro pfw inotify_fd watch_fd hsome
    rw [hfind] at hsome
    cases hsome
  · rename_i pfw hfind
    split at h
    · rename_i hepoll
      exact .inl ⟨(Option.some.inj h).symm, fun _ _ _ _ hsome => absurd hepoll hsome⟩
    · rename_i hepoll
      split at h
      · rename_i hinotify
        refine .inl ⟨(Option.some.inj h).symm, ?_⟩
        intro pfw' inotify_fd watch_fd hsome _ hnone
        cases hfind.symm.trans hsome
        exact absurd hnone hinotify
      · rename_i hinotify
        have hnone : pfw.inotify_fd = none := by simpa using hinotify
        cases answer with
        | noInotify => exact .inl ⟨(Option.some.inj h).symm, by simp⟩
        | noWatch inotify_fd =>
            rcases Option.bind_eq_some_iff.1 h with ⟨kernel, hnew, heq⟩
            cases heq
            exact .inr (.inl ⟨inotify_fd, kernel, hnew, rfl, rfl⟩)
        | noEpoll inotify_fd watch_fd =>
            rcases Option.bind_eq_some_iff.1 h with ⟨kernel, hnew, h⟩
            rcases Option.bind_eq_some_iff.1 h with ⟨watched, hwatch, heq⟩
            cases heq
            exact .inr (.inr (.inl ⟨pfw, inotify_fd, watch_fd, kernel, watched, hfind, hnone, hepoll,
              rfl, hnew, hwatch, rfl⟩))
        | added inotify_fd watch_fd =>
            rcases Option.bind_eq_some_iff.1 h with ⟨kernel, hnew, h⟩
            rcases Option.bind_eq_some_iff.1 h with ⟨watched, hwatch, heq⟩
            cases heq
            exact .inr (.inr (.inr ⟨pfw, inotify_fd, watch_fd, kernel, watched, hfind, hnone, rfl, hnew,
              hwatch, rfl⟩))

end K2hFtFdCache

namespace FdSystem

/-- The steps of the worker and of the thread that starts and stops it, one after the other. -/
inductive WorkerStep (s : FdSystem) : FdAction → FdSystem → Prop
  | restart (fd : Nat) (hstop : s.run_thread = false) (hworker : s.worker = .off ∨ s.worker = .exited)
      (hepoll : s.cache.epollfd ≠ none) :
      WorkerStep s (.init fd) { s with run_thread := true, worker := .starting }
  | init (fd : Nat) (kernel : FdKernel) (hstop : s.run_thread = false)
      (hworker : s.worker = .off ∨ s.worker = .exited) (hepoll : s.cache.epollfd = none)
      (hnew : s.cache.kernel.newDescriptor .epoll .other fd = some kernel) :
      WorkerStep s (.init fd)
        { s with
          cache := { s.cache with kernel := kernel, epollfd := some fd }
          run_thread := true
          worker := .starting }
  | start (fd : Nat) (registered : Bool) (kernel : FdKernel) (hworker : s.worker = .starting)
      (hnew : s.cache.kernel.newDescriptor .signal .other fd = some kernel) :
      WorkerStep s (.start fd registered)
        { s with
          cache := { s.cache with kernel := kernel }
          sigfd := if registered then some fd else s.sigfd
          worker := if registered then .loop else .exited }
  | startFails (hworker : s.worker = .starting) : WorkerStep s .startFails { s with worker := .exited }
  | loop (hworker : s.worker = .loop) :
      WorkerStep s .loop
        { s with worker := if s.run_thread then .adding s.cache.curfwmap.keys else .leaving }
  | added (answer : AddAnswer) (hworker : s.worker = .adding []) :
      WorkerStep s (.add answer) { s with worker := .waiting }
  | add (answer : AddAnswer) (path : Bytes) (todo : List Bytes) (cache : K2hFtFdCache)
      (hworker : s.worker = .adding (path :: todo))
      (hadd : s.cache.addFileWatchEpoll answer path = some cache) :
      WorkerStep s (.add answer) { s with cache := cache, worker := .adding todo }
  | wait (events : List (Option Nat)) (hworker : s.worker = .waiting) (hnodup : events.Nodup)
      (hlength : events.length ≤ WAIT_EVENT_MAX) (hready : ∀ e ∈ events, s.canReport e = true) :
      WorkerStep s (.wait events)
        { s with
          cache :=
            { s.cache with kernel := (events.filterMap id).foldl Kernel.report s.cache.kernel }
          worker := .handling events }
  | waitFails (hworker : s.worker = .waiting) : WorkerStep s .waitFails { s with worker := .leaving }
  | handled (hworker : s.worker = .handling []) : WorkerStep s .handle { s with worker := .loop }
  | signal (rest : List (Option Nat)) (hworker : s.worker = .handling (none :: rest)) :
      WorkerStep s .handle { s with worker := if s.run_thread then .handling rest else .loop }
  | read (fd : Nat) (rest : List (Option Nat)) (hworker : s.worker = .handling (some fd :: rest)) :
      WorkerStep s .handle (s.checkInotifyEvents fd rest)
  | checkNone (fd : Nat) (rest : List (Option Nat)) (hworker : s.worker = .checking fd rest)
      (hfind : s.cache.findInotify fd = none) :
      WorkerStep s .check { s with worker := .handling rest }
  | check (fd : Nat) (rest : List (Option Nat)) (path : Bytes) (pfw : K2hFtFw)
      (hworker : s.worker = .checking fd rest) (hfind : s.cache.findInotify fd = some (path, pfw)) :
      WorkerStep s .check { s with worker := .stating path pfw.id fd rest }
  | stat (fails : Bool) (path : Bytes) (id fd : Nat) (rest : List (Option Nat)) (pfw : K2hFtFw)
      (hworker : s.worker = .stating path id fd rest) (hderef : s.deref path id = some pfw) :
      WorkerStep s (.stat fails)
        { s with worker := if s.isRemoved pfw fails then .deleting fd rest else .handling rest }
  | delete (fd : Nat) (rest : List (Option Nat)) (hworker : s.worker = .deleting fd rest) :
      WorkerStep s .delete { s with cache := s.cache.deleteFileWatch fd, worker := .handling rest }
  | leave (hworker : s.worker = .leaving) :
      WorkerStep s .leave
        { s with
          cache := { s.cache with kernel := closeFd s.cache.kernel s.sigfd }
          sigfd := none
          worker := .exited }
  | stop : WorkerStep s .stop { s with run_thread := false }
  | close (hstop : s.run_thread = false) (hworker : s.worker = .off ∨ s.worker = .exited) :
      WorkerStep s .close { s with cache := s.cache.closeEntries }

theorem stepWorker_cases {s s' : FdSystem} {action : FdAction} (h : s.stepWorker action = some s') :
    s.WorkerStep action s' := by
  cases action with
  | init fd =>
      simp only [stepWorker] at h
      split at h
      · rename_i hstop hworker
        split at h
        · rename_i n hepoll
          rw [← Option.some.inj h]
          exact .restart fd hstop (.inl hworker) (by simp [hepoll])
        · rename_i hepoll
          rcases Option.map_eq_some_iff.1 h with ⟨kernel, hnew, rfl⟩
          exact .init fd kernel hstop (.inl hworker) hepoll hnew
      · rename_i hstop hworker
        split at h
        · rename_i n hepoll
          rw [← Option.some.inj h]
          exact .restart fd hstop (.inr hworker) (by simp [hepoll])
        · rename_i hepoll
          rcases Option.map_eq_some_iff.1 h with ⟨kernel, hnew, rfl⟩
          exact .init fd kernel hstop (.inr hworker) hepoll hnew
      · cases h
  | start fd registered =>
      simp only [stepWorker, Option.ite_none_right_eq_some, Option.map_eq_some_iff] at h
      rcases h with ⟨hworker, kernel, hnew, rfl⟩
      exact .start fd registered kernel hworker hnew
  | startFails =>
      simp only [stepWorker, Option.ite_none_right_eq_some, Option.some.injEq] at h
      rcases h with ⟨hworker, rfl⟩
      exact .startFails hworker
  | loop =>
      simp only [stepWorker, Option.ite_none_right_eq_some, Option.some.injEq] at h
      rcases h with ⟨hworker, rfl⟩
      exact .loop hworker
  | add answer =>
      simp only [stepWorker] at h
      split at h
      · rename_i hworker
        rw [← Option.some.inj h]
        exact .added answer hworker
      · rename_i path todo hworker
        rcases Option.map_eq_some_iff.1 h with ⟨cache, hadd, rfl⟩
        exact .add answer path todo cache hworker hadd
      · cases h
  | wait events =>
      simp only [stepWorker, Option.ite_none_right_eq_some, Option.some.injEq] at h
      rcases h with ⟨⟨hworker, hnodup, hlength, hready⟩, rfl⟩
      exact .wait events hworker hnodup hlength hready
  | waitFails =>
      simp only [stepWorker, Option.ite_none_right_eq_some, Option.some.injEq] at h
      rcases h with ⟨hworker, rfl⟩
      exact .waitFails hworker
  | handle =>
      simp only [stepWorker] at h
      split at h
      · rename_i hworker
        rw [← Option.some.inj h]
        exact .handled hworker
      · rename_i rest hworker
        rw [← Option.some.inj h]
        exact .signal rest hworker
      · rename_i fd rest hworker
        rw [← Option.some.inj h]
        exact .read fd rest hworker
      · cases h
  | check =>
      simp only [stepWorker] at h
      split at h
      · rename_i fd rest hworker
        split at h
        · rename_i hfind
          rw [← Option.some.inj h]
          exact .checkNone fd rest hworker hfind
        · rename_i path pfw hfind
          rw [← Option.some.inj h]
          exact .check fd rest path pfw hworker hfind
      · cases h
  | stat fails =>
      simp only [stepWorker] at h
      split at h
      · rename_i path id fd rest hworker
        rcases Option.map_eq_some_iff.1 h with ⟨pfw, hderef, rfl⟩
        exact .stat fails path id fd rest pfw hworker hderef
      · cases h
  | delete =>
      simp only [stepWorker] at h
      split at h
      · rename_i fd rest hworker
        rw [← Option.some.inj h]
        exact .delete fd rest hworker
      · cases h
  | leave =>
      simp only [stepWorker, Option.ite_none_right_eq_some, Option.some.injEq] at h
      rcases h with ⟨hworker, rfl⟩
      exact .leave hworker
  | stop =>
      rw [← Option.some.inj h]
      exact .stop
  | close =>
      simp only [stepWorker] at h
      split at h
      · rename_i hstop hworker
        rw [← Option.some.inj h]
        exact .close hstop (.inl hworker)
      · rename_i hstop hworker
        rw [← Option.some.inj h]
        exact .close hstop (.inr hworker)
      · cases h
  | _ => cases h

/-- The steps of the callers of `Write` and `Register`. -/
inductive CallStep (s : FdSystem) : FdAction → FdSystem → Prop
  | call (c : Nat) (filepath : Bytes) (data : Option Bytes) (answer : OpenAnswer)
      (cache : K2hFtFdCache) (r : Option Nat) (phase : CallPhase) (hnew : s.calls.find? c = none)
      (hlock : s.worker.locks = false) (hget : s.cache.getFileWatch answer filepath = some (cache, r))
      (hphase : (∃ id, r = some id ∧ phase = .got id) ∨ (r = none ∧ data ≠ none ∧ phase = .refused) ∨
        (r = none ∧ data = none ∧ phase = .done false)) :
      CallStep s (.call c filepath data answer)
        { s with
          cache := cache
          calls := s.calls.insert c
            { filepath := filepath
              data := data
              phase := phase
              direct_fd := none } }
  | directFails (c : Nat) (answer : OpenAnswer) (call : FdCall) (hcall : s.calls.find? c = some call)
      (hphase : call.phase = .refused) :
      CallStep s (.direct c answer) (s.setCall c { call with phase := .done false })
  | direct (c : Nat) (answer : OpenAnswer) (call : FdCall) (fd : Nat) (kernel : FdKernel)
      (hcall : s.calls.find? c = some call) (hphase : call.phase = .refused)
      (hopen : s.cache.kernel.openFile (.direct c) call.filepath fd answer.new = some kernel) :
      CallStep s (.direct c answer)
        { s with
          cache := { s.cache with kernel := kernel }
          calls := s.calls.insert c
            { call with
              phase := .ready fd
              direct_fd := some fd } }
  | fetch (c : Nat) (call : FdCall) (id : Nat) (hcall : s.calls.find? c = some call)
      (hphase : call.phase = .got id) :
      CallStep s (.fetch c)
        (s.setCall c { call with phase := fetchFrom call (s.deref call.filepath id) })
  | lock (c : Nat) (call : FdCall) (fd : Nat) (data : Bytes) (wrlocks : OrdMap Nat Nat)
      (hcall : s.calls.find? c = some call) (hphase : call.phase = .ready fd)
      (hdata : call.data = some data) (hlock : s.takeLock c fd = some wrlocks) :
      CallStep s (.lock c)
        { s with
          wrlocks := wrlocks
          calls := s.calls.insert c { call with phase := .writing fd data } }
  | writeFails (c : Nat) (call : FdCall) (fd : Nat) (rest : Bytes)
      (hcall : s.calls.find? c = some call) (hphase : call.phase = .writing fd rest)
      (hrest : rest ≠ []) :
      CallStep s (.write c none) (s.setCall c { call with phase := .wrote fd false })
  | write (c : Nat) (call : FdCall) (fd : Nat) (rest : Bytes) (n : Nat) (kernel : FdKernel)
      (hcall : s.calls.find? c = some call) (hphase : call.phase = .writing fd rest)
      (hrest : rest ≠ []) (hn : n ≤ rest.length)
      (happ : s.cache.kernel.append fd (c, rest.take n) = some kernel) :
      CallStep s (.write c (some n))
        { s with
          cache := { s.cache with kernel := kernel }
          calls := s.calls.insert c { call with phase := .writing fd (rest.drop n) } }
  | unlock (c : Nat) (call : FdCall) (fd : Nat) (result : Bool)
      (hcall : s.calls.find? c = some call)
      (hphase : call.phase = .writing fd [] ∧ result = true ∨ call.phase = .wrote fd result) :
      CallStep s (.unlock c) (s.finish c call fd result)

theorem stepCall_cases {s s' : FdSystem} {action : FdAction} (h : s.stepCall action = some s') :
    s.CallStep action s' := by
  cases action with
  | call c filepath data answer =>
      simp only [stepCall, Option.ite_none_right_eq_some, Option.map_eq_some_iff] at h
      rcases h with ⟨⟨hnew, hlock⟩, ⟨cache, r⟩, hget, rfl⟩
      refine .call c filepath data answer cache r _ hnew hlock hget ?_
      cases r with
      | some id => exact .inl ⟨id, rfl, rfl⟩
      | none =>
          cases data with
          | some data => exact .inr (.inl ⟨rfl, by simp, rfl⟩)
          | none => exact .inr (.inr ⟨rfl, rfl, rfl⟩)
  | direct c answer =>
      simp only [stepCall] at h
      split at h
      · rename_i call hcall
        split at h
        · rename_i hphase
          split at h
          · rw [← Option.some.inj h]
            exact .directFails c answer call hcall hphase
          · rename_i fd hfd
            rcases Option.map_eq_some_iff.1 h with ⟨kernel, hopen, rfl⟩
            exact .direct c answer call fd kernel hcall hphase hopen
        · cases h
      · cases h
  | fetch c =>
      simp only [stepCall] at h
      split at h
      · rename_i call hcall
        split at h
        · rename_i id hphase
          rw [← Option.some.inj h]
          exact .fetch c call id hcall hphase
        · cases h
      · cases h
  | lock c =>
      simp only [stepCall] at h
      split at h
      · rename_i call hcall
        split at h
        · rename_i fd data hphase hdata
          rcases Option.map_eq_some_iff.1 h with ⟨wrlocks, hlock, rfl⟩
          exact .lock c call fd data wrlocks hcall hphase hdata hlock
        · cases h
      · cases h
  | write c accepted =>
      simp only [stepCall] at h
      split at h
      · rename_i call hcall
        split at h
        · rename_i fd rest hphase
          split at h
          · cases h
          · rename_i hrest
            split at h
            · rw [← Option.some.inj h]
              exact .writeFails c call fd rest hcall hphase hrest
            · rename_i n
              split at h
              · rename_i hn
                rcases Option.map_eq_some_iff.1 h with ⟨kernel, happ, rfl⟩
                exact .write c call fd rest n kernel hcall hphase hrest hn happ
              · cases h
        · cases h
      · cases h
  | unlock c =>
      simp only [stepCall] at h
      split at h
      · rename_i call hcall
        split at h
        · rename_i fd hphase
          rw [← Option.some.inj h]
          exact .unlock c call fd true hcall (.inl ⟨hphase, rfl⟩)
        · rename_i fd result hphase
          rw [← Option.some.inj h]
          exact .unlock c call fd result hcall (.inr hphase)
        · cases h
      · cases h
  | _ => cases h

/-- A step is one of the worker, of a caller or of another program. -/
theorem step_cases {s s' : FdSystem} {action : FdAction} (h : s.step action = some s') :
    s.WorkerStep action s' ∨ s.CallStep action s' ∨
      ∃ c kernel, action = .change c ∧ s.cache.kernel.change c = some kernel ∧
        s' = { s with cache := { s.cache with kernel := kernel } } := by
  cases action with
  | change c =>
      rcases Option.map_eq_some_iff.1 h with ⟨kernel, hchange, rfl⟩
      exact .inr (.inr ⟨c, kernel, rfl, hchange, rfl⟩)
  | call c filepath data answer => exact .inr (.inl (stepCall_cases h))
  | direct c answer => exact .inr (.inl (stepCall_cases h))
  | fetch c => exact .inr (.inl (stepCall_cases h))
  | lock c => exact .inr (.inl (stepCall_cases h))
  | write c accepted => exact .inr (.inl (stepCall_cases h))
  | unlock c => exact .inr (.inl (stepCall_cases h))
  | _ => exact .inl (stepWorker_cases h)

end FdSystem

end K2hFtFuse

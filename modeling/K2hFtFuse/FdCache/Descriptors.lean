import K2hFtFuse.FdCache.Steps
import K2hFtFuse.Lib.HandleTable

/-!
# FdCache.Descriptors — which descriptors are open, and for whom

The members of the cache, the worker and the calls in flight are slots for descriptors. A step opens one
for an empty slot, or closes what some slots hold; `DeleteFileWatchEpoll` and `AddFileWatchEpoll` also
close the number of a watch, which is no descriptor.

This file defines:
* `held`, `table`: the slots, and the open descriptors with those for whom they were opened,
* `released`, `strays`: the slots that a step empties, and the watch numbers that it closes,
* `Spares`: no slot that stays holds such a number.

and shows that nothing stays open without a slot that holds it (`descriptors_accounted`), and that the
slots have their own open descriptors throughout a run exactly if the watch numbers are spared
(`slots_throughout_iff`).
-/

namespace K2hFtFuse

open ByteSeq Transition

/-! ## Slots -/

/-- The worker is past its start and not at its end. -/
def WatchPhase.runs : WatchPhase → Bool
  | .off => false
  | .starting => false
  | .exited => false
  | _ => true

namespace FdSystem

def held (s : FdSystem) : FdHolder → Option Nat
  | .foreign n => if n ∈ s.foreign then some n else none
  | .epoll => s.cache.epollfd
  | .signal => s.sigfd
  | .opened path => (s.cache.curfwmap.find? path).bind K2hFtFw.opened_fd
  | .inotify path => (s.cache.curfwmap.find? path).bind K2hFtFw.inotify_fd
  | .direct c => (s.calls.find? c).bind FdCall.direct_fd

def table (s : FdSystem) : HandleTable FdHolder Nat :=
  { held := s.held
    opened := s.cache.kernel.owners }

/-- The slots of an entry. -/
def entrySlots (entry : Bytes × K2hFtFw) : List FdHolder := [.inotify entry.1, .opened entry.1]

/-- The slots that a step empties. -/
def released (s : FdSystem) : FdAction → List FdHolder
  | .delete =>
      match s.worker with
      | .deleting fd _ => (s.cache.findInotify fd).toList.flatMap entrySlots
      | _ => []
  | .close => s.cache.curfwmap.entries.flatMap entrySlots ++ [.epoll]
  | .leave => [.signal]
  | .unlock c => [.direct c]
  | _ => []

/-- The watch numbers that a step closes. -/
def strays (s : FdSystem) : FdAction → List Nat
  | .delete =>
      match s.worker with
      | .deleting fd _ => (s.cache.findInotify fd).toList.flatMap fun entry => entry.2.watch_fd.toList
      | _ => []
  | .close => s.cache.curfwmap.entries.flatMap fun entry => entry.2.watch_fd.toList
  | .add (.noEpoll _ watch_fd) =>
      match s.worker with
      | .adding (path :: _) =>
          match s.cache.curfwmap.find? path with
          | some pfw => if s.cache.epollfd ≠ none ∧ pfw.inotify_fd = none then [watch_fd] else []
          | none => []
      | _ => []
  | _ => []

/-- Everybody who may have a slot. -/
def holders (s : FdSystem) : List FdHolder :=
  s.foreign.map .foreign ++ [.epoll, .signal] ++ s.cache.curfwmap.keys.flatMap (fun path =>
    [.opened path, .inotify path]) ++ s.calls.keys.map .direct

/-- No watch number that the step closes is in a slot that keeps its descriptor. -/
def Spares (s : FdSystem) (action : FdAction) : Prop :=
  ∀ d ∈ s.strays action, ∀ w ∈ s.holders, w ∉ s.released action → s.held w ≠ some d

instance instDecidableSpares (s : FdSystem) (action : FdAction) : Decidable (s.Spares action) :=
  inferInstanceAs (Decidable (∀ d ∈ s.strays action, ∀ w ∈ s.holders, _ → _))

theorem mem_holders {s : FdSystem} {w : FdHolder} {d : Nat} (h : s.held w = some d) :
    w ∈ s.holders := by
  have hkey : ∀ {path : Bytes} {g : K2hFtFw → Option Nat},
      (s.cache.curfwmap.find? path).bind g = some d → path ∈ s.cache.curfwmap.keys := by
    intro path g hsome
    rcases Option.bind_eq_some_iff.1 hsome with ⟨pfw, hfind, -⟩
    exact OrdMap.mem_keys_iff.2 ⟨pfw, hfind⟩
  cases w with
  | foreign n =>
      simp only [held, Option.ite_none_right_eq_some] at h
      simp [holders, h.1]
  | epoll => simp [holders]
  | signal => simp [holders]
  | opened path => simp [holders, hkey h]
  | inotify path => simp [holders, hkey h]
  | direct c =>
      rcases Option.bind_eq_some_iff.1 h with ⟨call, hcall, -⟩
      simp [holders, OrdMap.mem_keys_iff.2 ⟨call, hcall⟩]

/-! ## What a step does to the table -/

/-- A step opens a descriptor for an empty slot, or empties slots. -/
inductive Moves (s s' : FdSystem) (action : FdAction) : Prop
  | acquire (w : FdHolder) (d : Nat) (hstep : s.table.step (.acquire w d) = some s'.table)
      (hstrays : s.strays action = [])
  | release (h : s'.table = s.table.release (s.released action) (s.strays action))
  | leak (fd : Nat) (h : action = .start fd false) (hheld : s'.held = s.held)
      (howners : s.cache.kernel.owners.find? fd = none ∧
        s'.cache.kernel.owners = s.cache.kernel.owners.insert fd .signal)

theorem Moves.same {s s' : FdSystem} {action : FdAction} (hreleased : s.released action = [])
    (hstrays : s.strays action = []) (hheld : ∀ w, s'.held w = s.held w)
    (howners : s'.cache.kernel.owners = s.cache.kernel.owners) : s.Moves s' action := by
  refine .release (HandleTable.ext_find? ?_ ?_)
  · intro w
    rw [hreleased]
    exact hheld w
  · intro d
    rw [HandleTable.opened_release, hreleased, hstrays]
    simp [table, howners]

theorem Moves.of_acquire {s s' : FdSystem} {action : FdAction} {w : FdHolder} {d : Nat}
    (hstrays : s.strays action = []) (hempty : s.held w = none)
    (hheld : ∀ w', s'.held w' = if w' = w then some d else s.held w')
    (howners : s.cache.kernel.owners.find? d = none ∧
      s'.cache.kernel.owners = s.cache.kernel.owners.insert d w) : s.Moves s' action := by
  refine .acquire w d ?_ hstrays
  rw [HandleTable.step, if_pos ⟨hempty, howners.1⟩]
  refine congrArg some (HandleTable.ext_find? ?_ ?_)
  · intro w'
    simp only [HandleTable.hold, Function.update_apply]
    exact (hheld w').symm
  · intro d'
    simp [table, howners.2]

theorem Moves.of_release {s s' : FdSystem} {action : FdAction}
    (hheld : ∀ w, s'.held w = if w ∈ s.released action then none else s.held w)
    (howners : ∀ d, s'.cache.kernel.owners.find? d =
      if (∃ w ∈ s.released action, s.held w = some d) ∨ d ∈ s.strays action then none
      else s.cache.kernel.owners.find? d) : s.Moves s' action := by
  refine .release (HandleTable.ext_find? hheld ?_)
  intro d
  rw [HandleTable.opened_release]
  exact howners d

/-! ### Closing -/

theorem find?_owners_closeFd (k : FdKernel) (fd : Option Nat) (d : Nat) :
    (closeFd k fd).owners.find? d = if fd = some d then none else k.owners.find? d := by
  cases fd with
  | none => simp [closeFd]
  | some n =>
      simp only [closeFd, Kernel.find?_owners_close, Option.some.injEq]
      exact if_congr eq_comm rfl rfl

theorem owners_removeWatch (c : K2hFtFdCache) (pfw : K2hFtFw) :
    (c.removeWatch pfw).owners = c.kernel.owners := by
  unfold K2hFtFdCache.removeWatch
  cases pfw.inotify_fd with
  | none => rfl
  | some inotify_fd =>
      cases pfw.watch_fd with
      | none =>
          simp only [Kernel.disarm]
          split <;> simp
      | some watch_fd =>
          simp only [Kernel.disarm, Kernel.rmWatch, Kernel.owners_updateWatcher]
          split <;> simp

theorem find?_owners_deleteFileWatchEpoll (c : K2hFtFdCache) (pfw : K2hFtFw) (d : Nat) :
    (c.deleteFileWatchEpoll pfw).owners.find? d =
      if (pfw.inotify_fd = some d ∨ pfw.opened_fd = some d) ∨ d ∈ pfw.watch_fd.toList then none
      else c.kernel.owners.find? d := by
  simp only [K2hFtFdCache.deleteFileWatchEpoll, find?_owners_closeFd, owners_removeWatch,
    Option.mem_toList]
  by_cases hopened : pfw.opened_fd = some d
  · simp [hopened]
  · by_cases hinotify : pfw.inotify_fd = some d
    · simp [hinotify]
    · simp [hopened, hinotify]

/-- The system with another cache. -/
def withCache (s : FdSystem) (cache : K2hFtFdCache) : FdSystem := { s with cache := cache }

/-- An entry that is deleted releases its two slots and the number of its watch. -/
theorem table_removeEntry {s : FdSystem} {entry : Bytes × K2hFtFw}
    (hentry : s.cache.curfwmap.find? entry.1 = some entry.2) :
    (s.withCache (s.cache.removeEntry entry)).table =
      s.table.release (entrySlots entry) entry.2.watch_fd.toList := by
  refine HandleTable.ext_find? ?_ ?_
  · intro w
    cases w with
    | opened path =>
        by_cases hpath : path = entry.1 <;>
          simp [table, held, withCache, K2hFtFdCache.removeEntry, HandleTable.release, entrySlots,
            OrdMap.find?_erase, hpath]
    | inotify path =>
        by_cases hpath : path = entry.1 <;>
          simp [table, held, withCache, K2hFtFdCache.removeEntry, HandleTable.release, entrySlots,
            OrdMap.find?_erase, hpath]
    | _ => simp [table, held, withCache, K2hFtFdCache.removeEntry, HandleTable.release, entrySlots]
  · intro d
    rw [HandleTable.opened_release]
    refine (find?_owners_deleteFileWatchEpoll s.cache entry.2 d).trans (if_congr ?_ rfl rfl)
    simp [entrySlots, table, held, hentry]

theorem table_removeEntries {s : FdSystem} {entries : List (Bytes × K2hFtFw)}
    (hentries : s.cache.curfwmap.entries = entries) :
    (s.withCache (entries.foldl K2hFtFdCache.removeEntry s.cache)).table =
        s.table.release (entries.flatMap entrySlots)
          (entries.flatMap fun entry => entry.2.watch_fd.toList) ∧
      (entries.foldl K2hFtFdCache.removeEntry s.cache).curfwmap = ∅ := by
  induction entries generalizing s with
  | nil =>
      refine ⟨HandleTable.ext_find? ?_ ?_, OrdMap.eq_empty_of_entries hentries⟩
      · intro w
        rfl
      · intro d
        simp [HandleTable.opened_release, withCache]
  | cons entry rest ih =>
      have hentry : s.cache.curfwmap.find? entry.1 = some entry.2 :=
        OrdMap.mem_entries_iff.1 (hentries ▸ List.mem_cons_self)
      have hrest : (s.withCache (s.cache.removeEntry entry)).cache.curfwmap.entries = rest :=
        OrdMap.entries_erase_head hentries
      rcases ih hrest with ⟨htable, hempty⟩
      refine ⟨?_, hempty⟩
      calc (s.withCache ((entry :: rest).foldl K2hFtFdCache.removeEntry s.cache)).table
          = (s.withCache (s.cache.removeEntry entry)).table.release (rest.flatMap entrySlots)
              (rest.flatMap fun entry => entry.2.watch_fd.toList) := htable
        _ = s.table.release ((entry :: rest).flatMap entrySlots)
              ((entry :: rest).flatMap fun entry => entry.2.watch_fd.toList) := by
            rw [table_removeEntry hentry, HandleTable.release_release]
            rfl

theorem table_closeEntries (s : FdSystem) :
    (s.withCache s.cache.closeEntries).table = s.table.release (s.released .close) (s.strays .close) := by
  rcases table_removeEntries (s := s) rfl with ⟨htable, -⟩
  -- the epoll set is closed last
  have hlast : (s.withCache s.cache.closeEntries).table =
      (s.withCache (s.cache.curfwmap.entries.foldl K2hFtFdCache.removeEntry s.cache)).table.release
        [.epoll] [] := by
    refine HandleTable.ext_find? ?_ ?_
    · intro w
      cases w <;>
        simp [table, held, withCache, K2hFtFdCache.closeEntries, HandleTable.release]
    · intro d
      rw [HandleTable.opened_release]
      simp [table, held, withCache, K2hFtFdCache.closeEntries, find?_owners_closeFd]
  rw [hlast, htable, HandleTable.release_release, List.append_nil]
  rfl

/-! ### The steps -/

/-- A descriptor in a local variable is there only while its owner can close it. -/
structure Slots (s : FdSystem) : Prop where
  signal : s.worker.runs = false → s.sigfd = none
  direct : ∀ c call, s.calls.find? c = some call → call.phase = .refused → call.direct_fd = none

theorem held_setCall {s : FdSystem} {c : Nat} {call call' : FdCall}
    (hcall : s.calls.find? c = some call) (hdirect : call'.direct_fd = call.direct_fd) (w : FdHolder) :
    (s.setCall c call').held w = s.held w := by
  cases w with
  | direct c' =>
      by_cases hc : c' = c
      · simp [held, setCall, hc, hcall, hdirect]
      · simp [held, setCall, OrdMap.find?_insert_ne _ _ hc]
  | _ => rfl

theorem owners_openOutput {kernel : FdKernel} {holder : FdHolder} {filepath : Bytes} {fd : Nat}
    {answer : OpenAnswer} {opened : FdKernel × Nat × Nat}
    (h : K2hFtFdCache.openOutput kernel holder filepath fd answer = some opened) :
    kernel.owners.find? fd = none ∧ opened.1.owners = kernel.owners.insert fd holder := by
  rcases Option.map_eq_some_iff.1 h with ⟨kernel', hopen, rfl⟩
  exact Kernel.owners_openFile hopen

/-- A step of the worker that changes nothing but where it stands. -/
theorem Moves.of_worker {s : FdSystem} {action : FdAction} (worker : WatchPhase)
    (hreleased : s.released action = []) (hstrays : s.strays action = []) :
    s.Moves { s with worker := worker } action :=
  .same hreleased hstrays (fun w => by cases w <;> rfl) rfl

theorem add_moves {s : FdSystem} {answer : AddAnswer} {path : Bytes} {todo : List Bytes}
    {cache : K2hFtFdCache} (hworker : s.worker = .adding (path :: todo))
    (h : s.cache.addFileWatchEpoll answer path = some cache) :
    s.Moves { s with cache := cache, worker := .adding todo } (.add answer) := by
  rcases K2hFtFdCache.addFileWatchEpoll_cases h with ⟨rfl, hnot⟩ | ⟨inotify_fd, kernel, hnew, rfl, rfl⟩ |
    ⟨pfw, inotify_fd, watch_fd, kernel, watched, hfind, hnone, hepoll, rfl, hnew, hwatch, rfl⟩ |
    ⟨pfw, inotify_fd, watch_fd, kernel, watched, hfind, hnone, rfl, hnew, hwatch, rfl⟩
  · refine .of_worker _ rfl ?_
    cases answer with
    | noEpoll inotify_fd watch_fd =>
        simp only [strays, hworker]
        split
        · rename_i pfw hfind
          exact if_neg fun hadds => hnot pfw inotify_fd watch_fd hfind hadds.1 hadds.2 rfl
        · rfl
    | _ => rfl
  · -- the descriptor is closed before anybody has it
    obtain ⟨hfree, howners⟩ := Kernel.owners_newDescriptor hnew
    refine .of_release (fun w => by cases w <;> rfl) ?_
    intro d
    simp only [Kernel.find?_owners_close, howners, OrdMap.find?_insert]
    by_cases hd : d = inotify_fd
    · simp [hd, hfree]
    · simp [hd, released, strays]
  · -- so it is here, and the number of the watch is closed with it
    obtain ⟨hfree, howners⟩ := Kernel.owners_newDescriptor hnew
    refine .of_release (fun w => by cases w <;> rfl) ?_
    intro d
    simp only [Kernel.find?_owners_close, Kernel.rmWatch, Kernel.owners_updateWatcher,
      Kernel.owners_addWatch hwatch, howners, OrdMap.find?_insert]
    by_cases hd : d = inotify_fd
    · simp [hd, hfree]
    · simp [hd, released, strays, hworker, hfind, hnone, hepoll]
  · have hempty : s.held (.inotify path) = none := by simp [held, hfind, hnone]
    refine .of_acquire (by simp [strays]) hempty ?_ (d := inotify_fd) ?_
    · intro w
      cases w with
      | opened path' =>
          by_cases hpath : path' = path <;> simp [held, OrdMap.find?_insert, hpath, hfind]
      | inotify path' =>
          by_cases hpath : path' = path <;> simp [held, OrdMap.find?_insert, hpath]
      | _ => simp [held]
    · obtain ⟨hfree, howners⟩ := Kernel.owners_newDescriptor hnew
      refine ⟨hfree, ?_⟩
      simp [Kernel.arm, Kernel.owners_addWatch hwatch, howners]

theorem owners_foldl_report (fds : List Nat) (k : FdKernel) :
    (fds.foldl Kernel.report k).owners = k.owners := by
  induction fds generalizing k with
  | nil => rfl
  | cons fd fds ih => rw [List.foldl_cons, ih, Kernel.report, Kernel.owners_updateWatcher]

theorem worker_moves {s s' : FdSystem} {action : FdAction} (hslots : s.Slots)
    (h : s.WorkerStep action s') : s.Moves s' action := by
  cases h with
  | restart fd hstop hworker hepoll => exact .same rfl rfl (fun w => by cases w <;> rfl) rfl
  | init fd kernel hstop hworker hepoll hnew =>
      refine .of_acquire rfl (w := .epoll) hepoll ?_ (Kernel.owners_newDescriptor hnew)
      intro w
      cases w <;> simp [held]
  | start fd registered kernel hworker hnew =>
      cases registered with
      | true =>
          refine .of_acquire rfl (w := .signal) (hslots.signal (by simp [hworker, WatchPhase.runs])) ?_
            (Kernel.owners_newDescriptor hnew)
          intro w
          cases w <;> simp [held]
      | false =>
          refine .leak fd rfl ?_ (Kernel.owners_newDescriptor hnew)
          funext w
          cases w <;> simp [held]
  | startFails hworker => exact .of_worker _ rfl rfl
  | loop hworker => exact .of_worker _ rfl rfl
  | added answer hworker =>
      refine .of_worker _ rfl ?_
      cases answer <;> simp [strays, hworker]
  | add answer path todo cache hworker hadd => exact add_moves hworker hadd
  | wait events hworker hnodup hlength hready =>
      exact .same rfl rfl (fun w => by cases w <;> rfl) (owners_foldl_report _ _)
  | waitFails hworker => exact .of_worker _ rfl rfl
  | handled hworker => exact .of_worker _ rfl rfl
  | signal rest hworker => exact .of_worker _ rfl rfl
  | read fd rest hworker =>
      unfold checkInotifyEvents
      split
      · exact .of_worker _ rfl rfl
      · split
        · exact .of_worker _ rfl rfl
        · refine .same rfl rfl (fun w => by cases w <;> rfl) ?_
          simp [Kernel.readEvents]
  | checkNone fd rest hworker hfind => exact .of_worker _ rfl rfl
  | check fd rest path pfw hworker hfind => exact .of_worker _ rfl rfl
  | stat fails path id fd rest pfw hworker hderef => exact .of_worker _ rfl rfl
  | delete fd rest hworker =>
      cases hfind : s.cache.findInotify fd with
      | none =>
          simp only [K2hFtFdCache.deleteFileWatch, hfind]
          refine .same ?_ ?_ (fun w => by cases w <;> rfl) rfl
          · simp [released, hworker, hfind]
          · simp [strays, hworker, hfind]
      | some entry =>
          have hentry : s.cache.curfwmap.find? entry.1 = some entry.2 :=
            OrdMap.mem_entries_iff.1 (List.mem_of_find?_eq_some hfind)
          have hreleased : s.released .delete = entrySlots entry := by
            simp [released, hworker, hfind]
          have hstrays : s.strays .delete = entry.2.watch_fd.toList := by
            simp [strays, hworker, hfind]
          simp only [K2hFtFdCache.deleteFileWatch, hfind]
          refine .release ?_
          rw [hreleased, hstrays, ← table_removeEntry hentry]
          rfl
  | leave hworker =>
      refine .of_release ?_ ?_
      · intro w
        cases w <;> simp [held, released]
      · intro d
        simp [find?_owners_closeFd, released, strays, held]
  | stop => exact .same rfl rfl (fun w => by cases w <;> rfl) rfl
  | close hstop hworker => exact .release (table_closeEntries s)

/-- A call that is new, or that goes on without another descriptor of its own. -/
theorem held_insert_call {s : FdSystem} {c : Nat} {call' : FdCall}
    (hdirect : call'.direct_fd = (s.calls.find? c).bind FdCall.direct_fd) (w : FdHolder) :
    ({ s with calls := s.calls.insert c call' } : FdSystem).held w = s.held w := by
  cases w with
  | direct c' =>
      by_cases hc : c' = c
      · simp [held, hc, hdirect]
      · simp [held, OrdMap.find?_insert_ne _ _ hc]
  | _ => rfl

/-- The entry that `GetFileWatch` opened a file for. -/
theorem held_insert_entry {s : FdSystem} {c : Nat} {call' : FdCall} {path : Bytes}
    {pfw' : K2hFtFw} {fd : Nat} (hcall : s.calls.find? c = none) (hdirect : call'.direct_fd = none)
    (hinotify : pfw'.inotify_fd = (s.cache.curfwmap.find? path).bind K2hFtFw.inotify_fd)
    (hopened : pfw'.opened_fd = some fd) (kernel : FdKernel) (nextId : Nat) (w : FdHolder) :
    ({ s with
        cache :=
          { s.cache with
            kernel := kernel
            nextId := nextId
            curfwmap := s.cache.curfwmap.insert path pfw' }
        calls := s.calls.insert c call' } : FdSystem).held w =
      if w = .opened path then some fd else s.held w := by
  cases w with
  | direct c' =>
      by_cases hc : c' = c
      · simp [held, hc, hdirect, hcall]
      · simp [held, OrdMap.find?_insert_ne _ _ hc]
  | opened path' =>
      by_cases hpath : path' = path <;> simp [held, OrdMap.find?_insert, hpath, hopened]
  | inotify path' =>
      by_cases hpath : path' = path <;> simp [held, OrdMap.find?_insert, hpath, hinotify]
  | _ => simp [held]

theorem call_moves {s s' : FdSystem} {action : FdAction} (hslots : s.Slots)
    (h : s.CallStep action s') : s.Moves s' action := by
  cases h with
  | call c filepath data answer cache r phase hnew hlock hget hphase =>
      rcases K2hFtFdCache.getFileWatch_cases hget with ⟨rfl, -⟩ |
        ⟨fd, pfw, opened, hfind, hopened, hopen, -, rfl⟩ | ⟨fd, opened, -, hfind, hopen, -, rfl⟩
      · exact .same rfl rfl (held_insert_call (by simp [hnew])) rfl
      · refine .of_acquire rfl (w := .opened filepath) (by simp [held, hfind, hopened]) ?_
          (owners_openOutput hopen)
        exact held_insert_entry hnew rfl (by simp [hfind]) rfl _ _
      · refine .of_acquire rfl (w := .opened filepath) (by simp [held, hfind]) ?_
          (owners_openOutput hopen)
        exact held_insert_entry hnew rfl (by simp [hfind]) rfl _ _
  | directFails c answer call hcall hphase =>
      exact .same rfl rfl (held_setCall hcall rfl) rfl
  | direct c answer call fd kernel hcall hphase hopen =>
      have hempty : s.held (.direct c) = none := by
        simp [held, hcall, hslots.direct c call hcall hphase]
      refine .of_acquire rfl hempty ?_ (Kernel.owners_openFile hopen)
      intro w
      cases w with
      | direct c' =>
          by_cases hc : c' = c <;> simp [held, OrdMap.find?_insert, hc]
      | _ => simp [held]
  | fetch c call id hcall hphase => exact .same rfl rfl (held_setCall hcall rfl) rfl
  | lock c call fd data wrlocks hcall hphase hdata hlock =>
      refine .same rfl rfl ?_ rfl
      exact held_insert_call (s := { s with wrlocks := wrlocks }) (by simp [hcall])
  | writeFails c call fd rest hcall hphase hrest =>
      exact .same rfl rfl (held_setCall hcall rfl) rfl
  | write c call fd rest n kernel hcall hphase hrest hn happ =>
      refine .same rfl rfl ?_ (Kernel.owners_append happ)
      exact held_insert_call (s := { s with cache := { s.cache with kernel := kernel } })
        (by simp [hcall])
  | unlock c call fd result hcall hphase =>
      refine .of_release ?_ ?_
      · intro w
        cases w with
        | direct c' =>
            by_cases hc : c' = c <;> simp [held, finish, released, OrdMap.find?_insert, hc]
        | _ =>
            rw [if_neg (by simp [released])]
            rfl
      · intro d
        simp [finish, find?_owners_closeFd, released, strays, held, hcall]

theorem step_moves {s s' : FdSystem} {action : FdAction} (hslots : s.Slots)
    (h : s.step action = some s') : s.Moves s' action := by
  rcases step_cases h with hworker | hcall | ⟨c, kernel, rfl, hchange, rfl⟩
  · exact worker_moves hslots hworker
  · exact call_moves hslots hcall
  · exact .same rfl rfl (fun w => by cases w <;> rfl) (Kernel.owners_change hchange)

/-! ## Runs -/

theorem slots_step {s s' : FdSystem} {action : FdAction} (hslots : s.Slots)
    (h : s.step action = some s') : s'.Slots := by
  rcases step_cases h with hworker | hcall | ⟨c, kernel, rfl, hchange, rfl⟩
  · -- the worker leaves the calls alone
    cases hworker with
    | restart fd hstop hworker hepoll =>
        refine ⟨fun _ => hslots.signal ?_, hslots.direct⟩
        rcases hworker with hworker | hworker <;> simp [hworker, WatchPhase.runs]
    | init fd kernel hstop hworker hepoll hnew =>
        refine ⟨fun _ => hslots.signal ?_, hslots.direct⟩
        rcases hworker with hworker | hworker <;> simp [hworker, WatchPhase.runs]
    | start fd registered kernel hworker hnew =>
        refine ⟨?_, hslots.direct⟩
        cases registered with
        | true => simp [WatchPhase.runs]
        | false => exact fun _ => hslots.signal (by simp [hworker, WatchPhase.runs])
    | startFails hworker =>
        exact ⟨fun _ => hslots.signal (by simp [hworker, WatchPhase.runs]), hslots.direct⟩
    | loop hworker =>
        refine ⟨?_, hslots.direct⟩
        cases hrun : s.run_thread <;> simp [WatchPhase.runs]
    | signal rest hworker =>
        refine ⟨?_, hslots.direct⟩
        cases hrun : s.run_thread <;> simp [WatchPhase.runs]
    | read fd rest hworker =>
        refine ⟨?_, ?_⟩
        · unfold checkInotifyEvents
          repeat' split
          all_goals simp [WatchPhase.runs]
        · unfold checkInotifyEvents
          repeat' split
          all_goals exact hslots.direct
    | stat fails path id fd rest pfw hworker hderef =>
        refine ⟨?_, hslots.direct⟩
        cases hremoved : s.isRemoved pfw fails <;> simp [WatchPhase.runs]
    | leave hworker => exact ⟨fun _ => rfl, hslots.direct⟩
    | stop => exact ⟨hslots.signal, hslots.direct⟩
    | close hstop hworker => exact ⟨hslots.signal, hslots.direct⟩
    | _ => exact ⟨by simp [WatchPhase.runs], hslots.direct⟩
  · have hinsert : ∀ c' call', (call'.phase = .refused → call'.direct_fd = none) →
        ∀ c call, (s.calls.insert c' call').find? c = some call → call.phase = .refused →
          call.direct_fd = none := by
      intro c' call' hnew c call hfind hphase
      rw [OrdMap.find?_insert] at hfind
      split at hfind
      · cases hfind
        exact hnew hphase
      · exact hslots.direct c call hfind hphase
    cases hcall with
    | call c filepath data answer cache r phase hnew hlock hget hphase =>
        exact ⟨hslots.signal, hinsert _ _ fun _ => rfl⟩
    | fetch c call id hcall hphase =>
        refine ⟨hslots.signal, hinsert _ _ ?_⟩
        unfold fetchFrom
        repeat' split
        all_goals simp
    | unlock c call fd result hcall hphase =>
        exact ⟨hslots.signal, hinsert _ _ fun _ => rfl⟩
    | _ => exact ⟨hslots.signal, hinsert _ _ (by simp)⟩
  · exact ⟨hslots.signal, hslots.direct⟩

theorem not_leaked_moves {s s' : FdSystem} {action : FdAction} (hmoves : s.Moves s' action)
    (hstart : ∀ fd, action ≠ .start fd false) (h : ¬ s.table.Leaked) : ¬ s'.table.Leaked := by
  cases hmoves with
  | acquire w d hstep hstrays =>
      have hkeeps : s.table.Keeps (.acquire w d) := trivial
      exact HandleTable.not_leaked_step h hkeeps hstep
  | release hrelease =>
      rw [hrelease]
      exact HandleTable.not_leaked_release h _ _
  | leak fd haction => exact absurd haction (hstart fd)

theorem spares_iff {s : FdSystem} {action : FdAction} :
    s.Spares action ↔ ∀ d ∈ s.strays action, ∀ w, w ∉ s.released action → s.table.held w ≠ some d := by
  constructor
  · intro h d hd w hw hheld
    exact h d hd w (mem_holders hheld) hw hheld
  · intro h d hd w _ hw
    exact h d hd w hw

/-- A step that finds every slot with its own open descriptor leaves them so exactly if it spares
them. -/
theorem sound_moves_iff {s s' : FdSystem} {action : FdAction} (hmoves : s.Moves s' action)
    (h : s.table.Sound) : s'.table.Sound ↔ s.Spares action := by
  cases hmoves with
  | acquire w d hstep hstrays =>
      refine iff_of_true (HandleTable.sound_step h hstep) ?_
      intro d hd
      rw [hstrays] at hd
      cases hd
  | release hrelease =>
      rw [hrelease, HandleTable.sound_release_iff h, spares_iff]
  | leak fd haction hheld howners =>
      refine iff_of_true ?_ ?_
      · intro w d hsome
        have hopen := h w d ((congrFun hheld w).symm.trans hsome)
        have hne : d ≠ fd := by
          rintro rfl
          rw [show s.table.opened = s.cache.kernel.owners from rfl, howners.1] at hopen
          cases hopen
        change s'.cache.kernel.owners.find? d = some w
        rw [howners.2, OrdMap.find?_insert_ne _ _ hne]
        exact hopen
      · intro d hd
        rw [haction] at hd
        cases hd

/-! ### The start -/

theorem find?_foreign (foreign : List Nat) (fds : OrdMap Nat (FdHolder × OpenObject)) (d : Nat) :
    (foreign.foldl (fun fds n => fds.insert n (.foreign n, .other)) fds).find? d =
      if d ∈ foreign then some (.foreign d, .other) else fds.find? d := by
  induction foreign generalizing fds with
  | nil => simp
  | cons n foreign ih =>
      rw [List.foldl_cons, ih, OrdMap.find?_insert]
      by_cases hmem : d ∈ foreign
      · simp [hmem]
      · by_cases hd : d = n
        · simp [hd]
        · simp [hmem, hd]

section Start

variable (names : OrdMap Bytes Nat) (files : OrdMap Nat (FileNode (Nat × Bytes))) (foreign : List Nat)

theorem slots_start : (start names files foreign).Slots :=
  ⟨fun _ => rfl, fun c call h => by cases h⟩

theorem owners_start (d : Nat) : (start names files foreign).cache.kernel.owners.find? d =
    if d ∈ foreign then some (.foreign d) else none := by
  simp only [start, Kernel.owners, OrdMap.find?_mapVals, find?_foreign, OrdMap.find?_empty]
  split <;> rfl

theorem matched_start : (start names files foreign).table.Matched := by
  intro d w
  change (start names files foreign).cache.kernel.owners.find? d = some w ↔ _
  rw [owners_start]
  cases w with
  | foreign n =>
      simp only [Option.ite_none_right_eq_some, Option.some.injEq, FdHolder.foreign.injEq, table, held,
        start]
      constructor
      · rintro ⟨hd, rfl⟩
        exact ⟨hd, rfl⟩
      · rintro ⟨hn, rfl⟩
        exact ⟨hn, rfl⟩
  | _ => simp [table, held, start]

/-! ### Results -/

/-- Every open descriptor is in the slot for which it was opened, whatever is interleaved and whatever
fails, if only each worker gets its signal descriptor into the epoll set. After `Close` only the
descriptors are open that are not the cache's, and those of calls that are still to return. -/
theorem descriptors_accounted {actions : List FdAction} {s : FdSystem}
    (hrun : run step (start names files foreign) actions = some s)
    (hstart : ∀ fd, .start fd false ∉ actions) :
    (∀ d w, s.cache.kernel.owners.find? d = some w → s.held w = some d) ∧
      ∀ s', s.step .close = some s' → ∀ d w, s'.cache.kernel.owners.find? d = some w →
        w = .foreign d ∨ ∃ c call, w = .direct c ∧ s'.calls.find? c = some call ∧
          call.direct_fd = some d := by
  have hheld : ∀ {t : FdSystem}, ¬ t.table.Leaked → ∀ d w,
      t.cache.kernel.owners.find? d = some w → t.held w = some d := by
    intro t hnot d w hopen
    by_contra hne
    exact hnot ⟨d, w, hopen, hne⟩
  have hguard : Guarded step (fun _ action => ∀ fd, action ≠ .start fd false)
      (start names files foreign) actions :=
    guarded_of_forall_mem step _ fun action hmem fd heq => hstart fd (heq ▸ hmem)
  have hinv : s.Slots ∧ ¬ s.table.Leaked := by
    have hpres : ∀ t action t', t.Slots ∧ ¬ t.table.Leaked → (∀ fd, action ≠ .start fd false) →
        step t action = some t' → t'.Slots ∧ ¬ t'.table.Leaked := by
      rintro t action t' ⟨hslots, hnot⟩ hok hstep
      exact ⟨slots_step hslots hstep, not_leaked_moves (step_moves hslots hstep) hok hnot⟩
    refine invariant_run_of_guarded hpres hguard hrun ⟨slots_start names files foreign, ?_⟩
    · exact (matched_start names files foreign).sound.not_leaked_iff.2
        (matched_start names files foreign)
  refine ⟨hheld hinv.2, ?_⟩
  intro s' hclose d w hopen
  have hslots' := slots_step hinv.1 hclose
  have hsome := hheld (not_leaked_moves (step_moves hinv.1 hclose) (by simp) hinv.2) d w hopen
  have hcases : s.WorkerStep .close s' := by
    have hworker : s.stepWorker .close = some s' := hclose
    exact stepWorker_cases hworker
  clear hclose
  cases hcases with
  | close hstop hworker =>
      rcases table_removeEntries (s := s) rfl with ⟨-, hempty⟩
      have hmap : s.cache.closeEntries.curfwmap = ∅ := hempty
      cases w with
      | foreign n =>
          simp only [held, Option.ite_none_right_eq_some, Option.some.injEq] at hsome
          exact .inl (by rw [hsome.2])
      | epoll => simp [held, K2hFtFdCache.closeEntries] at hsome
      | signal =>
          have hnone : s.sigfd = none :=
            hslots'.signal (by rcases hworker with h | h <;> simp [h, WatchPhase.runs])
          simp [held, hnone] at hsome
      | opened path => simp [held, hmap] at hsome
      | inotify path => simp [held, hmap] at hsome
      | direct c =>
          rcases Option.bind_eq_some_iff.1 hsome with ⟨call, hcall, hdirect⟩
          exact .inr ⟨c, call, rfl, hcall, hdirect⟩

/-- A file of 2 bytes is written and removed; its entry leaves the cache, and all is closed. -/
def removedRun (watch_fd : Nat) : List FdAction :=
  [.init 3, .start 4 true,
    .call 0 (ascii "/o") (some [1, 2])
      { fd := some 5
        new :=
          { file := 0
            dev := 8
            ino := 9 }
        fstat := true },
    .loop, .add (.added 6 watch_fd), .add .noInotify, .fetch 0, .lock 0, .write 0 (some 2), .unlock 0,
    .change (.unlink (ascii "/o")), .wait [some 6], .handle, .check, .stat false, .delete, .handle,
    .stop, .loop, .leave, .close]

theorem removedRun_accounted : ∃ s, run step (start ∅ ∅ [0, 1, 2]) (removedRun 40) = some s ∧
    ∀ d w, s.cache.kernel.owners.find? d = some w → s.held w = some d := by
  have hsome : (run step (start ∅ ∅ [0, 1, 2]) (removedRun 40)).isSome := by decide
  rcases Option.isSome_iff_exists.1 hsome with ⟨s, hrun⟩
  exact ⟨s, hrun, (descriptors_accounted ∅ ∅ [0, 1, 2] hrun (by simp [removedRun])).1⟩

/-- Every slot has its own open descriptor throughout a run exactly if no step closes the number of a
watch that is in a slot. -/
theorem slots_throughout_iff {actions : List FdAction}
    (hrun : (run step (start names files foreign) actions).isSome) :
    Throughout step (fun s => s.table.Sound) (fun _ _ _ => True) (start names files foreign) actions ↔
      Guarded step Spares (start names files foreign) actions := by
  have hpres : ∀ s action s', s.Slots → step s action = some s' → s'.Slots := by
    intro s action s' hslots hstep
    exact slots_step hslots hstep
  refine throughout_iff_guarded hpres ?_ (slots_start names files foreign) hrun
    (matched_start names files foreign).sound
  intro s action s' hslots hsound hstep
  exact sound_moves_iff (step_moves hslots hstep) hsound

/-- The first watch number of a kernel is 1, and so the standard output is closed with the entry. -/
theorem stdout_closed : ¬ Throughout step (fun s => s.table.Sound) (fun _ _ _ => True)
    (start ∅ ∅ [0, 1, 2]) (removedRun 1) := by
  rw [slots_throughout_iff ∅ ∅ [0, 1, 2] (by decide)]
  decide

end Start

end FdSystem

end K2hFtFuse

import K2hFtFuse.FdCache.Frames
import K2hFtFuse.Lib.TaggedLog

/-!
# FdCache.Writes — calls of Write do not mix

`Write` holds the lock of its file while it writes piece after piece. The descriptor that it writes to is
that of an entry, which the worker may delete meanwhile: the pointer to the entry is then invalid, and
the number of the descriptor may mean another file.

This file defines:
* `Orderly`: a step spares the slots, and deletes no entry that a call uses,
* `Right`, `Tidy`: where each call stands, what it has written so far and in which file, and that the
  pieces of every file are in the order of the calls.

In a run of orderly steps no call looks into a deleted entry, and every file is the data of the calls one
after another, whole for those that succeeded (`writes_in_order`).
-/

namespace K2hFtFuse

open ByteSeq Transition TaggedLog

/-! ## Calls that use an entry -/

/-- The descriptor that a call has to write to. -/
def CallPhase.fd? : CallPhase → Option Nat
  | .ready fd => some fd
  | .writing fd _ => some fd
  | .wrote fd _ => some fd
  | _ => none

/-- The descriptor by which a call has locked its file. -/
def CallPhase.lockFd? : CallPhase → Option Nat
  | .writing fd _ => some fd
  | .wrote fd _ => some fd
  | _ => none

def CallPhase.isGot : CallPhase → Bool
  | .got _ => true
  | _ => false

theorem CallPhase.fd?_of_lockFd? {phase : CallPhase} {fd : Nat} (h : phase.lockFd? = some fd) :
    phase.fd? = some fd := by
  cases phase <;> simp_all [lockFd?, fd?]

namespace FdCall

/-- The slot of the descriptor that the call writes to. -/
def slot (call : FdCall) (c : Nat) : FdHolder :=
  if call.direct_fd = none then .opened call.filepath else .direct c

/-- The call goes on with the entry of a path. -/
def uses (call : FdCall) (path : Bytes) : Bool :=
  call.filepath == path && call.direct_fd == none && (call.phase.isGot || call.phase.fd?.isSome)

end FdCall

namespace FdSystem

/-- No entry is deleted that a call uses. -/
def Undisturbed (s : FdSystem) (action : FdAction) : Prop :=
  ∀ path ∈ s.removedPaths action, ∀ call ∈ s.calls.values, call.uses path = false

def Orderly (s : FdSystem) (action : FdAction) : Prop := s.Spares action ∧ s.Undisturbed action

instance instDecidableOrderly (s : FdSystem) (action : FdAction) : Decidable (s.Orderly action) :=
  inferInstanceAs (Decidable (_ ∧ ∀ path ∈ s.removedPaths action, ∀ call ∈ s.calls.values, _))

/-! ## What an orderly step leaves as it is -/

/-- The entries all have a file open. -/
def FilesOpen (s : FdSystem) : Prop :=
  ∀ path pfw, s.cache.curfwmap.find? path = some pfw →
    ∃ d f, pfw.opened_fd = some d ∧ s.cache.kernel.fileOf d = some f

/-- The entries after a step were there with their files, or one is new and has its file open. -/
theorem entry_origin {s s' : FdSystem} {action : FdAction} (hstep : s.step action = some s')
    (hopen : s.FilesOpen) {path : Bytes} {pfw : K2hFtFw}
    (hfind : s'.cache.curfwmap.find? path = some pfw) :
    (∃ old, s.cache.curfwmap.find? path = some old ∧ old.opened_fd = pfw.opened_fd) ∨
      ∃ d f, pfw.opened_fd = some d ∧ s'.cache.kernel.fileOf d = some f := by
  rcases step_cases hstep with hworker | hcall | ⟨c, kernel, rfl, hchange, rfl⟩
  · cases hworker with
    | add answer path' todo cache hworker hadd =>
        rcases K2hFtFdCache.addFileWatchEpoll_cases hadd with ⟨rfl, -⟩ |
          ⟨inotify_fd, kernel, hnew, -, rfl⟩ |
          ⟨old, inotify_fd, watch_fd, kernel, watched, -, -, -, -, hnew, hwatch, rfl⟩ |
          ⟨old, inotify_fd, watch_fd, kernel, watched, hold, -, -, hnew, hwatch, rfl⟩
        · exact .inl ⟨pfw, hfind, rfl⟩
        · exact .inl ⟨pfw, hfind, rfl⟩
        · exact .inl ⟨pfw, hfind, rfl⟩
        · simp only [OrdMap.find?_insert] at hfind
          split at hfind
          · rename_i heq
            cases hfind
            exact .inl ⟨old, heq ▸ hold, rfl⟩
          · exact .inl ⟨pfw, hfind, rfl⟩
    | read fd rest hworker =>
        refine .inl ⟨pfw, ?_, rfl⟩
        unfold checkInotifyEvents at hfind
        repeat' split at hfind
        all_goals exact hfind
    | delete fd rest hworker =>
        refine .inl ⟨pfw, ?_, rfl⟩
        unfold K2hFtFdCache.deleteFileWatch at hfind
        split at hfind
        · exact hfind
        · simp only [K2hFtFdCache.removeEntry, OrdMap.find?_erase] at hfind
          split at hfind
          · cases hfind
          · exact hfind
    | close hstop hworker =>
        have hmap : s.cache.closeEntries.curfwmap = ∅ := (table_removeEntries (s := s) rfl).2
        simp [hmap] at hfind
    | _ => exact .inl ⟨pfw, hfind, rfl⟩
  · cases hcall with
    | call c filepath data answer cache r phase hnew hlock hget hphase =>
        rcases K2hFtFdCache.getFileWatch_cases hget with ⟨rfl, -⟩ |
          ⟨fd, old, opened, hold, hnone, -, -, rfl⟩ | ⟨fd, opened, -, -, hopened, -, rfl⟩
        · exact .inl ⟨pfw, hfind, rfl⟩
        · rcases hopen filepath old hold with ⟨d, f, hd, -⟩
          rw [hnone] at hd
          cases hd
        · simp only [OrdMap.find?_insert] at hfind
          split at hfind
          · cases hfind
            rcases Option.map_eq_some_iff.1 hopened with ⟨kernel, hkernel, rfl⟩
            rcases Kernel.exists_fileOf_openFile hkernel with ⟨f, hf⟩
            exact .inr ⟨fd, f, rfl, hf⟩
          · exact .inl ⟨pfw, hfind, rfl⟩
    | _ => exact .inl ⟨pfw, hfind, rfl⟩
  · exact .inl ⟨pfw, hfind, rfl⟩

theorem filesOpen_step {s s' : FdSystem} {action : FdAction} (hsound : s.table.Sound)
    (hsound' : s'.table.Sound) (hopen : s.FilesOpen) (hstep : s.step action = some s') :
    s'.FilesOpen := by
  intro path pfw hfind
  rcases entry_origin hstep hopen hfind with ⟨old, hold, hsame⟩ | hnew
  · rcases hopen path old hold with ⟨d, f, hd, hf⟩
    have hd' : pfw.opened_fd = some d := hsame ▸ hd
    refine ⟨d, f, hd', ?_⟩
    rw [fileOf_step hstep (owner_opened hsound hold hd) (owner_opened hsound' hfind hd'), hf]
  · exact hnew

/-! ## Where the calls stand -/

/-- What is written to a file, as a log of the calls. -/
def log (s : FdSystem) (f : Nat) : List (Nat × Bytes) := s.cache.kernel.writtenOf f

/-- A call that has locked a file, which is its home from then on, has written there what is not left
to write. -/
def Right (s : FdSystem) (home : Nat → Option Nat) (c : Nat) (call : FdCall) : Prop :=
  match call.phase with
  | .got id => home c = none ∧ call.direct_fd = none ∧
      ∃ pfw, s.cache.curfwmap.find? call.filepath = some pfw ∧ pfw.id = id
  | .refused => home c = none
  | .ready fd => home c = none ∧ s.held (call.slot c) = some fd ∧
      ∃ f, s.cache.kernel.fileOf fd = some f
  | .writing fd rest => s.held (call.slot c) = some fd ∧
      ∃ f data, s.cache.kernel.fileOf fd = some f ∧ home c = some f ∧ s.wrlocks.find? f = some c ∧
        call.data = some data ∧ share (s.log f) c ++ rest = data
  | .wrote fd result => result = false ∧ s.held (call.slot c) = some fd ∧
      ∃ f data, s.cache.kernel.fileOf fd = some f ∧ home c = some f ∧ s.wrlocks.find? f = some c ∧
        call.data = some data ∧ share (s.log f) c <+: data
  | .done result => ∀ data, call.data = some data →
      (∀ f, home c = some f → share (s.log f) c <+: data) ∧
        (result = true → ∃ f, home c = some f ∧ share (s.log f) c = data)
  | .registered _ _ => home c = none
  | .freed => False

/-- The calls are right, locks are held by calls that write, and in every file the pieces of a call stand
together, those of the call that has the lock at the end. -/
structure Tidy (s : FdSystem) (home : Nat → Option Nat) : Prop where
  filesOpen : s.FilesOpen
  calls : ∀ c call, s.calls.find? c = some call → s.Right home c call
  fresh : ∀ c, s.calls.find? c = none → home c = none
  logged : ∀ f, ∀ p ∈ s.log f, home p.1 = some f
  locked : ∀ f c, s.wrlocks.find? f = some c → ∃ call fd, s.calls.find? c = some call ∧
    call.phase.lockFd? = some fd ∧ s.cache.kernel.fileOf fd = some f
  ordered : ∀ f, ∃ order, InOrder (s.log f) order ∧ (∀ c ∈ order, home c = some f) ∧
    ∀ c, s.wrlocks.find? f = some c → c ∈ order → order.getLast? = some c

theorem Right.held {s : FdSystem} {home : Nat → Option Nat} {c : Nat} {call : FdCall} {fd : Nat}
    (h : s.Right home c call) (hfd : call.phase.fd? = some fd) : s.held (call.slot c) = some fd := by
  unfold Right at h
  cases hphase : call.phase with
  | ready fd' =>
      simp only [hphase, CallPhase.fd?, Option.some.injEq] at h hfd
      exact hfd ▸ h.2.1
  | writing fd' rest =>
      simp only [hphase, CallPhase.fd?, Option.some.injEq] at h hfd
      exact hfd ▸ h.1
  | wrote fd' result =>
      simp only [hphase, CallPhase.fd?, Option.some.injEq] at h hfd
      exact hfd ▸ h.2.1
  | _ => simp [hphase, CallPhase.fd?] at hfd

/-- A call stays right when its descriptor, its entry and its lock stay, and nobody writes in its name. -/
theorem Right.frame {s s' : FdSystem} {home home' : Nat → Option Nat} {c : Nat} {call : FdCall}
    (h : s.Right home c call)
    (hfd : ∀ fd, call.phase.fd? = some fd → s.held (call.slot c) = some fd →
      s'.held (call.slot c) = some fd ∧ s'.cache.kernel.fileOf fd = s.cache.kernel.fileOf fd)
    (hentry : ∀ pfw, call.phase.isGot = true → call.direct_fd = none →
      s.cache.curfwmap.find? call.filepath = some pfw →
      ∃ pfw', s'.cache.curfwmap.find? call.filepath = some pfw' ∧ pfw'.id = pfw.id)
    (hhome : home' c = home c)
    (hlocks : ∀ f, s.wrlocks.find? f = some c → s'.wrlocks.find? f = some c)
    (hshare : ∀ f, share (s'.log f) c = share (s.log f) c) : s'.Right home' c call := by
  unfold Right at h ⊢
  cases hphase : call.phase with
  | got id =>
      simp only [hphase] at h ⊢
      rcases h with ⟨hnone, hdirect, pfw, hfind, hid⟩
      rcases hentry pfw (by simp [hphase, CallPhase.isGot]) hdirect hfind with ⟨pfw', hfind', hid'⟩
      exact ⟨hhome.trans hnone, hdirect, pfw', hfind', hid'.trans hid⟩
  | refused =>
      simp only [hphase] at h ⊢
      exact hhome.trans h
  | ready fd =>
      simp only [hphase] at h ⊢
      rcases h with ⟨hnone, hheld, f, hf⟩
      rcases hfd fd (by simp [hphase, CallPhase.fd?]) hheld with ⟨hheld', hfile⟩
      exact ⟨hhome.trans hnone, hheld', f, hfile.trans hf⟩
  | writing fd rest =>
      simp only [hphase] at h ⊢
      rcases h with ⟨hheld, f, data, hf, hhome', hlock, hdata, hwritten⟩
      rcases hfd fd (by simp [hphase, CallPhase.fd?]) hheld with ⟨hheld', hfile⟩
      exact ⟨hheld', f, data, hfile.trans hf, hhome.trans hhome', hlocks f hlock, hdata,
        (hshare f).symm ▸ hwritten⟩
  | wrote fd result =>
      simp only [hphase] at h ⊢
      rcases h with ⟨hresult, hheld, f, data, hf, hhome', hlock, hdata, hwritten⟩
      rcases hfd fd (by simp [hphase, CallPhase.fd?]) hheld with ⟨hheld', hfile⟩
      exact ⟨hresult, hheld', f, data, hfile.trans hf, hhome.trans hhome', hlocks f hlock, hdata,
        (hshare f).symm ▸ hwritten⟩
  | done result =>
      simp only [hphase] at h ⊢
      intro data hdata
      rcases h data hdata with ⟨hpart, hwhole⟩
      simp only [hhome, hshare]
      exact ⟨hpart, hwhole⟩
  | registered st_dev st_ino =>
      simp only [hphase] at h ⊢
      exact hhome.trans h
  | freed =>
      simp only [hphase] at h

/-! ## Steps -/

/-- What a step empties is no slot of a call that still uses it. -/
theorem slot_kept {s : FdSystem} {action : FdAction} (hquiet : s.Undisturbed action) {c : Nat}
    {call : FdCall} (hcall : s.calls.find? c = some call) (haction : action ≠ .unlock c)
    (huses : call.phase.fd? ≠ none) : call.slot c ∉ s.released action := by
  have hmem : call ∈ s.calls.values := OrdMap.mem_values_iff.2 ⟨c, hcall⟩
  have hremoved : call.direct_fd = none → call.filepath ∉ s.removedPaths action := by
    intro hdirect hpath
    have hnot := hquiet call.filepath hpath call hmem
    have hfd : call.phase.fd?.isSome = true := Option.isSome_iff_ne_none.2 huses
    simp [FdCall.uses, hdirect, hfd] at hnot
  intro hslot
  cases action with
  | delete =>
      simp only [released] at hslot
      split at hslot
      · rename_i fd rest hworker
        simp only [List.mem_flatMap, entrySlots] at hslot
        rcases hslot with ⟨entry, hentry, hslot⟩
        unfold FdCall.slot at hslot
        split at hslot
        · rename_i hdirect
          have hpath : call.filepath = entry.1 := by simpa using hslot
          refine hremoved hdirect ?_
          simp only [removedPaths, hworker]
          exact hpath ▸ List.mem_map_of_mem hentry
        · simp at hslot
      · cases hslot
  | close =>
      simp only [released, List.mem_append, List.mem_flatMap, entrySlots, List.mem_singleton] at hslot
      unfold FdCall.slot at hslot
      split at hslot
      · rename_i hdirect
        rcases hslot with ⟨entry, hentry, hslot⟩ | hslot
        · have hpath : call.filepath = entry.1 := by simpa using hslot
          refine hremoved hdirect ?_
          rw [hpath]
          exact OrdMap.mem_keys_iff.2 ⟨entry.2, OrdMap.mem_entries_iff.1 hentry⟩
        · cases hslot
      · simp at hslot
  | leave =>
      unfold FdCall.slot at hslot
      split at hslot <;> simp [released] at hslot
  | unlock c' =>
      unfold FdCall.slot at hslot
      split at hslot
      · simp [released] at hslot
      · simp only [released, List.mem_singleton, FdHolder.direct.injEq] at hslot
        exact haction (congrArg FdAction.unlock hslot.symm)
  | _ => cases hslot

/-- What a step does to the calls that it is not about. -/
structure Calm (s s' : FdSystem) (action : FdAction) : Prop where
  fd : ∀ c call fd, s.calls.find? c = some call → action ≠ .unlock c → call.phase.fd? = some fd →
    s.held (call.slot c) = some fd →
      s'.held (call.slot c) = some fd ∧ s'.cache.kernel.fileOf fd = s.cache.kernel.fileOf fd
  entry : ∀ c call pfw, s.calls.find? c = some call → call.phase.isGot = true →
    call.direct_fd = none → s.cache.curfwmap.find? call.filepath = some pfw →
      ∃ pfw', s'.cache.curfwmap.find? call.filepath = some pfw' ∧ pfw'.id = pfw.id

theorem calm_step {s s' : FdSystem} {action : FdAction} (hslots : s.Slots) (hsound : s.table.Sound)
    (hsound' : s'.table.Sound) (hopen : s.FilesOpen) (hok : s.Orderly action)
    (hstep : s.step action = some s') : s.Calm s' action := by
  constructor
  · intro c call fd hcall haction hfd hheld
    have hheld' : s'.held (call.slot c) = some fd :=
      held_step (step_moves hslots hstep) hheld
        (slot_kept hok.2 hcall haction (by simp [hfd]))
    exact ⟨hheld', fileOf_step hstep (hsound _ fd hheld) (hsound' _ fd hheld')⟩
  · intro c call pfw hcall hgot hdirect hfind
    rcases hopen call.filepath pfw hfind with ⟨d, f, hd, -⟩
    have hkept : call.filepath ∉ s.removedPaths action := by
      intro hpath
      have hnot := hok.2 call.filepath hpath call (OrdMap.mem_values_iff.2 ⟨c, hcall⟩)
      simp [FdCall.uses, hdirect, hgot] at hnot
    rcases entry_step hstep hfind hd hkept with ⟨pfw', hfind', hid, -⟩
    exact ⟨pfw', hfind', hid⟩

/-- A lock stays with a call that goes on. -/
theorem locked_frame {s s' : FdSystem} {action : FdAction} {home : Nat → Option Nat}
    (h : s.Tidy home) (hcalm : s.Calm s' action) {f c : Nat} (hlock : s.wrlocks.find? f = some c)
    (haction : action ≠ .unlock c) : ∃ call fd, s.calls.find? c = some call ∧
      call.phase.lockFd? = some fd ∧ s'.cache.kernel.fileOf fd = some f := by
  rcases h.locked f c hlock with ⟨call, fd, hcall, hfd, hf⟩
  have hfd' := CallPhase.fd?_of_lockFd? hfd
  rcases hcalm.fd c call fd hcall haction hfd' ((h.calls c call hcall).held hfd') with ⟨-, hfile⟩
  exact ⟨call, fd, hcall, hfd, hfile.trans hf⟩

/-- The worker and other programs. -/
theorem tidy_frame {s s' : FdSystem} {action : FdAction} {home : Nat → Option Nat} (h : s.Tidy home)
    (hcalm : s.Calm s' action) (hopen : s'.FilesOpen) (haction : ∀ c, action ≠ .unlock c)
    (hcalls : s'.calls = s.calls) (hlocks : s'.wrlocks = s.wrlocks) (hlog : ∀ f, s'.log f = s.log f) :
    s'.Tidy home := by
  refine ⟨hopen, ?_, ?_, ?_, ?_, ?_⟩
  · intro c call hcall
    rw [hcalls] at hcall
    refine (h.calls c call hcall).frame ?_ ?_ rfl ?_ ?_
    · exact fun fd hfd hheld => hcalm.fd c call fd hcall (haction c) hfd hheld
    · exact fun pfw hgot hdirect hfind => hcalm.entry c call pfw hcall hgot hdirect hfind
    · exact fun f hlock => hlocks ▸ hlock
    · exact fun f => by rw [hlog]
  · intro c hnone
    exact h.fresh c (hcalls ▸ hnone)
  · intro f p hp
    exact h.logged f p (hlog f ▸ hp)
  · intro f c hlock
    rw [hcalls]
    exact locked_frame h hcalm (hlocks ▸ hlock) (haction c)
  · intro f
    rw [hlog, hlocks]
    exact h.ordered f

/-- A step of one call that writes nothing and keeps its locks. -/
theorem tidy_call {s s' : FdSystem} {action : FdAction} {home : Nat → Option Nat} (h : s.Tidy home)
    (hcalm : s.Calm s' action) (hopen : s'.FilesOpen) (haction : ∀ c, action ≠ .unlock c) {c : Nat}
    {call' : FdCall} (hcalls : s'.calls = s.calls.insert c call') (hlocks : s'.wrlocks = s.wrlocks)
    (hlog : ∀ f, s'.log f = s.log f) (hright : s'.Right home c call')
    (hheld : ∀ f, s.wrlocks.find? f = some c → ∃ fd, call'.phase.lockFd? = some fd ∧
      s'.cache.kernel.fileOf fd = some f) : s'.Tidy home := by
  refine ⟨hopen, ?_, ?_, ?_, ?_, ?_⟩
  · intro c' call hcall
    rw [hcalls, OrdMap.find?_insert] at hcall
    split at hcall
    · rename_i heq
      cases hcall
      exact heq ▸ hright
    · refine (h.calls c' call hcall).frame ?_ ?_ rfl ?_ ?_
      · exact fun fd hfd hheld => hcalm.fd c' call fd hcall (haction c') hfd hheld
      · exact fun pfw hgot hdirect hfind => hcalm.entry c' call pfw hcall hgot hdirect hfind
      · exact fun f hlock => hlocks ▸ hlock
      · exact fun f => by rw [hlog]
  · intro c' hnone
    rw [hcalls, OrdMap.find?_insert] at hnone
    split at hnone
    · cases hnone
    · exact h.fresh c' hnone
  · intro f p hp
    exact h.logged f p (hlog f ▸ hp)
  · intro f c' hlock
    rw [hlocks] at hlock
    by_cases hc : c' = c
    · rw [hc] at hlock
      rcases hheld f hlock with ⟨fd, hfd, hf⟩
      refine ⟨call', fd, ?_, hfd, hf⟩
      rw [hcalls, hc, OrdMap.find?_insert_self]
    · rcases locked_frame h hcalm hlock (haction c') with ⟨call, fd, hcall, hfd, hf⟩
      refine ⟨call, fd, ?_, hfd, hf⟩
      rw [hcalls, OrdMap.find?_insert_ne _ _ hc, hcall]
  · intro f
    rw [hlog, hlocks]
    exact h.ordered f

/-- A call in one of the early phases has no lock. -/
theorem no_lock {s : FdSystem} {home : Nat → Option Nat} (h : s.Tidy home) {c : Nat}
    (hnone : ∀ call, s.calls.find? c = some call → call.phase.lockFd? = none) (f : Nat) :
    s.wrlocks.find? f ≠ some c := by
  intro hlock
  rcases h.locked f c hlock with ⟨call, fd, hcall, hfd, -⟩
  rw [hnone call hcall] at hfd
  cases hfd

theorem log_newCall {s : FdSystem} {cache : K2hFtFdCache} {answer : OpenAnswer} {filepath : Bytes}
    {r : Option Nat} (hget : s.cache.getFileWatch answer filepath = some (cache, r)) (f : Nat) :
    cache.kernel.writtenOf f = s.log f := by
  rcases K2hFtFdCache.getFileWatch_cases hget with ⟨rfl, -⟩ |
    ⟨fd, pfw, opened, -, -, hopen, -, rfl⟩ | ⟨fd, opened, -, -, hopen, -, rfl⟩
  · rfl
  · rcases Option.map_eq_some_iff.1 hopen with ⟨kernel, hkernel, rfl⟩
    exact Kernel.writtenOf_openFile hkernel f
  · rcases Option.map_eq_some_iff.1 hopen with ⟨kernel, hkernel, rfl⟩
    exact Kernel.writtenOf_openFile hkernel f

/-- `GetFileWatch` gives a pointer to the entry that is in the map. -/
theorem find?_of_getFileWatch {c c' : K2hFtFdCache} {answer : OpenAnswer} {filepath : Bytes} {id : Nat}
    (hget : c.getFileWatch answer filepath = some (c', some id)) :
    ∃ pfw, c'.curfwmap.find? filepath = some pfw ∧ pfw.id = id := by
  rcases K2hFtFdCache.getFileWatch_cases hget with ⟨rfl, hfound⟩ |
    ⟨fd, pfw, opened, -, -, -, hid, rfl⟩ | ⟨fd, opened, -, -, -, hid, rfl⟩
  · rcases hfound id rfl with ⟨pfw, hfind, hid, -⟩
    exact ⟨pfw, hfind, hid⟩
  · refine ⟨{ pfw with
      opened_fd := some fd
      st_dev := opened.2.1
      st_ino := opened.2.2 }, OrdMap.find?_insert_self c.curfwmap filepath _, ?_⟩
    exact (Option.some.inj hid).symm
  · refine ⟨{
      id := c.nextId
      filepath := filepath
      inotify_fd := none
      watch_fd := none
      opened_fd := some fd
      st_dev := opened.2.1
      st_ino := opened.2.2 }, OrdMap.find?_insert_self c.curfwmap filepath _, ?_⟩
    exact (Option.some.inj hid).symm

/-- The call comes to write, with the lock of its file. -/
theorem tidy_lock {s : FdSystem} {home : Nat → Option Nat} (h : s.Tidy home) {c : Nat} {call : FdCall}
    {fd : Nat} {data : Bytes} {wrlocks : OrdMap Nat Nat} (hcall : s.calls.find? c = some call)
    (hphase : call.phase = .ready fd) (hdata : call.data = some data)
    (hlock : s.takeLock c fd = some wrlocks)
    (hcalm : s.Calm { s with
      wrlocks := wrlocks
      calls := s.calls.insert c { call with phase := .writing fd data } } (.lock c)) :
    ∃ home', ({ s with
      wrlocks := wrlocks
      calls := s.calls.insert c { call with phase := .writing fd data } } : FdSystem).Tidy home' := by
  have hright := h.calls c call hcall
  simp only [Right, hphase] at hright
  rcases hright with ⟨hnone, hheld, f, hf⟩
  simp only [takeLock, hf, Option.ite_none_right_eq_some, Option.some.injEq] at hlock
  rcases hlock with ⟨hfree, rfl⟩
  have hnew : ∀ g, ∀ p ∈ s.log g, p.1 ≠ c := by
    rintro g p hp rfl
    rw [h.logged g p hp] at hnone
    cases hnone
  refine ⟨Function.update home c (some f), h.filesOpen, ?_, ?_, ?_, ?_, ?_⟩
  · intro c' call' hcall'
    simp only [OrdMap.find?_insert] at hcall'
    split at hcall'
    · rename_i heq
      subst heq
      cases hcall'
      rcases hcalm.fd c' call fd hcall (by simp) (by simp [hphase, CallPhase.fd?]) hheld with
        ⟨hheld', -⟩
      refine ⟨hheld', f, data, hf, ?_, ?_, hdata, ?_⟩
      · exact Function.update_self _ _ _
      · exact OrdMap.find?_insert_self _ _ _
      · change share (s.log f) c' ++ data = data
        rw [share_eq_nil (hnew f), List.nil_append]
    · rename_i hne
      refine (h.calls c' call' hcall').frame ?_ ?_ ?_ ?_ (fun g => rfl)
      · exact fun fd' hfd' hheld' => hcalm.fd c' call' fd' hcall' (by simp) hfd' hheld'
      · exact fun pfw _ _ hfind => ⟨pfw, hfind, rfl⟩
      · exact Function.update_of_ne hne _ _
      · intro g hg
        have hgf : g ≠ f := by
          rintro rfl
          rw [hfree] at hg
          cases hg
        exact (OrdMap.find?_insert_ne _ _ hgf).trans hg
  · intro c' hnone'
    simp only [OrdMap.find?_insert] at hnone'
    split at hnone'
    · cases hnone'
    · rename_i hne
      exact (Function.update_of_ne hne _ _).trans (h.fresh c' hnone')
  · intro g p hp
    exact (Function.update_of_ne (hnew g p hp) _ _).trans (h.logged g p hp)
  · intro g c' hg
    simp only [OrdMap.find?_insert] at hg ⊢
    split at hg
    · rename_i heq
      cases hg
      exact ⟨{ call with phase := .writing fd data }, fd, if_pos rfl, rfl, heq ▸ hf⟩
    · rcases h.locked g c' hg with ⟨call', fd', hcall', hfd', hf'⟩
      have hne : c' ≠ c := by
        rintro rfl
        rw [hcall] at hcall'
        cases hcall'
        simp [hphase, CallPhase.lockFd?] at hfd'
      exact ⟨call', fd', (if_neg hne).trans hcall', hfd', hf'⟩
  · intro g
    rcases h.ordered g with ⟨order, horder, hhome, hlast⟩
    have hnot : c ∉ order := by
      intro hmem
      rw [hhome c hmem] at hnone
      cases hnone
    refine ⟨order, horder, ?_, ?_⟩
    · intro c' hc'
      have hne : c' ≠ c := by
        rintro rfl
        exact hnot hc'
      exact (Function.update_of_ne hne _ _).trans (hhome c' hc')
    · intro c' hg hc'
      simp only [OrdMap.find?_insert] at hg
      split at hg
      · cases hg
        exact absurd hc' hnot
      · exact hlast c' hg hc'

/-- A piece goes to the end of the file that the call has locked. -/
theorem tidy_write {s : FdSystem} {home : Nat → Option Nat} (h : s.Tidy home) {c : Nat} {call : FdCall}
    {fd n : Nat} {rest : Bytes} {kernel : FdKernel} (hcall : s.calls.find? c = some call)
    (hphase : call.phase = .writing fd rest)
    (happ : s.cache.kernel.append fd (c, rest.take n) = some kernel)
    (hcalm : s.Calm { s with
      cache := { s.cache with kernel := kernel }
      calls := s.calls.insert c { call with phase := .writing fd (rest.drop n) } } (.write c (some n)))
    (hopen : FilesOpen { s with
      cache := { s.cache with kernel := kernel }
      calls := s.calls.insert c { call with phase := .writing fd (rest.drop n) } }) :
    ({ s with
      cache := { s.cache with kernel := kernel }
      calls := s.calls.insert c { call with phase := .writing fd (rest.drop n) } } : FdSystem).Tidy
        home := by
  have hright := h.calls c call hcall
  simp only [Right, hphase] at hright
  rcases hright with ⟨hheld, f, data, hf, hhome, hlock, hdata, hwritten⟩
  have hlog := Kernel.writtenOf_append hf happ
  have hlogf : kernel.writtenOf f = s.log f ++ [(c, rest.take n)] := (hlog f).trans (if_pos rfl)
  have hother : ∀ {g}, g ≠ f → kernel.writtenOf g = s.log g := fun hne => (hlog _).trans (if_neg hne)
  have hfd : s.cache.kernel.fileOf = kernel.fileOf := by
    funext d
    rw [Kernel.fileOf, Kernel.fileOf, (Kernel.append_frame happ).2.1]
  refine ⟨hopen, ?_, ?_, ?_, ?_, ?_⟩
  · intro c' call' hcall'
    simp only [OrdMap.find?_insert] at hcall'
    split at hcall'
    · rename_i heq
      subst heq
      cases hcall'
      rcases hcalm.fd c' call fd hcall (by simp) (by simp [hphase, CallPhase.fd?]) hheld with
        ⟨hheld', -⟩
      refine ⟨hheld', f, data, ?_, hhome, hlock, hdata, ?_⟩
      · exact (congrFun hfd fd).symm.trans hf
      · change share (kernel.writtenOf f) c' ++ rest.drop n = data
        rw [hlogf, share_append_self, List.append_assoc, List.take_append_drop, hwritten]
    · rename_i hne
      refine (h.calls c' call' hcall').frame ?_ ?_ rfl (fun _ hlock' => hlock') ?_
      · exact fun fd' hfd' hheld' => hcalm.fd c' call' fd' hcall' (by simp) hfd' hheld'
      · exact fun pfw _ _ hfind => ⟨pfw, hfind, rfl⟩
      · intro g
        change share (kernel.writtenOf g) c' = share (s.log g) c'
        by_cases hg : g = f
        · rw [hg, hlogf, share_append_ne _ _ hne]
        · rw [hother hg]
  · intro c' hnone
    simp only [OrdMap.find?_insert] at hnone
    split at hnone
    · cases hnone
    · exact h.fresh c' hnone
  · intro g p hp
    change p ∈ kernel.writtenOf g at hp
    by_cases hg : g = f
    · rw [hg, hlogf, List.mem_append, List.mem_singleton] at hp
      rcases hp with hp | rfl
      · exact hg ▸ h.logged f p hp
      · exact hg ▸ hhome
    · rw [hother hg] at hp
      exact h.logged g p hp
  · intro g c' hg
    simp only [OrdMap.find?_insert]
    rcases h.locked g c' hg with ⟨call', fd', hcall', hfd', hf'⟩
    have hfile : kernel.fileOf fd' = some g := (congrFun hfd fd').symm.trans hf'
    by_cases hc : c' = c
    · subst hc
      rw [hcall] at hcall'
      cases hcall'
      have hfd'' : fd = fd' := by simpa [hphase, CallPhase.lockFd?] using hfd'
      exact ⟨_, fd', if_pos rfl, by simp [CallPhase.lockFd?, hfd''], hfile⟩
    · exact ⟨call', fd', (if_neg hc).trans hcall', hfd', hfile⟩
  · intro g
    rcases h.ordered g with ⟨order, horder, hhome', hlast⟩
    by_cases hg : g = f
    · subst hg
      change ∃ order, InOrder (kernel.writtenOf g) order ∧ _
      rw [hlogf]
      by_cases hmem : c ∈ order
      · exact ⟨order, horder.append_last (hlast c hlock hmem) _, hhome', hlast⟩
      · -- its first piece in the file
        refine ⟨order ++ [c], horder.append_new ?_ hmem _, ?_, ?_⟩
        · rintro p hp rfl
          rw [horder.2, List.mem_flatMap] at hp
          rcases hp with ⟨c', hc', hp⟩
          simp only [pieces, List.mem_filter, decide_eq_true_eq] at hp
          exact hmem (hp.2 ▸ hc')
        · intro c' hc'
          rw [List.mem_append, List.mem_singleton] at hc'
          rcases hc' with hc' | rfl
          · exact hhome' c' hc'
          · exact hhome
        · intro c' hlock' _
          obtain rfl : c = c' := Option.some.inj (hlock.symm.trans hlock')
          simp
    · change ∃ order, InOrder (kernel.writtenOf g) order ∧ _
      rw [hother hg]
      exact ⟨order, horder, hhome', hlast⟩

/-- The call gives its lock back and is done. -/
theorem tidy_unlock {s : FdSystem} {home : Nat → Option Nat} (h : s.Tidy home) {c : Nat} {call : FdCall}
    {fd : Nat} {result : Bool} (hcall : s.calls.find? c = some call)
    (hphase : call.phase = .writing fd [] ∧ result = true ∨ call.phase = .wrote fd result)
    (hcalm : s.Calm (s.finish c call fd result) (.unlock c))
    (hopen : (s.finish c call fd result).FilesOpen) : (s.finish c call fd result).Tidy home := by
  have hright := h.calls c call hcall
  -- what is in the file is the data, or a part of it after a failure
  have hwritten : ∃ f data, s.cache.kernel.fileOf fd = some f ∧ home c = some f ∧
      s.wrlocks.find? f = some c ∧ call.data = some data ∧ share (s.log f) c <+: data ∧
        (result = true → share (s.log f) c = data) := by
    rcases hphase with ⟨hphase, -⟩ | hphase
    · simp only [Right, hphase] at hright
      rcases hright with ⟨-, f, data, hf, hhome, hlock, hdata, hall⟩
      rw [List.append_nil] at hall
      exact ⟨f, data, hf, hhome, hlock, hdata, hall ▸ List.prefix_refl _, fun _ => hall⟩
    · simp only [Right, hphase] at hright
      rcases hright with ⟨hresult, -, f, data, hf, hhome, hlock, hdata, hpart⟩
      exact ⟨f, data, hf, hhome, hlock, hdata, hpart, fun htrue => by simp [hresult] at htrue⟩
  have hlockFd : call.phase.lockFd? = some fd := by
    rcases hphase with ⟨hphase, -⟩ | hphase <;> simp [hphase, CallPhase.lockFd?]
  rcases hwritten with ⟨f, data, hf, hhome, hlock, hdata, hpart, hwhole⟩
  have hlocks : (s.finish c call fd result).wrlocks = s.wrlocks.erase f := by
    simp only [finish, releaseLock, hf]
    exact if_pos hlock
  have hlog : ∀ g, (s.finish c call fd result).log g = s.log g := by
    intro g
    simp only [log, finish, Kernel.writtenOf, files_closeFd]
  have hkept : ∀ {g c'}, (s.wrlocks.erase f).find? g = some c' → g ≠ f ∧ s.wrlocks.find? g = some c' := by
    intro g c' hg
    rw [OrdMap.find?_erase] at hg
    split at hg
    · cases hg
    · rename_i hne
      exact ⟨hne, hg⟩
  refine ⟨hopen, ?_, ?_, ?_, ?_, ?_⟩
  · intro c' call' hcall'
    simp only [finish, OrdMap.find?_insert] at hcall'
    split at hcall'
    · rename_i heq
      subst heq
      cases hcall'
      intro data' hdata'
      rw [show call.data = some data' from hdata'] at hdata
      cases hdata
      refine ⟨?_, fun hresult => ⟨f, hhome, ?_⟩⟩
      · intro g hg
        obtain rfl : f = g := Option.some.inj (hhome.symm.trans hg)
        exact (hlog f).symm ▸ hpart
      · rw [hlog, hwhole hresult]
    · rename_i hne
      refine (h.calls c' call' hcall').frame ?_ ?_ rfl ?_ (fun g => by rw [hlog])
      · exact fun fd' hfd' hheld' => hcalm.fd c' call' fd' hcall' (by simpa using Ne.symm hne) hfd' hheld'
      · exact fun pfw _ _ hfind => ⟨pfw, hfind, rfl⟩
      · intro g hg
        have hgf : g ≠ f := by
          rintro rfl
          rw [hlock] at hg
          exact hne (Option.some.inj hg).symm
        rw [hlocks, OrdMap.find?_erase_ne _ hgf, hg]
  · intro c' hnone
    simp only [finish, OrdMap.find?_insert] at hnone
    split at hnone
    · cases hnone
    · exact h.fresh c' hnone
  · intro g p hp
    exact h.logged g p (hlog g ▸ hp)
  · intro g c' hg
    rw [hlocks] at hg
    rcases hkept hg with ⟨hgf, hg⟩
    have hne : c' ≠ c := by
      rintro rfl
      rcases h.locked g c' hg with ⟨call', fd', hcall', hfd', hf'⟩
      rw [hcall] at hcall'
      cases hcall'
      obtain rfl : fd = fd' := Option.some.inj (hlockFd.symm.trans hfd')
      exact hgf (Option.some.inj (hf'.symm.trans hf))
    rcases locked_frame h hcalm hg (by simpa using Ne.symm hne) with ⟨call', fd', hcall', hfd', hf'⟩
    exact ⟨call', fd', (OrdMap.find?_insert_ne _ _ hne).trans hcall', hfd', hf'⟩
  · intro g
    rcases h.ordered g with ⟨order, horder, hhome', hlast⟩
    refine ⟨order, (hlog g).symm ▸ horder, hhome', ?_⟩
    intro c' hg hc'
    rw [hlocks] at hg
    exact hlast c' (hkept hg).2 hc'

theorem tidy_step {s s' : FdSystem} {action : FdAction} {home : Nat → Option Nat} (h : s.Tidy home)
    (hslots : s.Slots) (hsound : s.table.Sound) (hok : s.Orderly action)
    (hstep : s.step action = some s') : ∃ home', s'.Tidy home' := by
  have hsound' : s'.table.Sound := (sound_moves_iff (step_moves hslots hstep) hsound).2 hok.1
  have hcalm := calm_step hslots hsound hsound' h.filesOpen hok hstep
  have hopen := filesOpen_step hsound hsound' h.filesOpen hstep
  rcases step_cases hstep with hworker | hcall | ⟨c, kernel, rfl, hchange, rfl⟩
  · rcases worker_frame hworker with ⟨hcalls, hlocks, hfiles⟩
    have hunlock : ∀ c, action ≠ .unlock c := by
      rintro c rfl
      cases hworker
    refine ⟨home, tidy_frame h hcalm hopen hunlock hcalls hlocks ?_⟩
    intro f
    rw [log, Kernel.writtenOf, hfiles]
    rfl
  · cases hcall with
    | call c filepath data answer cache r phase hnew hlock hget hphase =>
        have hnone : home c = none := h.fresh c hnew
        refine ⟨home, tidy_call h hcalm hopen (by simp) rfl rfl (log_newCall hget) ?_ ?_⟩
        · rcases hphase with ⟨id, hr, hp⟩ | ⟨-, -, hp⟩ | ⟨-, hd, hp⟩
          · subst hr hp
            exact ⟨hnone, rfl, find?_of_getFileWatch hget⟩
          · subst hp
            exact hnone
          · subst hd hp
            intro data hdata
            cases hdata
        · intro f hlocked
          exact absurd hlocked (no_lock h (by simp [hnew]) f)
    | directFails c answer call hcall hphase =>
        have hright := h.calls c call hcall
        simp only [Right, hphase] at hright
        refine ⟨home, tidy_call h hcalm hopen (by simp) rfl rfl (fun _ => rfl) ?_ ?_⟩
        · intro data hdata
          refine ⟨fun f hhome => ?_, by simp⟩
          rw [hright] at hhome
          cases hhome
        · intro f hlocked
          exact absurd hlocked (no_lock h (by simp [hcall, hphase, CallPhase.lockFd?]) f)
    | direct c answer call fd kernel hcall hphase hopened =>
        have hright := h.calls c call hcall
        simp only [Right, hphase] at hright
        refine ⟨home, tidy_call h hcalm hopen (by simp) rfl rfl
          (Kernel.writtenOf_openFile hopened) ?_ ?_⟩
        · refine ⟨hright, ?_, Kernel.exists_fileOf_openFile hopened⟩
          simp [FdCall.slot, held]
        · intro f hlocked
          exact absurd hlocked (no_lock h (by simp [hcall, hphase, CallPhase.lockFd?]) f)
    | fetch c call id hcall hphase =>
        have hright := h.calls c call hcall
        simp only [Right, hphase] at hright
        rcases hright with ⟨hnone, hdirect, pfw, hfind, hid⟩
        refine ⟨home, tidy_call h hcalm hopen (by simp) rfl rfl (fun _ => rfl) ?_ ?_⟩
        · -- the pointer still means the entry, and the file of the entry is open
          have hderef : s.deref call.filepath id = some pfw := by
            simp [deref, hfind, hid]
          rcases h.filesOpen call.filepath pfw hfind with ⟨d, f, hd, hf⟩
          unfold Right
          cases hdata : call.data with
          | none => simpa [fetchFrom, hderef, hdata] using hnone
          | some data =>
              have hphase' : fetchFrom call (some pfw) = .ready d := by
                simp [fetchFrom, hdata, hd]
              simp only [hderef, hphase']
              refine ⟨hnone, ?_, f, hf⟩
              simp [FdCall.slot, hdirect, held, setCall, hfind, hd]
        · intro f hlocked
          exact absurd hlocked (no_lock h (by simp [hcall, hphase, CallPhase.lockFd?]) f)
    | lock c call fd data wrlocks hcall hphase hdata hlock =>
        exact tidy_lock h hcall hphase hdata hlock hcalm
    | writeFails c call fd rest hcall hphase hrest =>
        have hright := h.calls c call hcall
        simp only [Right, hphase] at hright
        rcases hright with ⟨hheld, f, data, hf, hhome, hlock, hdata, hwritten⟩
        rcases hcalm.fd c call fd hcall (by simp) (by simp [hphase, CallPhase.fd?]) hheld with
          ⟨hheld', -⟩
        refine ⟨home, tidy_call h hcalm hopen (by simp) rfl rfl (fun _ => rfl) ?_ ?_⟩
        · exact ⟨rfl, hheld', f, data, hf, hhome, hlock, hdata, hwritten ▸ List.prefix_append _ _⟩
        · intro g hlocked
          rcases h.locked g c hlocked with ⟨call', fd', hcall', hfd', hf'⟩
          rw [hcall] at hcall'
          cases hcall'
          exact ⟨fd', by simpa [hphase, CallPhase.lockFd?] using hfd', hf'⟩
    | write c call fd rest n kernel hcall hphase hrest hn happ =>
        exact ⟨home, tidy_write h hcall hphase happ hcalm hopen⟩
    | unlock c call fd result hcall hphase =>
        exact ⟨home, tidy_unlock h hcall hphase hcalm hopen⟩
  · exact ⟨home, tidy_frame h hcalm hopen (by simp) rfl rfl (Kernel.writtenOf_change hchange)⟩

/-! ## Runs -/

theorem Tidy.share_prefix {s : FdSystem} {home : Nat → Option Nat} (h : s.Tidy home) {c : Nat}
    {call : FdCall} {data : Bytes} (hcall : s.calls.find? c = some call) (hdata : call.data = some data)
    (f : Nat) : share (s.log f) c <+: data := by
  by_cases hhome : home c = some f
  · have hright := h.calls c call hcall
    unfold Right at hright
    cases hphase : call.phase with
    | writing fd rest =>
        simp only [hphase] at hright
        rcases hright with ⟨-, g, data', -, hg, -, hdata', hwritten⟩
        obtain rfl : f = g := Option.some.inj (hhome.symm.trans hg)
        obtain rfl : data = data' := Option.some.inj (hdata.symm.trans hdata')
        exact hwritten ▸ List.prefix_append _ _
    | wrote fd result =>
        simp only [hphase] at hright
        rcases hright with ⟨-, -, g, data', -, hg, -, hdata', hwritten⟩
        obtain rfl : f = g := Option.some.inj (hhome.symm.trans hg)
        obtain rfl : data = data' := Option.some.inj (hdata.symm.trans hdata')
        exact hwritten
    | done result =>
        simp only [hphase] at hright
        exact (hright data hdata).1 f hhome
    | _ => simp [hphase, hhome] at hright
  · -- a call has pieces at home only
    rw [share_eq_nil]
    · exact List.nil_prefix
    · rintro p hp rfl
      exact hhome (h.logged f p hp)

section Start

variable (names : OrdMap Bytes Nat) (files : OrdMap Nat (FileNode (Nat × Bytes))) (foreign : List Nat)

theorem tidy_start (hfiles : ∀ f node, files.find? f = some node → node.written = []) :
    (start names files foreign).Tidy fun _ => none := by
  have hlog : ∀ f, (start names files foreign).log f = [] := by
    intro f
    change ((files.find? f).map FileNode.written).getD [] = []
    cases hfind : files.find? f with
    | none => rfl
    | some node => exact hfiles f node hfind
  refine ⟨?_, ?_, fun _ _ => rfl, ?_, ?_, ?_⟩
  · intro path pfw hfind
    cases hfind
  · intro c call hcall
    cases hcall
  · intro f p hp
    rw [hlog] at hp
    cases hp
  · intro f c hlock
    cases hlock
  · intro f
    rw [hlog]
    exact ⟨[], .nil, by simp, by simp⟩

/-- However the calls of `Write` and the worker are interleaved, and however the kernel cuts the writes,
every file is what the calls have written one after another, each in one file only: a part of its data
from the start, and all of it where `Write` tells success. No call looks into a deleted entry. It is
assumed that an entry is deleted only while no call uses it, and that slots are spared. -/
theorem writes_in_order (hfiles : ∀ f node, files.find? f = some node → node.written = [])
    {actions : List FdAction} {s : FdSystem}
    (hrun : run step (start names files foreign) actions = some s)
    (hguard : Guarded step Orderly (start names files foreign) actions) :
    (∀ f, ∃ order, InOrder (s.log f) order ∧
      contents (s.log f) = order.flatMap (share (s.log f))) ∧
    (∀ f g, ∀ p ∈ s.log f, ∀ q ∈ s.log g, p.1 = q.1 → f = g) ∧
    (∀ c call data, s.calls.find? c = some call → call.data = some data →
      (∀ f, share (s.log f) c <+: data) ∧
        (call.phase = .done true → ∃ f, share (s.log f) c = data)) ∧
    ∀ c call, s.calls.find? c = some call → call.phase ≠ .freed := by
  have hinv : s.Slots ∧ s.table.Sound ∧ ∃ home, s.Tidy home := by
    have hpres : ∀ t action t', (t.Slots ∧ t.table.Sound ∧ ∃ home, t.Tidy home) →
        Orderly t action → step t action = some t' →
        t'.Slots ∧ t'.table.Sound ∧ ∃ home, t'.Tidy home := by
      rintro t action t' ⟨hslots, hsound, home, htidy⟩ hok hstep
      exact ⟨slots_step hslots hstep, (sound_moves_iff (step_moves hslots hstep) hsound).2 hok.1,
        tidy_step htidy hslots hsound hok hstep⟩
    exact invariant_run_of_guarded hpres hguard hrun
      ⟨slots_start names files foreign, (matched_start names files foreign).sound, _,
        tidy_start names files foreign hfiles⟩
  rcases hinv with ⟨-, -, home, htidy⟩
  refine ⟨?_, ?_, ?_, ?_⟩
  · intro f
    rcases htidy.ordered f with ⟨order, horder, -⟩
    exact ⟨order, horder, horder.contents⟩
  · intro f g p hp q hq heq
    have hf := htidy.logged f p hp
    rw [heq, htidy.logged g q hq] at hf
    exact (Option.some.inj hf).symm
  · intro c call data hcall hdata
    refine ⟨htidy.share_prefix hcall hdata, ?_⟩
    intro hphase
    have hright := htidy.calls c call hcall
    simp only [Right, hphase] at hright
    rcases (hright data hdata).2 trivial with ⟨f, -, hwhole⟩
    exact ⟨f, hwhole⟩
  · intro c call hcall hphase
    have hright := htidy.calls c call hcall
    simp only [Right, hphase] at hright

end Start

/-- Two calls write to one file while the worker goes on; the second waits for the lock. -/
def sharedRun : List FdAction :=
  let answer : OpenAnswer :=
    { fd := some 5
      new :=
        { file := 0
          dev := 8
          ino := 9 }
      fstat := true }
  [.init 3, .start 4 true, .call 0 (ascii "/o") (some [1, 2, 3]) answer,
    .call 1 (ascii "/o") (some [4, 5]) answer, .fetch 1, .fetch 0, .lock 0, .write 0 (some 1), .loop,
    .add (.added 6 40), .write 0 (some 2), .unlock 0, .lock 1, .add .noInotify, .write 1 (some 2),
    .unlock 1]

theorem sharedRun_in_order : ∃ s, run step (start ∅ ∅ [0, 1, 2]) sharedRun = some s ∧
    ∀ f, ∃ order, InOrder (s.log f) order ∧ contents (s.log f) = order.flatMap (share (s.log f)) := by
  have hsome : (run step (start ∅ ∅ [0, 1, 2]) sharedRun).isSome := by decide
  rcases Option.isSome_iff_exists.1 hsome with ⟨s, hrun⟩
  exact ⟨s, hrun, (writes_in_order ∅ ∅ [0, 1, 2] (by simp) hrun (by decide)).1⟩

/-- An entry is deleted under a call that has its descriptor, and what the call writes goes to the file
that was opened next. -/
example :
    let answer (file : Nat) : OpenAnswer :=
      { fd := some 5
        new :=
          { file := file
            dev := 8
            ino := file }
        fstat := true }
    (run step (start ∅ ∅ [0, 1, 2])
      [.init 3, .start 4 true, .call 0 (ascii "/o") (some [1, 2]) (answer 0), .fetch 0, .loop,
        .add (.added 6 40), .add .noInotify, .change (.unlink (ascii "/o")), .wait [some 6], .handle,
        .check, .stat false, .delete, .call 1 (ascii "/p") (some [3]) (answer 1), .lock 0,
        .write 0 (some 2)]).map (fun s => contents (s.log 1)) = some [1, 2] := by
  decide

end FdSystem

end K2hFtFuse

import K2hFtFuse.Lib.OrdMap

/-!
# OpenFiles — names, files, descriptors and watches

What a program sees of a kernel when it keeps files open and watches them. A file has its numbers
(device and inode) for as long as it has a name or a descriptor; afterwards another file may get
them. A watcher is an inotify descriptor with one watch. In an edge triggered epoll set it is reported
once for what is new in its queue, and an event equal to the last one that is not read yet is not
queued again.

This file defines:
* `Kernel`: the names, the files, and the open descriptors with the owner for whom each was opened,
* the calls of a program: `openFile`, `newDescriptor`, `close`, `stat`, `fstat`, `append`, `addWatch`,
* `Change`: what other programs do to the names, and what the watchers are told of it,
* `writtenOf`: what was written to a file, which only `append` adds to.

Every call keeps `Wf`: two live files have different numbers. No file loses a name without an event for
those who watch it (`change_watcher`).
-/

/-- Kinds of inotify events: the file was moved or deleted, its attributes (the number of its names
included) changed, or something else. -/
inductive WatchEvent
  | moved
  | attrib
  | other
  deriving DecidableEq

/-- An inotify instance: the number and the file of its watch, the events that are not read, whether it
is in the epoll set, and whether it has something new to report there. -/
structure Watcher where
  watch : Option (Nat × Nat)
  queue : List WatchEvent
  armed : Bool
  ready : Bool
  deriving DecidableEq

inductive OpenObject
  | file (f : Nat)
  | watcher (w : Watcher)
  | other
  deriving DecidableEq

/-- A file: its numbers, and what was written to it, piece by piece. -/
structure FileNode (χ : Type*) where
  dev : Nat
  ino : Nat
  written : List χ
  deriving DecidableEq

structure Kernel (π χ ω : Type*) [LinearOrder π] where
  names : OrdMap π Nat
  files : OrdMap Nat (FileNode χ)
  fds : OrdMap Nat (ω × OpenObject)

/-- What a file gets when it is made. -/
structure NewFile where
  file : Nat
  dev : Nat
  ino : Nat
  deriving DecidableEq

/-! ## Watchers -/

namespace Watcher

/-- A fresh inotify instance. -/
def fresh : Watcher :=
  { watch := none
    queue := []
    armed := false
    ready := false }

def watches (w : Watcher) (f : Nat) : Bool := w.watch.any fun watch => watch.2 == f

/-- An event for a file. -/
def notify (w : Watcher) (event : Nat × WatchEvent) : Watcher :=
  if w.watches event.1 then
    -- an equal event at the end that was not read stands for both
    if w.queue.getLast? = some event.2 then w
    else { w with queue := w.queue ++ [event.2], ready := w.ready || w.armed }
  else
    w

/-- There is an event to read that may tell of a lost name. -/
def Tells (w : Watcher) : Prop := ∃ e ∈ w.queue, e ≠ .other

/-- The same watcher later, when nothing was read in between. -/
structure Hears (w w' : Watcher) : Prop where
  watch : w'.watch = w.watch
  armed : w'.armed = w.armed
  ready : w.ready = true → w'.ready = true
  tells : w.Tells → w'.Tells
  news : w'.queue = w.queue ∨ (w.armed = true → w'.ready = true)

theorem Hears.refl (w : Watcher) : w.Hears w := ⟨rfl, rfl, id, id, .inl rfl⟩

theorem Hears.trans {w w' w'' : Watcher} (h : w.Hears w') (h' : w'.Hears w'') : w.Hears w'' := by
  refine ⟨h'.watch.trans h.watch, h'.armed.trans h.armed, fun hr => h'.ready (h.ready hr),
    fun ht => h'.tells (h.tells ht), ?_⟩
  rcases h'.news with hsame | hnews
  · rcases h.news with hsame' | hnews
    · exact .inl (hsame.trans hsame')
    · exact .inr fun ha => h'.ready (hnews ha)
  · exact .inr fun ha => hnews (h.armed.trans ha)

theorem hears_notify (w : Watcher) (event : Nat × WatchEvent) : w.Hears (w.notify event) := by
  unfold notify
  split
  · split
    · exact .refl w
    · refine ⟨rfl, rfl, ?_, ?_, .inr ?_⟩
      · intro hr
        simp [hr]
      · rintro ⟨e, he, hne⟩
        exact ⟨e, List.mem_append_left _ he, hne⟩
      · intro ha
        simp [ha]
  · exact .refl w

theorem hears_foldl (events : List (Nat × WatchEvent)) (w : Watcher) :
    w.Hears (events.foldl notify w) := by
  induction events generalizing w with
  | nil =>
      exact .refl w
  | cons event events ih =>
      exact (hears_notify w event).trans (ih _)

/-- Whoever watches a file that an event is for has it to read. -/
theorem tells_notify {w : Watcher} {f : Nat} {e : WatchEvent} (hw : w.watches f = true)
    (he : e ≠ .other) : (w.notify (f, e)).Tells := by
  simp only [notify, hw, if_true]
  split
  · rename_i hlast
    exact ⟨e, List.mem_of_getLast? hlast, he⟩
  · exact ⟨e, by simp, he⟩

theorem tells_foldl {events : List (Nat × WatchEvent)} {w : Watcher} {f : Nat} {e : WatchEvent}
    (hw : w.watches f = true) (hmem : (f, e) ∈ events) (he : e ≠ .other) :
    (events.foldl notify w).Tells := by
  induction events generalizing w with
  | nil =>
      simp at hmem
  | cons event events ih =>
      rcases List.mem_cons.1 hmem with rfl | hmem
      · exact (hears_foldl events _).tells (tells_notify hw he)
      · refine ih ?_ hmem
        rw [watches, (hears_notify w event).watch]
        exact hw

end Watcher

namespace OpenObject

def file? : OpenObject → Option Nat
  | .file f => some f
  | _ => none

def watcher? : OpenObject → Option Watcher
  | .watcher w => some w
  | _ => none

theorem file?_eq_some {obj : OpenObject} {f : Nat} : obj.file? = some f ↔ obj = .file f := by
  cases obj <;> simp [file?]

theorem watcher?_eq_some {obj : OpenObject} {w : Watcher} :
    obj.watcher? = some w ↔ obj = .watcher w := by
  cases obj <;> simp [watcher?]

/-- The object when its watcher changes. -/
def mapWatcher (g : Watcher → Watcher) : OpenObject → OpenObject
  | .watcher w => .watcher (g w)
  | obj => obj

@[simp] theorem file?_mapWatcher (g : Watcher → Watcher) (obj : OpenObject) :
    (obj.mapWatcher g).file? = obj.file? := by
  cases obj <;> rfl

@[simp] theorem watcher?_mapWatcher (g : Watcher → Watcher) (obj : OpenObject) :
    (obj.mapWatcher g).watcher? = obj.watcher?.map g := by
  cases obj <;> rfl

end OpenObject

namespace Kernel

variable {π χ ω : Type*} [LinearOrder π]

/-! ## Looking things up -/

/-- The file that a descriptor is open on. -/
def fileOf (k : Kernel π χ ω) (d : Nat) : Option Nat := (k.fds.find? d).bind fun o => o.2.file?

def watcherOf (k : Kernel π χ ω) (d : Nat) : Option Watcher :=
  (k.fds.find? d).bind fun o => o.2.watcher?

/-- The open descriptors, each with the owner for whom it was opened. -/
def owners (k : Kernel π χ ω) : OrdMap Nat ω := k.fds.mapVals Prod.fst

def numbers (k : Kernel π χ ω) (f : Nat) : Option (Nat × Nat) :=
  (k.files.find? f).map fun node => (node.dev, node.ino)

def stat (k : Kernel π χ ω) (path : π) : Option (Nat × Nat) := (k.names.find? path).bind k.numbers

def fstat (k : Kernel π χ ω) (d : Nat) : Option (Nat × Nat) := (k.fileOf d).bind k.numbers

/-- The files that have a name or a descriptor. -/
def liveFiles (k : Kernel π χ ω) : List Nat :=
  k.names.values ++ k.fds.values.filterMap fun o => o.2.file?

def Live (k : Kernel π χ ω) (f : Nat) : Prop :=
  (∃ path, k.names.find? path = some f) ∨ ∃ d, k.fileOf d = some f

theorem mem_liveFiles_iff {k : Kernel π χ ω} {f : Nat} : f ∈ k.liveFiles ↔ k.Live f := by
  simp only [liveFiles, List.mem_append, List.mem_filterMap, OrdMap.mem_values_iff, Live, fileOf,
    Option.bind_eq_some_iff]
  constructor
  · rintro (hname | ⟨o, ⟨d, hd⟩, hfile⟩)
    · exact .inl hname
    · exact .inr ⟨d, o, hd, hfile⟩
  · rintro (hname | ⟨d, o, hd, hfile⟩)
    · exact .inl hname
    · exact .inr ⟨o, ⟨d, hd⟩, hfile⟩

/-- Live files are there, and no two of them have the same numbers. -/
structure Wf (k : Kernel π χ ω) : Prop where
  present : ∀ f, k.Live f → (k.numbers f).isSome
  distinct : ∀ f g, k.Live f → k.Live g → k.numbers f = k.numbers g → f = g

/-- Nothing becomes live and no number changes. -/
theorem Wf.of_live {k k' : Kernel π χ ω} (h : k.Wf) (hlive : ∀ f, k'.Live f → k.Live f)
    (hnumbers : ∀ f, k.Live f → k'.numbers f = k.numbers f) : k'.Wf := by
  constructor
  · intro f hf
    rw [hnumbers f (hlive f hf)]
    exact h.present f (hlive f hf)
  · intro f g hf hg heq
    rw [hnumbers f (hlive f hf), hnumbers g (hlive g hg)] at heq
    exact h.distinct f g (hlive f hf) (hlive g hg) heq

/-! ## Calls -/

/-- A file can be made with numbers that no live file has. -/
def CanMake (k : Kernel π χ ω) (new : NewFile) : Prop :=
  k.files.find? new.file = none ∧ ∀ g ∈ k.liveFiles, k.numbers g ≠ some (new.dev, new.ino)

instance instDecidableCanMake (k : Kernel π χ ω) (new : NewFile) : Decidable (k.CanMake new) :=
  inferInstanceAs (Decidable (_ ∧ _))

def makeFile (k : Kernel π χ ω) (path : π) (new : NewFile) : Kernel π χ ω :=
  { k with
    names := k.names.insert path new.file
    files := k.files.insert new.file
      { dev := new.dev
        ino := new.ino
        written := [] } }

/-- A call that gives a descriptor: one that is not open. -/
def newDescriptor (k : Kernel π χ ω) (owner : ω) (obj : OpenObject) (d : Nat) :
    Option (Kernel π χ ω) :=
  if k.fds.find? d = none then
    some { k with fds := k.fds.insert d (owner, obj) }
  else
    none

/-- `open` with `O_CREAT`: the file of that name, or a new one. -/
def openFile (k : Kernel π χ ω) (owner : ω) (path : π) (d : Nat) (new : NewFile) :
    Option (Kernel π χ ω) :=
  match k.names.find? path with
  | some f => k.newDescriptor owner (.file f) d
  | none =>
      if k.CanMake new then
        (k.makeFile path new).newDescriptor owner (.file new.file) d
      else
        none

/-- `close`; a number that is not open is no harm. -/
def close (k : Kernel π χ ω) (d : Nat) : Kernel π χ ω := { k with fds := k.fds.erase d }

/-- `write` on a descriptor that appends. -/
def append (k : Kernel π χ ω) (d : Nat) (piece : χ) : Option (Kernel π χ ω) :=
  match k.fileOf d with
  | none => none
  | some f =>
      (k.files.find? f).map fun node =>
        { k with files := k.files.insert f { node with written := node.written ++ [piece] } }

def updateWatcher (k : Kernel π χ ω) (d : Nat) (g : Watcher → Watcher) : Kernel π χ ω :=
  match k.fds.find? d with
  | some (owner, obj) => { k with fds := k.fds.insert d (owner, obj.mapWatcher g) }
  | none => k

/-- `inotify_add_watch` for a path, with the number that it gives the watch. -/
def addWatch (k : Kernel π χ ω) (d wd : Nat) (path : π) : Option (Kernel π χ ω) :=
  (k.names.find? path).map fun f => k.updateWatcher d fun w => { w with watch := some (wd, f) }

/-- `epoll_ctl` with `EPOLL_CTL_ADD` and `EPOLLET`: what is there already is new. -/
def arm (k : Kernel π χ ω) (d : Nat) : Kernel π χ ω :=
  k.updateWatcher d fun w => { w with armed := true, ready := !w.queue.isEmpty }

/-- `epoll_ctl` with `EPOLL_CTL_DEL`. -/
def disarm (k : Kernel π χ ω) (d : Nat) : Kernel π χ ω :=
  k.updateWatcher d fun w => { w with armed := false, ready := false }

/-- `inotify_rm_watch`; it is told of by an event of its own. -/
def rmWatch (k : Kernel π χ ω) (d wd : Nat) : Kernel π χ ω :=
  k.updateWatcher d fun w =>
    if w.watch.any fun watch => watch.1 == wd then
      { w with watch := none, queue := w.queue ++ [.other], ready := w.ready || w.armed }
    else
      w

/-- `epoll_wait` has reported the watcher. -/
def report (k : Kernel π χ ω) (d : Nat) : Kernel π χ ω :=
  k.updateWatcher d fun w => { w with ready := false }

/-- `read` of at most `n` events. -/
def readEvents (k : Kernel π χ ω) (d n : Nat) : Kernel π χ ω :=
  k.updateWatcher d fun w => { w with queue := w.queue.drop n }

/-! ## What other programs do -/

/-- A file is made, gets another name, loses one or is renamed, or its attributes change. -/
inductive Change (π : Type*)
  | create (path : π) (new : NewFile)
  | link (path path' : π)
  | unlink (path : π)
  | rename (path path' : π)
  | touch (f : Nat)
  deriving DecidableEq

/-- The events of a change. -/
def events (k : Kernel π χ ω) : Change π → List (Nat × WatchEvent)
  | .create _ _ => []
  | .link path _ => (k.names.find? path).toList.map fun f => (f, .attrib)
  | .unlink path => (k.names.find? path).toList.map fun f => (f, .attrib)
  | .rename path path' =>
      if k.names.find? path = k.names.find? path' then []
      -- the file that had the new name before loses it
      else
        ((k.names.find? path).toList.map fun f => (f, .moved)) ++
          (k.names.find? path').toList.map fun f => (f, .attrib)
  | .touch f => [(f, .attrib)]

/-- The names after a change, where it is possible. -/
def rearrange (k : Kernel π χ ω) : Change π → Option (Kernel π χ ω)
  | .create path new =>
      if k.names.find? path = none ∧ k.CanMake new then some (k.makeFile path new) else none
  | .link path path' =>
      match k.names.find? path, k.names.find? path' with
      | some f, none => some { k with names := k.names.insert path' f }
      | _, _ => none
  | .unlink path => some { k with names := k.names.erase path }
  | .rename path path' =>
      match k.names.find? path with
      | none => none
      | some f =>
          -- two names of one file are left as they are
          if k.names.find? path' = some f then some k
          else some { k with names := (k.names.erase path).insert path' f }
  | .touch _ => some k

/-- All watchers hear the events. -/
def tell (k : Kernel π χ ω) (events : List (Nat × WatchEvent)) : Kernel π χ ω :=
  { k with fds := k.fds.mapVals fun o => (o.1, o.2.mapWatcher fun w => events.foldl Watcher.notify w) }

def change (k : Kernel π χ ω) (c : Change π) : Option (Kernel π χ ω) :=
  (k.rearrange c).map fun k' => k'.tell (k.events c)

/-! ## Descriptors after a call -/

theorem fileOf_eq_some {k : Kernel π χ ω} {d f : Nat} :
    k.fileOf d = some f ↔ ∃ owner, k.fds.find? d = some (owner, .file f) := by
  simp only [fileOf, Option.bind_eq_some_iff, OpenObject.file?_eq_some, Prod.exists]
  constructor
  · rintro ⟨owner, obj, hd, rfl⟩
    exact ⟨owner, hd⟩
  · rintro ⟨owner, hd⟩
    exact ⟨owner, _, hd, rfl⟩

theorem watcherOf_eq_some {k : Kernel π χ ω} {d : Nat} {w : Watcher} :
    k.watcherOf d = some w ↔ ∃ owner, k.fds.find? d = some (owner, .watcher w) := by
  simp only [watcherOf, Option.bind_eq_some_iff, OpenObject.watcher?_eq_some, Prod.exists]
  constructor
  · rintro ⟨owner, obj, hd, rfl⟩
    exact ⟨owner, hd⟩
  · rintro ⟨owner, hd⟩
    exact ⟨owner, _, hd, rfl⟩

theorem newDescriptor_eq_some {k k' : Kernel π χ ω} {owner : ω} {obj : OpenObject} {d : Nat} :
    k.newDescriptor owner obj d = some k' ↔
      k.fds.find? d = none ∧ k' = { k with fds := k.fds.insert d (owner, obj) } := by
  simp only [newDescriptor, Option.ite_none_right_eq_some, Option.some.injEq]
  exact and_congr_right fun _ => eq_comm

theorem fds_updateWatcher (k : Kernel π χ ω) (d : Nat) (g : Watcher → Watcher) (d' : Nat) :
    (k.updateWatcher d g).fds.find? d' =
      if d' = d then (k.fds.find? d).map fun o => (o.1, o.2.mapWatcher g) else k.fds.find? d' := by
  unfold updateWatcher
  rcases hd : k.fds.find? d with _ | ⟨owner, obj⟩
  · by_cases hne : d' = d <;> simp [hne, hd]
  · simp [OrdMap.find?_insert]

@[simp] theorem names_updateWatcher (k : Kernel π χ ω) (d : Nat) (g : Watcher → Watcher) :
    (k.updateWatcher d g).names = k.names := by
  unfold updateWatcher
  split <;> rfl

@[simp] theorem files_updateWatcher (k : Kernel π χ ω) (d : Nat) (g : Watcher → Watcher) :
    (k.updateWatcher d g).files = k.files := by
  unfold updateWatcher
  split <;> rfl

@[simp] theorem fileOf_updateWatcher (k : Kernel π χ ω) (d : Nat) (g : Watcher → Watcher)
    (d' : Nat) : (k.updateWatcher d g).fileOf d' = k.fileOf d' := by
  rw [fileOf, fileOf, fds_updateWatcher]
  split
  · rename_i heq
    rw [heq]
    cases k.fds.find? d <;> simp
  · rfl

theorem watcherOf_updateWatcher (k : Kernel π χ ω) (d : Nat) (g : Watcher → Watcher) (d' : Nat) :
    (k.updateWatcher d g).watcherOf d' =
      if d' = d then (k.watcherOf d).map g else k.watcherOf d' := by
  rw [watcherOf, fds_updateWatcher]
  split
  · rw [watcherOf]
    cases k.fds.find? d <;> simp
  · rfl

@[simp] theorem fileOf_tell (k : Kernel π χ ω) (events : List (Nat × WatchEvent)) (d : Nat) :
    (k.tell events).fileOf d = k.fileOf d := by
  simp only [fileOf, tell, OrdMap.find?_mapVals]
  cases k.fds.find? d <;> simp

@[simp] theorem watcherOf_tell (k : Kernel π χ ω) (events : List (Nat × WatchEvent)) (d : Nat) :
    (k.tell events).watcherOf d =
      (k.watcherOf d).map fun w => events.foldl Watcher.notify w := by
  simp only [watcherOf, tell, OrdMap.find?_mapVals]
  cases k.fds.find? d <;> simp

theorem fileOf_close {k : Kernel π χ ω} {d d' f : Nat} :
    (k.close d).fileOf d' = some f ↔ d' ≠ d ∧ k.fileOf d' = some f := by
  rw [fileOf, close, OrdMap.find?_erase]
  by_cases heq : d' = d <;> simp [heq, fileOf]

/-! ## Owners after a call -/

@[simp] theorem owners_updateWatcher (k : Kernel π χ ω) (d : Nat) (g : Watcher → Watcher) :
    (k.updateWatcher d g).owners = k.owners := by
  refine OrdMap.ext_find? fun d' => ?_
  simp only [owners, OrdMap.find?_mapVals, fds_updateWatcher]
  split
  · rename_i heq
    rw [heq]
    cases k.fds.find? d <;> simp
  · rfl

@[simp] theorem owners_tell (k : Kernel π χ ω) (events : List (Nat × WatchEvent)) :
    (k.tell events).owners = k.owners := by
  refine OrdMap.ext_find? fun d => ?_
  simp only [owners, tell, OrdMap.find?_mapVals]
  cases k.fds.find? d <;> simp

@[simp] theorem find?_owners_close (k : Kernel π χ ω) (d d' : Nat) :
    (k.close d).owners.find? d' = if d' = d then none else k.owners.find? d' := by
  simp only [owners, close, OrdMap.find?_mapVals, OrdMap.find?_erase]
  split <;> rfl

theorem owners_newDescriptor {k k' : Kernel π χ ω} {owner : ω} {obj : OpenObject} {d : Nat}
    (h : k.newDescriptor owner obj d = some k') :
    k.owners.find? d = none ∧ k'.owners = k.owners.insert d owner := by
  obtain ⟨hfree, rfl⟩ := newDescriptor_eq_some.1 h
  exact ⟨by simp [owners, hfree], OrdMap.mapVals_insert _ _ _ _⟩

theorem owners_openFile {k k' : Kernel π χ ω} {owner : ω} {path : π} {d : Nat} {new : NewFile}
    (h : k.openFile owner path d new = some k') :
    k.owners.find? d = none ∧ k'.owners = k.owners.insert d owner := by
  unfold openFile at h
  split at h
  · exact owners_newDescriptor h
  · split at h
    · exact owners_newDescriptor (k := k.makeFile path new) h
    · cases h

theorem owners_append {k k' : Kernel π χ ω} {d : Nat} {piece : χ}
    (h : k.append d piece = some k') : k'.owners = k.owners := by
  unfold append at h
  split at h
  · cases h
  · rcases Option.map_eq_some_iff.1 h with ⟨node, -, rfl⟩
    rfl

theorem owners_addWatch {k k' : Kernel π χ ω} {d wd : Nat} {path : π}
    (h : k.addWatch d wd path = some k') : k'.owners = k.owners := by
  rcases Option.map_eq_some_iff.1 h with ⟨f, -, rfl⟩
  exact owners_updateWatcher k d _

/-! ## Live files after a call -/

theorem Wf.updateWatcher {k : Kernel π χ ω} (h : k.Wf) (d : Nat) (g : Watcher → Watcher) :
    (k.updateWatcher d g).Wf := by
  refine h.of_live ?_ ?_
  · intro f hf
    simpa [Live] using hf
  · intro f _
    simp [numbers]

theorem Wf.addWatch {k k' : Kernel π χ ω} (h : k.Wf) {d wd : Nat} {path : π}
    (hwatch : k.addWatch d wd path = some k') : k'.Wf := by
  rcases Option.map_eq_some_iff.1 hwatch with ⟨f, -, rfl⟩
  exact h.updateWatcher d _

theorem Wf.tell {k : Kernel π χ ω} (h : k.Wf) (events : List (Nat × WatchEvent)) :
    (k.tell events).Wf := by
  refine h.of_live ?_ (fun f _ => rfl)
  rintro f (hname | ⟨d, hd⟩)
  · exact .inl hname
  · exact .inr ⟨d, by simpa using hd⟩

theorem Wf.close {k : Kernel π χ ω} (h : k.Wf) (d : Nat) : (k.close d).Wf := by
  refine h.of_live ?_ ?_
  · rintro f (hname | ⟨d', hd⟩)
    · exact .inl hname
    · exact .inr ⟨d', (fileOf_close.1 hd).2⟩
  · intro f _
    rfl

/-- A `write` touches neither names, numbers nor descriptors. -/
theorem append_frame {k k' : Kernel π χ ω} {d : Nat} {piece : χ} (happ : k.append d piece = some k') :
    k'.names = k.names ∧ k'.fds = k.fds ∧ k'.numbers = k.numbers := by
  unfold append at happ
  split at happ
  · cases happ
  · rename_i f hf
    rcases Option.map_eq_some_iff.1 happ with ⟨node, hnode, rfl⟩
    refine ⟨rfl, rfl, funext fun g => ?_⟩
    simp only [numbers, OrdMap.find?_insert]
    split
    · rename_i heq
      rw [heq, hnode]
      rfl
    · rfl

theorem Wf.append {k k' : Kernel π χ ω} (h : k.Wf) {d : Nat} {piece : χ}
    (happ : k.append d piece = some k') : k'.Wf := by
  rcases append_frame happ with ⟨hnames, hfds, hnumbers⟩
  refine h.of_live ?_ fun f _ => congrFun hnumbers f
  intro f hf
  simpa only [Live, fileOf, hnames, hfds] using hf

theorem Wf.newDescriptor {k k' : Kernel π χ ω} (h : k.Wf) {owner : ω} {obj : OpenObject} {d : Nat}
    (hobj : ∀ f, obj = .file f → k.Live f) (hnew : k.newDescriptor owner obj d = some k') :
    k'.Wf := by
  obtain ⟨-, rfl⟩ := newDescriptor_eq_some.1 hnew
  refine h.of_live ?_ (fun f _ => rfl)
  rintro f (hname | ⟨d', hd⟩)
  · exact .inl hname
  · rcases fileOf_eq_some.1 hd with ⟨owner', hd⟩
    rw [OrdMap.find?_insert] at hd
    split at hd
    · cases hd
      exact hobj f rfl
    · exact .inr ⟨d', fileOf_eq_some.2 ⟨owner', hd⟩⟩

theorem Wf.makeFile {k : Kernel π χ ω} (h : k.Wf) {path : π} {new : NewFile} (hcan : k.CanMake new) :
    (k.makeFile path new).Wf := by
  -- what is live is the new file or was live, and no live file had the new one's id
  have hlive : ∀ f, (k.makeFile path new).Live f → f = new.file ∨ k.Live f ∧ f ≠ new.file := by
    intro f hf
    by_cases heq : f = new.file
    · exact .inl heq
    · refine .inr ⟨?_, heq⟩
      rcases hf with ⟨path', hname⟩ | hd
      · rw [Kernel.makeFile, OrdMap.find?_insert] at hname
        split at hname
        · exact absurd (Option.some.inj hname).symm heq
        · exact .inl ⟨path', hname⟩
      · exact .inr hd
  have hself : (k.makeFile path new).numbers new.file = some (new.dev, new.ino) := by
    simp [numbers, Kernel.makeFile]
  have hother : ∀ f, f ≠ new.file → (k.makeFile path new).numbers f = k.numbers f := by
    intro f hne
    simp [numbers, Kernel.makeFile, OrdMap.find?_insert, hne]
  have hnew : ∀ f, k.Live f → k.numbers f ≠ some (new.dev, new.ino) :=
    fun f hf => hcan.2 f (mem_liveFiles_iff.2 hf)
  constructor
  · intro f hf
    rcases hlive f hf with rfl | ⟨hold, hne⟩
    · simp [hself]
    · rw [hother f hne]
      exact h.present f hold
  · intro f g hf hg heq
    rcases hlive f hf with rfl | ⟨hf, hfne⟩
    · rcases hlive g hg with rfl | ⟨hg, hgne⟩
      · rfl
      · rw [hself, hother g hgne] at heq
        exact absurd heq.symm (hnew g hg)
    · rcases hlive g hg with rfl | ⟨hg, hgne⟩
      · rw [hself, hother f hfne] at heq
        exact absurd heq (hnew f hf)
      · rw [hother f hfne, hother g hgne] at heq
        exact h.distinct f g hf hg heq

/-- A file that is made takes the name of nobody and the numbers of nothing that lives. -/
theorem numbers_makeFile {k : Kernel π χ ω} (h : k.Wf) {path : π} {new : NewFile}
    (hcan : k.CanMake new) {f : Nat} (hf : k.Live f) : (k.makeFile path new).numbers f = k.numbers f := by
  have hne : f ≠ new.file := by
    rintro rfl
    have hpresent := h.present _ hf
    simp [numbers, hcan.1] at hpresent
  simp [numbers, makeFile, OrdMap.find?_insert, hne]

/-- What `open` gives: a descriptor of the file that the path names from now on. Names, numbers and
other descriptors stay. -/
structure Opened (k k' : Kernel π χ ω) (path : π) (d f : Nat) : Prop where
  file : k'.fileOf d = some f
  name : k'.names.find? path = some f
  names : ∀ path' g, k.names.find? path' = some g → k'.names.find? path' = some g
  numbers : ∀ g, k.Live g → k'.numbers g = k.numbers g
  fds : ∀ d', d' ≠ d → k'.fds.find? d' = k.fds.find? d'

theorem opened_openFile {k k' : Kernel π χ ω} (h : k.Wf) {owner : ω} {path : π} {d : Nat}
    {new : NewFile} (hopen : k.openFile owner path d new = some k') :
    ∃ f, Opened k k' path d f := by
  unfold openFile at hopen
  split at hopen
  · rename_i f hname
    obtain ⟨-, rfl⟩ := newDescriptor_eq_some.1 hopen
    refine ⟨f, ?_, hname, fun _ _ hname => hname, fun _ _ => rfl, ?_⟩
    · exact fileOf_eq_some.2 ⟨owner, OrdMap.find?_insert_self _ _ _⟩
    · exact fun d' hne => OrdMap.find?_insert_ne _ _ hne
  · rename_i hname
    split at hopen
    · rename_i hcan
      obtain ⟨-, rfl⟩ := newDescriptor_eq_some.1 hopen
      refine ⟨new.file, ?_, ?_, ?_, ?_, ?_⟩
      · exact fileOf_eq_some.2 ⟨owner, OrdMap.find?_insert_self _ _ _⟩
      · exact OrdMap.find?_insert_self _ _ _
      · intro path' g hg
        have hne : path' ≠ path := by
          rintro rfl
          rw [hname] at hg
          cases hg
        exact (OrdMap.find?_insert_ne _ _ hne).trans hg
      · intro g hg
        have hnumbers : (k.makeFile path new).numbers g = k.numbers g := numbers_makeFile h hcan hg
        exact hnumbers
      · exact fun d' hne => OrdMap.find?_insert_ne _ _ hne
    · cases hopen

/-- What is there when an inotify descriptor was made, was given a watch and was put into the epoll
set: a watcher of the file that the path names, with nothing to tell. -/
structure Watching (k k' : Kernel π χ ω) (path : π) (d wd f : Nat) : Prop where
  watcher : k'.watcherOf d = some
    { watch := some (wd, f)
      queue := []
      armed := true
      ready := false }
  name : k.names.find? path = some f
  names : k'.names = k.names
  files : k'.files = k.files
  fds : ∀ d', d' ≠ d → k'.fds.find? d' = k.fds.find? d'

theorem watching_arm {k k₁ k₂ : Kernel π χ ω} {owner : ω} {path : π} {d wd : Nat}
    (hnew : k.newDescriptor owner (.watcher .fresh) d = some k₁)
    (hwatch : k₁.addWatch d wd path = some k₂) : ∃ f, Watching k (k₂.arm d) path d wd f := by
  obtain ⟨-, rfl⟩ := newDescriptor_eq_some.1 hnew
  rcases Option.map_eq_some_iff.1 hwatch with ⟨f, hname, rfl⟩
  refine ⟨f, ?_, hname, by simp [arm], by simp [arm], ?_⟩
  · rw [arm, watcherOf_updateWatcher, if_pos rfl, watcherOf_updateWatcher, if_pos rfl, watcherOf,
      OrdMap.find?_insert_self]
    rfl
  · intro d' hne
    rw [arm, fds_updateWatcher, if_neg hne, fds_updateWatcher, if_neg hne]
    exact OrdMap.find?_insert_ne _ _ hne

theorem Wf.openFile {k k' : Kernel π χ ω} (h : k.Wf) {owner : ω} {path : π} {d : Nat}
    {new : NewFile} (hopen : k.openFile owner path d new = some k') : k'.Wf := by
  unfold Kernel.openFile at hopen
  split at hopen
  · rename_i f hname
    refine h.newDescriptor ?_ hopen
    rintro g hg
    cases hg
    exact .inl ⟨path, hname⟩
  · split at hopen
    · rename_i hcan
      refine (h.makeFile hcan).newDescriptor ?_ hopen
      rintro g hg
      cases hg
      exact .inl ⟨path, OrdMap.find?_insert_self _ _ _⟩
    · cases hopen

/-- A change touches no descriptor. -/
theorem fds_rearrange {k k' : Kernel π χ ω} {c : Change π} (hc : k.rearrange c = some k') :
    k'.fds = k.fds := by
  cases c with
  | create path new =>
      simp only [rearrange, Option.ite_none_right_eq_some, Option.some.injEq] at hc
      rw [← hc.2]
      rfl
  | link path path' =>
      simp only [rearrange] at hc
      split at hc
      · rw [← Option.some.inj hc]
      · cases hc
  | unlink path =>
      rw [← Option.some.inj hc]
  | rename path path' =>
      simp only [rearrange] at hc
      split at hc
      · cases hc
      · split at hc <;> rw [← Option.some.inj hc]
  | touch f =>
      rw [← Option.some.inj hc]

/-- The files stay, or one is made. -/
theorem files_rearrange {k k' : Kernel π χ ω} {c : Change π} (hc : k.rearrange c = some k') :
    k'.files = k.files ∨ ∃ path new, k.CanMake new ∧ k' = k.makeFile path new := by
  cases c with
  | create path new =>
      simp only [rearrange, Option.ite_none_right_eq_some, Option.some.injEq] at hc
      exact .inr ⟨path, new, hc.1.2, hc.2.symm⟩
  | link path path' =>
      simp only [rearrange] at hc
      split at hc
      · rw [← Option.some.inj hc]
        exact .inl rfl
      · cases hc
  | unlink path =>
      rw [← Option.some.inj hc]
      exact .inl rfl
  | rename path path' =>
      simp only [rearrange] at hc
      split at hc
      · cases hc
      · split at hc
        · rw [← Option.some.inj hc]
          exact .inl rfl
        · rw [← Option.some.inj hc]
          exact .inl rfl
  | touch f =>
      rw [← Option.some.inj hc]
      exact .inl rfl

theorem Wf.rearrange {k k' : Kernel π χ ω} (h : k.Wf) {c : Change π}
    (hc : k.rearrange c = some k') : k'.Wf := by
  cases c with
  | create path new =>
      simp only [Kernel.rearrange, Option.ite_none_right_eq_some, Option.some.injEq] at hc
      rw [← hc.2]
      exact h.makeFile hc.1.2
  | link path path' =>
      simp only [Kernel.rearrange] at hc
      split at hc
      · rename_i f hname hfree
        rw [← Option.some.inj hc]
        refine h.of_live ?_ (fun f _ => rfl)
        rintro g (⟨p, hp⟩ | hd)
        · rw [OrdMap.find?_insert] at hp
          split at hp
          · rw [← Option.some.inj hp]
            exact .inl ⟨path, hname⟩
          · exact .inl ⟨p, hp⟩
        · exact .inr hd
      · cases hc
  | unlink path =>
      rw [← Option.some.inj hc]
      refine h.of_live ?_ (fun f _ => rfl)
      rintro g (⟨p, hp⟩ | hd)
      · rw [OrdMap.find?_erase] at hp
        split at hp
        · cases hp
        · exact .inl ⟨p, hp⟩
      · exact .inr hd
  | rename path path' =>
      simp only [Kernel.rearrange] at hc
      split at hc
      · cases hc
      · rename_i f hname
        split at hc
        · rwa [← Option.some.inj hc]
        · rw [← Option.some.inj hc]
          refine h.of_live ?_ (fun f _ => rfl)
          rintro g (⟨p, hp⟩ | hd)
          · rw [OrdMap.find?_insert, OrdMap.find?_erase] at hp
            split at hp
            · rw [← Option.some.inj hp]
              exact .inl ⟨path, hname⟩
            · split at hp
              · cases hp
              · exact .inl ⟨p, hp⟩
          · exact .inr hd
  | touch f =>
      rwa [← Option.some.inj hc]

theorem owners_change {k k' : Kernel π χ ω} {c : Change π} (hc : k.change c = some k') :
    k'.owners = k.owners := by
  rcases Option.map_eq_some_iff.1 hc with ⟨k₁, hc₁, rfl⟩
  rw [owners_tell, owners, fds_rearrange hc₁, owners]

theorem Wf.change {k k' : Kernel π χ ω} (h : k.Wf) {c : Change π} (hc : k.change c = some k') :
    k'.Wf := by
  rcases Option.map_eq_some_iff.1 hc with ⟨k₁, hc₁, rfl⟩
  exact (h.rearrange hc₁).tell _

theorem fileOf_change {k k' : Kernel π χ ω} {c : Change π} (hc : k.change c = some k') (d : Nat) :
    k'.fileOf d = k.fileOf d := by
  rcases Option.map_eq_some_iff.1 hc with ⟨k₁, hc₁, rfl⟩
  rw [fileOf_tell, fileOf, fds_rearrange hc₁, fileOf]

theorem numbers_change {k k' : Kernel π χ ω} (h : k.Wf) {c : Change π} (hc : k.change c = some k')
    {f : Nat} (hf : k.Live f) : k'.numbers f = k.numbers f := by
  rcases Option.map_eq_some_iff.1 hc with ⟨k₁, hc₁, rfl⟩
  change k₁.numbers f = k.numbers f
  rcases files_rearrange hc₁ with hfiles | ⟨path, new, hcan, rfl⟩
  · rw [numbers, hfiles, numbers]
  · exact numbers_makeFile h hcan hf

/-! ## What stays -/

/-- Nothing was opened: what is open was open before, for the same owner and on the same file. -/
def Keeps (k k' : Kernel π χ ω) : Prop :=
  ∀ d w, k'.owners.find? d = some w → k.owners.find? d = some w ∧ k'.fileOf d = k.fileOf d

theorem Keeps.refl (k : Kernel π χ ω) : k.Keeps k := fun _ _ h => ⟨h, rfl⟩

theorem Keeps.trans {k k' k'' : Kernel π χ ω} (h : k.Keeps k') (h' : k'.Keeps k'') : k.Keeps k'' := by
  intro d w howner
  rcases h' d w howner with ⟨howner', hfile⟩
  rcases h d w howner' with ⟨howner'', hfile'⟩
  exact ⟨howner'', hfile.trans hfile'⟩

theorem keeps_close (k : Kernel π χ ω) (d : Nat) : k.Keeps (k.close d) := by
  intro d' w howner
  rw [find?_owners_close] at howner
  split at howner
  · cases howner
  · rename_i hne
    refine ⟨howner, ?_⟩
    rw [fileOf, close, OrdMap.find?_erase_ne _ hne, fileOf]

theorem keeps_updateWatcher (k : Kernel π χ ω) (d : Nat) (g : Watcher → Watcher) :
    k.Keeps (k.updateWatcher d g) := by
  intro d' w howner
  rw [owners_updateWatcher] at howner
  exact ⟨howner, fileOf_updateWatcher k d g d'⟩

theorem keeps_addWatch {k k' : Kernel π χ ω} {d wd : Nat} {path : π}
    (hwatch : k.addWatch d wd path = some k') : k.Keeps k' := by
  rcases Option.map_eq_some_iff.1 hwatch with ⟨f, -, rfl⟩
  exact keeps_updateWatcher k d _

theorem keeps_rmWatch (k : Kernel π χ ω) (d wd : Nat) : k.Keeps (k.rmWatch d wd) :=
  keeps_updateWatcher k d _

theorem keeps_arm (k : Kernel π χ ω) (d : Nat) : k.Keeps (k.arm d) := keeps_updateWatcher k d _

theorem keeps_change {k k' : Kernel π χ ω} {c : Change π} (hc : k.change c = some k') : k.Keeps k' := by
  intro d w howner
  rw [owners_change hc] at howner
  exact ⟨howner, fileOf_change hc d⟩

theorem keeps_append {k k' : Kernel π χ ω} {d : Nat} {piece : χ} (happ : k.append d piece = some k') :
    k.Keeps k' := by
  intro d' w howner
  rw [owners_append happ] at howner
  refine ⟨howner, ?_⟩
  rw [fileOf, (append_frame happ).2.1, fileOf]

/-- A descriptor that was open before another was opened is on the same file. -/
theorem fileOf_newDescriptor {k k' : Kernel π χ ω} {owner w : ω} {obj : OpenObject} {d d' : Nat}
    (hnew : k.newDescriptor owner obj d = some k') (howner : k.owners.find? d' = some w) :
    k'.fileOf d' = k.fileOf d' := by
  obtain ⟨hfree, rfl⟩ := newDescriptor_eq_some.1 hnew
  have hne : d' ≠ d := by
    rintro rfl
    simp [owners, hfree] at howner
  rw [fileOf, OrdMap.find?_insert_ne _ _ hne, fileOf]

theorem exists_fileOf_openFile {k k' : Kernel π χ ω} {owner : ω} {path : π} {d : Nat}
    {new : NewFile} (hopen : k.openFile owner path d new = some k') : ∃ f, k'.fileOf d = some f := by
  unfold openFile at hopen
  split at hopen
  · rename_i f hname
    obtain ⟨-, rfl⟩ := newDescriptor_eq_some.1 hopen
    exact ⟨f, fileOf_eq_some.2 ⟨owner, OrdMap.find?_insert_self _ _ _⟩⟩
  · split at hopen
    · obtain ⟨-, rfl⟩ := newDescriptor_eq_some.1 hopen
      exact ⟨new.file, fileOf_eq_some.2 ⟨owner, OrdMap.find?_insert_self _ _ _⟩⟩
    · cases hopen

theorem fileOf_openFile {k k' : Kernel π χ ω} {owner w : ω} {path : π} {d d' : Nat} {new : NewFile}
    (hopen : k.openFile owner path d new = some k') (howner : k.owners.find? d' = some w) :
    k'.fileOf d' = k.fileOf d' := by
  unfold openFile at hopen
  split at hopen
  · exact fileOf_newDescriptor hopen howner
  · split at hopen
    · exact fileOf_newDescriptor (k := k.makeFile path new) hopen howner
    · cases hopen

/-! ## What is written -/

/-- What was written to a file; nothing to one that is not there yet. -/
def writtenOf (k : Kernel π χ ω) (f : Nat) : List χ :=
  ((k.files.find? f).map FileNode.written).getD []

theorem writtenOf_append {k k' : Kernel π χ ω} {d f : Nat} {piece : χ} (hf : k.fileOf d = some f)
    (happ : k.append d piece = some k') (g : Nat) :
    k'.writtenOf g = if g = f then k.writtenOf f ++ [piece] else k.writtenOf g := by
  simp only [append, hf] at happ
  rcases Option.map_eq_some_iff.1 happ with ⟨node, hnode, rfl⟩
  simp only [writtenOf, OrdMap.find?_insert]
  split
  · simp [hnode]
  · rfl

theorem writtenOf_makeFile {k : Kernel π χ ω} {path : π} {new : NewFile} (hcan : k.CanMake new)
    (g : Nat) : (k.makeFile path new).writtenOf g = k.writtenOf g := by
  simp only [writtenOf, makeFile, OrdMap.find?_insert]
  split
  · rename_i heq
    rw [heq, hcan.1]
    rfl
  · rfl

theorem writtenOf_openFile {k k' : Kernel π χ ω} {owner : ω} {path : π} {d : Nat} {new : NewFile}
    (hopen : k.openFile owner path d new = some k') (g : Nat) : k'.writtenOf g = k.writtenOf g := by
  unfold openFile at hopen
  split at hopen
  · obtain ⟨-, rfl⟩ := newDescriptor_eq_some.1 hopen
    rfl
  · split at hopen
    · rename_i hcan
      obtain ⟨-, rfl⟩ := newDescriptor_eq_some.1 hopen
      exact @writtenOf_makeFile _ _ _ _ _ path _ hcan g
    · cases hopen

theorem writtenOf_change {k k' : Kernel π χ ω} {c : Change π} (hc : k.change c = some k') (g : Nat) :
    k'.writtenOf g = k.writtenOf g := by
  rcases Option.map_eq_some_iff.1 hc with ⟨k₁, hc₁, rfl⟩
  change k₁.writtenOf g = k.writtenOf g
  rcases files_rearrange hc₁ with hfiles | ⟨path, new, hcan, rfl⟩
  · rw [writtenOf, hfiles, writtenOf]
  · exact writtenOf_makeFile hcan g

/-! ## Lost names -/

/-- A name that a file loses is told of. -/
theorem event_of_lost {k k' : Kernel π χ ω} {c : Change π} (hc : k.rearrange c = some k') {path : π}
    {f : Nat} (hname : k.names.find? path = some f) (hlost : k'.names.find? path ≠ some f) :
    ∃ e, (f, e) ∈ k.events c ∧ e ≠ .other := by
  cases c with
  | create path' new =>
      simp only [rearrange, Option.ite_none_right_eq_some, Option.some.injEq] at hc
      refine absurd ?_ hlost
      -- the name of a new file was free
      have hne : path ≠ path' := by
        rintro rfl
        rw [hname] at hc
        exact absurd hc.1.1 (by simp)
      rw [← hc.2, makeFile, OrdMap.find?_insert_ne _ _ hne, hname]
  | link p p' =>
      simp only [rearrange] at hc
      split at hc
      · rename_i g hp hfree
        have hne : path ≠ p' := by
          rintro rfl
          rw [hname] at hfree
          cases hfree
        rw [← Option.some.inj hc, OrdMap.find?_insert_ne _ _ hne] at hlost
        exact absurd hname hlost
      · cases hc
  | unlink p =>
      rw [← Option.some.inj hc, OrdMap.find?_erase] at hlost
      by_cases heq : path = p
      · rw [heq] at hname
        exact ⟨.attrib, by simp [events, hname], by simp⟩
      · simp [heq, hname] at hlost
  | rename p p' =>
      simp only [rearrange] at hc
      split at hc
      · cases hc
      · rename_i g hp
        split at hc
        · rw [← Option.some.inj hc] at hlost
          exact absurd hname hlost
        · rename_i hdiff
          have hne : k.names.find? p ≠ k.names.find? p' := by
            rw [hp]
            exact fun h => hdiff h.symm
          rw [← Option.some.inj hc, OrdMap.find?_insert, OrdMap.find?_erase] at hlost
          by_cases hto : path = p'
          · -- the file is renamed over
            rw [hto] at hname
            refine ⟨.attrib, ?_, by simp⟩
            rw [events, if_neg hne]
            simp [hname]
          · by_cases hfrom : path = p
            · rw [hfrom] at hname
              refine ⟨.moved, ?_, by simp⟩
              rw [events, if_neg hne]
              simp [hname]
            · simp [hto, hfrom, hname] at hlost
  | touch g =>
      rw [← Option.some.inj hc] at hlost
      exact absurd hname hlost

/-- Who watches a file hears of every name that it loses. -/
theorem change_watcher {k k' : Kernel π χ ω} {c : Change π} (hc : k.change c = some k') {d : Nat}
    {w : Watcher} (hw : k.watcherOf d = some w) :
    ∃ w', k'.watcherOf d = some w' ∧ w.Hears w' ∧
      ∀ path f, w.watches f = true → k.names.find? path = some f →
        k'.names.find? path ≠ some f → w'.Tells := by
  rcases Option.map_eq_some_iff.1 hc with ⟨k₁, hc₁, rfl⟩
  have hw₁ : k₁.watcherOf d = some w := by
    rw [watcherOf, fds_rearrange hc₁]
    exact hw
  refine ⟨(k.events c).foldl Watcher.notify w, by simp [hw₁], Watcher.hears_foldl _ w, ?_⟩
  intro path f hwatches hname hlost
  rcases event_of_lost hc₁ hname hlost with ⟨e, hmem, he⟩
  exact Watcher.tells_foldl hwatches hmem he

end Kernel

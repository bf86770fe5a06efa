import K2hFtFuse.Lib.Transition
import K2hFtFuse.Plugin.Manager

/-!
# Plugin.Reaping — the watcher against the threads that start plugins

`waitpid` reaps a child in the watcher thread, and `CleanupChildExit` then looks its pid up under
`lockval`. `RunPlugins` holds the lock from its forks to its insertions into `run_plugin`;
`RunAddPlugin` and the restart in `Write` fork without it and take it for the insertion alone. A
child of these that exits at once can be looked up before it is inserted, and stays in `run_plugin`
for good (`reaped_before_insert`). In all other runs no pid that was looked up is in `run_plugin`
(`settled_of_undisturbed`).
-/

namespace K2hFtFuse

open ByteSeq

/-! ## Threads -/

/-- Where a thread stands. `RunPlugins` has the plugins that it passed and those to come. -/
inductive ThreadPhase
  | idle
  | forked (id : Nat)
  | looping (kept rest : List Nat)
  | inserting (id : Nat) (kept rest : List Nat)
  | reaped (childpid : Pid) (exitstatus : Int32)
  | restarting
  deriving DecidableEq

/-- The thread holds `lockval` between its steps. -/
def ThreadPhase.locks : ThreadPhase → Bool
  | .looping _ _ => true
  | .inserting _ _ _ => true
  | _ => false

/-- The plugin whose child the thread has still to insert. -/
def ThreadPhase.starting : ThreadPhase → Option Nat
  | .forked id => some id
  | .inserting id _ _ => some id
  | _ => none

/-- The plugin that `RunAddPlugin` or `Write` has to insert: they fork without the lock. -/
def ThreadPhase.unlocked : ThreadPhase → Option Nat
  | .forked id => some id
  | _ => none

theorem ThreadPhase.starting_eq_unlocked {p : ThreadPhase} (hlocks : p.locks = false) :
    p.starting = p.unlocked := by
  cases p with
  | inserting id kept rest =>
      cases hlocks
  | _ =>
      rfl

/-- The thread of `WatchChildrenExit`; all others start plugins. -/
def WATCHER : Nat := 0

/-- The manager, its threads, and the children that have exited and are not reaped. `handled` are
the pids that the watcher has looked up, `inserted` the entries made in `run_plugin`, `moved` those
that a lookup moved to the stop list. -/
structure Reaping where
  man : PluginMan
  zombies : List (Pid × Int32)
  lock : Option Nat
  threads : OrdMap Nat ThreadPhase
  handled : List Pid
  inserted : List (Pid × Nat)
  moved : List (Pid × Nat)

namespace Reaping

def start (mountpoint : Bytes) : Reaping :=
  { man := PluginMan.start mountpoint
    zombies := []
    lock := none
    threads := ∅
    handled := []
    inserted := []
    moved := [] }

def phaseOf (s : Reaping) (t : Nat) : ThreadPhase := (s.threads.find? t).getD .idle

def setPhase (s : Reaping) (t : Nat) (p : ThreadPhase) : Reaping :=
  { s with threads := s.threads.insert t p }

/-- `run_plugin[pplugin->pid] = pplugin`, with the pid that the plugin has now. -/
def insertRunning (s : Reaping) (id : Nat) (p : Plugin) : Reaping :=
  { s with
    man := s.man.setRunning p.pid id
    inserted := s.inserted ++ [(p.pid, id)] }

/-! ## Steps -/

inductive Label
  | addPluginInfo (id : Nat) (p : Plugin) (parse : Bool) (pipe : Option Bytes)
  | runAddPlugin (t : Nat) (id : Nat) (p : Plugin) (env : RunEnv)
  | kill (id : Nat)
  | restart (t : Nat) (id : Nat) (env : RunEnv)
  | insert (t : Nat)
  | runPlugins (t : Nat)
  | round (t : Nat) (env : RunEnv)
  | exit (childpid : Pid) (exitstatus : Int32)
  | waitpid (childpid : Pid) (exitstatus : Int32)
  | cleanup (do_restart : Bool)

/-- `RunPlugin`: where it succeeds the child exists and is still to be inserted. -/
def launch (s : Reaping) (t id : Nat) (p : Plugin) (env : RunEnv) (next : ThreadPhase)
    (failed : PluginMan → Plugin → Reaping) : Option Reaping := do
  let r := runPlugin s.man.mountpoint env p
  let m ← s.man.spawn id r.child
  if r.result then
    return ({ s with man := m.setPlugin id r.plugin } : Reaping).setPhase t next
  else
    return failed m r.plugin

/-- A round of the loop of `RunPlugins` over a plugin that does not start. -/
def skip (s : Reaping) (t id : Nat) (kept rest : List Nat) : Reaping :=
  s.setPhase t (.looping (kept ++ [id]) rest)

/-- A step of the loop of `RunPlugins`, which holds the lock. -/
def loopStep (s : Reaping) (t : Nat) (env : RunEnv) : ThreadPhase → Option Reaping
  | .looping _ [] => some (({ s with lock := none } : Reaping).setPhase t .idle)
  | .looping kept (id :: rest) =>
      match s.man.plugins.find? id with
      | none => some (s.skip t id kept rest)
      | some p =>
          if p.not_execute = false ∧ p.auto_restart = true then
            s.launch t id p env (.inserting id kept rest) fun m p =>
              ({ s with man := m.setPlugin id { p with exit_count := p.exit_count + 1 } } :
                Reaping).skip t id kept rest
          else
            some (s.skip t id kept rest)
  | .inserting id kept rest =>
      (s.man.plugins.find? id).map fun p =>
        ({ s.insertRunning id p with
          man := { (s.insertRunning id p).man with stop_plugin := kept ++ rest } } :
            Reaping).setPhase t (.looping kept rest)
  | _ => none

/-- The lookup of `CleanupChildExit`. -/
def lookup (s : Reaping) (childpid : Pid) (exitstatus : Int32) (do_restart : Bool) : Reaping :=
  let (m, found) := s.man.moveToStop childpid exitstatus
  let entry := (s.man.run_plugin.find? childpid).toList.map fun id => (childpid, id)
  ({ s with
    man := m
    handled := s.handled ++ [childpid]
    moved := s.moved ++ if found then entry else [] } : Reaping).setPhase WATCHER
      (if found && do_restart then .restarting else .idle)

def step (s : Reaping) : Label → Option Reaping
  | .addPluginInfo id p parse pipe =>
      if s.lock = none then
        (s.man.addPluginInfo id p parse pipe).map fun m => { s with man := m }
      else
        none
  | .runAddPlugin t id p env =>
      if t ≠ WATCHER ∧ s.phaseOf t = .idle ∧ s.man.plugins.find? id = none then
        s.launch t id p env (.forked id) fun m _ => { s with man := m }
      else
        none
  | .kill id =>
      (s.man.plugins.find? id).map fun p =>
        { s with man := s.man.setPlugin id { p with auto_restart := false } }
  | .restart t id env => do
      let p ← s.man.plugins.find? id
      if t ≠ WATCHER ∧ s.phaseOf t = .idle then
        s.launch t id p env (.forked id) fun m p => { s with man := m.setPlugin id p }
      else
        none
  | .insert t =>
      match s.phaseOf t with
      | .forked id =>
          if s.lock = none then
            (s.man.plugins.find? id).map fun p => (s.insertRunning id p).setPhase t .idle
          else
            none
      | _ => none
  | .runPlugins t =>
      if s.lock = none ∧ (t ≠ WATCHER ∧ s.phaseOf t = .idle ∨ s.phaseOf t = .restarting) then
        some (({ s with lock := some t } : Reaping).setPhase t (.looping [] s.man.stop_plugin))
      else
        none
  | .round t env => s.loopStep t env (s.phaseOf t)
  | .exit childpid exitstatus =>
      (s.man.live.find? childpid).map fun _ =>
        { s with
          man := { s.man with live := s.man.live.erase childpid }
          zombies := s.zombies ++ [(childpid, exitstatus)] }
  | .waitpid childpid exitstatus =>
      if s.phaseOf WATCHER = .idle ∧ (childpid, exitstatus) ∈ s.zombies then
        some (({ s with zombies := s.zombies.erase (childpid, exitstatus) } : Reaping).setPhase
          WATCHER (.reaped childpid exitstatus))
      else
        none
  | .cleanup do_restart =>
      match s.phaseOf WATCHER with
      | .reaped childpid exitstatus =>
          if s.lock = none then some (s.lookup childpid exitstatus do_restart) else none
      | _ => none

/-! ## Pids belong to plugins -/

end Reaping

namespace PluginMan

/-- Every pid was given to one plugin: the pids of the plugins, the keys of `run_plugin` and the
children that exist are pids of this kind. -/
structure Owned (m : PluginMan) : Prop where
  pos : ∀ e ∈ m.forked, 0 < e.1
  unique : ∀ pid id id', (pid, id) ∈ m.forked → (pid, id') ∈ m.forked → id = id'
  plugin : ∀ id p, m.plugins.find? id = some p →
    p.pid = K2HFT_INVALID_PID ∨ (p.pid, id) ∈ m.forked
  running : ∀ pid id, m.run_plugin.find? pid = some id →
    (m.plugins.find? id).isSome ∧ (pid = K2HFT_INVALID_PID ∨ (pid, id) ∈ m.forked)
  live : ∀ pid id, m.live.find? pid = some id → (pid, id) ∈ m.forked

theorem Owned.ne_invalid {m : PluginMan} (h : m.Owned) {pid : Pid} {id : Nat}
    (hmem : (pid, id) ∈ m.forked) : pid ≠ K2HFT_INVALID_PID := by
  intro hpid
  have hpos : 0 < pid := h.pos _ hmem
  rw [hpid] at hpos
  exact absurd hpos (by decide)

/-- A child with a pid that no child had before. -/
theorem Owned.spawn {m m' : PluginMan} (h : m.Owned) {id : Nat} {child : Option Pid}
    (hfresh : ∀ pid, child = some pid → ∀ e ∈ m.forked, e.1 ≠ pid)
    (hspawn : m.spawn id child = some m') :
    m'.Owned ∧ (∀ e ∈ m.forked, e ∈ m'.forked) ∧ ∀ pid, child = some pid → (pid, id) ∈ m'.forked := by
  rcases child with _ | pid
  · rw [← Option.some.inj hspawn]
    exact ⟨h, fun _ he => he, by simp⟩
  · simp only [PluginMan.spawn, Option.ite_none_right_eq_some, Option.some.injEq] at hspawn
    rcases hspawn with ⟨⟨hpos, -⟩, rfl⟩
    have hold : ∀ e ∈ m.forked, e ∈ m.forked ++ [(pid, id)] := fun e he =>
      List.mem_append_left _ he
    have hnew : (pid, id) ∈ m.forked ++ [(pid, id)] := by simp
    refine ⟨⟨?_, ?_, ?_, ?_, ?_⟩, hold, ?_⟩
    · intro e he
      rcases List.mem_append.1 he with he | he
      · exact h.pos e he
      · rw [List.mem_singleton.1 he]
        exact hpos
    · intro q i i' hi hi'
      rcases List.mem_append.1 hi with hi | hi <;> rcases List.mem_append.1 hi' with hi' | hi'
      · exact h.unique q i i' hi hi'
      · rw [List.mem_singleton, Prod.mk.injEq] at hi'
        exact absurd hi'.1 (hfresh pid rfl _ hi)
      · rw [List.mem_singleton, Prod.mk.injEq] at hi
        exact absurd hi.1 (hfresh pid rfl _ hi')
      · rw [List.mem_singleton, Prod.mk.injEq] at hi hi'
        rw [hi.2, hi'.2]
    · intro i p hp
      exact (h.plugin i p hp).imp_right (hold _)
    · intro q i hq
      exact ⟨(h.running q i hq).1, (h.running q i hq).2.imp_right (hold _)⟩
    · intro q i hq
      simp only [OrdMap.find?_insert] at hq
      split at hq
      · rename_i heq
        rw [heq, ← Option.some.inj hq]
        exact hnew
      · exact hold _ (h.live q i hq)
    · intro q hq
      rw [← Option.some.inj hq]
      exact hnew

theorem Owned.setPlugin {m : PluginMan} (h : m.Owned) (id : Nat) {p : Plugin}
    (hpid : p.pid = K2HFT_INVALID_PID ∨ (p.pid, id) ∈ m.forked) : (m.setPlugin id p).Owned := by
  refine ⟨h.pos, h.unique, ?_, ?_, h.live⟩
  · intro i q hq
    rw [PluginMan.setPlugin, OrdMap.find?_insert] at hq
    split at hq
    · rename_i heq
      rw [heq, ← Option.some.inj hq]
      exact hpid
    · exact h.plugin i q hq
  · intro pid i hrun
    refine ⟨?_, (h.running pid i hrun).2⟩
    rw [PluginMan.setPlugin, OrdMap.find?_insert]
    split
    · rfl
    · exact (h.running pid i hrun).1

theorem Owned.setRunning {m : PluginMan} (h : m.Owned) {id : Nat} {p : Plugin}
    (hfind : m.plugins.find? id = some p) : (m.setRunning p.pid id).Owned := by
  refine ⟨h.pos, h.unique, h.plugin, ?_, h.live⟩
  intro pid i hrun
  simp only [PluginMan.setRunning, OrdMap.find?_insert] at hrun
  split at hrun
  · rename_i heq
    rw [heq, ← Option.some.inj hrun]
    exact ⟨by simp [PluginMan.setRunning, hfind], h.plugin id p hfind⟩
  · exact h.running pid i hrun

/-- What a lookup does: the pid is no key any more, its plugin has no pid, and a plugin that was
found is at the end of the stop list. -/
theorem moveToStop_spec {m : PluginMan} (h : m.Owned) (childpid : Pid) (exitstatus : Int32) :
    (m.moveToStop childpid exitstatus).1.Owned ∧
      (m.moveToStop childpid exitstatus).1.forked = m.forked ∧
      (m.moveToStop childpid exitstatus).1.run_plugin = m.run_plugin.erase childpid ∧
      (m.moveToStop childpid exitstatus).2 = (m.run_plugin.find? childpid).isSome ∧
      (∀ id, m.run_plugin.find? childpid = some id →
        id ∈ (m.moveToStop childpid exitstatus).1.stop_plugin) ∧
      ∀ id p, (m.moveToStop childpid exitstatus).1.plugins.find? id = some p →
        p.pid = K2HFT_INVALID_PID ∨ m.plugins.find? id = some p := by
  unfold moveToStop
  rcases hrun : m.run_plugin.find? childpid with _ | id
  · have herase : m.run_plugin.erase childpid = m.run_plugin := OrdMap.erase_of_find?_none hrun
    exact ⟨h, rfl, herase.symm, rfl, by simp, fun _ _ hp => .inr hp⟩
  · rcases Option.isSome_iff_exists.1 (h.running childpid id hrun).1 with ⟨p, hfind⟩
    have hdrop : ({ m with run_plugin := m.run_plugin.erase childpid } : PluginMan).Owned := by
      refine ⟨h.pos, h.unique, h.plugin, ?_, h.live⟩
      intro pid i hpid
      simp only [OrdMap.find?_erase] at hpid
      split at hpid
      · cases hpid
      · exact h.running pid i hpid
    have howned := hdrop.setPlugin id (p := p.exited exitstatus) (.inl rfl)
    simp only [hfind]
    refine ⟨⟨howned.pos, howned.unique, howned.plugin, howned.running, howned.live⟩, rfl, rfl, rfl,
      ?_, ?_⟩
    · intro i hi
      rw [← Option.some.inj hi]
      simp [pushStop]
    · intro i q hq
      simp only [plugins_pushStop, PluginMan.setPlugin, OrdMap.find?_insert] at hq
      split at hq
      · rw [← Option.some.inj hq]
        exact .inl rfl
      · exact .inr hq

end PluginMan

/-! ## The invariant -/

namespace Reaping

/-- The pid was given to a child. -/
def Forked (s : Reaping) (pid : Pid) : Prop := ∃ id, (pid, id) ∈ s.man.forked

structure Inv (s : Reaping) : Prop where
  owned : s.man.Owned
  lock : ∀ t, (s.phaseOf t).locks = true → s.lock = some t
  handled : ∀ pid ∈ s.handled, s.Forked pid
  zombies : ∀ e ∈ s.zombies, s.Forked e.1
  reaped : ∀ pid exitstatus, s.phaseOf WATCHER = .reaped pid exitstatus → s.Forked pid
  clean : ∀ pid ∈ s.handled, s.man.run_plugin.find? pid = none
  pending : ∀ t id p, (s.phaseOf t).starting = some id → s.man.plugins.find? id = some p →
    p.pid ∉ s.handled
  logged : ∀ e ∈ s.inserted, e.1 ≠ K2HFT_INVALID_PID →
    e.1 ∈ s.handled ∧ e ∈ s.moved ∨ s.man.run_plugin.find? e.1 = some e.2

theorem phaseOf_setPhase (s : Reaping) (t t' : Nat) (p : ThreadPhase) :
    (s.setPhase t p).phaseOf t' = if t' = t then p else s.phaseOf t' := by
  unfold phaseOf setPhase
  rw [OrdMap.find?_insert]
  split <;> rfl

/-- A thread goes to another place: with the lock only where it has it, with a plugin to insert only
one whose pid is not handled. -/
theorem Inv.setPhase {s : Reaping} (h : s.Inv) {t : Nat} {p : ThreadPhase}
    (hlock : p.locks = true → s.lock = some t)
    (hreaped : ∀ pid exitstatus, t = WATCHER → p = .reaped pid exitstatus → s.Forked pid)
    (hstart : ∀ id q, p.starting = some id → s.man.plugins.find? id = some q → q.pid ∉ s.handled) :
    (s.setPhase t p).Inv := by
  refine ⟨h.owned, ?_, h.handled, h.zombies, ?_, h.clean, ?_, h.logged⟩
  · intro t' ht'
    rw [phaseOf_setPhase] at ht'
    split at ht'
    · rename_i heq
      rw [heq]
      exact hlock ht'
    · exact h.lock t' ht'
  · intro pid exitstatus hphase
    rw [phaseOf_setPhase] at hphase
    split at hphase
    · rename_i heq
      exact hreaped pid exitstatus heq.symm hphase
    · exact h.reaped pid exitstatus hphase
  · intro t' id q hphase hq
    rw [phaseOf_setPhase] at hphase
    split at hphase
    · exact hstart id q hphase hq
    · exact h.pending t' id q hphase hq

/-- A thread that gives up or goes on without a plugin to insert. -/
theorem Inv.setPhase_free {s : Reaping} (h : s.Inv) {t : Nat} {p : ThreadPhase}
    (hlock : p.locks = true → s.lock = some t)
    (hreaped : ∀ pid exitstatus, p ≠ .reaped pid exitstatus) (hstart : p.starting = none) :
    (s.setPhase t p).Inv := by
  refine h.setPhase hlock ?_ ?_
  · intro pid exitstatus _ hp
    exact absurd hp (hreaped pid exitstatus)
  · intro id q hp
    rw [hstart] at hp
    cases hp

/-- The manager changes its plugins and children; the pid that a plugin gets is not handled. -/
theorem Inv.setMan {s : Reaping} (h : s.Inv) {m : PluginMan} (howned : m.Owned)
    (hforked : ∀ e ∈ s.man.forked, e ∈ m.forked) (hrun : m.run_plugin = s.man.run_plugin)
    (hplugins : ∀ id p, m.plugins.find? id = some p →
      p.pid ∉ s.handled ∨ ∃ q, s.man.plugins.find? id = some q ∧ q.pid = p.pid) :
    ({ s with man := m } : Reaping).Inv := by
  have hkept : ∀ pid, s.Forked pid → ({ s with man := m } : Reaping).Forked pid :=
    fun pid ⟨id, hid⟩ => ⟨id, hforked _ hid⟩
  refine ⟨howned, h.lock, fun pid hpid => hkept pid (h.handled pid hpid),
    fun e he => hkept e.1 (h.zombies e he),
    fun pid exitstatus hphase => hkept pid (h.reaped pid exitstatus hphase), ?_, ?_, ?_⟩
  · intro pid hpid
    rw [show ({ s with man := m } : Reaping).man.run_plugin = s.man.run_plugin from hrun]
    exact h.clean pid hpid
  · intro t id p hphase hp
    rcases hplugins id p hp with hnot | ⟨q, hq, hpid⟩
    · exact hnot
    · rw [← hpid]
      exact h.pending t id q hphase hq
  · intro e he hne
    rw [show ({ s with man := m } : Reaping).man.run_plugin = s.man.run_plugin from hrun]
    exact h.logged e he hne

/-- No handled pid is the invalid one. -/
theorem Inv.invalid_not_handled {s : Reaping} (h : s.Inv) : K2HFT_INVALID_PID ∉ s.handled := by
  intro hmem
  rcases h.handled _ hmem with ⟨id, hid⟩
  exact h.owned.ne_invalid hid rfl

/-! ## Steps -/

/-- The pid that the system gives to a new child was never given before. -/
def NoReuse (s : Reaping) (env : RunEnv) : Prop :=
  ∀ e ∈ s.man.forked, env.fork ≠ some e.1

/-- The current pids of the plugins that threads in some places have to insert. -/
def pidsAt (s : Reaping) (place : ThreadPhase → Option Nat) : List Pid :=
  s.threads.entries.filterMap fun e =>
    (place e.2).bind fun id => (s.man.plugins.find? id).map Plugin.pid

/-- The pids of the children that are forked and not inserted. -/
def aboutToInsert (s : Reaping) : List Pid := s.pidsAt ThreadPhase.starting

theorem mem_pidsAt {s : Reaping} {place : ThreadPhase → Option Nat} {t id : Nat} {p : Plugin}
    (hidle : place .idle = none) (hplace : place (s.phaseOf t) = some id)
    (hfind : s.man.plugins.find? id = some p) : p.pid ∈ s.pidsAt place := by
  rcases hphase : s.threads.find? t with _ | phase
  · simp [phaseOf, hphase, hidle] at hplace
  · have hplace' : place phase = some id := by simpa [phaseOf, hphase] using hplace
    refine List.mem_filterMap.2 ⟨(t, phase), OrdMap.mem_entries_iff.2 hphase, ?_⟩
    simp [hplace', hfind]

/-- A lookup does not fall between a fork without the lock and its insertion. -/
def Undisturbed (s : Reaping) : Label → Prop
  | .runAddPlugin _ _ _ env => s.NoReuse env
  | .restart _ _ env => s.NoReuse env
  | .round _ env => s.NoReuse env
  | .cleanup _ =>
      match s.phaseOf WATCHER with
      | .reaped childpid _ => childpid ∉ s.pidsAt ThreadPhase.unlocked
      | _ => True
  | _ => True

instance instDecidableNoReuse (s : Reaping) (env : RunEnv) : Decidable (s.NoReuse env) :=
  inferInstanceAs (Decidable (∀ e ∈ s.man.forked, env.fork ≠ some e.1))

instance instDecidableUndisturbed (s : Reaping) (l : Label) : Decidable (s.Undisturbed l) := by
  unfold Undisturbed
  split <;> first | infer_instance | (split <;> infer_instance)

/-- The child of `RunPlugin` is the child of `fork`; a plugin whose run failed has no new pid. -/
theorem runPlugin_child (mountpoint : Bytes) (env : RunEnv) (p : Plugin) :
    (∀ pid, (runPlugin mountpoint env p).child = some pid → env.fork = some pid) ∧
      ((runPlugin mountpoint env p).result = true →
        (runPlugin mountpoint env p).child = some (runPlugin mountpoint env p).plugin.pid) ∧
      ((runPlugin mountpoint env p).result = false →
        (runPlugin mountpoint env p).plugin.pid = p.pid ∨
          (runPlugin mountpoint env p).plugin.pid = K2HFT_INVALID_PID) := by
  have hprocess : ∀ q : Plugin,
      (∀ pid, (runPluginProcess env q).2.2 = some pid → env.fork = some pid) ∧
        ((runPluginProcess env q).1 ≠ K2HFT_INVALID_PID →
          (runPluginProcess env q).2.2 = some (runPluginProcess env q).1) := by
    intro q
    unfold runPluginProcess
    by_cases hempty : q.BaseParam = [] ∨ q.PipeFilePath = []
    · simp [hempty]
    · rcases hfork : env.fork with _ | childpid
      · simp [hempty]
      · by_cases hinput : q.pipe_input = K2HFT_INVALID_HANDLE
        · rcases env.openPipe with _ | pipe_input <;> simp [hempty, hinput]
        · simp [hempty, hinput]
  unfold runPlugin
  by_cases hskip : p.BaseParam = [] ∨ p.not_execute = true
  · simp [hskip]
  · simp only [if_neg hskip]
    rcases checkOutput mountpoint env p.initRun with _ | q
    · simp [Plugin.initRun]
    · by_cases hpid : (runPluginProcess env q).1 = K2HFT_INVALID_PID
      · simp only [hpid, if_true]
        exact ⟨(hprocess q).1, by simp, by simp⟩
      · simp only [hpid, if_false]
        exact ⟨(hprocess q).1, fun _ => (hprocess q).2 hpid, by simp⟩

/-- `RunPlugin` in a thread: either it has a child to insert, or the plugin has no new pid. -/
theorem Inv.launch {s s' : Reaping} (h : s.Inv) {t id : Nat} {p : Plugin} {env : RunEnv}
    {next : ThreadPhase} {failed : PluginMan → Plugin → Reaping} (hreuse : s.NoReuse env)
    (hlaunch : s.launch t id p env next failed = some s')
    (hlock : next.locks = true → s.lock = some t) (hnext : next.starting = some id)
    (hfailed : ∀ m : PluginMan, ∀ q : Plugin, m.Owned → (∀ e ∈ s.man.forked, e ∈ m.forked) →
      m.run_plugin = s.man.run_plugin → m.plugins = s.man.plugins →
      (q.pid = p.pid ∨ q.pid = K2HFT_INVALID_PID) → (failed m q).Inv) : s'.Inv := by
  rcases runPlugin_child s.man.mountpoint env p with ⟨hchild, hok, hfail⟩
  simp only [Reaping.launch, Option.bind_eq_bind, Option.bind_eq_some_iff] at hlaunch
  rcases hlaunch with ⟨m, hspawn, hlast⟩
  have hfresh : ∀ pid, (runPlugin s.man.mountpoint env p).child = some pid →
      ∀ e ∈ s.man.forked, e.1 ≠ pid := by
    intro pid hpid e he heq
    exact hreuse e he (by rw [hchild pid hpid, heq])
  rcases h.owned.spawn hfresh hspawn with ⟨howned, hold, hnew⟩
  rcases PluginMan.spawn_frame hspawn with ⟨-, hplugins, hrun, -⟩
  cases hres : (runPlugin s.man.mountpoint env p).result with
  | true =>
      simp only [hres, if_true, pure, Option.some.injEq] at hlast
      have hmem := hnew _ (hok hres)
      -- the pid is a new one, so it is not handled
      have hnot : (runPlugin s.man.mountpoint env p).plugin.pid ∉ s.handled := by
        intro hin
        rcases h.handled _ hin with ⟨i, hi⟩
        exact hfresh _ (hok hres) _ hi rfl
      have hman : ({ s with man := m.setPlugin id (runPlugin s.man.mountpoint env p).plugin } :
          Reaping).Inv := by
        refine h.setMan (howned.setPlugin id (.inr hmem)) hold hrun ?_
        intro i q hq
        rw [PluginMan.setPlugin, OrdMap.find?_insert] at hq
        split at hq
        · rw [← Option.some.inj hq]
          exact .inl hnot
        · rw [hplugins] at hq
          exact .inr ⟨q, hq, rfl⟩
      rw [← hlast]
      refine hman.setPhase hlock ?_ ?_
      · intro pid exitstatus _ hp
        rw [hp] at hnext
        cases hnext
      · intro i q hi hq
        rw [hnext] at hi
        have hq' : q = (runPlugin s.man.mountpoint env p).plugin := by
          rw [← Option.some.inj hi] at hq
          simpa using hq.symm
        rw [hq']
        exact hnot
  | false =>
      simp only [hres, Bool.false_eq_true, if_false, pure, Option.some.injEq] at hlast
      rw [← hlast]
      exact hfailed m _ howned hold hrun hplugins (hfail hres)

/-- A plugin is changed and has no new pid. -/
theorem Inv.setPlugin {s : Reaping} (h : s.Inv) {id : Nat} {p : Plugin}
    (hfind : s.man.plugins.find? id = some p) {m : PluginMan} (howned : m.Owned)
    (hforked : ∀ e ∈ s.man.forked, e ∈ m.forked) (hrun : m.run_plugin = s.man.run_plugin)
    (hplugins : m.plugins = s.man.plugins) {q : Plugin}
    (hpid : q.pid = p.pid ∨ q.pid = K2HFT_INVALID_PID) :
    ({ s with man := m.setPlugin id q } : Reaping).Inv := by
  have hq : q.pid = K2HFT_INVALID_PID ∨ (q.pid, id) ∈ m.forked := by
    rcases hpid with hpid | hpid
    · rw [hpid]
      exact (h.owned.plugin id p hfind).imp_right (hforked _)
    · exact .inl hpid
  refine h.setMan (howned.setPlugin id hq) hforked hrun ?_
  intro i r hr
  rw [PluginMan.setPlugin, OrdMap.find?_insert] at hr
  split at hr
  · rename_i heq
    rw [heq, ← Option.some.inj hr]
    rcases hpid with hpid | hpid
    · exact .inr ⟨p, hfind, hpid.symm⟩
    · rw [hpid]
      exact .inl h.invalid_not_handled
  · rw [hplugins] at hr
    exact .inr ⟨r, hr, rfl⟩

/-- The insertion of a plugin whose pid is not handled. -/
theorem Inv.insertRunning {s : Reaping} (h : s.Inv) {id : Nat} {p : Plugin}
    (hfind : s.man.plugins.find? id = some p) (hnot : p.pid ∉ s.handled) :
    (s.insertRunning id p).Inv := by
  refine ⟨h.owned.setRunning hfind, h.lock, h.handled, h.zombies, h.reaped, ?_, h.pending, ?_⟩
  · intro pid hpid
    have hne : pid ≠ p.pid := by
      rintro rfl
      exact hnot hpid
    rw [Reaping.insertRunning, PluginMan.setRunning, OrdMap.find?_insert_ne _ _ hne]
    exact h.clean pid hpid
  · intro e he hne
    simp only [Reaping.insertRunning, PluginMan.setRunning, OrdMap.find?_insert]
    rcases List.mem_append.1 he with hold | hnew
    · rcases h.logged e hold hne with hdone | hrun
      · exact .inl hdone
      · right
        split
        · -- an entry under the same pid is one of the same plugin
          rename_i heq
          have hid : id = e.2 := by
            have hmem := (h.owned.running e.1 e.2 hrun).2.resolve_left hne
            have hmem' := (h.owned.plugin id p hfind).resolve_left (heq ▸ hne)
            exact h.owned.unique p.pid id e.2 hmem' (heq ▸ hmem)
          rw [hid]
        · exact hrun
    · rw [List.mem_singleton.1 hnew]
      simp

/-- The lock is taken or released by a thread while no other thread has it. -/
theorem Inv.setLock {s : Reaping} (h : s.Inv) {t : Nat} {lock : Option Nat} {p : ThreadPhase}
    (hothers : ∀ t', t' ≠ t → (s.phaseOf t').locks = false) (hlock : p.locks = true → lock = some t)
    (hreaped : ∀ pid exitstatus, p ≠ .reaped pid exitstatus) (hstart : p.starting = none) :
    (({ s with lock := lock } : Reaping).setPhase t p).Inv := by
  refine ⟨h.owned, ?_, h.handled, h.zombies, ?_, h.clean, ?_, h.logged⟩
  · intro t' ht'
    rw [phaseOf_setPhase] at ht'
    split at ht'
    · rename_i heq
      rw [heq]
      exact hlock ht'
    · rename_i hne
      have hfree : (s.phaseOf t').locks = true := ht'
      rw [hothers t' hne] at hfree
      cases hfree
  · intro pid exitstatus hphase
    rw [phaseOf_setPhase] at hphase
    split at hphase
    · exact absurd hphase (hreaped pid exitstatus)
    · exact h.reaped pid exitstatus hphase
  · intro t' id q hphase hq
    rw [phaseOf_setPhase] at hphase
    split at hphase
    · rw [hstart] at hphase
      cases hphase
    · exact h.pending t' id q hphase hq

theorem inv_loopStep {s s' : Reaping} (h : s.Inv) {t : Nat} {env : RunEnv}
    (hreuse : s.NoReuse env) (hstep : s.loopStep t env (s.phaseOf t) = some s') : s'.Inv := by
  rcases hphase : s.phaseOf t with _ | id | ⟨kept, rest⟩ | ⟨id, kept, rest⟩ | ⟨pid, status⟩ | _
  · rw [hphase] at hstep
    cases hstep
  · rw [hphase] at hstep
    cases hstep
  · have hlock : s.lock = some t := h.lock t (by rw [hphase]; rfl)
    rw [hphase] at hstep
    rcases rest with _ | ⟨id, rest⟩
    · have hothers : ∀ t', t' ≠ t → (s.phaseOf t').locks = false := by
        intro t' hne
        rw [← Bool.not_eq_true]
        intro hlocks
        rw [h.lock t' hlocks] at hlock
        exact hne (Option.some.inj hlock)
      rw [← Option.some.inj hstep]
      exact h.setLock hothers (fun hp => by cases hp) (fun _ _ => by simp) rfl
    · have hskip : ∀ s₁ : Reaping, s₁.Inv → s₁.lock = some t → (s₁.skip t id kept rest).Inv :=
        fun s₁ h₁ hlock₁ => h₁.setPhase_free (fun _ => hlock₁) (fun _ _ => by simp) rfl
      simp only [Reaping.loopStep] at hstep
      rcases hfind : s.man.plugins.find? id with _ | p
      · simp only [hfind, Option.some.injEq] at hstep
        rw [← hstep]
        exact hskip s h hlock
      · simp only [hfind] at hstep
        split at hstep
        · refine h.launch hreuse hstep (fun _ => hlock) rfl ?_
          intro m q howned hforked hrun hplugins hpid
          exact hskip _ (h.setPlugin hfind howned hforked hrun hplugins hpid) hlock
        · rw [← Option.some.inj hstep]
          exact hskip s h hlock
  · have hlock : s.lock = some t := h.lock t (by rw [hphase]; rfl)
    rw [hphase] at hstep
    simp only [Reaping.loopStep] at hstep
    rcases Option.map_eq_some_iff.1 hstep with ⟨p, hfind, rfl⟩
    have hnot : p.pid ∉ s.handled := h.pending t id p (by rw [hphase]; rfl) hfind
    have hinv := h.insertRunning hfind hnot
    have howned := hinv.owned
    have hinv' : ({ s.insertRunning id p with
        man := { (s.insertRunning id p).man with stop_plugin := kept ++ rest } } : Reaping).Inv :=
      ⟨⟨howned.pos, howned.unique, howned.plugin, howned.running, howned.live⟩, hinv.lock,
        hinv.handled, hinv.zombies, hinv.reaped, hinv.clean, hinv.pending, hinv.logged⟩
    exact hinv'.setPhase_free (fun _ => hlock) (fun _ _ => by simp) rfl
  · rw [hphase] at hstep
    cases hstep
  · rw [hphase] at hstep
    cases hstep

/-- With the lock free no thread is in the loop of `RunPlugins`. -/
theorem Inv.not_locks {s : Reaping} (h : s.Inv) (hfree : s.lock = none) (t : Nat) :
    (s.phaseOf t).locks = false := by
  rw [← Bool.not_eq_true]
  intro hlocks
  rw [h.lock t hlocks] at hfree
  cases hfree

/-- The lists after the lookup, before the watcher goes on. -/
def looked (s : Reaping) (childpid : Pid) (exitstatus : Int32) : Reaping :=
  { s with
    man := (s.man.moveToStop childpid exitstatus).1
    handled := s.handled ++ [childpid]
    moved := s.moved ++
      if (s.man.moveToStop childpid exitstatus).2 then
        (s.man.run_plugin.find? childpid).toList.map fun id => (childpid, id)
      else
        [] }

theorem inv_looked {s : Reaping} (h : s.Inv) {childpid : Pid} {exitstatus : Int32}
    (hphase : s.phaseOf WATCHER = .reaped childpid exitstatus) (hfree : s.lock = none)
    (hpending : childpid ∉ s.pidsAt ThreadPhase.unlocked) :
    (s.looked childpid exitstatus).Inv := by
  rcases PluginMan.moveToStop_spec h.owned childpid exitstatus with
    ⟨howned, hforked, hrun, hfound, hstop, hplugins⟩
  have hchild : s.Forked childpid := h.reaped childpid exitstatus hphase
  have hkept : ∀ pid, s.Forked pid →
      ∃ id, (pid, id) ∈ (s.man.moveToStop childpid exitstatus).1.forked := by
    rintro pid ⟨id, hid⟩
    exact ⟨id, by rw [hforked]; exact hid⟩
  refine ⟨howned, h.lock, ?_, fun e he => hkept e.1 (h.zombies e he),
    fun pid status hp => hkept pid (h.reaped pid status hp), ?_, ?_, ?_⟩
  · intro pid hpid
    rcases List.mem_append.1 hpid with hold | hnew
    · exact hkept pid (h.handled pid hold)
    · rw [List.mem_singleton.1 hnew]
      exact hkept childpid hchild
  · intro pid hpid
    simp only [looked, hrun, OrdMap.find?_erase]
    split
    · rfl
    · rename_i hne
      rcases List.mem_append.1 hpid with hold | hnew
      · exact h.clean pid hold
      · exact absurd (List.mem_singleton.1 hnew) hne
  · intro t id p hstart hp
    simp only [looked, List.mem_append, List.mem_singleton, not_or]
    rcases hplugins id p hp with hinvalid | hsame
    · rw [hinvalid]
      refine ⟨h.invalid_not_handled, ?_⟩
      rcases hchild with ⟨i, hi⟩
      exact (h.owned.ne_invalid hi).symm
    · refine ⟨h.pending t id p hstart hsame, ?_⟩
      -- the lock is free, so the thread is not in the loop of `RunPlugins`
      have hunlocked : (s.phaseOf t).unlocked = some id := by
        rw [← ThreadPhase.starting_eq_unlocked (h.not_locks hfree t)]
        exact hstart
      rintro rfl
      exact hpending (mem_pidsAt rfl hunlocked hsame)
  · intro e he hne
    simp only [looked, hrun, OrdMap.find?_erase]
    rcases h.logged e he hne with hdone | hentry
    · exact .inl ⟨List.mem_append_left _ hdone.1, List.mem_append_left _ hdone.2⟩
    · by_cases heq : e.1 = childpid
      · -- the entry is found, so it is moved
        left
        rw [heq] at hentry
        refine ⟨List.mem_append_right _ (by simp [heq]), List.mem_append_right _ ?_⟩
        rw [hfound, hentry]
        simp [← heq]
      · right
        rw [if_neg heq]
        exact hentry

/-- A lookup while nobody is about to insert the pid. -/
theorem inv_lookup {s : Reaping} (h : s.Inv) {childpid : Pid} {exitstatus : Int32}
    {do_restart : Bool} (hphase : s.phaseOf WATCHER = .reaped childpid exitstatus)
    (hfree : s.lock = none)
    (hpending : childpid ∉ s.pidsAt ThreadPhase.unlocked) :
    (s.lookup childpid exitstatus do_restart).Inv := by
  have hlooked := inv_looked h hphase hfree hpending
  have hshape : s.lookup childpid exitstatus do_restart =
      (s.looked childpid exitstatus).setPhase WATCHER
        (if (s.man.moveToStop childpid exitstatus).2 && do_restart then .restarting else .idle) :=
    rfl
  rw [hshape]
  split
  · exact hlooked.setPhase_free (fun hp => by cases hp) (fun _ _ => by simp) rfl
  · exact hlooked.setPhase_free (fun hp => by cases hp) (fun _ _ => by simp) rfl

theorem inv_addPluginInfo {s : Reaping} (h : s.Inv) {id : Nat} {p : Plugin} {parse : Bool}
    {pipe : Option Bytes} {m : PluginMan}
    (hadd : s.man.addPluginInfo id p parse pipe = some m) : ({ s with man := m } : Reaping).Inv := by
  unfold PluginMan.addPluginInfo at hadd
  rcases hfind : s.man.plugins.find? id with _ | old
  · simp only [hfind] at hadd
    by_cases hbase : p.BaseParam = []
    · rw [if_pos hbase] at hadd
      rw [← Option.some.inj hadd]
      exact h
    · rw [if_neg hbase] at hadd
      cases parse with
      | false =>
          rw [← Option.some.inj hadd]
          exact h
      | true =>
          rcases pipe with _ | path
          · rw [← Option.some.inj hadd]
            exact h
          · rw [← Option.some.inj hadd]
            have howned := h.owned.setPlugin id (p := p.initAdd path) (.inl rfl)
            refine h.setMan ⟨howned.pos, howned.unique, howned.plugin, howned.running, howned.live⟩
              (fun _ he => he) rfl ?_
            intro i q hq
            simp only [PluginMan.plugins_pushStop, PluginMan.setPlugin, OrdMap.find?_insert] at hq
            split at hq
            · rw [← Option.some.inj hq]
              exact .inl h.invalid_not_handled
            · exact .inr ⟨q, hq, rfl⟩
  · simp [hfind] at hadd

/-- A thread puts the plugin that it launched into the run list. -/
theorem inv_insert {s s' : Reaping} {t : Nat} (h : s.Inv)
    (hstep : s.step (.insert t) = some s') : s'.Inv := by
  simp only [Reaping.step] at hstep
  rcases hphase : s.phaseOf t with _ | id | ⟨kept, rest⟩ | ⟨id, kept, rest⟩ | ⟨pid, status⟩ | _ <;>
    simp only [hphase] at hstep
  · cases hstep
  · split at hstep
    · rcases Option.map_eq_some_iff.1 hstep with ⟨p, hfind, rfl⟩
      have hnot : p.pid ∉ s.handled := h.pending t id p (by rw [hphase]; rfl) hfind
      exact (h.insertRunning hfind hnot).setPhase_free (fun hp => by cases hp)
        (fun _ _ => by simp) rfl
    · cases hstep
  · cases hstep
  · cases hstep
  · cases hstep
  · cases hstep

/-- A child that exits was forked, and it is waited for. -/
theorem inv_exit {s s' : Reaping} {childpid : Pid} {exitstatus : Int32} (h : s.Inv)
    (hstep : s.step (.exit childpid exitstatus) = some s') : s'.Inv := by
  simp only [Reaping.step] at hstep
  rcases Option.map_eq_some_iff.1 hstep with ⟨id, hlive, rfl⟩
  have hchild : s.Forked childpid := ⟨id, h.owned.live childpid id hlive⟩
  have howned : ({ s.man with live := s.man.live.erase childpid } : PluginMan).Owned := by
    refine ⟨h.owned.pos, h.owned.unique, h.owned.plugin, h.owned.running, ?_⟩
    intro pid i hpid
    simp only [OrdMap.find?_erase] at hpid
    split at hpid
    · cases hpid
    · exact h.owned.live pid i hpid
  refine ⟨howned, h.lock, h.handled, ?_, h.reaped, h.clean, h.pending, h.logged⟩
  intro e he
  rcases List.mem_append.1 he with hold | hnew
  · exact h.zombies e hold
  · rw [List.mem_singleton.1 hnew]
    exact hchild

/-- The watcher takes an exit status out of those that are waited for. -/
theorem inv_waitpid {s s' : Reaping} {childpid : Pid} {exitstatus : Int32} (h : s.Inv)
    (hstep : s.step (.waitpid childpid exitstatus) = some s') : s'.Inv := by
  simp only [Reaping.step] at hstep
  split at hstep
  · rename_i hcan
    rw [← Option.some.inj hstep]
    have hchild : s.Forked childpid := h.zombies _ hcan.2
    have hrest : ({ s with zombies := s.zombies.erase (childpid, exitstatus) } : Reaping).Inv :=
      ⟨h.owned, h.lock, h.handled, fun e he => h.zombies e (List.mem_of_mem_erase he), h.reaped,
        h.clean, h.pending, h.logged⟩
    refine hrest.setPhase (fun hp => by cases hp) ?_ (fun _ _ hp => by cases hp)
    intro pid status _ hp
    rw [← (ThreadPhase.reaped.inj hp).1]
    exact hchild
  · cases hstep

/-- The watcher looks the child up that it has waited for. -/
theorem inv_cleanup {s s' : Reaping} {do_restart : Bool} (h : s.Inv)
    (hok : s.Undisturbed (.cleanup do_restart)) (hstep : s.step (.cleanup do_restart) = some s') :
    s'.Inv := by
  simp only [Reaping.step] at hstep
  rcases hphase : s.phaseOf WATCHER with _ | id | ⟨kept, rest⟩ | ⟨id, kept, rest⟩ |
    ⟨pid, status⟩ | _ <;> simp only [hphase] at hstep
  · cases hstep
  · cases hstep
  · cases hstep
  · cases hstep
  · split at hstep
    · rename_i hfree
      rw [← Option.some.inj hstep]
      simp only [Undisturbed, hphase] at hok
      exact inv_lookup h hphase hfree hok
    · cases hstep
  · cases hstep

theorem inv_step {s s' : Reaping} {l : Label} (h : s.Inv) (hok : s.Undisturbed l)
    (hstep : s.step l = some s') : s'.Inv := by
  cases l with
  | addPluginInfo id p parse pipe =>
      simp only [Reaping.step] at hstep
      split at hstep
      · rcases Option.map_eq_some_iff.1 hstep with ⟨m, hadd, rfl⟩
        exact inv_addPluginInfo h hadd
      · cases hstep
  | runAddPlugin t id p env =>
      simp only [Reaping.step] at hstep
      split at hstep
      · refine h.launch hok hstep (fun hp => by cases hp) rfl ?_
        intro m q howned hforked hrun hplugins _
        refine h.setMan howned hforked hrun ?_
        intro i r hr
        rw [hplugins] at hr
        exact .inr ⟨r, hr, rfl⟩
      · cases hstep
  | kill id =>
      simp only [Reaping.step] at hstep
      rcases Option.map_eq_some_iff.1 hstep with ⟨p, hfind, rfl⟩
      exact h.setPlugin hfind h.owned (fun _ he => he) rfl rfl (.inl rfl)
  | restart t id env =>
      simp only [Reaping.step, Option.bind_eq_bind, Option.bind_eq_some_iff] at hstep
      rcases hstep with ⟨p, hfind, hstep⟩
      split at hstep
      · refine h.launch hok hstep (fun hp => by cases hp) rfl ?_
        intro m q howned hforked hrun hplugins hpid
        exact h.setPlugin hfind howned hforked hrun hplugins hpid
      · cases hstep
  | insert t =>
      exact inv_insert h hstep
  | runPlugins t =>
      simp only [Reaping.step] at hstep
      split at hstep
      · rename_i hcan
        rw [← Option.some.inj hstep]
        exact h.setLock (fun t' _ => h.not_locks hcan.1 t') (fun _ => rfl) (fun _ _ => by simp) rfl
      · cases hstep
  | round t env =>
      exact inv_loopStep h hok hstep
  | exit childpid exitstatus =>
      exact inv_exit h hstep
  | waitpid childpid exitstatus =>
      exact inv_waitpid h hstep
  | cleanup do_restart =>
      exact inv_cleanup h hok hstep

theorem inv_start (mountpoint : Bytes) : (start mountpoint).Inv := by
  have howned : (PluginMan.start mountpoint).Owned := by
    refine ⟨?_, ?_, ?_, ?_, ?_⟩ <;> simp [PluginMan.start]
  refine ⟨howned, ?_, ?_, ?_, ?_, ?_, ?_, ?_⟩
  · intro t ht
    simp [start, phaseOf, ThreadPhase.locks] at ht
  · intro pid hpid
    cases hpid
  · intro e he
    cases he
  · intro pid exitstatus hphase
    simp [start, phaseOf] at hphase
  · intro pid hpid
    cases hpid
  · intro t id p hstart
    simp [start, phaseOf, ThreadPhase.starting] at hstart
  · intro e he
    cases he

/-! ## Runs -/

/-- The pids that were looked up and that no thread is about to insert: none of them is in
`run_plugin`, and each plugin that was inserted under one was moved to the stop list. -/
def Settled (s : Reaping) : Prop :=
  ∀ pid ∈ s.handled, pid ∉ s.aboutToInsert →
    s.man.run_plugin.find? pid = none ∧ ∀ id, (pid, id) ∈ s.inserted → (pid, id) ∈ s.moved

theorem Inv.settled {s : Reaping} (h : s.Inv) : s.Settled := by
  intro pid hpid _
  refine ⟨h.clean pid hpid, ?_⟩
  intro id hid
  rcases h.handled pid hpid with ⟨i, hi⟩
  rcases h.logged (pid, id) hid (h.owned.ne_invalid hi) with hdone | hrun
  · exact hdone.2
  · rw [h.clean pid hpid] at hrun
    cases hrun

/-- Every state of a run in which no lookup falls between a fork and its insertion. -/
theorem settled_of_undisturbed (mountpoint : Bytes) (ls : List Label) (s : Reaping)
    (hrun : Transition.run step (start mountpoint) ls = some s)
    (hok : Transition.Guarded step Undisturbed (start mountpoint) ls) : s.Settled := by
  refine Inv.settled (Transition.invariant_run_of_guarded ?_ hok hrun (inv_start mountpoint))
  intro s l s' hinv hok hstep
  exact inv_step hinv hok hstep

/-- A child of `RunPlugins` exits while the lock is held, and one of `RunAddPlugin` after its
insertion. -/
def patientRun : List Label :=
  [.addPluginInfo 0 PluginMan.outPlugin true (some (ascii "/tmp/pipe")), .runPlugins 1,
    .round 1 (PluginMan.startsAs 10), .exit 10 0, .waitpid 10 0,
    .round 1 (PluginMan.startsAs 11), .round 1 (PluginMan.startsAs 11), .cleanup false,
    .runAddPlugin 1 1 PluginMan.outPlugin (PluginMan.startsAs 11), .insert 1, .exit 11 0,
    .waitpid 11 0, .cleanup false]

theorem settled_of_undisturbed_patient :
    ∃ s, Transition.run step (start []) patientRun = some s ∧ s.handled = [10, 11] ∧
      s.man.stop_plugin = [0, 1] ∧ s.Settled := by
  have hends : ((Transition.run step (start []) patientRun).map fun s =>
      (s.handled, s.man.stop_plugin)) = some ([10, 11], [0, 1]) := by
    decide +kernel
  rcases Option.map_eq_some_iff.1 hends with ⟨s, hrun, hs⟩
  rcases Prod.mk.inj hs with ⟨hhandled, hstop⟩
  exact ⟨s, hrun, hhandled, hstop,
    settled_of_undisturbed [] patientRun s hrun (by decide +kernel)⟩

/-- A child of `RunAddPlugin` exits and is looked up before it is inserted. -/
def hastyRun : List Label :=
  [.runAddPlugin 1 0 PluginMan.outPlugin (PluginMan.startsAs 10), .exit 10 0, .waitpid 10 0,
    .cleanup true, .insert 1]

theorem reaped_before_insert :
    ∃ s, Transition.run step (start []) hastyRun = some s ∧ s.handled = [10] ∧
      s.aboutToInsert = [] ∧ s.man.run_plugin.find? 10 = some 0 ∧ ¬ s.Settled := by
  have hends : ((Transition.run step (start []) hastyRun).map fun s =>
      (s.handled, s.aboutToInsert, s.man.run_plugin.find? 10)) = some ([10], [], some 0) := by
    decide +kernel
  rcases Option.map_eq_some_iff.1 hends with ⟨s, hrun, hs⟩
  simp only [Prod.mk.injEq] at hs
  rcases hs with ⟨hhandled, hpending, hentry⟩
  refine ⟨s, hrun, hhandled, hpending, hentry, ?_⟩
  intro hsettled
  have hnone := (hsettled 10 (by simp [hhandled]) (by simp [hpending])).1
  rw [hentry] at hnone
  cases hnone

end Reaping

end K2hFtFuse

import K2hFtFuse.Info.Locking
import K2hFtFuse.Info.Loaded

/-!
# Manage.Initialize — the calls on `K2hFtManage` that take a lock of the configuration

Both `Initialize` overloads take `conf_lockval`, and the other calls go to `confinfo`, whose operations
take `prule_lockval`. A call keeps a lock on two paths (`Call.KeepsLock`). A sequence of calls that
avoids them releases both locks in every call and never waits for itself.
-/

namespace K2hFtFuse

open ByteSeq SpinLock

/-- The members of class `K2hFtManage` that `Initialize` uses. -/
structure K2hFtManage where
  conf_lockval : Bool
  is_load_tp : Bool
  is_init_perm : Bool
  run_thread : Bool
  base_mode : UInt32
  base_dmode : UInt32
  base_uid : UInt32
  base_gid : UInt32
  confinfo : K2hFtInfo

/-- The outcomes of the calls that `Initialize` makes: `umask`, `getuid` and `getgid`; the other
members' methods, `pthread_create`, `remove_exist_file` and the k2hash library; the clock. -/
structure InitEnv where
  umask : UInt32
  getuid : UInt32
  getgid : UInt32
  fdcacheInitialize : Bool
  pluginmanInitialize : Bool
  isDump : Bool
  pthreadCreate : Bool
  setTransThreadPool : Bool
  attachMem : Bool
  removeExistFile : Bool
  attach : Bool
  loadTransaction : Bool
  enableTransaction : Bool
  runPlugins : Bool
  now : Option Timespec

/-- What `Load` is given beside the configuration. -/
structure LoadCall where
  lib : ConfLib
  stack : YamlDataStack
  source : ConfSource
  mountPoint : Bytes
  pagesize : Nat

namespace K2hFtManage

/-- `while(!fullock::flck_trylock_noshared_mutex(&conf_lockval))`. -/
def lock (m : K2hFtManage) : Except Stop K2hFtManage :=
  if m.conf_lockval then .error .spin else .ok { m with conf_lockval := true }

/-- `fullock::flck_unlock_noshared_mutex(&conf_lockval)`. -/
def unlock (m : K2hFtManage) : K2hFtManage := { m with conf_lockval := false }

/-- Both locks. -/
def locks (m : K2hFtManage) : Bool × Bool := (m.conf_lockval, m.confinfo.prule_lockval)

/-- `Initialize(pset_umask, pset_uid, pset_gid)`. -/
def initializePerm (env : InitEnv) (pset_umask pset_uid pset_gid : Option UInt32) :
    Op K2hFtManage Bool := fun m => do
  let m ← m.lock
  if m.confinfo.isLoad then
    return (false, m.unlock)
  else
    let tmp_umask := pset_umask.getD env.umask
    let base_dmode := (0o777 &&& ~~~tmp_umask) ||| S_IFDIR ||| 0o100
    let base_dmode := if base_dmode &&& 0o060 ≠ 0 then base_dmode ||| 0o010 else base_dmode
    let base_dmode := if base_dmode &&& 0o006 ≠ 0 then base_dmode ||| 0o001 else base_dmode
    return (true,
      ({ m with
        base_uid := pset_uid.getD env.getuid
        base_gid := pset_gid.getD env.getgid
        base_mode := (0o666 &&& ~~~tmp_umask) ||| S_IFREG
        base_dmode := base_dmode
        is_init_perm := true } : K2hFtManage).unlock)

/-- After the call that sets them, the modes are those of a file and of a directory. -/
theorem initializePerm_modes {env : InitEnv} {pset_umask pset_uid pset_gid : Option UInt32}
    {m m' : K2hFtManage}
    (h : m.initializePerm env pset_umask pset_uid pset_gid = .ok (true, m')) :
    S_ISDIR m'.base_mode = false ∧ S_ISDIR m'.base_dmode = true := by
  unfold initializePerm at h
  rcases hlock : m.lock with e | m₁
  · simp [hlock, Bind.bind, Except.bind] at h
  · simp only [hlock, Bind.bind, Except.bind] at h
    split at h
    · simp [pure, Except.pure] at h
    · cases h
      have hdir : S_ISDIR ((0o777 &&& ~~~(pset_umask.getD env.umask)) ||| S_IFDIR ||| 0o100) =
          true := by
        rw [S_ISDIR_or (by decide), S_ISDIR_masked_or (by decide)]
        decide
      -- the search bits are added for whom may read or write
      have hadd : ∀ (c : Prop) [Decidable c] (mode perm : UInt32), perm &&& S_IFMT = 0 →
          S_ISDIR mode = true → S_ISDIR (if c then mode ||| perm else mode) = true := by
        intro c _ mode perm hperm hmode
        split
        · rw [S_ISDIR_or hperm, hmode]
        · exact hmode
      refine ⟨?_, ?_⟩
      · show S_ISDIR ((0o666 &&& ~~~(pset_umask.getD env.umask)) ||| S_IFREG) = false
        rw [S_ISDIR_masked_or (by decide)]
        decide
      · exact hadd _ _ _ (by decide) (hadd _ _ _ (by decide) hdir)

/-- `confinfo.Load`. -/
def loadConf (call : LoadCall) (config : Bytes) (m : K2hFtManage) :
    Except Stop (Bool × K2hFtInfo) :=
  m.confinfo.load call.lib call.stack
    { init_mode := m.base_mode
      init_dmode := m.base_dmode
      init_uid := m.base_uid
      init_gid := m.base_gid
      mountPoint := call.mountPoint
      pagesize := call.pagesize } config call.source

/-- `confinfo.Dump` in dump mode. -/
def dumpConf (env : InitEnv) (info : K2hFtInfo) : Except Stop (Bool × K2hFtInfo) :=
  if env.isDump then info.dump else .ok (true, info)

/-- The loaded limits need the timeup thread. -/
def needsThread (info : K2hFtInfo) : Bool :=
  decide (DEFAULT_LINE_MAX < info.limits.StackLineMax) ||
    decide (DEFAULT_TIMEUP < info.limits.StackTimeup)

/-- Whether the k2hash file or memory is attached. -/
def attachK2hash (env : InitEnv) (info : K2hFtInfo) : Bool :=
  if info.IsMemType then env.attachMem
  else if info.K2hFilePath = [] then env.removeExistFile && env.attach
  else if info.IsInitialize then env.removeExistFile && env.attach
  else env.attach

/-- Unlock, clean the configuration and return false. -/
def giveUp (env : InitEnv) (m : K2hFtManage) : Except Stop (Bool × K2hFtManage) := do
  let info ← m.unlock.confinfo.clean env.now
  return (false, { m.unlock with confinfo := info })

/-- `Initialize(config, ...)` from the start of chmpx on; what chmpx does is not looked at. -/
def startTransaction (env : InitEnv) (m : K2hFtManage) : Except Stop (Bool × K2hFtManage) :=
  if !env.setTransThreadPool then
    m.giveUp env
  else if !attachK2hash env m.confinfo then
    m.giveUp env
  else if !m.is_load_tp && !env.loadTransaction then
    m.giveUp env
  else if !env.enableTransaction then
    -- the transaction plugin is unloaded again
    ({ m with is_load_tp := false } : K2hFtManage).giveUp env
  else if !env.runPlugins then
    ({ m with is_load_tp := false } : K2hFtManage).giveUp env
  else
    .ok (true, ({ m with is_load_tp := true } : K2hFtManage).unlock)

/-- `Initialize(config, ...)`. The return after `pthread_create` keeps the lock. -/
def initializeConf (env : InitEnv) (call : LoadCall) (config : Bytes) : Op K2hFtManage Bool :=
  fun m => do
    let m ← m.lock
    if !env.fdcacheInitialize then
      return (false, m.unlock)
    else if !env.pluginmanInitialize then
      return (false, m.unlock)
    else if !m.is_init_perm then
      return (false, m.unlock)
    else do
      let (result, info) ← m.loadConf call config
      if !result then
        return (false, ({ m with confinfo := info } : K2hFtManage).unlock)
      else do
        let (_, info) ← dumpConf env info
        if needsThread info then
          if !env.pthreadCreate then
            return (false, { m with confinfo := info, run_thread := false })
          else
            startTransaction env { m with confinfo := info, run_thread := true }
        else
          startTransaction env { m with confinfo := info }

end K2hFtManage

/-! ## Calls -/

/-- A call with its arguments and the outcomes of the calls that it makes in turn. -/
inductive Call
  | findPath (pagesize : Nat) (path : Bytes)
  | getFileHandle (path : Bytes)
  | readDir (pagesize : Nat) (path : Bytes)
  | truncateZero (now : Option Timespec) (path : Bytes)
  | setOwner (now : Option Timespec) (path : Bytes) (uid gid : UInt32)
  | setMode (now : Option Timespec) (path : Bytes) (mode : UInt32)
  | setTimespec (path : Bytes) (ts : Timespec)
  | createFile (env : CreateEnv) (path : Bytes) (mode uid gid : UInt32) (handle : Option Bytes)
  | dump
  | load (lib : ConfLib) (stack : YamlDataStack) (args : LoadArgs) (config : Bytes)
      (source : ConfSource)
  | initializePerm (env : InitEnv) (pset_umask pset_uid pset_gid : Option UInt32)
  | initializeConf (env : InitEnv) (call : LoadCall) (config : Bytes)

/-- An operation of `confinfo`. -/
def onInfo {α : Type} (op : Op K2hFtInfo α) : Op K2hFtManage Unit := fun m => do
  let (_, info) ← op m.confinfo
  return ((), { m with confinfo := info })

/-- The call, without its result. -/
def Call.run : Call → Op K2hFtManage Unit
  | .findPath pagesize path => onInfo (K2hFtInfo.findPath pagesize path)
  | .getFileHandle path => onInfo (K2hFtInfo.getFileHandle path)
  | .readDir pagesize path => onInfo (K2hFtInfo.readDir pagesize path)
  | .truncateZero now path => onInfo (K2hFtInfo.truncateZero now path)
  | .setOwner now path uid gid => onInfo (K2hFtInfo.setOwner now path uid gid)
  | .setMode now path mode => onInfo (K2hFtInfo.setMode now path mode)
  | .setTimespec path ts => onInfo (K2hFtInfo.setTimespec path ts)
  | .createFile env path mode uid gid handle =>
      onInfo (K2hFtInfo.createFile env path mode uid gid handle)
  | .dump => onInfo K2hFtInfo.dump
  | .load lib stack args config source => onInfo (K2hFtInfo.load lib stack args config source)
  | .initializePerm env pset_umask pset_uid pset_gid => fun m => do
      let (_, m) ← m.initializePerm env pset_umask pset_uid pset_gid
      return ((), m)
  | .initializeConf env call config => fun m => do
      let (_, m) ← m.initializeConf env call config
      return ((), m)

/-! ## The locks in each call -/

/-- The call releases both locks on every return: they are held as they were before. -/
def Call.Released (call : Call) (m : K2hFtManage) : Prop :=
  ∀ u m', call.run m = .ok (u, m') → m'.locks = m.locks

/-- `Initialize` has loaded a configuration that needs the timeup thread, and the thread cannot be
created. -/
structure InitializeKeepsLock (env : InitEnv) (call : LoadCall) (config : Bytes)
    (m : K2hFtManage) : Prop where
  free : m.conf_lockval = false
  fdcache : env.fdcacheInitialize = true
  pluginman : env.pluginmanInitialize = true
  perm : m.is_init_perm = true
  loaded : ∃ info dumped info', m.loadConf call config = .ok (true, info) ∧
    K2hFtManage.dumpConf env info = .ok (dumped, info') ∧ K2hFtManage.needsThread info' = true
  thread : env.pthreadCreate = false

/-- The two paths on which a call returns with a lock that it has taken. -/
def Call.KeepsLock : Call → K2hFtManage → Prop
  | .createFile _ path _ _ _ _, m => K2hFtInfo.CreateFileKeepsLock path m.confinfo
  | .initializeConf env call config, m => InitializeKeepsLock env call config m
  | _, _ => False

/-- The outcome of a computation that found both locks as in `m`. -/
abbrev LocksSettle {γ : Type} (held : γ → Bool × Bool) (m : K2hFtManage) : Except Stop γ → Prop :=
  Settles held (false, false) m.locks

section Settle

variable {m : K2hFtManage}

theorem locks_eq_free : m.locks = (false, false) ↔
    m.conf_lockval = false ∧ m.confinfo.prule_lockval = false := Prod.mk_inj

/-- A computation on `confinfo` under `K2hFtManage`, which has its own lock in the state `c`. -/
theorem settles_confinfo {α : Type} {x : Except Stop (α × K2hFtInfo)}
    (h : K2hFtInfo.LockSettles m.confinfo.prule_lockval x) :
    LocksSettle (fun r : α × K2hFtInfo => (m.conf_lockval, r.2.prule_lockval)) m x := by
  rcases x with e | ⟨a, info⟩
  · intro hfree
    exact h (locks_eq_free.1 hfree).2
  · exact congrArg (Prod.mk m.conf_lockval) h

theorem onInfo_settles {α : Type} {op : Op K2hFtInfo α}
    (h : K2hFtInfo.LockSettles m.confinfo.prule_lockval (op m.confinfo)) :
    LocksSettle (fun r : Unit × K2hFtManage => r.2.locks) m (onInfo op m) :=
  (settles_confinfo h).bind fun _ _ hheld => settles_ok hheld

/-- What runs between lock and unlock starts with the lock held, where it was free. -/
theorem manage_settles_lock {γ : Type} {held : γ → Bool × Bool} {f : K2hFtManage → Except Stop γ}
    (h : m.conf_lockval = false → LocksSettle held m (f { m with conf_lockval := true })) :
    LocksSettle held m (m.lock >>= f) := by
  unfold K2hFtManage.lock
  cases hlock : m.conf_lockval with
  | false => exact h hlock
  | true =>
      refine settles_of_held ?_
      simp [K2hFtManage.locks, hlock]

/-- What `Initialize` does at its end starts with `conf_lockval` held, where it was free. -/
theorem giveUp_settles {env : InitEnv} {m' : K2hFtManage} (hfree : m.conf_lockval = false)
    (hheld : m'.confinfo.prule_lockval = m.confinfo.prule_lockval) :
    LocksSettle (fun r : Bool × K2hFtManage => r.2.locks) m (m'.giveUp env) := by
  have hheld' : m'.unlock.confinfo.prule_lockval = m.confinfo.prule_lockval := hheld
  have hclean := K2hFtInfo.clean_return_settles hheld' env.now ()
  unfold K2hFtManage.giveUp
  rcases hinfo : m'.unlock.confinfo.clean env.now with e | info
  · rw [hinfo] at hclean
    intro hboth
    exact hclean (locks_eq_free.1 hboth).2
  · rw [hinfo] at hclean
    -- `Clean` gives the other lock back as well
    have hsame : info.prule_lockval = m.confinfo.prule_lockval := hclean
    exact settles_ok (by simp [K2hFtManage.locks, K2hFtManage.unlock, hsame, hfree])

theorem startTransaction_settles {env : InitEnv} {m' : K2hFtManage} (hfree : m.conf_lockval = false)
    (hheld : m'.confinfo.prule_lockval = m.confinfo.prule_lockval) :
    LocksSettle (fun r : Bool × K2hFtManage => r.2.locks) m (m'.startTransaction env) := by
  unfold K2hFtManage.startTransaction
  split
  · exact giveUp_settles hfree hheld
  · split
    · exact giveUp_settles hfree hheld
    · split
      · exact giveUp_settles hfree hheld
      · split
        · exact giveUp_settles hfree hheld
        · split
          · exact giveUp_settles hfree hheld
          · -- every step has succeeded, and the call unlocks
            exact settles_ok (by simp [K2hFtManage.locks, K2hFtManage.unlock, hheld, hfree])

theorem dumpConf_settles {env : InitEnv} {info : K2hFtInfo} :
    K2hFtInfo.LockSettles info.prule_lockval (K2hFtManage.dumpConf env info) := by
  unfold K2hFtManage.dumpConf
  split
  · exact K2hFtInfo.dump_settles info
  · exact settles_ok rfl

theorem initializePerm_settles {env : InitEnv} {pset_umask pset_uid pset_gid : Option UInt32} :
    LocksSettle (fun r : Bool × K2hFtManage => r.2.locks) m
      (m.initializePerm env pset_umask pset_uid pset_gid) := by
  unfold K2hFtManage.initializePerm
  refine manage_settles_lock fun hfree => ?_
  split
  · exact settles_ok (by simp [K2hFtManage.locks, K2hFtManage.unlock, hfree])
  · exact settles_ok (by simp [K2hFtManage.locks, K2hFtManage.unlock, hfree])

theorem initializeConf_settles {env : InitEnv} {call : LoadCall} {config : Bytes}
    (hcall : ¬ InitializeKeepsLock env call config m) :
    LocksSettle (fun r : Bool × K2hFtManage => r.2.locks) m (m.initializeConf env call config) := by
  unfold K2hFtManage.initializeConf
  refine manage_settles_lock fun hfree => ?_
  have hunlock : ∀ info : K2hFtInfo, info.prule_lockval = m.confinfo.prule_lockval →
      (({ m with conf_lockval := true, confinfo := info } : K2hFtManage).unlock).locks = m.locks := by
    intro info hinfo
    simp [K2hFtManage.locks, K2hFtManage.unlock, hinfo, hfree]
  split
  · exact settles_ok (hunlock _ rfl)
  · rename_i hfdcache
    split
    · exact settles_ok (hunlock _ rfl)
    · rename_i hpluginman
      split
      · exact settles_ok (hunlock _ rfl)
      · rename_i hperm
        have hload : K2hFtInfo.LockSettles m.confinfo.prule_lockval (m.loadConf call config) :=
          K2hFtInfo.load_settles _ _ _ _ _ _
        -- the load runs under `conf_lockval`
        refine (settles_confinfo hload).bind fun loaded hloaded hheld => ?_
        rcases loaded with ⟨result, info⟩
        obtain ⟨-, hinfo⟩ := Prod.mk.inj hheld
        cases result with
        -- the load has cleaned what it had set
        | false => exact settles_ok (hunlock info hinfo)
        | true =>
            have hdump : K2hFtInfo.LockSettles m.confinfo.prule_lockval
                (K2hFtManage.dumpConf env info) := by
              rw [← show info.prule_lockval = m.confinfo.prule_lockval from hinfo]
              exact dumpConf_settles
            refine (settles_confinfo hdump).bind fun dumped hdumped hheld' => ?_
            rcases dumped with ⟨dumped, info'⟩
            obtain ⟨-, hinfo'⟩ := Prod.mk.inj hheld'
            dsimp only
            split
            · rename_i hneeds
              split
              · -- the thread cannot be created
                rename_i hthread
                exact absurd ⟨hfree, by simpa using hfdcache, by simpa using hpluginman,
                  by simpa using hperm, ⟨info, dumped, info', hloaded, hdumped, hneeds⟩,
                  by simpa using hthread⟩ hcall
              · exact startTransaction_settles hfree hinfo'
            · exact startTransaction_settles hfree hinfo'

end Settle

namespace Call

theorem run_settles {call : Call} {m : K2hFtManage} (h : ¬ call.KeepsLock m) :
    SettlesAt K2hFtManage.locks (false, false) call.run m := by
  cases call with
  | findPath pagesize path => exact onInfo_settles (K2hFtInfo.findPath_settles _ _ _)
  | getFileHandle path => exact onInfo_settles (K2hFtInfo.getFileHandle_settles _ _)
  | readDir pagesize path => exact onInfo_settles (K2hFtInfo.readDir_settles _ _ _)
  | truncateZero now path => exact onInfo_settles (K2hFtInfo.changeRule_settles _ _ _ _)
  | setOwner now path uid gid => exact onInfo_settles (K2hFtInfo.changeRule_settles _ _ _ _)
  | setMode now path mode => exact onInfo_settles (K2hFtInfo.changeRule_settles _ _ _ _)
  | setTimespec path ts => exact onInfo_settles (K2hFtInfo.changeRule_settles _ _ _ _)
  | createFile env path mode uid gid handle =>
      exact onInfo_settles (K2hFtInfo.createFile_settles h)
  | dump => exact onInfo_settles (K2hFtInfo.dump_settles _)
  | load lib stack args config source =>
      exact onInfo_settles (K2hFtInfo.load_settles _ _ _ _ _ _)
  | initializePerm env pset_umask pset_uid pset_gid =>
      exact initializePerm_settles.bind fun _ _ hheld => settles_ok hheld
  | initializeConf env call config =>
      exact (initializeConf_settles h).bind fun _ _ hheld => settles_ok hheld

/-- On the two paths a lock that was free is held when the call returns. -/
theorem not_released_of_keepsLock {call : Call} {m : K2hFtManage} (h : call.KeepsLock m) :
    ¬ call.Released m := by
  intro hreleased
  cases call with
  | createFile env path mode uid gid handle =>
      have hrun : (Call.createFile env path mode uid gid handle).run m =
          .ok ((), { m with confinfo := m.confinfo.locked }) := by
        simp only [run, onInfo, K2hFtInfo.createFile_keepsLock h, Bind.bind, Except.bind]
        rfl
      have hlocks := (Prod.mk.inj (hreleased _ _ hrun)).2
      have hfree : m.confinfo.prule_lockval = false := h.free
      rw [hfree] at hlocks
      cases hlocks
  | initializeConf env call config =>
      rcases h.loaded with ⟨info, dumped, info', hload, hdump, hneeds⟩
      have hload' : ({ m with conf_lockval := true } : K2hFtManage).loadConf call config =
          .ok (true, info) := hload
      have hrun : (Call.initializeConf env call config).run m =
          .ok ((), { m with conf_lockval := true, confinfo := info', run_thread := false }) := by
        have hperm : (!m.is_init_perm) = false := by simp [h.perm]
        simp only [run, K2hFtManage.initializeConf, K2hFtManage.lock, h.free, h.fdcache, h.pluginman,
          hperm, h.thread, hload', hdump, hneeds, Bind.bind, Except.bind, Bool.not_true,
          Bool.not_false, Bool.false_eq_true, if_false, if_true]
        rfl
      have hlocks := (Prod.mk.inj (hreleased _ _ hrun)).1
      rw [h.free] at hlocks
      cases hlocks
  | findPath | getFileHandle | readDir | truncateZero | setOwner | setMode | setTimespec | dump
  | load | initializePerm => exact h

end Call

/-- No call of the sequence takes one of the two paths. -/
def NeverKeepsLock : List Call → K2hFtManage → Prop
  | [], _ => True
  | call :: calls, m =>
      ¬ call.KeepsLock m ∧ ∀ u m', call.run m = .ok (u, m') → NeverKeepsLock calls m'

theorem allSettle_of_neverKeepsLock {calls : List Call} {m : K2hFtManage}
    (h : NeverKeepsLock calls m) :
    AllSettle K2hFtManage.locks (false, false) (calls.map Call.run) m := by
  induction calls generalizing m with
  | nil =>
      trivial
  | cons call calls ih =>
      exact ⟨Call.run_settles h.1, fun u m' hrun => ih (h.2 u m' hrun)⟩

/-- A call releases its locks on every return exactly when it does not take one of the two paths. In a
sequence of calls that never do, no call waits forever, and the locks are free after it. -/
theorem lockDiscipline (call : Call) (calls : List Call) (m : K2hFtManage) :
    (call.Released m ↔ ¬ call.KeepsLock m) ∧
      (m.locks = (false, false) → NeverKeepsLock calls m →
        runAll (calls.map Call.run) m ≠ .error .spin ∧
          ∀ m', runAll (calls.map Call.run) m = .ok m' → m'.locks = (false, false)) := by
  constructor
  · constructor
    · exact fun hreleased hkeeps => Call.not_released_of_keepsLock hkeeps hreleased
    · exact fun hnot u m' hrun => (Call.run_settles hnot).held_eq hrun
  · intro hfree hnever
    have hrun := runAll_settles (allSettle_of_neverKeepsLock hnever)
    exact ⟨hrun.ne_spin hfree, fun m' hm' => (hrun.held_eq hm').trans hfree⟩

/-! ## Two runs that end waiting -/

/-- The configuration of a process with the one rule directory `log`, after `Initialize`. -/
def logManage : K2hFtManage :=
  { conf_lockval := false
    is_load_tp := true
    is_init_perm := true
    run_thread := false
    base_mode := S_IFREG ||| 0o644
    base_dmode := S_IFDIR ||| 0o755
    base_uid := 0
    base_gid := 0
    confinfo :=
      { (K2hFtInfo.start none).setRule (ascii "log")
          { K2hFtRule.fresh with TargetPath := ascii "log", Mode := S_IFDIR ||| 0o755 } with
        Config := ascii "/etc/k2hftfuse.ini" } }

def plainCreateEnv : CreateEnv :=
  { now := none
    regcomp := fun _ => true
    pipeFile := none
    runAddPlugin := false }

def createCall (path : String) : Call := .createFile plainCreateEnv (ascii path) 0o644 0 0 none

theorem lockDiscipline_logManage :
    Call.dump.Released logManage ∧
      runAll ([createCall "/log/a", .findPath 4096 (ascii "/log/a")].map Call.run) logManage ≠
        .error .spin := by
  have hboth := lockDiscipline .dump [createCall "/log/a", .findPath 4096 (ascii "/log/a")] logManage
  refine ⟨hboth.1.2 id, (hboth.2 rfl ?_).1⟩
  refine ⟨?_, fun _ _ _ => ⟨id, fun _ _ _ => trivial⟩⟩
  intro hkeeps
  exact absurd hkeeps.parentless (by decide)

/-- `Initialize` where the timeup thread is needed and cannot be created. -/
def threadlessEnv : InitEnv :=
  { umask := 0o022
    getuid := 0
    getgid := 0
    fdcacheInitialize := true
    pluginmanInitialize := true
    isDump := false
    pthreadCreate := false
    setTransThreadPool := true
    attachMem := true
    removeExistFile := true
    attach := true
    loadTransaction := true
    enableTransaction := true
    runPlugins := true
    now := none }

/-- A configuration that stacks lines. -/
def stackingLoad : LoadCall :=
  { lib := plainLib
    stack := plainStack
    source := iniOf ["[K2HFTFUSE]", "TRANSLINECNT = 10", "[K2HFTFUSE_RULE]", "TARGET = log/a"]
    mountPoint := ascii "/mnt/k2hftfuse"
    pagesize := 4096 }

def stackingCall : Call := .initializeConf threadlessEnv stackingLoad (ascii "/etc/k2hftfuse.ini")

/-- Before `Initialize` with a configuration. -/
def unloadedManage : K2hFtManage := { logManage with confinfo := K2hFtInfo.start none }

def spins {α : Type} : Except Stop α → Bool
  | .error .spin => true
  | _ => false

theorem eq_spin_of_spins {α : Type} {x : Except Stop α} (h : spins x = true) : x = .error .spin := by
  unfold spins at h
  split at h
  · rfl
  · cases h

/-- A file directly under the mount point is refused with the lock held, and the next lookup waits
forever. The second `Initialize` waits forever after a first one without a thread. -/
theorem calls_keep_locks :
    ¬ (createCall "/a").Released logManage ∧
      runAll ([createCall "/a", .findPath 4096 (ascii "/a")].map Call.run) logManage =
        .error .spin ∧
      ¬ stackingCall.Released unloadedManage ∧
      runAll ([stackingCall, stackingCall].map Call.run) unloadedManage = .error .spin := by
  have hcreate : (createCall "/a").KeepsLock logManage :=
    ⟨rfl, by decide, by decide, by decide, by decide, by decide⟩
  have hstack : stackingCall.KeepsLock unloadedManage := by
    refine ⟨rfl, rfl, rfl, rfl, ?_, rfl⟩
    have hload : ∃ info, unloadedManage.loadConf stackingLoad (ascii "/etc/k2hftfuse.ini") =
        .ok (true, info) ∧ K2hFtManage.needsThread info = true :=
      K2hFtInfo.exists_of_toOption (by decide +kernel)
    rcases hload with ⟨info, hload, hneeds⟩
    exact ⟨info, true, info, hload, rfl, hneeds⟩
  refine ⟨Call.not_released_of_keepsLock hcreate, eq_spin_of_spins (by decide +kernel),
    Call.not_released_of_keepsLock hstack, eq_spin_of_spins (by decide +kernel)⟩

end K2hFtFuse

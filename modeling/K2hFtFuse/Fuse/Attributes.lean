import K2hFtFuse.Fuse.Hooks
import K2hFtFuse.Info.Processing

/-!
# Fuse.Attributes — what becomes of the attributes of a file

The hooks that look at and change attributes, interleaved at the operations of `K2hFtInfo` that they
call: `h2htpfs_chmod`, `h2htpfs_chown` and `h2htpfs_utimens` look up the file, then its directory, and
then make the change. `h2htpfs_truncate`, `h2htpfs_fsync` and `K2hFtInfo::Processing` change the size and
the time.

This file defines:
* `AttrPhase`, `AttrServer`: where each call stands, and the history of what was given to k2hash for a
  handle, skipped or cut off,
* `RuleUpdate`: what a step does to a rule, and what it adds to the history.

and shows that the steps of one call with no other in between are the hook (`changeSerially_eq`), and that a
step leaves the rules as they are, adds one for a file, or updates one (`step_rules`).
-/

namespace K2hFtFuse

open ByteSeq SpinLock Transition K2hFtInfo Outcome

/-! ## The hooks -/

/-- What `h2htpfs_chmod`, `h2htpfs_chown` and `h2htpfs_utimens` are asked for. -/
inductive AttrChange
  | mode (mode : UInt32)
  | owner (uid gid : UInt32)
  | times (ts : Timespec)
  deriving DecidableEq

structure AttrRequest where
  change : AttrChange
  path : Bytes
  pfusectx : FuseContext
  deriving DecidableEq

/-- The call that makes the change: `SetMode`, `SetOwner` or `SetTimespec`. -/
def AttrRequest.apply (r : AttrRequest) (now : Option Timespec) : Op K2hFtInfo Bool :=
  match r.change with
  | .mode mode => setMode now r.path (mode &&& S_IRWXUGO)
  | .owner uid gid => setOwner now r.path uid gid
  | .times ts => setTimespec r.path ts

/-- Where a call stands: before its look at the directory, before the change, at its end. -/
inductive AttrPhase
  | parent (r : AttrRequest) (parentpath : Bytes)
  | applying (r : AttrRequest)
  | returned (r : AttrRequest) (result : Int)
  deriving DecidableEq

/-- After `FindPath` for the path. -/
def afterOwner (r : AttrRequest) (stbuf : Option Stat) : AttrPhase :=
  match stbuf with
  | none => .returned r (-ENOENT)
  | some stbuf =>
      if !checkPremissionOwner stbuf r.pfusectx.uid then
        .returned r (-EPERM)
      else if !S_ISREG stbuf.st_mode then
        .returned r (-EPERM)
      else
        match getParentDirpath r.path with
        | none => .returned r (-EACCES)
        | some parentpath => .parent r parentpath

/-- After `FindPath` for the parent directory. -/
def afterDirectory (env : FuseEnv) (r : AttrRequest) (parent_stbuf : Option Stat) : AttrPhase :=
  match parent_stbuf with
  | none => .returned r (-ENOENT)
  | some parent_stbuf =>
      let result :=
        checkPermissionAccess env.isGidIncludeIds X_OK parent_stbuf r.pfusectx.uid r.pfusectx.gid
      if result ≠ 0 then .returned r result else .applying r

def afterChange (r : AttrRequest) (result : Bool) : AttrPhase :=
  .returned r (if result then 0 else - EIO)

/-- `UpdateMTime`, which takes no lock. -/
def updateMTime (now : Option Timespec) (handle : Option Bytes) : Op K2hFtInfo Bool := fun info =>
  match handle with
  | none => return (false, info)
  | some key =>
      match info.RuleMap.find? key with
      | none => .error .fault
      | some rule => do
          let rule ← info.deref key rule
          return ((touch now rule).1, info.setRule key (touch now rule).2)

/-- `h2htpfs_fsync`: only the time is updated. -/
def h2htpfsFsync (now : Option Timespec) (isdatasync : Bool) (fh : Option Bytes) :
    Op K2hFtInfo Int := fun info =>
  if isdatasync then
    return (0, info)
  else if fh = none then
    return (0, info)
  else do
    let (result, info) ← updateMTime now fh info
    return (if result then 0 else - EIO, info)

/-- `K2hFtInfo::Processing` for a value that was written through a handle. -/
def processHandle (malloc : Bool) (env : ProcessEnv) (key value : Bytes) :
    Op K2hFtInfo ProcessEffects := fun info =>
  match info.RuleMap.find? key with
  | none => .error .fault
  | some rule => do
      let rule ← info.deref key rule
      match infoProcessing malloc env info.IsBinaryMode rule value with
      | none => .error .fault
      | some (_, effects, rule) => return (effects, info.setRule key rule)

/-! ## Runs -/

/-- A value was given to k2hash for a handle, one was skipped because there was no memory for its key, or
the size of the file was set to 0. -/
inductive AttrEvent
  | given (handle value : Bytes)
  | skipped (handle : Bytes) (size : Nat)
  | zeroed (handle : Bytes)
  deriving DecidableEq

/-- What a call of `Processing` for a handle adds to the history. -/
def ProcessEffects.events (effects : ProcessEffects) (handle : Bytes) : List AttrEvent :=
  effects.sets.map (fun set => .given handle set.2) ++ effects.skipped.map (.skipped handle)

/-- The rules with the requests that open files, the calls that change attributes, the history. -/
structure AttrServer where
  files : FuseServer
  changes : OrdMap Nat AttrPhase
  log : List AttrEvent

/-- A step. `fsync` and `processing` are about the file that request `c` has opened. -/
inductive AttrLabel
  | serve (l : ServeLabel)
  | lookup (c : Nat) (r : AttrRequest)
  | lookupParent (c : Nat)
  | apply (c : Nat) (now : Option Timespec)
  | truncate (path : Bytes) (length : Int) (now : Option Timespec)
  | fsync (c : Nat) (isdatasync : Bool) (now : Option Timespec)
  | processing (c : Nat) (malloc : Bool) (env : ProcessEnv) (value : Bytes)

namespace AttrServer

def start (info : K2hFtInfo) : AttrServer :=
  { files := FuseServer.start info
    changes := ∅
    log := [] }

def info (s : AttrServer) : K2hFtInfo := s.files.info

def rules (s : AttrServer) : OrdMap Bytes K2hFtRule := s.files.info.RuleMap

def withInfo (s : AttrServer) (info : K2hFtInfo) : AttrServer :=
  { s with files := { s.files with info := info } }

/-- Call `c` calls an operation, and goes on to what its answer asks for. -/
def call {α : Type} (s : AttrServer) (c : Nat) (op : Op K2hFtInfo α) (next : α → AttrPhase) :
    Option AttrServer :=
  match op s.info with
  | .error _ => none
  | .ok (answer, info) => some { s.withInfo info with changes := s.changes.insert c (next answer) }

/-- The open file of a request: `fi->fh`. -/
def handleOf (s : AttrServer) (c : Nat) : Option (Option Bytes) :=
  match s.files.phaseOf c with
  | .returned _ result fh => if result = 0 then some fh else none
  | _ => none

def step (env : FuseEnv) (s : AttrServer) : AttrLabel → Option AttrServer
  | .serve l => (s.files.step env l).map fun files => { s with files := files }
  | .lookup c r =>
      if s.changes.find? c = none then
        if r.path = ascii "/" then
          some { s with changes := s.changes.insert c (.returned r (-EPERM)) }
        else
          s.call c (findPath env.pagesize r.path) (afterOwner r)
      else
        none
  | .lookupParent c =>
      match s.changes.find? c with
      | some (.parent r parentpath) =>
          s.call c (findPath env.pagesize parentpath) (afterDirectory env r)
      | _ => none
  | .apply c now =>
      match s.changes.find? c with
      | some (.applying r) => s.call c (r.apply now) (afterChange r)
      | _ => none
  | .truncate path length now =>
      match h2htpfsTruncate now path length s.info with
      | .error _ => none
      | .ok (_, info) =>
          -- the rule that `h2htpfsTruncate_eq_ok` tells, also where the clock fails
          let zeroed := if length = 0 then truncates s.info path else none
          some
            { s.withInfo info with
              log := if zeroed.isSome then s.log ++ [.zeroed (stripSlash path)] else s.log }
  | .fsync c isdatasync now =>
      match s.handleOf c with
      | none => none
      | some fh =>
          match h2htpfsFsync now isdatasync fh s.info with
          | .error _ => none
          | .ok (_, info) => some (s.withInfo info)
  | .processing c malloc env value =>
      match s.handleOf c with
      | some (some key) =>
          match processHandle malloc env key value s.info with
          | .error _ => none
          | .ok (effects, info) =>
              some { s.withInfo info with log := s.log ++ effects.events key }
      | _ => none

end AttrServer

/-! ## One call after the other -/

/-- The call of `FindPath` for the parent directory. -/
def AttrPhase.callParent (env : FuseEnv) : AttrPhase → Op K2hFtInfo AttrPhase
  | .parent r parentpath => fun info => do
      let (parent_stbuf, info) ← findPath env.pagesize parentpath info
      return (afterDirectory env r parent_stbuf, info)
  | phase => fun info => return (phase, info)

def AttrPhase.callApply (now : Option Timespec) : AttrPhase → Op K2hFtInfo AttrPhase
  | .applying r => fun info => do
      let (result, info) ← r.apply now info
      return (afterChange r result, info)
  | phase => fun info => return (phase, info)

/-- The steps of one call with no other call in between. -/
def changeSerially (env : FuseEnv) (now : Option Timespec) (r : AttrRequest) :
    Op K2hFtInfo AttrPhase := fun info =>
  if r.path = ascii "/" then
    return (.returned r (-EPERM), info)
  else do
    let (stbuf, info) ← findPath env.pagesize r.path info
    let (phase, info) ← (afterOwner r stbuf).callParent env info
    phase.callApply now info

/-- They are what `h2htpfs_chmod` and `h2htpfs_chown` do. -/
theorem changeSerially_eq (env : FuseEnv) (now : Option Timespec) (r : AttrRequest)
    (info : K2hFtInfo) :
    changeSerially env now r info =
      (changeOwned env r.path r.pfusectx (r.apply now) info).map fun a =>
        (.returned r a.1, a.2) := by
  unfold changeSerially changeOwned
  split
  · rfl
  · cases findPath env.pagesize r.path info with
    | error e => rfl
    | ok answer =>
        rcases answer with ⟨stbuf, info⟩
        cases stbuf with
        | none => rfl
        | some stbuf =>
            simp only [Bind.bind, Except.bind, afterOwner]
            cases howner : checkPremissionOwner stbuf r.pfusectx.uid with
            | false => rfl
            | true =>
                cases hreg : S_ISREG stbuf.st_mode with
                | false => rfl
                | true =>
                    cases getParentDirpath r.path with
                    | none => rfl
                    | some parentpath =>
                        simp only [Bool.not_true, Bool.false_eq_true, if_false, AttrPhase.callParent,
                          Bind.bind, Except.bind]
                        cases findPath env.pagesize parentpath info with
                        | error e => rfl
                        | ok answer =>
                            rcases answer with ⟨parent_stbuf, info⟩
                            cases parent_stbuf with
                            | none => rfl
                            | some parent_stbuf =>
                                simp only [afterDirectory, pure, Except.pure]
                                by_cases hlet : checkPermissionAccess env.isGidIncludeIds X_OK
                                    parent_stbuf r.pfusectx.uid r.pfusectx.gid ≠ 0
                                · rw [if_pos hlet, if_pos hlet]
                                  rfl
                                · rw [if_neg hlet, if_neg hlet]
                                  simp only [AttrPhase.callApply, Bind.bind, Except.bind]
                                  cases r.apply now info with
                                  | error e => rfl
                                  | ok answer => rfl

/-! ## What the operations do to the rules -/

/-- The rule after the change of a request. -/
def AttrChange.on (change : AttrChange) (now : Option Timespec) (rule : K2hFtRule) : K2hFtRule :=
  match change with
  | .mode perm =>
      (touch now
        { rule with
          Mode := (rule.Mode &&& ~~~S_IRWXUGO) ||| (perm &&& S_IRWXUGO &&& S_IRWXUGO) }).2
  | .owner uid gid =>
      (touch now
        { rule with
          Uid := if uid ≠ -1 then uid else rule.Uid
          Gid := if gid ≠ -1 then gid else rule.Gid }).2
  | .times ts => { rule with LastTime := ts }

theorem apply_eq_ok {r : AttrRequest} {now : Option Timespec} {info info' : K2hFtInfo} {result : Bool}
    (h : r.apply now info = .ok (result, info')) :
    info'.Config = info.Config ∧
      (info'.RuleMap = info.RuleMap ∨
        ∃ rule, truncates info r.path = some rule ∧
          info'.RuleMap = info.RuleMap.insert (stripSlash r.path) (r.change.on now rule)) := by
  unfold AttrRequest.apply at h
  cases hchange : r.change with
  | mode mode =>
      rw [hchange] at h
      rcases changeRule_eq_ok h with ⟨hconfig, ⟨-, hsame⟩ | ⟨rule, hrule, hrules⟩⟩
      · exact ⟨hconfig, .inl hsame⟩
      · exact ⟨hconfig, .inr ⟨rule, hrule, hrules⟩⟩
  | owner uid gid =>
      rw [hchange] at h
      rcases changeRule_eq_ok h with ⟨hconfig, ⟨-, hsame⟩ | ⟨rule, hrule, hrules⟩⟩
      · exact ⟨hconfig, .inl hsame⟩
      · exact ⟨hconfig, .inr ⟨rule, hrule, hrules⟩⟩
  | times ts =>
      rw [hchange] at h
      rcases changeRule_eq_ok h with ⟨hconfig, ⟨-, hsame⟩ | ⟨rule, hrule, hrules⟩⟩
      · exact ⟨hconfig, .inl hsame⟩
      · exact ⟨hconfig, .inr ⟨rule, hrule, hrules⟩⟩

/-- `CreateFile` leaves the rules that are there, and may add one for a file. -/
theorem createFile_change {env : CreateEnv} {path : Bytes} {mode uid gid : UInt32}
    {handle handle' : Option Bytes} {info info' : K2hFtInfo} {result : Bool}
    (h : createFile env path mode uid gid handle info = .ok ((result, handle'), info')) :
    info'.Config = info.Config ∧
      ((info'.RuleMap = info.RuleMap ∧ handle' = handle) ∨
        ∃ rule, info.RuleMap.find? (stripSlash path) = none ∧
          info'.RuleMap = info.RuleMap.insert (stripSlash path) rule ∧
          handle' = some (stripSlash path) ∧ rule.AccumSize = 0 ∧
          rule.Mode = (mode &&& S_IRWXUGO) ||| S_IFREG) := by
  unfold createFile at h
  split at h
  · cases h
    exact ⟨rfl, .inl ⟨rfl, rfl⟩⟩
  · split at h
    · cases h
      exact ⟨rfl, .inl ⟨rfl, rfl⟩⟩
    · split at h
      · cases h
        exact ⟨rfl, .inl ⟨rfl, rfl⟩⟩
      · rcases bind_eq_ok.1 h with ⟨info₁, hlock, hrest⟩
        rcases lock_eq_ok hlock with ⟨-, rfl⟩
        simp only [locked_RuleMap] at hrest
        cases hfind : info.RuleMap.find? (stripSlash path) with
        | some rule =>
            rw [hfind] at hrest
            cases hrest
            exact ⟨rfl, .inl ⟨rfl, rfl⟩⟩
        | none =>
            rw [hfind] at hrest
            cases hparent : getParentDirpath (stripSlash path) with
            | none =>
                simp only [hparent] at hrest
                cases hrest
                exact ⟨rfl, .inl ⟨rfl, rfl⟩⟩
            | some parentpath =>
                simp only [hparent] at hrest
                cases hdir : info.RuleMap.find? parentpath with
                | none =>
                    rw [hdir] at hrest
                    cases hrest
                    exact ⟨rfl, .inl ⟨rfl, rfl⟩⟩
                | some parent =>
                    rw [hdir] at hrest
                    rcases bind_eq_ok.1 hrest with ⟨parent', -, hunder⟩
                    -- each way that makes the rule ends with it under the path
                    unfold createUnder at hunder
                    split at hunder
                    · cases hunder
                      exact ⟨rfl, .inl ⟨rfl, rfl⟩⟩
                    · split at hunder
                      · cases hunder
                      · split at hunder
                        · cases hunder
                        · split at hunder
                          · cases hunder
                            exact ⟨rfl, .inr ⟨_, rfl, rfl, rfl, rfl, rfl⟩⟩
                          · split at hunder
                            · cases hunder
                              exact ⟨rfl, .inr ⟨_, rfl, rfl, rfl, rfl, rfl⟩⟩
                            · split at hunder
                              · cases hunder
                                exact ⟨rfl, .inr ⟨_, rfl, rfl, rfl, rfl, rfl⟩⟩
                              · cases hunder
                                exact ⟨rfl, .inr ⟨_, rfl, rfl, rfl, rfl, rfl⟩⟩

/-! ## What a step does -/

namespace FuseServer

variable {env : FuseEnv} {s t : FuseServer}

/-- A request leaves the rules that are there, and may add one for a file. -/
theorem step_rules {l : ServeLabel} (h : step env s l = some t) :
    t.info.Config = s.info.Config ∧
      (t.info.RuleMap = s.info.RuleMap ∨
        ∃ key rule, s.info.RuleMap.find? key = none ∧
          t.info.RuleMap = s.info.RuleMap.insert key rule ∧ rule.AccumSize = 0 ∧
          S_ISDIR rule.Mode = false) := by
  cases l with
  | findPath c r =>
      simp only [step] at h
      cases hphase : s.phaseOf c <;> simp only [hphase] at h <;> try cases h
      rcases call_eq_some h with ⟨answer, hop, -, -⟩
      rw [findPath_eq_ok hop]
      exact ⟨rfl, .inl rfl⟩
  | getFileHandle c =>
      simp only [step] at h
      cases hphase : s.phaseOf c <;> simp only [hphase] at h <;> try cases h
      rcases call_eq_some h with ⟨answer, hop, -, -⟩
      rw [(getFileHandle_eq_ok hop).1]
      exact ⟨rfl, .inl rfl⟩
  | findParent c =>
      simp only [step] at h
      cases hphase : s.phaseOf c <;> simp only [hphase] at h <;> try cases h
      rcases call_eq_some h with ⟨answer, hop, -, -⟩
      rw [findPath_eq_ok hop]
      exact ⟨rfl, .inl rfl⟩
  | createFile c createEnv =>
      simp only [step] at h
      cases hphase : s.phaseOf c <;> simp only [hphase] at h <;> try cases h
      rcases call_eq_some h with ⟨⟨result, handle⟩, hop, -, -⟩
      rcases createFile_change hop with ⟨hconfig, ⟨hsame, -⟩ |
        ⟨rule, hfresh, hrules, -, hsize, hmode⟩⟩
      · exact ⟨hconfig, .inl hsame⟩
      · refine ⟨hconfig, .inr ⟨_, rule, hfresh, hrules, hsize, ?_⟩⟩
        rw [hmode, UInt32.and_comm, S_ISDIR_masked_or (by decide)]
        rfl

end FuseServer

/-- What a step does to the rule under a key, and what it adds to the history. -/
inductive RuleUpdate (s : AttrServer) :
    AttrLabel → Bytes → Option K2hFtRule → K2hFtRule → List AttrEvent → Prop
  /-- `CreateFile` -/
  | created (l : ServeLabel) (key : Bytes) (rule : K2hFtRule) (hsize : rule.AccumSize = 0)
      (hfile : S_ISDIR rule.Mode = false) :
      RuleUpdate s (.serve l) key none rule []
  /-- `SetMode`, `SetOwner`, `SetTimespec` -/
  | changed (c : Nat) (now : Option Timespec) (r : AttrRequest) (rule : K2hFtRule)
      (hphase : s.changes.find? c = some (.applying r)) (hfile : S_ISDIR rule.Mode = false) :
      RuleUpdate s (.apply c now) (stripSlash r.path) (some rule) (r.change.on now rule) []
  /-- `TruncateZero` -/
  | zeroed (path : Bytes) (now : Option Timespec) (rule : K2hFtRule)
      (hfile : S_ISDIR rule.Mode = false) :
      RuleUpdate s (.truncate path 0 now) (stripSlash path) (some rule)
        (touch now { rule with AccumSize := 0 }).2 [.zeroed (stripSlash path)]
  /-- `UpdateMTime` -/
  | touched (c : Nat) (now : Option Timespec) (key : Bytes) (rule : K2hFtRule)
      (hhandle : s.handleOf c = some (some key)) :
      RuleUpdate s (.fsync c false now) key (some rule) (touch now rule).2 []
  /-- `Processing` -/
  | processed (c : Nat) (malloc : Bool) (env : ProcessEnv) (key value : Bytes)
      (rule rule' : K2hFtRule) (result : Bool) (effects : ProcessEffects)
      (hhandle : s.handleOf c = some (some key))
      (hprocess : infoProcessing malloc env s.info.IsBinaryMode rule value =
        some (result, effects, rule')) :
      RuleUpdate s (.processing c malloc env value) key (some rule) rule' (effects.events key)

namespace AttrServer

variable {env : FuseEnv} {s t : AttrServer} {l : AttrLabel}

theorem call_eq_some {α : Type} {c : Nat} {op : Op K2hFtInfo α} {next : α → AttrPhase}
    (h : s.call c op next = some t) :
    ∃ answer info, op s.info = .ok (answer, info) ∧
      t = { s.withInfo info with changes := s.changes.insert c (next answer) } := by
  unfold call at h
  cases hop : op s.info with
  | error e => simp [hop] at h
  | ok answer =>
      rw [hop] at h
      exact ⟨answer.1, answer.2, rfl, (Option.some.inj h).symm⟩

/-- A step leaves the rules and the history, or it updates one rule. -/
theorem step_rules (h : step env s l = some t) :
    t.info.Config = s.info.Config ∧
      ((t.rules = s.rules ∧ t.log = s.log) ∨
        ∃ key rule events, RuleUpdate s l key (s.rules.find? key) rule events ∧
          t.rules = s.rules.insert key rule ∧ t.log = s.log ++ events) := by
  cases l with
  | serve l =>
      rcases Option.map_eq_some_iff.1 h with ⟨files, hfiles, rfl⟩
      rcases FuseServer.step_rules hfiles with ⟨hconfig, hsame |
        ⟨key, rule, hfresh, hrules, hsize, hfile⟩⟩
      · exact ⟨hconfig, .inl ⟨hsame, rfl⟩⟩
      · refine ⟨hconfig, .inr ⟨key, rule, [], ?_, hrules, by simp⟩⟩
        rw [rules, hfresh]
        exact .created l key rule hsize hfile
  | lookup c r =>
      simp only [step] at h
      split at h
      · split at h
        · obtain rfl := Option.some.inj h
          exact ⟨rfl, .inl ⟨rfl, rfl⟩⟩
        · rcases call_eq_some h with ⟨answer, info, hop, rfl⟩
          obtain rfl := findPath_eq_ok hop
          exact ⟨rfl, .inl ⟨rfl, rfl⟩⟩
      · cases h
  | lookupParent c =>
      simp only [step] at h
      split at h
      · rcases call_eq_some h with ⟨answer, info, hop, rfl⟩
        obtain rfl := findPath_eq_ok hop
        exact ⟨rfl, .inl ⟨rfl, rfl⟩⟩
      · cases h
  | apply c now =>
      simp only [step] at h
      split at h
      · rename_i r hphase
        rcases call_eq_some h with ⟨answer, info, hop, rfl⟩
        rcases apply_eq_ok hop with ⟨hconfig, hsame | ⟨rule, hrule, hrules⟩⟩
        · exact ⟨hconfig, .inl ⟨hsame, rfl⟩⟩
        · rcases truncates_eq_some.1 hrule with ⟨hat, hfile⟩
          have hfind : s.rules.find? (stripSlash r.path) = some rule := (ruleAt_eq_some hat).2
          refine ⟨hconfig, .inr ⟨_, _, [], ?_, hrules, by simp [withInfo]⟩⟩
          rw [hfind]
          exact .changed c now r rule hphase hfile
      · cases h
  | truncate path length now =>
      simp only [step] at h
      split at h
      · cases h
      · rename_i result info hop
        obtain rfl := Option.some.inj h
        rcases h2htpfsTruncate_eq_ok hop with ⟨hconfig, ⟨hnone, hsame⟩ | ⟨rule, hzeroed, hrules⟩⟩
        · exact ⟨hconfig, .inl ⟨hsame, by simp [hnone]⟩⟩
        · have hlog : (if (if length = 0 then truncates s.info path else none).isSome then
              s.log ++ [.zeroed (stripSlash path)] else s.log) =
                s.log ++ [.zeroed (stripSlash path)] := by
            rw [hzeroed]
            rfl
          have hlength : length = 0 := by
            by_contra hother
            rw [if_neg hother] at hzeroed
            cases hzeroed
          rw [if_pos hlength] at hzeroed
          rcases truncates_eq_some.1 hzeroed with ⟨hat, hfile⟩
          have hfind : s.rules.find? (stripSlash path) = some rule := (ruleAt_eq_some hat).2
          refine ⟨hconfig, .inr ⟨_, _, [.zeroed (stripSlash path)], ?_, hrules, hlog⟩⟩
          rw [hfind, hlength]
          exact .zeroed path now rule hfile
  | fsync c isdatasync now =>
      simp only [step] at h
      split at h
      · cases h
      · rename_i fh hhandle
        split at h
        · cases h
        · rename_i result info hop
          obtain rfl := Option.some.inj h
          unfold h2htpfsFsync at hop
          cases isdatasync with
          | true =>
              cases hop
              exact ⟨rfl, .inl ⟨rfl, rfl⟩⟩
          | false =>
              cases fh with
              | none =>
                  cases hop
                  exact ⟨rfl, .inl ⟨rfl, rfl⟩⟩
              | some key =>
                  simp only [Bool.false_eq_true, if_false, reduceCtorEq, updateMTime] at hop
                  rcases bind_eq_ok.1 hop with ⟨⟨result', info'⟩, htouch, hreturn⟩
                  cases hreturn
                  split at htouch
                  · cases htouch
                  · rename_i rule hfind
                    rcases bind_eq_ok.1 htouch with ⟨rule', hderef, hset⟩
                    obtain rfl := deref_eq_ok hderef
                    cases hset
                    have hfind' : s.rules.find? key = some rule' := hfind
                    refine ⟨rfl, .inr ⟨key, _, [], ?_, rfl, by simp [withInfo]⟩⟩
                    rw [hfind']
                    exact .touched c now key rule' hhandle
  | processing c malloc penv value =>
      simp only [step] at h
      split at h
      · rename_i key hhandle
        split at h
        · cases h
        · rename_i effects info hop
          obtain rfl := Option.some.inj h
          unfold processHandle at hop
          split at hop
          · cases hop
          · rename_i rule hfind
            rcases bind_eq_ok.1 hop with ⟨rule', hderef, hprocess⟩
            obtain rfl := deref_eq_ok hderef
            split at hprocess
            · cases hprocess
            · rename_i result effects' rule'' hinfo
              cases hprocess
              have hfind' : s.rules.find? key = some rule' := hfind
              refine ⟨rfl, .inr ⟨key, rule'', _, ?_, rfl, rfl⟩⟩
              rw [hfind']
              exact .processed c malloc penv key value rule' rule'' result effects hhandle hinfo
      · cases h

end AttrServer

end K2hFtFuse

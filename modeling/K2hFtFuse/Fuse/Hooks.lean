import K2hFtFuse.Fuse.Open
import K2hFtFuse.Info.Listing

/-!
# Fuse.Hooks — who may write

The hooks that make, change, open, write and truncate files, one after the other. `h2htpfs_access`
decides by the bits of the file itself; `h2htpfs_open` looks at the parent directory only, and
`h2htpfs_truncate` at nothing. The history says who opened, wrote and truncated what.
-/

namespace K2hFtFuse

open ByteSeq SpinLock Transition K2hFtInfo Outcome

/-! ## The hooks -/

def O_ACCMODE : UInt32 := 3
def O_RDONLY : UInt32 := 0

def S_ISREG (mode : UInt32) : Bool := mode &&& S_IFMT == S_IFREG

/-- `check_premission_owner`. -/
def checkPremissionOwner (stbuf : Stat) (exec_uid : UInt32) : Bool :=
  exec_uid == 0 || exec_uid == stbuf.st_uid

/-- The call of `GetFileHandle` of a request, if it comes to it. -/
def RequestPhase.callHandle : RequestPhase → Op K2hFtInfo RequestPhase
  | .handle r => fun info => do
      let (file_handle, info) ← getFileHandle r.path info
      return (toParent r file_handle, info)
  | phase => fun info => return (phase, info)

/-- The call of `FindPath` for the parent directory. -/
def RequestPhase.callParent (env : FuseEnv) : RequestPhase → Op K2hFtInfo RequestPhase
  | .parent r parentpath file_handle => fun info => do
      let (parent_stbuf, info) ← findPath env.pagesize parentpath info
      return (afterParent env r file_handle parent_stbuf, info)
  | phase => fun info => return (phase, info)

/-- The call of `CreateFile`. -/
def RequestPhase.callCreate (createEnv : CreateEnv) : RequestPhase → Op K2hFtInfo RequestPhase
  | .creating r => fun info => do
      let (answer, info) ← createFile createEnv r.path r.mode r.pfusectx.uid r.pfusectx.gid none info
      return (afterCreateFile r answer, info)
  | phase => fun info => return (phase, info)

/-- `h2htpfs_open` and `h2htpfs_create` with no other request in between. -/
def serve (env : FuseEnv) (createEnv : CreateEnv) (r : Request) : Op K2hFtInfo RequestPhase :=
  fun info => do
    let (stbuf, info) ← findPath env.pagesize r.path info
    let (phase, info) ← (afterFindPath r stbuf).callHandle info
    let (phase, info) ← phase.callParent env info
    phase.callCreate createEnv info

/-- The part that `h2htpfs_chmod` and `h2htpfs_chown` share: `change` is what the owner of a regular
file may do. -/
def changeOwned (env : FuseEnv) (path : Bytes) (pfusectx : FuseContext)
    (change : Op K2hFtInfo Bool) : Op K2hFtInfo Int := fun info =>
  if path = ascii "/" then
    return (-EPERM, info)
  else do
    let (stbuf, info) ← findPath env.pagesize path info
    match stbuf with
    | none => return (-ENOENT, info)
    | some stbuf =>
        if !checkPremissionOwner stbuf pfusectx.uid then
          return (-EPERM, info)
        -- directories are not changed, whoever asks
        else if !S_ISREG stbuf.st_mode then
          return (-EPERM, info)
        else
          match getParentDirpath path with
          | none => return (-EACCES, info)
          | some parentpath =>
              let (parent_stbuf, info) ← findPath env.pagesize parentpath info
              match parent_stbuf with
              | none => return (-ENOENT, info)
              | some parent_stbuf =>
                  let result := checkPermissionAccess env.isGidIncludeIds X_OK parent_stbuf
                    pfusectx.uid pfusectx.gid
                  if result ≠ 0 then
                    return (result, info)
                  else
                    let (changed, info) ← change info
                    return (if changed then 0 else - EIO, info)

/-- `h2htpfs_chmod`. -/
def h2htpfsChmod (env : FuseEnv) (now : Option Timespec) (path : Bytes) (mode : UInt32)
    (pfusectx : FuseContext) : Op K2hFtInfo Int :=
  changeOwned env path pfusectx (setMode now path (mode &&& S_IRWXUGO))

/-- `h2htpfs_chown`; a user or group that the databases know has the number it was asked for. -/
def h2htpfsChown (env : FuseEnv) (now : Option Timespec) (path : Bytes) (uid gid : UInt32)
    (pfusectx : FuseContext) : Op K2hFtInfo Int :=
  changeOwned env path pfusectx (setOwner now path uid gid)

/-- `h2htpfs_truncate`. -/
def h2htpfsTruncate (now : Option Timespec) (path : Bytes) (length : Int) : Op K2hFtInfo Int :=
  fun info =>
    if length ≠ 0 then
      return (-EPERM, info)
    else do
      let (result, info) ← truncateZero now path info
      return (if result then 0 else - EIO, info)

/-! ## Runs of hooks -/

/-- The rule of a path, as the operations that take a path get to it. -/
def ruleAt (info : K2hFtInfo) (path : Bytes) : Option K2hFtRule :=
  if path = [] ∨ path = ascii "/" ∨ info.isLoad = false then none
  else info.RuleMap.find? (stripSlash path)

/-- An open file: how and by whom it was opened, and the rule that was there before. -/
structure OpenFile where
  path : Bytes
  pfusectx : FuseContext
  writing : Bool
  found : Option K2hFtRule
  fh : Option Bytes
  deriving DecidableEq

/-- What hooks have let happen: a file was opened, its size was set to 0, bytes got to `Push`, whatever
it answered. -/
inductive HookEvent
  | opened (f : OpenFile)
  | truncated (path : Bytes) (pfusectx : FuseContext) (rule : K2hFtRule)
  | accepted (f : OpenFile) (buf : Bytes)
  deriving DecidableEq

/-- The rules, the open files by their numbers, and the history. -/
structure HookServer where
  info : K2hFtInfo
  files : OrdMap Nat OpenFile
  log : List HookEvent
  deriving DecidableEq

/-- A call of a hook, with the answers of what it calls outside `K2hFtInfo`. `push` is what
`K2hFtManage::Push` does with the rules; the kernel lets write only through files that are open for
writing. -/
inductive HookCall
  | request (c : Nat) (r : Request) (flags : UInt32) (createEnv : CreateEnv)
  | chmod (path : Bytes) (mode : UInt32) (pfusectx : FuseContext) (now : Option Timespec)
  | chown (path : Bytes) (uid gid : UInt32) (pfusectx : FuseContext) (now : Option Timespec)
  | truncate (path : Bytes) (length : Int) (pfusectx : FuseContext) (now : Option Timespec)
  | write (c : Nat) (buf : Bytes) (push : Bytes → Bytes → Op K2hFtInfo Bool)

/-- The flags ask for more than reading. -/
def isWriting (flags : UInt32) : Bool := flags &&& O_ACCMODE != O_RDONLY

/-- The size of the rule is set to 0 by `TruncateZero`. -/
def truncates (info : K2hFtInfo) (path : Bytes) : Option K2hFtRule :=
  (ruleAt info path).filter fun rule => !S_ISDIR rule.Mode

/-! ## What a change of a rule does -/

/-- The rule that is found is changed unless it is a directory; with the lock and without, the same
rules are looked at. -/
theorem changeFound_eq_ok {path : Bytes} {change : K2hFtRule → Bool × K2hFtRule}
    {info info' : K2hFtInfo} {result : Bool} {unlock : K2hFtInfo → K2hFtInfo}
    (hConfig : ∀ info, (unlock info).Config = info.Config)
    (hRuleMap : ∀ info, (unlock info).RuleMap = info.RuleMap)
    (h : (match info.RuleMap.find? path with
      | some rule => do
          let rule ← info.deref path rule
          if S_ISDIR rule.Mode then
            return (false, unlock info)
          else
            return ((change rule).1, unlock (info.setRule path (change rule).2))
      | none => return (false, unlock info)) = .ok (result, info')) :
    info'.Config = info.Config ∧
      (((info.RuleMap.find? path).filter (fun rule => !S_ISDIR rule.Mode) = none ∧
          info'.RuleMap = info.RuleMap) ∨
        ∃ rule, (info.RuleMap.find? path).filter (fun rule => !S_ISDIR rule.Mode) = some rule ∧
          info'.RuleMap = info.RuleMap.insert path (change rule).2) := by
  cases hfind : info.RuleMap.find? path with
  | none =>
      rw [hfind] at h
      cases h
      exact ⟨hConfig _, .inl ⟨rfl, hRuleMap _⟩⟩
  | some rule =>
      rw [hfind] at h
      rcases bind_eq_ok.1 h with ⟨rule', hderef, hchange⟩
      obtain rfl := deref_eq_ok hderef
      cases hdir : S_ISDIR rule'.Mode with
      | true =>
          rw [if_pos hdir] at hchange
          cases hchange
          exact ⟨hConfig _, .inl ⟨by simp [Option.filter, hdir], hRuleMap _⟩⟩
      | false =>
          rw [if_neg (by simp [hdir])] at hchange
          cases hchange
          refine ⟨hConfig _, .inr ⟨rule', by simp [Option.filter, hdir], ?_⟩⟩
          rw [hRuleMap]
          rfl

/-- `SetMode` and its like change the rule of a file, or nothing. -/
theorem changeRule_eq_ok {takesLock : Bool} {path : Bytes} {change : K2hFtRule → Bool × K2hFtRule}
    {info info' : K2hFtInfo} {result : Bool}
    (h : changeRule takesLock path change info = .ok (result, info')) :
    info'.Config = info.Config ∧
      ((truncates info path = none ∧ info'.RuleMap = info.RuleMap) ∨
        ∃ rule, truncates info path = some rule ∧
          info'.RuleMap = info.RuleMap.insert (stripSlash path) (change rule).2) := by
  unfold changeRule at h
  split at h
  · rename_i hempty
    cases h
    exact ⟨rfl, .inl ⟨by simp [truncates, ruleAt, hempty], rfl⟩⟩
  · rename_i hempty
    split at h
    · rename_i hroot
      cases h
      exact ⟨rfl, .inl ⟨by simp [truncates, ruleAt, hroot], rfl⟩⟩
    · rename_i hroot
      split at h
      · rename_i hload
        cases h
        refine ⟨rfl, .inl ⟨?_, rfl⟩⟩
        rw [truncates, ruleAt, if_pos (.inr (.inr (by simpa using hload)))]
        rfl
      · rename_i hload
        have hloaded : info.isLoad = true := by simpa using hload
        have hat : ruleAt info path = info.RuleMap.find? (stripSlash path) := by
          rw [ruleAt, if_neg]
          simp [hempty, hroot, hloaded]
        unfold truncates
        rw [hat]
        cases takesLock with
        | true =>
            rcases bind_eq_ok.1 h with ⟨info₁, hlock, hfound⟩
            rcases lock_eq_ok hlock with ⟨-, rfl⟩
            exact @changeFound_eq_ok _ _ info.locked _ _ unlock (fun _ => rfl) (fun _ => rfl) hfound
        | false =>
            exact @changeFound_eq_ok _ _ _ _ _ id (fun _ => rfl) (fun _ => rfl) h

/-- `h2htpfs_truncate` sets the size of the rule to 0 that `truncates` tells, or changes nothing; a size
other than 0 is refused before the rules are looked at. -/
theorem h2htpfsTruncate_eq_ok {now : Option Timespec} {path : Bytes} {length : Int}
    {info info' : K2hFtInfo} {result : Int}
    (h : h2htpfsTruncate now path length info = .ok (result, info')) :
    info'.Config = info.Config ∧
      (((if length = 0 then truncates info path else none) = none ∧ info'.RuleMap = info.RuleMap) ∨
        ∃ rule, (if length = 0 then truncates info path else none) = some rule ∧
          info'.RuleMap = info.RuleMap.insert (stripSlash path)
            (touch now { rule with AccumSize := 0 }).2) := by
  unfold h2htpfsTruncate at h
  by_cases hzero : length = 0
  · rw [if_neg (not_not.2 hzero)] at h
    rcases bind_eq_ok.1 h with ⟨⟨result', info₁⟩, hchange, hreturn⟩
    cases hreturn
    rw [if_pos hzero]
    exact changeRule_eq_ok hchange
  · rw [if_pos hzero] at h
    cases h
    rw [if_neg hzero]
    exact ⟨rfl, .inl ⟨rfl, rfl⟩⟩

namespace HookServer

def start (info : K2hFtInfo) : HookServer :=
  { info := info
    files := ∅
    log := [] }

/-- The hook has given back `fi->fh`. -/
def addFile (s : HookServer) (c : Nat) (f : OpenFile) (info : K2hFtInfo) : HookServer :=
  { info := info
    files := s.files.insert c f
    log := s.log ++ [.opened f] }

def step (env : FuseEnv) (s : HookServer) : HookCall → Option HookServer
  | .request c r flags createEnv =>
      match serve env createEnv r s.info with
      | .ok (.returned _ result fh, info) =>
          if result = 0 then
            some (s.addFile c
              { path := r.path
                pfusectx := r.pfusectx
                writing := isWriting flags
                found := ruleAt s.info r.path
                fh := fh } info)
          else
            some { s with info := info }
      | _ => none
  | .chmod path mode pfusectx now =>
      match h2htpfsChmod env now path mode pfusectx s.info with
      | .ok (_, info) => some { s with info := info }
      | .error _ => none
  | .chown path uid gid pfusectx now =>
      match h2htpfsChown env now path uid gid pfusectx s.info with
      | .ok (_, info) => some { s with info := info }
      | .error _ => none
  | .truncate path length pfusectx now =>
      match h2htpfsTruncate now path length s.info with
      | .ok (_, info) =>
          -- the rule whose size was set to 0, by `h2htpfsTruncate_eq_ok`
          match if length = 0 then truncates s.info path else none with
          | some rule =>
              some { s with info := info, log := s.log ++ [.truncated path pfusectx rule] }
          | none => some { s with info := info }
      | .error _ => none
  | .write c buf push =>
      match s.files.find? c with
      | none => none
      | some f =>
          if f.writing then
            match f.fh with
            -- `fi->fh` is 0, and the write fails before `Push`
            | none => some s
            | some handle =>
                match push buf handle s.info with
                | .ok (_, info) => some { s with info := info, log := s.log ++ [.accepted f buf] }
                | .error _ => none
          else
            none

end HookServer

/-! ## Who may write -/

/-- `check_permission_access` with `W_OK` on a rule. -/
def grantsWrite (env : FuseEnv) (pfusectx : FuseContext) (rule : K2hFtRule) : Bool :=
  checkPermissionAccess env.isGidIncludeIds W_OK (rule.stat env.pagesize) pfusectx.uid
    pfusectx.gid == 0

/-- What happened was allowed by the file that was there. -/
def HookEvent.Granted (env : FuseEnv) : HookEvent → Prop
  | .opened f =>
      f.writing = true → ∀ rule, f.found = some rule → grantsWrite env f.pfusectx rule = true
  | .truncated _ pfusectx rule => grantsWrite env pfusectx rule = true
  | .accepted f _ => ∀ rule, f.found = some rule → grantsWrite env f.pfusectx rule = true

/-- The parent directory is there, and it lets the caller search. -/
def parentLets (env : FuseEnv) (info : K2hFtInfo) (path : Bytes) (pfusectx : FuseContext) : Bool :=
  match getParentDirpath path with
  | none => false
  | some parentpath =>
      match findPath env.pagesize parentpath info with
      | .ok (some parent_stbuf, _) =>
          checkPermissionAccess env.isGidIncludeIds X_OK parent_stbuf pfusectx.uid pfusectx.gid == 0
      | _ => false

instance instDecidableGranted (env : FuseEnv) : ∀ e : HookEvent, Decidable (e.Granted env)
  | .opened f =>
      inferInstanceAs (Decidable
        (f.writing = true → ∀ rule ∈ f.found, grantsWrite env f.pfusectx rule = true))
  | .truncated _ pfusectx rule =>
      inferInstanceAs (Decidable (grantsWrite env pfusectx rule = true))
  | .accepted f _ =>
      inferInstanceAs (Decidable (∀ rule ∈ f.found, grantsWrite env f.pfusectx rule = true))

namespace HookServer

/-- Nobody opened a file for writing, truncated it or wrote to it against its mode. -/
def WriteEnforced (env : FuseEnv) (s : HookServer) : Prop := ∀ e ∈ s.log, e.Granted env

/-- A file that is there is opened for writing, or truncated, only by callers that its mode lets
write, unless the parent directory keeps them out of an open. -/
def Checked (env : FuseEnv) (s : HookServer) : HookCall → Prop
  | .request _ r flags _ =>
      r.kind = .openFile → isWriting flags = true → parentLets env s.info r.path r.pfusectx = true →
        ∀ rule, truncates s.info r.path = some rule → grantsWrite env r.pfusectx rule = true
  | .truncate path length pfusectx _ =>
      length = 0 → ∀ rule, truncates s.info path = some rule → grantsWrite env pfusectx rule = true
  | _ => True

instance instDecidableChecked (env : FuseEnv) (s : HookServer) :
    ∀ call, Decidable (Checked env s call)
  | .request _ r flags _ =>
      inferInstanceAs (Decidable (r.kind = .openFile → isWriting flags = true →
        parentLets env s.info r.path r.pfusectx = true →
          ∀ rule ∈ truncates s.info r.path, grantsWrite env r.pfusectx rule = true))
  | .truncate path length pfusectx _ =>
      inferInstanceAs (Decidable (length = 0 →
        ∀ rule ∈ truncates s.info path, grantsWrite env pfusectx rule = true))
  | .chmod _ _ _ _ => .isTrue trivial
  | .chown _ _ _ _ _ => .isTrue trivial
  | .write _ _ _ => .isTrue trivial

end HookServer

/-! ## What a hook sees of a rule -/

theorem ruleAt_eq_some {info : K2hFtInfo} {path : Bytes} {rule : K2hFtRule}
    (h : ruleAt info path = some rule) :
    Registered info path ∧ info.RuleMap.find? (stripSlash path) = some rule := by
  unfold ruleAt at h
  split at h
  · cases h
  · rename_i hpath
    simp only [not_or, Bool.not_eq_false] at hpath
    exact ⟨⟨hpath.1, hpath.2.1, hpath.2.2, by simp [h]⟩, h⟩

/-- `FindPath` gives the attributes of the rule. -/
theorem findPath_of_ruleAt {info info' : K2hFtInfo} {pagesize : Nat} {path : Bytes}
    {rule : K2hFtRule} (hrule : ruleAt info path = some rule) {stbuf : Option Stat}
    (h : findPath pagesize path info = .ok (stbuf, info')) :
    stbuf = some (rule.stat pagesize) ∧ info' = info ∧ info.prule_lockval = false := by
  rcases ruleAt_eq_some hrule with ⟨hreg, hfind⟩
  have hentry : findEntry (stripSlash path) info.RuleMap.entries =
      some (.entry (stripSlash path) rule) := findEntry_of_lookup info.RuleMap.sorted hfind
  have hsame := findPath_eq_ok h
  unfold findPath at h
  simp only [if_neg hreg.notEmpty, if_neg hreg.notRoot, hreg.loaded, Bool.not_true,
    Bool.false_eq_true, if_false] at h
  rcases bind_eq_ok.1 h with ⟨info₁, hlock, hrest⟩
  rcases lock_eq_ok hlock with ⟨hfree, rfl⟩
  simp only [locked_RuleMap, hentry, locked_deref] at hrest
  rcases bind_eq_ok.1 hrest with ⟨rule', hderef, hfound⟩
  obtain rfl := deref_eq_ok hderef
  cases hfound
  exact ⟨rfl, hsame, hfree⟩

/-- The parent directory decides for a file that has a handle. -/
theorem callParent_of_handle {env : FuseEnv} {r : Request} {key : Bytes} {info info' : K2hFtInfo}
    {phase : RequestPhase}
    (h : (toParent r (some key)).callParent env info = .ok (phase, info')) :
    info' = info ∧ ∃ result fh, phase = .returned r result fh ∧
      (result = 0 ↔ parentLets env info r.path r.pfusectx = true) := by
  rcases hdir : getParentDirpath r.path with _ | parentpath
  · simp only [toParent, hdir, RequestPhase.callParent, pure, Except.pure, Except.ok.injEq,
      Prod.mk.injEq] at h
    exact ⟨h.2.symm, -EACCES, none, h.1.symm, by simp [EACCES, parentLets, hdir]⟩
  · simp only [toParent, hdir, RequestPhase.callParent] at h
    rcases bind_eq_ok.1 h with ⟨⟨parent_stbuf, info₁⟩, hparent, hresult⟩
    cases hresult
    have hsame := findPath_eq_ok hparent
    refine ⟨hsame, ?_⟩
    rcases parent_stbuf with _ | parent_stbuf
    · exact ⟨-ENOENT, none, rfl, by simp [ENOENT, parentLets, hdir, hparent]⟩
    · simp only [afterParent]
      split
      · rename_i hrefuse
        exact ⟨_, none, rfl, by simp [parentLets, hdir, hparent]⟩
      · rename_i hlet
        rw [ne_eq, not_not] at hlet
        exact ⟨0, some key, rfl, by simp [parentLets, hdir, hparent, hlet]⟩

/-- A request for a rule that is there ends with success exactly for an open of a file whose parent
directory lets the caller search. -/
theorem serve_of_ruleAt {env : FuseEnv} {createEnv : CreateEnv} {r : Request}
    {info info' : K2hFtInfo} {rule : K2hFtRule} (hrule : ruleAt info r.path = some rule)
    {phase : RequestPhase} (h : serve env createEnv r info = .ok (phase, info')) :
    ∃ result fh, phase = .returned r result fh ∧
      (result = 0 ↔ r.kind = .openFile ∧ S_ISDIR rule.Mode = false ∧
        parentLets env info r.path r.pfusectx = true) := by
  unfold serve at h
  rcases bind_eq_ok.1 h with ⟨⟨stbuf, info₁⟩, hfind, hcalls⟩
  obtain ⟨rfl, rfl, hfree⟩ := findPath_of_ruleAt hrule hfind
  have hmode : (rule.stat env.pagesize).st_mode = rule.Mode := rfl
  simp only [afterFindPath, hmode] at hcalls
  cases hdir : S_ISDIR rule.Mode with
  | true =>
      -- `EISDIR`, and no further call
      simp only [hdir, if_true, RequestPhase.callHandle, RequestPhase.callParent,
        RequestPhase.callCreate, Bind.bind, Except.bind, pure, Except.pure, Except.ok.injEq,
        Prod.mk.injEq] at hcalls
      exact ⟨_, _, hcalls.1.symm, by simp [EISDIR]⟩
  | false =>
      cases hkind : r.kind with
      | create mode =>
          -- `EEXIST`, and no further call
          simp only [hdir, hkind, Bool.false_eq_true, if_false, RequestPhase.callHandle,
            RequestPhase.callParent, RequestPhase.callCreate, Bind.bind, Except.bind, pure,
            Except.pure, Except.ok.injEq, Prod.mk.injEq] at hcalls
          exact ⟨_, _, hcalls.1.symm, by simp [EEXIST]⟩
      | openFile =>
          -- the file has a handle, so the parent directory has the last word
          have hhandle := getFileHandle_of_registered (ruleAt_eq_some hrule).1 hfree
          simp only [hdir, hkind, Bool.false_eq_true, if_false, RequestPhase.callHandle,
            hhandle] at hcalls
          rcases bind_eq_ok.1 hcalls with ⟨_, hhandle', hcalls⟩
          cases hhandle'
          rcases bind_eq_ok.1 hcalls with ⟨⟨phase', info₂⟩, hparent, hcreate⟩
          rcases callParent_of_handle hparent with ⟨rfl, result, fh, rfl, hresult⟩
          cases hcreate
          exact ⟨result, fh, rfl, by simpa using hresult⟩

theorem truncates_eq_some {info : K2hFtInfo} {path : Bytes} {rule : K2hFtRule} :
    truncates info path = some rule ↔ ruleAt info path = some rule ∧ S_ISDIR rule.Mode = false := by
  unfold truncates
  rw [Option.filter_eq_some_iff]
  simp

/-! ## Runs -/

namespace HookServer

variable {env : FuseEnv} {s t : HookServer}

/-- An open file was opened. -/
def Inv (s : HookServer) : Prop := ∀ c f, s.files.find? c = some f → .opened f ∈ s.log

/-- What a step does: it opens a file, truncates one, has bytes taken, or adds nothing to the
history. -/
theorem step_eq_some {call : HookCall} (h : step env s call = some t) :
    (∃ c r flags createEnv r' fh info', call = .request c r flags createEnv ∧
      serve env createEnv r s.info = .ok (.returned r' 0 fh, info') ∧
      t = s.addFile c
        { path := r.path
          pfusectx := r.pfusectx
          writing := isWriting flags
          found := ruleAt s.info r.path
          fh := fh } info') ∨
    (∃ path pfusectx now rule, call = .truncate path 0 pfusectx now ∧
      truncates s.info path = some rule ∧
      t.log = s.log ++ [.truncated path pfusectx rule] ∧ t.files = s.files) ∨
    (∃ c buf push f, call = .write c buf push ∧ s.files.find? c = some f ∧ f.writing = true ∧
      t.log = s.log ++ [.accepted f buf] ∧ t.files = s.files) ∨
    (t.log = s.log ∧ t.files = s.files ∧
      (∀ c r flags createEnv, call = .request c r flags createEnv →
        ∃ r' result fh info', serve env createEnv r s.info = .ok (.returned r' result fh, info') ∧
          result ≠ 0) ∧
      ∀ path pfusectx now, call = .truncate path 0 pfusectx now →
        truncates s.info path = none) := by
  cases call with
  | request c r flags createEnv =>
      simp only [step] at h
      split at h
      · rename_i r' result fh info' hserve
        split at h
        · rename_i hzero
          subst hzero
          exact .inl ⟨c, r, flags, createEnv, r', fh, info', rfl, hserve, (Option.some.inj h).symm⟩
        · -- a refused request opens nothing
          rename_i hresult
          obtain rfl := Option.some.inj h
          refine .inr (.inr (.inr ⟨rfl, rfl, ?_, by simp⟩))
          rintro _ _ _ _ ⟨⟩
          exact ⟨r', result, fh, info', hserve, hresult⟩
      · cases h
  | chmod path mode pfusectx now =>
      simp only [step] at h
      split at h
      · obtain rfl := Option.some.inj h
        exact .inr (.inr (.inr ⟨rfl, rfl, by simp, by simp⟩))
      · cases h
  | chown path uid gid pfusectx now =>
      simp only [step] at h
      split at h
      · obtain rfl := Option.some.inj h
        exact .inr (.inr (.inr ⟨rfl, rfl, by simp, by simp⟩))
      · cases h
  | truncate path length pfusectx now =>
      simp only [step] at h
      split at h
      · by_cases hzero : length = 0
        · subst hzero
          rw [if_pos rfl] at h
          rcases hrule : truncates s.info path with _ | rule
          · rw [hrule] at h
            obtain rfl := Option.some.inj h
            refine .inr (.inr (.inr ⟨rfl, rfl, by simp, ?_⟩))
            rintro _ _ _ ⟨⟩
            exact hrule
          · rw [hrule] at h
            obtain rfl := Option.some.inj h
            exact .inr (.inl ⟨path, pfusectx, now, rule, rfl, hrule, rfl, rfl⟩)
        · rw [if_neg hzero] at h
          obtain rfl := Option.some.inj h
          refine .inr (.inr (.inr ⟨rfl, rfl, by simp, ?_⟩))
          rintro _ _ _ ⟨⟩
          exact absurd rfl hzero
      · cases h
  | write c buf push =>
      simp only [step] at h
      rcases hfile : s.files.find? c with _ | f
      · simp [hfile] at h
      · simp only [hfile] at h
        split at h
        · rename_i hwriting
          split at h
          · -- without a handle nothing is pushed
            obtain rfl := Option.some.inj h
            exact .inr (.inr (.inr ⟨rfl, rfl, by simp, by simp⟩))
          · split at h
            · obtain rfl := Option.some.inj h
              exact .inr (.inr (.inl ⟨c, buf, push, f, rfl, hfile, hwriting, rfl, rfl⟩))
            · cases h
        · cases h

theorem inv_step {call : HookCall} (hinv : Inv s) (h : step env s call = some t) : Inv t := by
  rcases step_eq_some h with ⟨c, r, flags, createEnv, r', fh, info', -, -, rfl⟩ |
    ⟨path, pfusectx, now, rule, -, -, hlog, hfiles⟩ | ⟨c, buf, push, f, -, -, -, hlog, hfiles⟩ |
    ⟨hlog, hfiles, -⟩
  · intro c' f hf
    simp only [addFile, OrdMap.find?_insert] at hf ⊢
    split at hf
    · -- the file that was opened just now
      rw [← Option.some.inj hf]
      simp
    · exact List.mem_append_left _ (hinv c' f hf)
  · intro c' f' hf
    rw [hfiles] at hf
    rw [hlog]
    exact List.mem_append_left _ (hinv c' f' hf)
  · intro c' f' hf
    rw [hfiles] at hf
    rw [hlog]
    exact List.mem_append_left _ (hinv c' f' hf)
  · intro c' f' hf
    rw [hfiles] at hf
    rw [hlog]
    exact hinv c' f' hf

theorem writeEnforced_append {log : List HookEvent} {e : HookEvent} (h : t.log = log ++ [e]) :
    WriteEnforced env t ↔ (∀ e ∈ log, e.Granted env) ∧ e.Granted env := by
  rw [WriteEnforced, h, List.forall_mem_append, List.forall_mem_singleton]

/-- The step lemma. -/
theorem enforced_step {call : HookCall} (hinv : Inv s) (h : step env s call = some t) :
    WriteEnforced env t ↔ WriteEnforced env s ∧ Checked env s call := by
  rcases step_eq_some h with ⟨c, r, flags, createEnv, r', fh, info', rfl, hserve, rfl⟩ |
    ⟨path, pfusectx, now, rule, rfl, hrule, hlog, -⟩ |
    ⟨c, buf, push, f, rfl, hfile, hwriting, hlog, -⟩ | ⟨hlog, -, hrefused, hnone⟩
  · -- opened: the success of the request tells what the parent directory said
    rw [writeEnforced_append (e := .opened _) rfl]
    refine and_congr_right fun _ => ?_
    constructor
    · intro hgranted _ hwriting _ rule hrule
      exact hgranted hwriting rule (truncates_eq_some.1 hrule).1
    · intro hchecked hwriting rule hrule
      rcases serve_of_ruleAt hrule hserve with ⟨result, fh', hphase, hresult⟩
      cases hphase
      rcases hresult.1 rfl with ⟨hkind, hfile, hlets⟩
      exact hchecked hkind hwriting hlets rule (truncates_eq_some.2 ⟨hrule, hfile⟩)
  · -- truncated: the rule that was there is the one that the condition speaks of
    rw [writeEnforced_append hlog]
    refine and_congr_right fun _ => ?_
    constructor
    · intro hgranted _ rule' hrule'
      rw [hrule, Option.some.injEq] at hrule'
      rw [← hrule']
      exact hgranted
    · intro hchecked
      exact hchecked rfl rule hrule
  · -- accepted: the file was opened for writing, and that was allowed
    rw [writeEnforced_append hlog]
    refine and_congr_right fun henforced => ?_
    refine iff_of_true ?_ trivial
    exact henforced _ (hinv c f hfile) hwriting
  · -- nothing happened: an open that the condition speaks of would not have been refused
    have hsame : WriteEnforced env t ↔ WriteEnforced env s := by
      unfold WriteEnforced
      rw [hlog]
    rw [hsame]
    refine (and_iff_left ?_).symm
    cases call with
    | request c r flags createEnv =>
        intro hkind _ hlets rule hrule
        rcases truncates_eq_some.1 hrule with ⟨hat, hfile⟩
        rcases hrefused c r flags createEnv rfl with ⟨r', result, fh, info', hserve, hresult⟩
        rcases serve_of_ruleAt hat hserve with ⟨result', fh', hphase, hiff⟩
        cases hphase
        exact absurd (hiff.2 ⟨hkind, hfile, hlets⟩) hresult
    | truncate path length pfusectx now =>
        rintro rfl rule hrule
        rw [hnone path pfusectx now rfl] at hrule
        cases hrule
    | chmod path mode pfusectx now => trivial
    | chown path uid gid pfusectx now => trivial
    | write c buf push => trivial

/-- The run lemma. -/
theorem enforced_run {calls : List HookCall} (hinv : Inv s)
    (hrun : run (step env) s calls = some t) :
    WriteEnforced env t ↔ WriteEnforced env s ∧ Guarded (step env) (Checked env) s calls := by
  refine run_iff_guarded ?_ ?_ hinv hrun
  · intro s call s' hs hstep
    exact inv_step hs hstep
  · intro s call s' hs hstep
    exact enforced_step hs hstep

/-- In every run of hooks, writing was enforced exactly when no file was opened for writing, through
a parent directory that lets the caller search, and none truncated, by a caller whom the file's own
mode does not let write. -/
theorem hooks_enforce_iff (env : FuseEnv) (info : K2hFtInfo) {calls : List HookCall}
    {s : HookServer} (hrun : run (step env) (start info) calls = some s) :
    WriteEnforced env s ↔ Guarded (step env) (Checked env) (start info) calls := by
  have hinv : Inv (start info) := by
    intro c f hf
    simp [start] at hf
  have hstart : WriteEnforced env (start info) := by
    intro e he
    cases he
  rw [enforced_run hinv hrun]
  simp [hstart]

/-- `/log/a` is made by user 1000 with mode 0600, then opened, written and truncated by user `uid`. -/
def privateFile (uid : UInt32) : List HookCall :=
  let creator : FuseContext := { uid := 1000, gid := 1000, umask := 0 }
  let other : FuseContext := { uid := uid, gid := uid, umask := 0 }
  [.request 1 { kind := .create 0o600, path := ascii "/log/a", pfusectx := creator } 1
      FuseServer.noPlugin,
    .request 2 { kind := .openFile, path := ascii "/log/a", pfusectx := other } 1
      FuseServer.noPlugin,
    .write 2 [120] fun _ _ info => .ok (true, info),
    .truncate (ascii "/log/a") 0 other none]

theorem hooks_enforce_iff_owner :
    ∃ s, run (step ⟨4096, fun _ _ _ => false⟩) (start FuseServer.logDirectory) (privateFile 1000) =
        some s ∧ s.log.length = 4 ∧ WriteEnforced ⟨4096, fun _ _ _ => false⟩ s := by
  have hrun : (run (step ⟨4096, fun _ _ _ => false⟩) (start FuseServer.logDirectory)
      (privateFile 1000)).map (fun s => s.log.length) = some 4 := by
    decide +kernel
  rcases Option.map_eq_some_iff.1 hrun with ⟨s, hs, hlength⟩
  have hguard : Guarded (step ⟨4096, fun _ _ _ => false⟩) (Checked ⟨4096, fun _ _ _ => false⟩)
      (start FuseServer.logDirectory) (privateFile 1000) := by
    decide +kernel
  exact ⟨s, hs, hlength, (hooks_enforce_iff _ _ hs).2 hguard⟩

/-- User 1001 is let in, its bytes are taken and the size is set to 0. -/
theorem private_file_written :
    ∃ s, run (step ⟨4096, fun _ _ _ => false⟩) (start FuseServer.logDirectory) (privateFile 1001) =
        some s ∧ s.log.length = 4 ∧ ¬ WriteEnforced ⟨4096, fun _ _ _ => false⟩ s := by
  have hrun : (run (step ⟨4096, fun _ _ _ => false⟩) (start FuseServer.logDirectory)
      (privateFile 1001)).map (fun s =>
        (s.log.length, s.log.all fun e => decide (e.Granted ⟨4096, fun _ _ _ => false⟩))) =
      some (4, false) := by
    decide +kernel
  rcases Option.map_eq_some_iff.1 hrun with ⟨s, hs, hresult⟩
  obtain ⟨hlength, hgranted⟩ := Prod.mk.inj hresult
  refine ⟨s, hs, hlength, ?_⟩
  intro henforced
  have hall : (s.log.all fun e => decide (e.Granted ⟨4096, fun _ _ _ => false⟩)) = true :=
    List.all_eq_true.2 fun e he => decide_eq_true (henforced e he)
  rw [hall] at hgranted
  cases hgranted

end HookServer

end K2hFtFuse

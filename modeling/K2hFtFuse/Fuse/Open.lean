import K2hFtFuse.Info.Ops
import K2hFtFuse.Lib.Transition

/-!
# Fuse.Open — requests of `h2htpfs_open` and `h2htpfs_create`, interleaved

Each request calls operations of `K2hFtInfo` one after the other, and between two calls other
requests come in. A step is one such call with what the request does up to its next call. A call
that spins or faults gives no step.
-/

namespace K2hFtFuse

open ByteSeq SpinLock Transition K2hFtInfo Outcome

/-! ## Permissions -/

def F_OK : UInt32 := 0
def X_OK : UInt32 := 1
def W_OK : UInt32 := 2
def R_OK : UInt32 := 4

def EPERM : Int := 1
def ENOENT : Int := 2
def EIO : Int := 5
def EACCES : Int := 13
def EEXIST : Int := 17
def EISDIR : Int := 21

/-- What one of the masks needs: the bits of the owner, the group and the others, and whether root
is allowed without them. -/
def permitted (isGidInclude : Bool) (usr grp oth : UInt32) (root : Bool) (stbuf : Stat)
    (exec_uid : UInt32) : Bool :=
  root || (stbuf.st_mode &&& usr == usr && exec_uid == stbuf.st_uid) ||
    (stbuf.st_mode &&& grp == grp && isGidInclude) || stbuf.st_mode &&& oth == oth

/-- `check_permission_raw`; `isGidIncludeIds` is `is_gid_include_ids`, which asks the databases of
users and groups. -/
def checkPermissionRaw (isGidIncludeIds : UInt32 → UInt32 → UInt32 → Bool) (mask : UInt32)
    (stbuf : Stat) (exec_uid exec_gid : UInt32) : Bool :=
  let isGidInclude := isGidIncludeIds stbuf.st_gid exec_uid exec_gid
  if mask = R_OK then
    permitted isGidInclude 0o400 0o040 0o004 (exec_uid == 0) stbuf exec_uid
  else if mask = W_OK then
    permitted isGidInclude 0o200 0o020 0o002 (exec_uid == 0) stbuf exec_uid
  else if mask = X_OK then
    -- root needs the bit of the owner
    permitted isGidInclude 0o100 0o010 0o001 (stbuf.st_mode &&& 0o100 == 0o100 && exec_uid == 0)
      stbuf exec_uid
  else
    false

/-- `check_permission_access`. -/
def checkPermissionAccess (isGidIncludeIds : UInt32 → UInt32 → UInt32 → Bool) (mask : UInt32)
    (stbuf : Stat) (exec_uid exec_gid : UInt32) : Int :=
  if mask = F_OK then
    0
  else if mask &&& R_OK = R_OK ∧
      checkPermissionRaw isGidIncludeIds R_OK stbuf exec_uid exec_gid = false then
    -EACCES
  else if mask &&& W_OK = W_OK ∧
      checkPermissionRaw isGidIncludeIds W_OK stbuf exec_uid exec_gid = false then
    -EACCES
  else if mask &&& X_OK = X_OK ∧
      checkPermissionRaw isGidIncludeIds X_OK stbuf exec_uid exec_gid = false then
    -EPERM
  else
    0

/-! ## Requests -/

/-- `struct fuse_context`. -/
structure FuseContext where
  uid : UInt32
  gid : UInt32
  umask : UInt32
  deriving DecidableEq

inductive RequestKind
  | openFile
  | create (mode : UInt32)
  deriving DecidableEq

/-- A call of `h2htpfs_open` or `h2htpfs_create`. -/
structure Request where
  kind : RequestKind
  path : Bytes
  pfusectx : FuseContext
  deriving DecidableEq

/-- The mode that `CreateFile` is called with. -/
def Request.mode (r : Request) : UInt32 :=
  match r.kind with
  | .openFile => (0o666 &&& ~~~r.pfusectx.umask) ||| S_IFREG
  | .create mode => mode

/-- Where a request stands: before its call of `GetFileHandle`, of `FindPath` for the parent
directory, of `CreateFile`; or it has returned. `file_handle` and `fh` are handles, 0 is `none`. -/
inductive RequestPhase
  | idle
  | handle (r : Request)
  | parent (r : Request) (parentpath : Bytes) (file_handle : Option Bytes)
  | creating (r : Request)
  | returned (r : Request) (result : Int) (fh : Option Bytes)
  deriving DecidableEq

/-- What does not change while requests are served. -/
structure FuseEnv where
  pagesize : Nat
  isGidIncludeIds : UInt32 → UInt32 → UInt32 → Bool

/-- On to the check of the parent directory. -/
def toParent (r : Request) (file_handle : Option Bytes) : RequestPhase :=
  match getParentDirpath r.path with
  | none => .returned r (-EACCES) none
  | some parentpath => .parent r parentpath file_handle

/-- After `FindPath` for the path of the request. -/
def afterFindPath (r : Request) (stbuf : Option Stat) : RequestPhase :=
  match stbuf with
  | none => toParent r none
  | some stbuf =>
      if S_ISDIR stbuf.st_mode then
        .returned r (-EISDIR) none
      else
        match r.kind with
        | .openFile => .handle r
        | .create _ => .returned r (-EEXIST) none

/-- After `FindPath` for the parent directory. -/
def afterParent (env : FuseEnv) (r : Request) (file_handle : Option Bytes)
    (parent_stbuf : Option Stat) : RequestPhase :=
  match parent_stbuf with
  | none => .returned r (-ENOENT) none
  | some parent_stbuf =>
      let access := fun mask =>
        checkPermissionAccess env.isGidIncludeIds mask parent_stbuf r.pfusectx.uid r.pfusectx.gid
      if access X_OK ≠ 0 then
        .returned r (access X_OK) none
      else if file_handle ≠ none then
        -- only `h2htpfs_open` gets here with a handle
        .returned r 0 file_handle
      else if access W_OK ≠ 0 then
        .returned r (access W_OK) none
      else
        .creating r

/-- After `CreateFile`; `h2htpfs_create` has passed `fi->fh` itself. -/
def afterCreateFile (r : Request) (answer : Bool × Option Bytes) : RequestPhase :=
  if answer.1 then
    .returned r 0 answer.2
  else
    match r.kind with
    | .openFile => .returned r (- EIO) none
    | .create _ => .returned r (- EIO) answer.2

/-- `h2htpfs_write`; `push` is the result of `K2hFtManage::Push`. -/
def h2htpfsWrite (push : Bytes → Bytes → Bool) (buf : Bytes) (fh : Option Bytes) : Int :=
  match fh with
  | none => - EIO
  | some handle => if push buf handle then buf.length else - EIO

/-! ## Steps -/

/-- The rules and where every request stands. -/
structure FuseServer where
  info : K2hFtInfo
  requests : OrdMap Nat RequestPhase
  deriving DecidableEq

/-- A step of request `c`; `CreateFile` comes with the outcomes of the calls that it makes. -/
inductive ServeLabel
  | findPath (c : Nat) (r : Request)
  | getFileHandle (c : Nat)
  | findParent (c : Nat)
  | createFile (c : Nat) (env : CreateEnv)

namespace FuseServer

/-- No request has come in. -/
def start (info : K2hFtInfo) : FuseServer :=
  { info := info
    requests := ∅ }

def phaseOf (s : FuseServer) (c : Nat) : RequestPhase := (s.requests.find? c).getD .idle

/-- Request `c` calls an operation, and goes on to what its answer asks for. -/
def call {α : Type} (s : FuseServer) (c : Nat) (op : Op K2hFtInfo α) (next : α → RequestPhase) :
    Option FuseServer :=
  match op s.info with
  | .error _ => none
  | .ok (answer, info) => some { info := info, requests := s.requests.insert c (next answer) }

def step (env : FuseEnv) (s : FuseServer) : ServeLabel → Option FuseServer
  | .findPath c r =>
      match s.phaseOf c with
      | .idle => s.call c (K2hFtInfo.findPath env.pagesize r.path) (afterFindPath r)
      | _ => none
  | .getFileHandle c =>
      match s.phaseOf c with
      | .handle r => s.call c (K2hFtInfo.getFileHandle r.path) (toParent r)
      | _ => none
  | .findParent c =>
      match s.phaseOf c with
      | .parent r parentpath file_handle =>
          s.call c (K2hFtInfo.findPath env.pagesize parentpath) (afterParent env r file_handle)
      | _ => none
  | .createFile c createEnv =>
      match s.phaseOf c with
      | .creating r =>
          s.call c (K2hFtInfo.createFile createEnv r.path r.mode r.pfusectx.uid r.pfusectx.gid none)
            (afterCreateFile r)
      | _ => none

/-- `handle` is not 0, and `GetFileHandle` gives it for the path as soon as the lock is free. -/
def IsHandleOf (info : K2hFtInfo) (path : Bytes) (handle : Option Bytes) : Prop :=
  handle ≠ none ∧ K2hFtInfo.getFileHandle path info.unlock = .ok (handle, info.unlock)

/-- Whoever was told success has the handle of its path. -/
def Usable (s : FuseServer) : Prop :=
  ∀ c r fh, s.phaseOf c = .returned r 0 fh → IsHandleOf s.info r.path fh

/-- The step is not a `CreateFile` for a path that is in the map of a loaded configuration. -/
def CreatesFresh (s : FuseServer) : ServeLabel → Prop
  | .createFile c _ =>
      match s.phaseOf c with
      | .creating r => s.info.isLoad = true → s.info.RuleMap.find? (stripSlash r.path) = none
      | _ => True
  | _ => True

instance instDecidableCreatesFresh (s : FuseServer) : ∀ l, Decidable (CreatesFresh s l)
  | .findPath _ _ => .isTrue trivial
  | .getFileHandle _ => .isTrue trivial
  | .findParent _ => .isTrue trivial
  | .createFile c _ => by
      unfold CreatesFresh
      dsimp only
      split <;> infer_instance

end FuseServer

/-! ## What the operations do to the map -/

/-- `path` is in the map, and the operations that take a path get to it. -/
structure Registered (info : K2hFtInfo) (path : Bytes) : Prop where
  notEmpty : path ≠ []
  notRoot : path ≠ ascii "/"
  loaded : info.isLoad = true
  entry : (info.RuleMap.find? (stripSlash path)).isSome = true

/-- The configuration is the same, and no entry is gone. -/
structure Grows (info info' : K2hFtInfo) : Prop where
  Config : info'.Config = info.Config
  entry : ∀ key, (info.RuleMap.find? key).isSome = true → (info'.RuleMap.find? key).isSome = true

theorem Grows.refl (info : K2hFtInfo) : Grows info info := ⟨rfl, fun _ h => h⟩

theorem Registered.of_grows {info info' : K2hFtInfo} {path : Bytes} (h : Registered info path)
    (hgrows : Grows info info') : Registered info' path :=
  ⟨h.notEmpty, h.notRoot, by simpa [isLoad, hgrows.Config] using h.loaded, hgrows.entry _ h.entry⟩

/-- The search ends at the key that is the path. -/
theorem findHandle_eq (path : Bytes) (entries : List (Bytes × K2hFtRule)) :
    findHandle path entries = (AssocList.lookup entries path).map fun _ => path := by
  induction entries with
  | nil =>
      rfl
  | cons e rest ih =>
      rcases e with ⟨key, rule⟩
      simp only [findHandle, AssocList.lookup, ih]
      by_cases hkey : path = key
      · subst hkey
        simp
      · rw [if_neg hkey]
        by_cases hpre : path.isPrefixOf key = true
        · have hlen : key.length ≠ path.length := by
            intro hlen
            exact hkey ((List.isPrefixOf_iff_prefix.1 hpre).eq_of_length hlen.symm)
          simp [hpre, hlen]
        · simp [hpre]

theorem getFileHandle_eq_ok {info info' : K2hFtInfo} {path : Bytes} {handle : Option Bytes}
    (h : getFileHandle path info = .ok (handle, info')) :
    info' = info ∧ ∀ key, handle = some key → key = stripSlash path ∧ Registered info path := by
  unfold getFileHandle at h
  split at h
  · cases h
    exact ⟨rfl, by simp⟩
  · rename_i hempty
    split at h
    · cases h
      exact ⟨rfl, by simp⟩
    · rename_i hroot
      split at h
      · cases h
        exact ⟨rfl, by simp⟩
      · rename_i hload
        rcases bind_eq_ok.1 h with ⟨info₁, hlock, hresult⟩
        rcases lock_eq_ok hlock with ⟨hfree, rfl⟩
        simp only [pure, Except.pure, locked_RuleMap, locked_unlock, unlock_of_free hfree,
          findHandle_eq] at hresult
        rcases hfind : AssocList.lookup info.RuleMap.entries (stripSlash path) with _ | rule
        · rw [hfind] at hresult
          cases hresult
          exact ⟨rfl, by simp⟩
        · rw [hfind] at hresult
          cases hresult
          refine ⟨rfl, ?_⟩
          intro key hkey
          refine ⟨(Option.some.inj hkey).symm, hempty, hroot, by simpa using hload, ?_⟩
          simp [OrdMap.find?, hfind]

theorem getFileHandle_of_registered {info : K2hFtInfo} {path : Bytes} (h : Registered info path)
    (hfree : info.prule_lockval = false) :
    getFileHandle path info = .ok (some (stripSlash path), info) := by
  rcases Option.isSome_iff_exists.1 h.entry with ⟨rule, hfind⟩
  have hlookup : AssocList.lookup info.RuleMap.entries (stripSlash path) = some rule := hfind
  unfold getFileHandle
  simp only [if_neg h.notEmpty, if_neg h.notRoot, h.loaded, Bool.not_true, Bool.false_eq_true,
    if_false, lock_of_free hfree, Bind.bind, Except.bind, pure, Except.pure, locked_RuleMap,
    locked_unlock, unlock_of_free hfree, findHandle_eq, hlookup, Option.map_some]

theorem findPath_eq_ok {info info' : K2hFtInfo} {pagesize : Nat} {path : Bytes}
    {stbuf : Option Stat} (h : findPath pagesize path info = .ok (stbuf, info')) : info' = info := by
  unfold findPath at h
  split at h
  · cases h
    rfl
  · split at h
    · cases h
      rfl
    · split at h
      · cases h
        rfl
      · rcases bind_eq_ok.1 h with ⟨info₁, hlock, hresult⟩
        rcases lock_eq_ok hlock with ⟨hfree, rfl⟩
        simp only [locked_unlock, unlock_of_free hfree] at hresult
        split at hresult
        · rcases bind_eq_ok.1 hresult with ⟨rule, -, hfound⟩
          cases hfound
          rfl
        · cases hresult
          rfl
        · cases hresult
          rfl

theorem createUnder_eq_ok {env : CreateEnv} {path : Bytes} {parent pTmpRule : K2hFtRule}
    {handle handle' : Option Bytes} {info info' : K2hFtInfo} {result : Bool}
    (h : createUnder env path parent pTmpRule handle info = .ok ((result, handle'), info')) :
    Grows info info' ∧
      (result = true → handle' = some path ∧ (info'.RuleMap.find? path).isSome = true) := by
  have hset : ∀ rule, Grows info (info.setRule path rule) := by
    intro rule
    refine ⟨rfl, ?_⟩
    intro key hkey
    by_cases heq : key = path
    · simp [setRule, heq]
    · simpa [setRule, OrdMap.find?_insert_ne _ _ heq] using hkey
  have hfind : ∀ rule, ((info.setRule path rule).RuleMap.find? path).isSome = true := by
    intro rule
    simp [setRule]
  unfold createUnder at h
  split at h
  · cases h
    exact ⟨⟨rfl, fun _ hkey => hkey⟩, by simp⟩
  · split at h
    · cases h
    · split at h
      · cases h
      · split at h
        · cases h
          exact ⟨⟨rfl, (hset _).entry⟩, fun _ => ⟨rfl, hfind _⟩⟩
        · split at h
          · cases h
            exact ⟨⟨rfl, (hset _).entry⟩, by simp⟩
          · split at h
            · cases h
              exact ⟨⟨rfl, (hset _).entry⟩, fun _ => ⟨rfl, hfind _⟩⟩
            · cases h
              exact ⟨⟨rfl, (hset _).entry⟩, by simp⟩

/-- A `CreateFile` that returns true has found the path and left the handle, or it gives the handle
of the entry that it has made. -/
theorem createFile_eq_ok {env : CreateEnv} {path : Bytes} {mode uid gid : UInt32}
    {handle handle' : Option Bytes} {info info' : K2hFtInfo} {result : Bool}
    (h : createFile env path mode uid gid handle info = .ok ((result, handle'), info')) :
    Grows info info' ∧
      (result = true →
        (Registered info path ∧ handle' = handle) ∨
          (handle' = some (stripSlash path) ∧ Registered info' path)) := by
  unfold createFile at h
  split at h
  · cases h
    exact ⟨Grows.refl info, by simp⟩
  · rename_i hempty
    split at h
    · cases h
      exact ⟨Grows.refl info, by simp⟩
    · rename_i hroot
      split at h
      · cases h
        exact ⟨Grows.refl info, by simp⟩
      · rename_i hload
        have hload' : info.isLoad = true := by simpa using hload
        rcases bind_eq_ok.1 h with ⟨info₁, hlock, hrest⟩
        rcases lock_eq_ok hlock with ⟨-, rfl⟩
        simp only [locked_RuleMap] at hrest
        rcases hfind : info.RuleMap.find? (stripSlash path) with _ | rule
        · simp only [hfind] at hrest
          split at hrest
          · cases hrest
            exact ⟨⟨rfl, fun _ hkey => hkey⟩, by simp⟩
          · split at hrest
            · cases hrest
              exact ⟨⟨rfl, fun _ hkey => hkey⟩, by simp⟩
            · rcases bind_eq_ok.1 hrest with ⟨parent, -, hcreate⟩
              rcases createUnder_eq_ok hcreate with ⟨hgrows, hnew⟩
              have hgrows' : Grows info info' := ⟨hgrows.Config, hgrows.entry⟩
              refine ⟨hgrows', ?_⟩
              intro hresult
              rcases hnew hresult with ⟨hhandle, hentry⟩
              have hload'' : info'.isLoad = true := by
                simpa [isLoad, hgrows'.Config] using hload'
              exact Or.inr ⟨hhandle, hempty, hroot, hload'', hentry⟩
        · simp only [hfind] at hrest
          cases hrest
          refine ⟨⟨rfl, fun _ hkey => hkey⟩, ?_⟩
          intro _
          exact Or.inl ⟨⟨hempty, hroot, hload', by simp [hfind]⟩, rfl⟩

/-- A path that is in the map: true, and the handle stays. -/
theorem createFile_of_registered {env : CreateEnv} {path : Bytes} {mode uid gid : UInt32}
    {handle handle' : Option Bytes} {info info' : K2hFtInfo} {result : Bool}
    (hreg : Registered info path)
    (h : createFile env path mode uid gid handle info = .ok ((result, handle'), info')) :
    result = true ∧ handle' = handle := by
  rcases Option.isSome_iff_exists.1 hreg.entry with ⟨rule, hfind⟩
  unfold createFile at h
  simp only [if_neg hreg.notEmpty, if_neg hreg.notRoot, hreg.loaded, Bool.not_true,
    Bool.false_eq_true, if_false] at h
  rcases bind_eq_ok.1 h with ⟨info₁, hlock, hresult⟩
  rcases lock_eq_ok hlock with ⟨-, rfl⟩
  simp only [locked_RuleMap, hfind] at hresult
  cases hresult
  exact ⟨rfl, rfl⟩

/-! ## Runs -/

namespace FuseServer

theorem call_eq_some {α : Type} {s s' : FuseServer} {c : Nat} {op : Op K2hFtInfo α}
    {next : α → RequestPhase} (h : s.call c op next = some s') :
    ∃ answer, op s.info = .ok (answer, s'.info) ∧ s'.phaseOf c = next answer ∧
      ∀ c', c' ≠ c → s'.phaseOf c' = s.phaseOf c' := by
  unfold call at h
  rcases hop : op s.info with e | ⟨answer, info⟩
  · simp [hop] at h
  · rw [hop] at h
    obtain rfl := Option.some.inj h
    refine ⟨answer, rfl, by simp [phaseOf], ?_⟩
    intro c' hc
    simp [phaseOf, OrdMap.find?_insert_ne _ _ hc]

theorem isHandleOf_of_registered {info : K2hFtInfo} {path : Bytes} (h : Registered info path) :
    IsHandleOf info path (some (stripSlash path)) :=
  ⟨by simp, getFileHandle_of_registered
    ⟨h.notEmpty, h.notRoot, h.loaded, h.entry⟩ (unlock_prule_lockval info)⟩

theorem IsHandleOf.registered {info : K2hFtInfo} {path : Bytes} {handle : Option Bytes}
    (h : IsHandleOf info path handle) : handle = some (stripSlash path) ∧ Registered info path := by
  rcases h with ⟨hne, hget⟩
  rcases Option.ne_none_iff_exists'.1 hne with ⟨key, rfl⟩
  rcases (getFileHandle_eq_ok hget).2 key rfl with ⟨rfl, hreg⟩
  exact ⟨rfl, hreg.notEmpty, hreg.notRoot, hreg.loaded, hreg.entry⟩

theorem IsHandleOf.of_grows {info info' : K2hFtInfo} {path : Bytes} {handle : Option Bytes}
    (h : IsHandleOf info path handle) (hgrows : Grows info info') : IsHandleOf info' path handle := by
  rcases h.registered with ⟨rfl, hreg⟩
  exact isHandleOf_of_registered (hreg.of_grows hgrows)

/-- What is known of a request: a handle that it has is the handle of its path, and a path to create
has a parent. -/
def PhaseOk (info : K2hFtInfo) : RequestPhase → Prop
  | .idle => True
  | .handle _ => True
  | .parent r _ file_handle =>
      (getParentDirpath r.path).isSome = true ∧
        (file_handle ≠ none → IsHandleOf info r.path file_handle)
  | .creating r => (getParentDirpath r.path).isSome = true
  | .returned r result fh => result = 0 → fh ≠ none → IsHandleOf info r.path fh

/-- Success without a handle. -/
def Lacks : RequestPhase → Prop
  | .returned _ result fh => result = 0 ∧ fh = none
  | _ => False

theorem PhaseOk.of_grows {info info' : K2hFtInfo} {p : RequestPhase} (h : PhaseOk info p)
    (hgrows : Grows info info') : PhaseOk info' p := by
  cases p with
  | idle => trivial
  | handle r => trivial
  | parent r parentpath file_handle => exact ⟨h.1, fun hne => (h.2 hne).of_grows hgrows⟩
  | creating r => exact h
  | returned r result fh => exact fun hzero hne => (h hzero hne).of_grows hgrows

theorem toParent_ok {info : K2hFtInfo} {r : Request} {file_handle : Option Bytes}
    (h : file_handle ≠ none → IsHandleOf info r.path file_handle) :
    PhaseOk info (toParent r file_handle) ∧ ¬ Lacks (toParent r file_handle) := by
  rcases hparent : getParentDirpath r.path with _ | parentpath
  · simp [toParent, hparent, PhaseOk, Lacks, EACCES]
  · simpa [toParent, hparent, PhaseOk, Lacks] using h

theorem afterFindPath_ok (info : K2hFtInfo) (r : Request) (stbuf : Option Stat) :
    PhaseOk info (afterFindPath r stbuf) ∧ ¬ Lacks (afterFindPath r stbuf) := by
  rcases stbuf with _ | stbuf
  · exact toParent_ok (by simp)
  · by_cases hdir : S_ISDIR stbuf.st_mode = true
    · simp [afterFindPath, hdir, PhaseOk, Lacks, EISDIR]
    · rcases hkind : r.kind with _ | mode
      · simp [afterFindPath, hdir, hkind, PhaseOk, Lacks]
      · simp [afterFindPath, hdir, hkind, PhaseOk, Lacks, EEXIST]

theorem afterParent_ok {env : FuseEnv} {info : K2hFtInfo} {r : Request} {parentpath : Bytes}
    {file_handle : Option Bytes} (h : PhaseOk info (.parent r parentpath file_handle))
    (parent_stbuf : Option Stat) :
    PhaseOk info (afterParent env r file_handle parent_stbuf) ∧
      ¬ Lacks (afterParent env r file_handle parent_stbuf) := by
  rcases parent_stbuf with _ | parent_stbuf
  · simp [afterParent, PhaseOk, Lacks, ENOENT]
  · unfold afterParent
    dsimp only
    split
    · rename_i hx
      exact ⟨fun hzero => absurd hzero hx, fun hlacks => hx hlacks.1⟩
    · split
      · rename_i hhandle
        exact ⟨fun _ => h.2, fun hlacks => hhandle hlacks.2⟩
      · split
        · rename_i hw
          exact ⟨fun hzero => absurd hzero hw, fun hlacks => hw hlacks.1⟩
        · exact ⟨h.1, fun hlacks => hlacks⟩

/-- A request is told success without a handle exactly when it finds its path in the map. -/
theorem afterCreateFile_ok {createEnv : CreateEnv} {info info' : K2hFtInfo} {r : Request}
    {answer : Bool × Option Bytes} (hphase : PhaseOk info (.creating r))
    (hcall : createFile createEnv r.path r.mode r.pfusectx.uid r.pfusectx.gid none info =
      .ok (answer, info')) :
    Grows info info' ∧ PhaseOk info' (afterCreateFile r answer) ∧
      (Lacks (afterCreateFile r answer) ↔
        ¬ (info.isLoad = true → info.RuleMap.find? (stripSlash r.path) = none)) := by
  rcases answer with ⟨result, fh⟩
  rcases createFile_eq_ok hcall with ⟨hgrows, htrue⟩
  refine ⟨hgrows, ?_, ?_⟩
  · cases result with
    | true =>
        intro _ hne
        rcases htrue rfl with ⟨-, hfh⟩ | ⟨hfh, hreg⟩
        · exact absurd hfh hne
        · simp only
          rw [hfh]
          exact isHandleOf_of_registered hreg
    | false =>
        rcases hkind : r.kind with _ | mode
        · simp [afterCreateFile, hkind, PhaseOk, EIO]
        · simp [afterCreateFile, hkind, PhaseOk, EIO]
  · constructor
    · intro hlacks hfresh
      cases result with
      | true =>
          rcases htrue rfl with ⟨hreg, -⟩ | ⟨hfh, -⟩
          · have hentry := hreg.entry
            rw [hfresh hreg.loaded] at hentry
            cases hentry
          · have hnone : fh = none := hlacks.2
            rw [hfh] at hnone
            cases hnone
      | false =>
          rcases hkind : r.kind with _ | mode
          · simp [afterCreateFile, hkind, Lacks, EIO] at hlacks
          · simp [afterCreateFile, hkind, Lacks, EIO] at hlacks
    · intro hfound
      have hload : info.isLoad = true := by
        by_contra hload
        exact hfound fun h => absurd h hload
      have hentry : (info.RuleMap.find? (stripSlash r.path)).isSome = true := by
        rcases hfind : info.RuleMap.find? (stripSlash r.path) with _ | rule
        · exact absurd (fun _ => hfind) hfound
        · rfl
      have hempty : r.path ≠ [] := by
        intro hempty
        simp [PhaseOk, hempty, getParentDirpath] at hphase
      have hroot : r.path ≠ ascii "/" := by
        intro hroot
        have hnone : getParentDirpath r.path = none := by rw [hroot]; decide
        simp [PhaseOk, hnone] at hphase
      rcases createFile_of_registered ⟨hempty, hroot, hload, hentry⟩ hcall with ⟨rfl, rfl⟩
      exact ⟨rfl, rfl⟩

def Inv (s : FuseServer) : Prop := ∀ c, PhaseOk s.info (s.phaseOf c)

/-- What a step does: one request that has not returned goes on, and only a `CreateFile` that finds
its path leaves it without a handle. -/
theorem step_eq_some {env : FuseEnv} {s t : FuseServer} {l : ServeLabel} (hinv : Inv s)
    (h : step env s l = some t) :
    ∃ c, Grows s.info t.info ∧ PhaseOk t.info (t.phaseOf c) ∧ ¬ Lacks (s.phaseOf c) ∧
      (Lacks (t.phaseOf c) ↔ ¬ CreatesFresh s l) ∧ ∀ c', c' ≠ c → t.phaseOf c' = s.phaseOf c' := by
  cases l with
  | findPath c r =>
      simp only [step] at h
      rcases hphase : s.phaseOf c <;> simp only [hphase] at h <;> try cases h
      rcases call_eq_some h with ⟨answer, hop, hnext, hothers⟩
      have hsame := findPath_eq_ok hop
      rcases afterFindPath_ok t.info r answer with ⟨hok, hlacks⟩
      refine ⟨c, hsame ▸ Grows.refl _, hnext ▸ hok, by simp [hphase, Lacks], ?_, hothers⟩
      rw [hnext]
      simp [hlacks, CreatesFresh]
  | getFileHandle c =>
      simp only [step] at h
      rcases hphase : s.phaseOf c <;> simp only [hphase] at h <;> try cases h
      rename_i r
      rcases call_eq_some h with ⟨answer, hop, hnext, hothers⟩
      rcases getFileHandle_eq_ok hop with ⟨hsame, hkey⟩
      have hhandle : answer ≠ none → IsHandleOf t.info r.path answer := by
        intro hne
        rcases Option.ne_none_iff_exists'.1 hne with ⟨key, rfl⟩
        rcases hkey key rfl with ⟨rfl, hreg⟩
        rw [hsame]
        exact isHandleOf_of_registered hreg
      rcases toParent_ok hhandle with ⟨hok, hlacks⟩
      refine ⟨c, hsame ▸ Grows.refl _, hnext ▸ hok, by simp [hphase, Lacks], ?_, hothers⟩
      rw [hnext]
      simp [hlacks, CreatesFresh]
  | findParent c =>
      simp only [step] at h
      rcases hphase : s.phaseOf c <;> simp only [hphase] at h <;> try cases h
      rename_i r parentpath file_handle
      rcases call_eq_some h with ⟨answer, hop, hnext, hothers⟩
      have hsame := findPath_eq_ok hop
      have hparent : PhaseOk t.info (.parent r parentpath file_handle) := by
        rw [hsame, ← hphase]
        exact hinv c
      rcases afterParent_ok hparent answer with ⟨hok, hlacks⟩
      refine ⟨c, hsame ▸ Grows.refl _, hnext ▸ hok, by simp [hphase, Lacks], ?_, hothers⟩
      rw [hnext]
      simp [hlacks, CreatesFresh]
  | createFile c createEnv =>
      simp only [step] at h
      rcases hphase : s.phaseOf c <;> simp only [hphase] at h <;> try cases h
      rename_i r
      rcases call_eq_some h with ⟨answer, hop, hnext, hothers⟩
      have hcreating : PhaseOk s.info (.creating r) := by
        rw [← hphase]
        exact hinv c
      rcases afterCreateFile_ok hcreating hop with ⟨hgrows, hok, hlacks⟩
      refine ⟨c, hgrows, hnext ▸ hok, by simp [hphase, Lacks], ?_, hothers⟩
      rw [hnext, hlacks]
      simp [CreatesFresh, hphase]

theorem inv_step {env : FuseEnv} {s t : FuseServer} {l : ServeLabel} (hinv : Inv s)
    (h : step env s l = some t) : Inv t := by
  rcases step_eq_some hinv h with ⟨c, hgrows, hok, -, -, hothers⟩
  intro c'
  by_cases hc : c' = c
  · rw [hc]
    exact hok
  · rw [hothers c' hc]
    exact (hinv c').of_grows hgrows

theorem usable_iff {s : FuseServer} (hinv : Inv s) : Usable s ↔ ∀ c, ¬ Lacks (s.phaseOf c) := by
  constructor
  · intro h c hlacks
    rcases hphase : s.phaseOf c with _ | _ | _ | _ | ⟨r, result, fh⟩ <;> rw [hphase] at hlacks <;>
      try exact hlacks
    rcases hlacks with ⟨rfl, rfl⟩
    exact (h c r none hphase).1 rfl
  · intro h c r fh hphase
    have hne : fh ≠ none := by
      intro hfh
      refine h c ?_
      rw [hphase]
      exact ⟨rfl, hfh⟩
    have hok := hinv c
    rw [hphase] at hok
    exact hok rfl hne

theorem usable_step {env : FuseEnv} {s t : FuseServer} {l : ServeLabel} (hinv : Inv s)
    (h : step env s l = some t) : Usable t ↔ Usable s ∧ CreatesFresh s l := by
  rw [usable_iff (inv_step hinv h), usable_iff hinv]
  rcases step_eq_some hinv h with ⟨c, -, -, hbefore, hlacks, hothers⟩
  constructor
  · intro hall
    refine ⟨?_, ?_⟩
    · intro c'
      by_cases hc : c' = c
      · rw [hc]
        exact hbefore
      · rw [← hothers c' hc]
        exact hall c'
    · by_contra hfresh
      exact hall c (hlacks.2 hfresh)
  · rintro ⟨hall, hfresh⟩ c'
    by_cases hc : c' = c
    · rw [hc, hlacks]
      exact not_not.2 hfresh
    · rw [hothers c' hc]
      exact hall c'

/-- The run lemma: what was usable stays so, and no `CreateFile` found its path. -/
theorem usable_run {env : FuseEnv} {s t : FuseServer} {ls : List ServeLabel} (hinv : Inv s)
    (hrun : run (step env) s ls = some t) :
    Usable t ↔ Usable s ∧ Guarded (step env) CreatesFresh s ls := by
  refine run_iff_guarded ?_ ?_ hinv hrun
  · intro s l s' hs hstep
    exact inv_step hs hstep
  · intro s l s' hs hstep
    exact usable_step hs hstep

/-- In every run from the start, all requests that were told success have the handle of their path
exactly when no `CreateFile` of the run found its path in the map. -/
theorem requests_usable_iff (env : FuseEnv) (info : K2hFtInfo) {ls : List ServeLabel}
    {s : FuseServer} (hrun : run (step env) (start info) ls = some s) :
    Usable s ↔ Guarded (step env) CreatesFresh (start info) ls := by
  have hinv : Inv (start info) := fun _ => trivial
  have husable : Usable (start info) := by
    intro c r fh hphase
    simp [phaseOf, start] at hphase
  rw [usable_run hinv hrun]
  simp [husable]

/-- A loaded configuration with a directory rule `log` for everyone. -/
def logDirectory : K2hFtInfo :=
  { K2hFtInfo.start none with
    Config := ascii "/etc/k2hftfuse.ini"
    RuleMap :=
      (∅ : OrdMap Bytes K2hFtRule).insert (ascii "log")
        { K2hFtRule.fresh with
          TargetPath := ascii "log"
          Mode := S_IFDIR ||| 0o777 } }

def openLog : Request :=
  { kind := .openFile
    path := ascii "/log/a"
    pfusectx := { uid := 1000, gid := 1000, umask := 0o022 } }

def noPlugin : CreateEnv :=
  { now := none
    regcomp := fun _ => true
    pipeFile := none
    runAddPlugin := false }

/-- Two requests, the second after the first has returned. -/
def oneAfterTheOther : List ServeLabel :=
  [.findPath 1 openLog, .findParent 1, .createFile 1 noPlugin,
    .findPath 2 openLog, .getFileHandle 2, .findParent 2]

theorem requests_usable_iff_one_after_the_other :
    ∃ s, run (step ⟨4096, fun _ _ _ => false⟩) (start logDirectory) oneAfterTheOther = some s ∧
      s.phaseOf 2 = .returned openLog 0 (some (ascii "log/a")) ∧ Usable s := by
  have hrun : (run (step ⟨4096, fun _ _ _ => false⟩) (start logDirectory) oneAfterTheOther).map
      (fun s => s.phaseOf 2) = some (.returned openLog 0 (some (ascii "log/a"))) := by
    decide +kernel
  rcases Option.map_eq_some_iff.1 hrun with ⟨s, hs, hphase⟩
  have hguard : Guarded (step ⟨4096, fun _ _ _ => false⟩) CreatesFresh (start logDirectory)
      oneAfterTheOther := by
    decide +kernel
  exact ⟨s, hs, hphase, (requests_usable_iff _ _ hs).2 hguard⟩

/-- Two requests that both look for the path before one of them creates it. -/
def bothLookFirst : List ServeLabel :=
  [.findPath 1 openLog, .findPath 2 openLog, .findParent 1, .findParent 2,
    .createFile 1 noPlugin, .createFile 2 noPlugin]

/-- The second request is told success with the handle 0, and `h2htpfs_write` refuses that. -/
theorem second_open_lacks_handle :
    ∃ s, run (step ⟨4096, fun _ _ _ => false⟩) (start logDirectory) bothLookFirst = some s ∧
      s.phaseOf 1 = .returned openLog 0 (some (ascii "log/a")) ∧
      s.phaseOf 2 = .returned openLog 0 none ∧ ¬ Usable s ∧
      ∀ push buf, h2htpfsWrite push buf none = - EIO := by
  have hrun : (run (step ⟨4096, fun _ _ _ => false⟩) (start logDirectory) bothLookFirst).map
      (fun s => (s.phaseOf 1, s.phaseOf 2)) =
        some (.returned openLog 0 (some (ascii "log/a")), .returned openLog 0 none) := by
    decide +kernel
  rcases Option.map_eq_some_iff.1 hrun with ⟨s, hs, hphases⟩
  have hsecond : s.phaseOf 2 = .returned openLog 0 none := congrArg Prod.snd hphases
  refine ⟨s, hs, congrArg Prod.fst hphases, hsecond, ?_, fun _ _ => rfl⟩
  intro husable
  exact (husable 2 openLog none hsecond).1 rfl

end FuseServer

end K2hFtFuse

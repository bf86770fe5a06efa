import K2hFtFuse.Info.State

/-!
# Info.Ops — the operations that FUSE handlers call on `K2hFtInfo`

Lookup, listing, attribute changes and file creation. Every operation takes and releases the lock by
hand, so each return of the source is a return here. A file handle is the key of its rule; the
handle 0 is `none`.
-/

namespace K2hFtFuse

open ByteSeq SpinLock

/-! ## Attributes -/

/-- The members of `struct stat` that are filled in. -/
structure Stat where
  st_mode : UInt32
  st_nlink : Nat
  st_uid : UInt32
  st_gid : UInt32
  st_size : Int64
  st_blksize : Nat
  st_blocks : Int64
  st_atim : Timespec
  st_mtim : Timespec
  st_ctim : Timespec
  deriving DecidableEq

/-- `GET_STAT_BLOCKS`. -/
def GET_STAT_BLOCKS (size : Int64) : Int64 := size / 512 + if size % 512 ≠ 0 then 1 else 0

namespace K2hFtInfo

/-- The attributes of the mount point and of directories that are only parts of paths; `FindPath` (twice)
and `ReadDir` fill in the same. -/
def dirStat (info : K2hFtInfo) (pagesize : Nat) : Stat :=
  { st_mode := info.DirMode
    st_nlink := 2
    st_uid := info.DirUid
    st_gid := info.DirGid
    st_size := Int64.ofNat pagesize
    st_blksize := pagesize
    st_blocks := GET_STAT_BLOCKS (Int64.ofNat pagesize)
    st_atim := info.InitTime
    st_mtim := info.InitTime
    st_ctim := info.InitTime }

end K2hFtInfo

/-- The attributes of a rule; `FindPath` and `ReadDir` fill in the same. -/
def K2hFtRule.stat (rule : K2hFtRule) (pagesize : Nat) : Stat :=
  { st_mode := rule.Mode
    st_nlink := if S_ISDIR rule.Mode then 2 else 1
    st_uid := rule.Uid
    st_gid := rule.Gid
    st_size := rule.AccumSize
    st_blksize := pagesize
    st_blocks := GET_STAT_BLOCKS rule.AccumSize
    st_atim := rule.LastTime
    st_mtim := rule.LastTime
    st_ctim := rule.StartTime }

/-- Skip the first `/`. -/
def stripSlash (path : Bytes) : Bytes :=
  if path.head? = some SLASH then path.tail else path

/-! ## Lookup -/

/-- What the search of `FindPath` ends at: the entry itself, or an entry below the path. -/
inductive Found
  | entry (key : Bytes) (rule : K2hFtRule)
  | below

/-- The search of `FindPath` for a path that is not empty. -/
def findEntry (path : Bytes) : List (Bytes × K2hFtRule) → Option Found
  | [] => none
  | (key, rule) :: rest =>
      if !path.isPrefixOf key then findEntry path rest
      else if key.length = path.length then some (.entry key rule)
      -- the entry lies in the directory of that path
      else if key[path.length]? = some SLASH then some .below
      else findEntry path rest

/-- The search of `GetFileHandle`. -/
def findHandle (path : Bytes) : List (Bytes × K2hFtRule) → Option Bytes
  | [] => none
  | (key, _) :: rest =>
      if !path.isPrefixOf key then findHandle path rest
      else if key.length = path.length then some key
      else findHandle path rest

namespace K2hFtInfo

/-- `FindPath`. -/
def findPath (pagesize : Nat) (path : Bytes) : Op K2hFtInfo (Option Stat) := fun info =>
  if path = [] then
    return (none, info)
  else if path = ascii "/" then
    return (some (info.dirStat pagesize), info)
  else if !info.isLoad then
    return (none, info)
  else do
    let info ← info.lock
    match findEntry (stripSlash path) info.RuleMap.entries with
    | some (.entry key rule) =>
        let rule ← info.deref key rule
        return (some (rule.stat pagesize), info.unlock)
    | some .below => return (some (info.dirStat pagesize), info.unlock)
    | none => return (none, info.unlock)

/-- `GetFileHandle`. -/
def getFileHandle (path : Bytes) : Op K2hFtInfo (Option Bytes) := fun info =>
  if path = [] then
    return (none, info)
  else if path = ascii "/" then
    return (none, info)
  else if !info.isLoad then
    return (none, info)
  else do
    let info ← info.lock
    match findHandle (stripSlash path) info.RuleMap.entries with
    | some key => return (some key, info.unlock)
    | none => return (none, info.unlock)

end K2hFtInfo

/-! ## Listing -/

/-- The part of a name before its first `/`, and whether there is one. -/
def cutSlash (name : Bytes) : Bytes × Bool :=
  if name.contains SLASH then (name.takeWhile fun c => c ≠ SLASH, true) else (name, false)

/-- The base name that an entry has in the directory, and whether it is a directory in between. -/
def baseName (path key : Bytes) : Option (Bytes × Bool) :=
  if path = [] then
    some (cutSlash key)
  else if !path.isPrefixOf key then
    none
  else if key.length = path.length then
    -- the directory itself is not listed
    none
  else if key[path.length]? ≠ some SLASH then
    -- the name only begins like the directory
    none
  else
    some (cutSlash (key.drop (path.length + 1)))

/-- `K2HFTLISTDIR`; `pstat` is NULL for `.` and `..`. -/
structure K2hFtListDir where
  strname : Bytes
  pstat : Option Stat
  deriving DecidableEq

namespace K2hFtInfo

/-- One entry of the loop of `ReadDir`. -/
def listEntry (info : K2hFtInfo) (pagesize : Nat) (path : Bytes) (list : List K2hFtListDir)
    (key : Bytes) (rule : K2hFtRule) : Except Stop (List K2hFtListDir) :=
  match baseName path key with
  | none => .ok list
  | some (basename, is_middle_dir) =>
      if basename = [] then
        -- nothing is left of the name behind the directory
        .ok list
      else if list.any fun ld => ld.strname == basename then
        -- another entry has given the name already
        .ok list
      else if is_middle_dir then
        .ok (list ++ [{ strname := basename, pstat := some (info.dirStat pagesize) }])
      else do
        let rule ← info.deref key rule
        return list ++ [{ strname := basename, pstat := some (rule.stat pagesize) }]

/-- The loop of `ReadDir`. -/
def listEntries (info : K2hFtInfo) (pagesize : Nat) (path : Bytes) :
    List (Bytes × K2hFtRule) → List K2hFtListDir → Except Stop (List K2hFtListDir)
  | [], list => .ok list
  | (key, rule) :: rest, list => do
      let list ← info.listEntry pagesize path list key rule
      listEntries info pagesize path rest list

/-- `ReadDir`; the inner `none` is the result false. -/
def readDir (pagesize : Nat) (path : Bytes) : Op K2hFtInfo (Option (List K2hFtListDir)) := fun info =>
  if path = [] then
    return (none, info)
  else do
    let dots : List K2hFtListDir :=
      [{ strname := ascii ".", pstat := none }, { strname := ascii "..", pstat := none }]
    let info ← info.lock
    let list ← info.listEntries pagesize (stripSlash path) info.RuleMap.entries dots
    return (some list, info.unlock)

/-! ## Attribute changes

`TruncateZero`, `SetOwner`, `SetMode` and `SetTimespec` find the rule of a path and change it unless
it is a directory; the last one takes no lock. -/

/-- The part that the four share: `change` gives the result and the changed rule. -/
def changeRule (takesLock : Bool) (path : Bytes) (change : K2hFtRule → Bool × K2hFtRule) :
    Op K2hFtInfo Bool := fun info =>
  if path = [] then
    return (false, info)
  else if path = ascii "/" then
    return (false, info)
  else if !info.isLoad then
    return (false, info)
  else do
    let path := stripSlash path
    let info ← if takesLock then info.lock else .ok info
    let unlock := fun info : K2hFtInfo => if takesLock then info.unlock else info
    match info.RuleMap.find? path with
    | some rule =>
        let rule ← info.deref path rule
        if S_ISDIR rule.Mode then
          -- directories keep their attributes
          return (false, unlock info)
        else
          return ((change rule).1, unlock (info.setRule path (change rule).2))
    | none => return (false, unlock info)

/-- `set_now_timespec(rule->LastTime)`. -/
def touch (now : Option Timespec) (rule : K2hFtRule) : Bool × K2hFtRule :=
  match now with
  | some now => (true, { rule with LastTime := now })
  | none => (false, rule)

/-- `TruncateZero`. -/
def truncateZero (now : Option Timespec) (path : Bytes) : Op K2hFtInfo Bool :=
  changeRule true path fun rule => touch now { rule with AccumSize := 0 }

/-- `SetOwner`; the owner -1 leaves the member as it is. -/
def setOwner (now : Option Timespec) (path : Bytes) (uid gid : UInt32) : Op K2hFtInfo Bool :=
  changeRule true path fun rule =>
    touch now
      { rule with
        Uid := if uid ≠ -1 then uid else rule.Uid
        Gid := if gid ≠ -1 then gid else rule.Gid }

/-- `SetMode`. -/
def setMode (now : Option Timespec) (path : Bytes) (mode : UInt32) : Op K2hFtInfo Bool :=
  changeRule true path fun rule =>
    touch now { rule with Mode := (rule.Mode &&& ~~~S_IRWXUGO) ||| (mode &&& S_IRWXUGO) }

/-- `SetTimespec`. -/
def setTimespec (path : Bytes) (ts : Timespec) : Op K2hFtInfo Bool :=
  changeRule false path fun rule => (true, { rule with LastTime := ts })

/-- `Dump`, without its texts. -/
def dump : Op K2hFtInfo Bool := fun info =>
  if info.Config = [] then
    return (false, info)
  else do
    let info ← info.lock
    info.derefAll
    return (true, info.unlock)

end K2hFtInfo

/-! ## Creation -/

/-- `S_IXUSR | S_IXGRP | S_IXOTH`. -/
def S_IXUGO : UInt32 := 0o111

/-- `duplicate_match_list`: `regcomp` compiles the expressions again, the n-th with its answer. -/
def duplicateMatchList (regcomp : Nat → Bool) : List K2hFtMatchPtn → Option (List K2hFtMatchPtn)
  | [] => some []
  | ptn :: src =>
      if ptn.IsRegex && !regcomp 0 then none
      else (duplicateMatchList (fun n => regcomp (n + 1)) src).map (ptn :: ·)

/-- The outcomes of the calls that `CreateFile` makes: the clock, `regcomp`, `BuildNamedPipeFile` and
`RunAddPlugin`. -/
structure CreateEnv where
  now : Option Timespec
  regcomp : Nat → Bool
  pipeFile : Option Bytes
  runAddPlugin : Bool

namespace K2hFtInfo

/-- The rule that is filled in before the parent directory is looked up. -/
def newRule (env : CreateEnv) (path : Bytes) (mode uid gid : UInt32) : K2hFtRule :=
  let StartTime := env.now.getD common_init_time
  { K2hFtRule.fresh with
    TargetPath := path
    Mode := (mode &&& S_IRWXUGO) ||| S_IFREG
    Uid := uid
    Gid := gid
    AccumSize := 0
    StartTime := StartTime
    LastTime := StartTime }

/-- `OutputPath` of a new rule: the parent's, with the file name when that ends in `/`. It fails
when there is no file name to get. -/
def newOutputPath (parentOutput path : Bytes) : Option Bytes :=
  if parentOutput.getLast? = some SLASH then
    (getFileName path).map fun fname => parentOutput ++ fname
  else
    some parentOutput

/-- The plugin of a new rule, before its named pipe is made. -/
def newPlugin (parent : K2hFtPluginInfo) (pTmpRule : K2hFtRule) : K2hFtPluginInfo :=
  { BaseParam := parent.BaseParam
    OutputPath := pTmpRule.OutputPath
    PipeFilePath := []
    mode := (pTmpRule.Mode &&& ~~~S_IFDIR &&& ~~~S_IXUGO) ||| S_IFREG
    not_execute := false }

/-- The new rule was put into the map and is deleted again: its entry stays. -/
def freeRule (info : K2hFtInfo) (key : Bytes) : K2hFtInfo :=
  { info with freedRules := key :: info.freedRules }

/-- `CreateFile` from where it has found the rule `parent` of the parent directory. When there is no
new rule any more, `pTmpRule` is NULL, and both branches of the plugin part write through it. -/
def createUnder (env : CreateEnv) (path : Bytes) (parent pTmpRule : K2hFtRule)
    (handle : Option Bytes) (info : K2hFtInfo) :
    Except Stop ((Bool × Option Bytes) × K2hFtInfo) :=
  if !S_ISDIR parent.Mode then
    .ok ((false, handle), info.unlock)
  else
    match newOutputPath parent.OutputPath path with
    -- `pTmpRule` was deleted, and is written through below
    | none => .error .fault
    | some OutputPath =>
        match duplicateMatchList env.regcomp parent.MatchingList with
        | none => .error .fault
        | some MatchingList =>
            let pTmpRule :=
              { pTmpRule with
                IsTransfer := parent.IsTransfer
                DefaultDenyAll := parent.DefaultDenyAll
                OutputPath := OutputPath
                MatchingList := MatchingList }
            match parent.pPlugin with
            | none => .ok ((true, some path), (info.setRule path pTmpRule).unlock)
            | some plugin =>
                match env.pipeFile with
                | none =>
                    -- the handle was set before the pipe was made
                    .ok ((false, some path), ((info.setRule path pTmpRule).freeRule path).unlock)
                | some PipeFilePath =>
                    if env.runAddPlugin then
                      .ok ((true, some path), (info.setRule path
                        { pTmpRule with
                          pPlugin := some
                            { newPlugin plugin pTmpRule with PipeFilePath := PipeFilePath } }).unlock)
                    else
                      .ok ((false, some path), ((info.setRule path pTmpRule).freeRule path).unlock)

/-- `CreateFile`: the result and the handle. The return when there is no parent path keeps the
lock. -/
def createFile (env : CreateEnv) (path : Bytes) (mode uid gid : UInt32) (handle : Option Bytes) :
    Op K2hFtInfo (Bool × Option Bytes) := fun info =>
  if path = [] then
    return ((false, handle), info)
  else if path = ascii "/" then
    return ((false, handle), info)
  else if !info.isLoad then
    return ((false, handle), info)
  else do
    let path := stripSlash path
    let info ← info.lock
    match info.RuleMap.find? path with
    -- an existing entry counts as created
    | some _ => return ((true, handle), info.unlock)
    | none =>
        match getParentDirpath path with
        | none => return ((false, handle), info)
        | some parentpath =>
            match info.RuleMap.find? parentpath with
            | none => return ((false, handle), info.unlock)
            | some parent =>
                let parent ← info.deref parentpath parent
                createUnder env path parent (newRule env path mode uid gid) handle info

end K2hFtInfo

end K2hFtFuse

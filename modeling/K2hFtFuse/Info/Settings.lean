import K2hFtFuse.Info.State
import K2hFtFuse.Info.Text

/-!
# Info.Settings — what keys and sections of a configuration do

Both loaders give the same meaning to a key with its value, to a finished rule section and to the
outputs of the rules. They differ in how they compare keys (`is`) and in the order in which they do
things.
-/

namespace K2hFtFuse

open ByteSeq SpinLock

/-! ## What a loader is given -/

/-- The answers of the calls that a loader makes while it reads one line or event: files and
directories are made for the rule of a target, the clock is read once for each `Clean`. -/
structure LoadEnv where
  realpath : Bytes → Option Bytes
  regcomp : Bytes → Bool
  addPluginInfo : Bytes → Option Bytes
  mkdirByAbsPath : Bytes → Bytes → Option Bytes
  makeFileByAbsPath : Bytes → Bytes → UInt32 → Option Bytes
  now : Nat → Option Timespec

/-- The arguments of `Load` and what does not change while it runs. -/
structure LoadArgs where
  init_mode : UInt32
  init_dmode : UInt32
  init_uid : UInt32
  init_gid : UInt32
  mountPoint : Bytes
  pagesize : Nat

/-- `check_path_real_path`. -/
def LoadEnv.checkPathRealPath (env : LoadEnv) (path : Bytes) : Option Bytes :=
  if path = [] then none else env.realpath path

/-! ## The main section -/

/-- A value that switches something on or off. -/
def yesNo (lib : ConfLib) (value : Bytes) : Option Bool :=
  let value := lib.upper value
  if value = ascii "Y" ∨ value = ascii "YES" ∨ value = ascii "ON" then some true
  else if value = ascii "N" ∨ value = ascii "NO" ∨ value = ascii "OFF" then some false
  else none

/-- A number that must not be negative, as `size_t`. -/
def nonnegative (value : Bytes) : Option Nat :=
  if atoi value < 0 then none else some (atoi value).toInt.toNat

namespace K2hFtInfo

/-- One key of the main section; `is` tells whether the key is a given one. The result false ends
loading. -/
def loadMainKey (lib : ConfLib) (env : LoadEnv) (is : Bytes → Bool) (value : Bytes)
    (info : K2hFtInfo) : Bool × K2hFtInfo :=
  if is (ascii "K2HTYPE") then
    let value := lib.upper value
    if value = ascii "M" ∨ value = ascii "MEM" ∨ value = ascii "MEMORY" then
      (true, { info with IsMemType := true, K2hFilePath := [] })
    else if value = ascii "T" ∨ value = ascii "TEMP" ∨ value = ascii "TEMPORARY" then
      (true, { info with IsMemType := false, K2hFilePath := [] })
    else if value = ascii "F" ∨ value = ascii "FILE" then
      (true, { info with IsMemType := false })
    else
      (true, info)
  else if is (ascii "K2HFILE") then
    (true, { info with K2hFilePath := (env.checkPathRealPath value).getD value })
  else if is (ascii "K2HFULLMAP") then
    (true, { info with IsFullmap := (yesNo lib value).getD info.IsFullmap })
  else if is (ascii "K2HINIT") then
    (true, { info with IsInitialize := (yesNo lib value).getD info.IsInitialize })
  else if is (ascii "K2HMASKBIT") then
    (true, { info with MaskBitCnt := atoi value })
  else if is (ascii "K2HCMASKBIT") then
    (true, { info with CMaskBitCnt := atoi value })
  else if is (ascii "K2HMAXELE") then
    (true, { info with MaxElementCnt := atoi value })
  else if is (ascii "K2HPAGESIZE") then
    (true, { info with PageSize := (atoll value).toUInt64 })
  else if is (ascii "DTORTHREADCNT") then
    if atoi value ≤ 0 then (false, info)
    else (true, { info with DtorThreadCnt := atoi value })
  else if is (ascii "DTORCTP") then
    match env.checkPathRealPath value with
    | none => (false, { info with DtorCtpPath := K2HFT_K2HTPDTOR })
    | some path => (true, { info with DtorCtpPath := path })
  else if is (ascii "BINTRANS") then
    (true, { info with IsBinaryMode := (yesNo lib value).getD info.IsBinaryMode })
  else if is (ascii "EXPIRE") then
    if atoi value ≤ 0 then (false, info)
    else (true, { info with ExpireTime := (atoi value).toInt64 })
  else if is (ascii "TRANSLINECNT") then
    match nonnegative value with
    | none => (false, info)
    | some linecnt => (true, { info with limits := { info.limits with StackLineMax := linecnt } })
  else if is (ascii "TRANSTIMEUP") then
    if atoi value < 0 then (false, info)
    else
      (true, { info with limits := { info.limits with StackTimeup := (atoi value).toInt64 } })
  else if is (ascii "BYTELIMIT") then
    match nonnegative value with
    | none => (false, info)
    | some limit => (true, { info with limits := { info.limits with LineByteLimit := limit } })
  else
    (true, info)

/-- The checks of the main values. -/
def mainValuesOk (info : K2hFtInfo) : Bool :=
  !(info.IsMemType && !info.K2hFilePath.isEmpty) &&
    !(info.K2hFilePath.isEmpty && !info.IsInitialize) &&
    !(info.K2hFilePath.isEmpty && !info.IsFullmap)

end K2hFtInfo

/-! ## Rule sections -/

/-- One key of a rule section other than `ALLOW` and `DENY`, with what it says about lines. -/
def loadRuleKey (lib : ConfLib) (env : LoadEnv) (is : Bytes → Bool) (value : Bytes)
    (pTmpRule : K2hFtRule) : K2hFtRule × List AclEntry :=
  if is (ascii "TARGET") then
    ({ pTmpRule with TargetPath := value }, [])
  else if is (ascii "TRUNS") then
    ({ pTmpRule with IsTransfer := (yesNo lib value).getD pTmpRule.IsTransfer }, [])
  else if is (ascii "OUTPUTFILE") then
    ({ pTmpRule with OutputPath := if value = ascii "/dev/null" then [] else value }, [])
  else if is (ascii "PLUGIN") then
    -- `new K2HFT_PLUGIN`; it is deleted when `AddPluginInfo` fails
    let pPlugin := (env.addPluginInfo value).map fun PipeFilePath =>
      { BaseParam := value
        OutputPath := []
        PipeFilePath := PipeFilePath
        mode := 0
        not_execute := false }
    ({ pTmpRule with pPlugin := pPlugin }, [])
  else if is (ascii "DEFAULTALL") then
    if lib.upper value = ascii "DENY" then
      ({ pTmpRule with DefaultDenyAll := true }, [.defaultAll true])
    else if lib.upper value = ascii "ALLOW" then
      ({ pTmpRule with DefaultDenyAll := false }, [.defaultAll false])
    else
      (pTmpRule, [])
  else
    (pTmpRule, [])

/-- A path relative to the mount point as a full path. -/
def fullPath (args : LoadArgs) (path : Bytes) : Bytes :=
  if path.head? ≠ some SLASH then args.mountPoint ++ SLASH :: path else path

/-- The matching list of a finished section. -/
def matchingList (pTmpRule : K2hFtRule) (AllowMatchs DenyMatchs : List K2hFtMatchPtn) :
    List K2hFtMatchPtn :=
  if pTmpRule.DefaultDenyAll then AllowMatchs else DenyMatchs

/-- The rule of a finished section. -/
def finishRule (args : LoadArgs) (is_dir_rule : Bool) (InitTime : Timespec) (pTmpRule : K2hFtRule)
    (AllowMatchs DenyMatchs : List K2hFtMatchPtn) : K2hFtRule :=
  let mode := if is_dir_rule then args.init_dmode else args.init_mode
  let pPlugin := pTmpRule.pPlugin.map fun plugin =>
    { plugin with
      mode := mode
      not_execute := is_dir_rule
      OutputPath := fullPath args pTmpRule.OutputPath }
  { pTmpRule with
    MatchingList := pTmpRule.MatchingList ++ matchingList pTmpRule AllowMatchs DenyMatchs
    pPlugin := pPlugin
    Mode := mode
    Uid := args.init_uid
    Gid := args.init_gid
    AccumSize := if is_dir_rule then Int64.ofNat args.pagesize else 0
    StartTime := InitTime
    LastTime := InitTime }

/-- `RuleMap[pTmpRule->TargetPath] = pTmpRule`. -/
def K2hFtInfo.register (info : K2hFtInfo) (acl : List AclEntry) (rule : K2hFtRule) : K2hFtInfo :=
  ({ info.setRule rule.TargetPath rule with
      freedRules := info.freedRules.filter fun key => key ≠ rule.TargetPath } : K2hFtInfo).act
    (.register acl rule)

/-! ## Outputs -/

/-- The search for an output directory under the mount point: `some none` when the target of a rule
is something wrong, no result where `dirpath[npos]` is read. -/
def findOutputDir (args : LoadArgs) (OutputPath tmppath : Bytes) :
    List (Bytes × K2hFtRule) → Option (Option Bool)
  | [] => some (some false)
  | (_, pRule2) :: rest =>
      if !S_ISDIR pRule2.Mode then
        match getParentDirpath (fullPath args pRule2.TargetPath) with
        | none => some none
        | some dirpath =>
            -- the directory of the rule, as a full path
            if dirpath ++ [SLASH] = OutputPath then some (some true)
            else findOutputDir args OutputPath tmppath rest
      else if pRule2.TargetPath = [] then
        -- `dirpath[dirpath.length() - 1]` of an empty target
        none
      else
        let dirpath :=
          if pRule2.TargetPath.getLast? ≠ some SLASH then pRule2.TargetPath ++ [SLASH]
          else pRule2.TargetPath
        if dirpath = tmppath then some (some true) else findOutputDir args OutputPath tmppath rest

/-- Whether an output file under the mount point is the target of a rule or in the directory of one. -/
def isOutputFile (tmppath : Bytes) (pRule2 : K2hFtRule) : Bool :=
  if !S_ISDIR pRule2.Mode then
    pRule2.TargetPath == tmppath
  else
    -- the file lies in the directory itself, not below it
    pRule2.TargetPath != tmppath && pRule2.TargetPath.isPrefixOf tmppath &&
      tmppath[pRule2.TargetPath.length]? == some SLASH &&
      tmppath.drop (pRule2.TargetPath.length + 1) != [] &&
      !(tmppath.drop (pRule2.TargetPath.length + 1)).contains SLASH

/-- `InitializeOutputFiles` for one rule: its new `OutputPath`, or false. -/
def initOutput (args : LoadArgs) (env : LoadEnv) (RuleMap : OrdMap Bytes K2hFtRule) (key : Bytes)
    (pRule : K2hFtRule) : Except Stop (Option Bytes) :=
  if pRule.OutputPath = [] then
    .ok (some [])
  else
    let isOutside := pRule.OutputPath.head? = some SLASH ∧
      args.mountPoint.isPrefixOf pRule.OutputPath = false
    let OutputPath := fullPath args pRule.OutputPath
    -- `substr` throws when the path is the mount point itself
    if S_ISDIR pRule.Mode ∧ pRule.OutputPath.getLast? = some SLASH then
      if isOutside then
        .ok ((env.mkdirByAbsPath key pRule.OutputPath.dropLast).map fun abspath => abspath ++ [SLASH])
      else if OutputPath.length < args.mountPoint.length + 1 then
        .error .fault
      else
        match findOutputDir args OutputPath (OutputPath.drop (args.mountPoint.length + 1))
          RuleMap.entries with
        | none => .error .fault
        | some none => .ok none
        | some (some found) => .ok (if found then some OutputPath else none)
    else if isOutside then
      -- a rule for a file has a directory as its output
      if pRule.OutputPath.getLast? = some SLASH then
        .ok none
      else
        match getParentDirpath pRule.OutputPath with
        | none => .ok none
        | some dirpath =>
            match env.mkdirByAbsPath key dirpath with
            | none => .ok none
            | some _ => .ok (env.makeFileByAbsPath key pRule.OutputPath pRule.Mode)
    else if OutputPath.length < args.mountPoint.length + 1 then
      .error .fault
    else if RuleMap.entries.any fun e =>
        isOutputFile (OutputPath.drop (args.mountPoint.length + 1)) e.2 then
      .ok (some OutputPath)
    else
      .ok none

/-- The loop of `InitializeOutputFiles` over the rules. -/
def initOutputs (args : LoadArgs) (env : LoadEnv) :
    List (Bytes × K2hFtRule) → OrdMap Bytes K2hFtRule → Except Stop (Option (OrdMap Bytes K2hFtRule))
  | [], RuleMap => .ok (some RuleMap)
  | (key, pRule) :: rest, RuleMap =>
      match initOutput args env RuleMap key pRule with
      | .error e => .error e
      | .ok none => .ok none
      | .ok (some OutputPath) =>
          initOutputs args env rest (RuleMap.insert key { pRule with OutputPath := OutputPath })

namespace K2hFtInfo

/-- `InitializeOutputFiles`. After the result false everything is cleaned, so what it did to the
rules before is left out. -/
def initializeOutputFiles (args : LoadArgs) (env : LoadEnv) (info : K2hFtInfo) :
    Except Stop (Bool × K2hFtInfo) := do
  info.derefAll
  match ← initOutputs args env info.RuleMap.entries info.RuleMap with
  | none => return (false, info.act (.output false))
  | some RuleMap => return (true, ({ info with RuleMap := RuleMap } : K2hFtInfo).act (.output true))

/-- `CheckBinaryMode`. -/
def checkBinaryMode (info : K2hFtInfo) : Except Stop K2hFtInfo :=
  if !info.IsBinaryMode then
    .ok (info.act (.binary false))
  else do
    info.derefAll
    -- in binary mode the patterns are dropped
    return ({ info with
      RuleMap := info.RuleMap.mapVals fun pRule => { pRule with MatchingList := [] } } :
        K2hFtInfo).act (.binary true)

/-- What a load that succeeded sets at its end. -/
def setLoaded (args : LoadArgs) (config : Bytes) (info : K2hFtInfo) : K2hFtInfo :=
  { info with
    Config := config
    DirMode := args.init_dmode
    DirUid := args.init_uid
    DirGid := args.init_gid }

end K2hFtInfo

end K2hFtFuse

import Mathlib.Data.List.Lex
import K2hFtFuse.Lib.Outcome
import K2hFtFuse.Lib.SpinLock
import K2hFtFuse.WriteBuff

/-!
# Info.State — the object of class `K2hFtInfo`

The settings and rules of a k2hftfuse process, with the lock that its operations take. A pointer to
a rule is the key under which the rule stands in `RuleMap`. `freedRules` are the keys whose rule was
deleted while the entry stayed: to look into such a rule is a fault. `acts` is the history of what
loading did.
-/

namespace K2hFtFuse

open ByteSeq SpinLock

/-- `K2HFT_K2HTPDTOR`. -/
def K2HFT_K2HTPDTOR : Bytes := ascii "libk2htpdtor.so.1"

/-- What a rule section says about lines: a value of `DEFAULTALL`, or a pattern of `ALLOW` or `DENY`
that could be built. -/
inductive AclEntry
  | defaultAll (deny : Bool)
  | pattern (allow : Bool) (ptn : K2hFtMatchPtn)
  deriving DecidableEq

/-- What loading a configuration does to the rules, in order: the rule of a section is put into
`RuleMap`, the outputs of all rules are prepared, the mode is checked, everything is cleaned. -/
inductive LoadAct
  | register (acl : List AclEntry) (rule : K2hFtRule)
  | output (result : Bool)
  | binary (mode : Bool)
  | clean
  deriving DecidableEq

/-- Class `K2hFtInfo`, and the limits that a configuration sets in class `K2hFtWriteBuff`. -/
structure K2hFtInfo where
  prule_lockval : Bool
  Config : Bytes
  IsMemType : Bool
  K2hFilePath : Bytes
  IsInitialize : Bool
  IsFullmap : Bool
  MaskBitCnt : Int32
  CMaskBitCnt : Int32
  MaxElementCnt : Int32
  PageSize : UInt64
  DtorThreadCnt : Int32
  DtorCtpPath : Bytes
  IsBinaryMode : Bool
  ExpireTime : Int64
  DirMode : UInt32
  DirUid : UInt32
  DirGid : UInt32
  InitTime : Timespec
  RuleMap : OrdMap Bytes K2hFtRule
  limits : BuffLimits
  freedRules : List Bytes
  acts : List LoadAct
  deriving DecidableEq

namespace K2hFtInfo

/-- The constructor without a configuration. -/
def start (now : Option Timespec) : K2hFtInfo :=
  { prule_lockval := false
    Config := []
    IsMemType := true
    K2hFilePath := []
    IsInitialize := true
    IsFullmap := true
    MaskBitCnt := 8
    CMaskBitCnt := 4
    MaxElementCnt := 32
    PageSize := 128
    DtorThreadCnt := 1
    DtorCtpPath := K2HFT_K2HTPDTOR
    IsBinaryMode := false
    ExpireTime := 0
    DirMode := 0
    DirUid := 0
    DirGid := 0
    InitTime := now.getD common_init_time
    RuleMap := ∅
    limits := BuffLimits.default
    freedRules := []
    acts := [] }

/-- `IsLoad`. -/
def isLoad (info : K2hFtInfo) : Bool := !info.Config.isEmpty

def locked (info : K2hFtInfo) : K2hFtInfo := { info with prule_lockval := true }

/-- `while(!fullock::flck_trylock_noshared_mutex(prule_lockval))`. -/
def lock (info : K2hFtInfo) : Except Stop K2hFtInfo :=
  if info.prule_lockval then .error .spin else .ok info.locked

/-- `fullock::flck_unlock_noshared_mutex(prule_lockval)`. -/
def unlock (info : K2hFtInfo) : K2hFtInfo := { info with prule_lockval := false }

/-- `iter->second` of the entry under `key`, about to be dereferenced. -/
def deref (info : K2hFtInfo) (key : Bytes) (rule : K2hFtRule) : Except Stop K2hFtRule :=
  if key ∈ info.freedRules then .error .fault else .ok rule

/-- A loop over all entries that looks into every rule. -/
def derefAll (info : K2hFtInfo) : Except Stop Unit :=
  if info.freedRules = [] then .ok () else .error .fault

/-- `RuleMap[key] = rule`. -/
def setRule (info : K2hFtInfo) (key : Bytes) (rule : K2hFtRule) : K2hFtInfo :=
  { info with RuleMap := info.RuleMap.insert key rule }

def act (info : K2hFtInfo) (a : LoadAct) : K2hFtInfo := { info with acts := info.acts ++ [a] }

/-- `Clean`: the values of the constructor, but the transfer mode and the expire time stay. -/
def clean (now : Option Timespec) (info : K2hFtInfo) : Except Stop K2hFtInfo := do
  let info :=
    { info with
      Config := []
      IsMemType := true
      K2hFilePath := []
      IsInitialize := true
      IsFullmap := true
      MaskBitCnt := 8
      CMaskBitCnt := 4
      MaxElementCnt := 32
      PageSize := 128
      DtorThreadCnt := 1
      DtorCtpPath := K2HFT_K2HTPDTOR
      DirMode := 0
      DirUid := 0
      DirGid := 0 }
  let info ← info.lock
  -- each rule is deleted, so none of them may be deleted already
  info.derefAll
  let info := ({ info with RuleMap := ∅ } : K2hFtInfo).unlock
  -- the time stays when the clock cannot be read
  return ({ info with InitTime := now.getD info.InitTime } : K2hFtInfo).act .clean

@[simp] theorem unlock_prule_lockval (info : K2hFtInfo) : info.unlock.prule_lockval = false := rfl

@[simp] theorem unlock_RuleMap (info : K2hFtInfo) : info.unlock.RuleMap = info.RuleMap := rfl

@[simp] theorem unlock_freedRules (info : K2hFtInfo) : info.unlock.freedRules = info.freedRules := rfl

@[simp] theorem locked_prule_lockval (info : K2hFtInfo) : info.locked.prule_lockval = true := rfl

@[simp] theorem locked_RuleMap (info : K2hFtInfo) : info.locked.RuleMap = info.RuleMap := rfl

@[simp] theorem locked_freedRules (info : K2hFtInfo) : info.locked.freedRules = info.freedRules := rfl

@[simp] theorem locked_isLoad (info : K2hFtInfo) : info.locked.isLoad = info.isLoad := rfl

@[simp] theorem locked_deref (info : K2hFtInfo) (key : Bytes) (rule : K2hFtRule) :
    info.locked.deref key rule = info.deref key rule := rfl

@[simp] theorem locked_unlock (info : K2hFtInfo) : info.locked.unlock = info.unlock := rfl

theorem unlock_of_free {info : K2hFtInfo} (h : info.prule_lockval = false) : info.unlock = info := by
  rcases info with ⟨⟩
  simp only at h
  simp [unlock, h]

theorem lock_eq_ok {info info' : K2hFtInfo} (h : info.lock = .ok info') :
    info.prule_lockval = false ∧ info' = info.locked := by
  unfold lock at h
  split at h
  · cases h
  · rename_i hfree
    exact ⟨by simpa using hfree, (Except.ok.inj h).symm⟩

theorem lock_of_free {info : K2hFtInfo} (h : info.prule_lockval = false) :
    info.lock = .ok info.locked := by
  simp [lock, h]

theorem lock_of_held {info : K2hFtInfo} (h : info.prule_lockval = true) :
    info.lock = .error .spin := by
  simp [lock, h]

theorem deref_eq_ok {info : K2hFtInfo} {key : Bytes} {rule rule' : K2hFtRule}
    (h : info.deref key rule = .ok rule') : rule' = rule := by
  unfold deref at h
  split at h
  · cases h
  · exact (Except.ok.inj h).symm

end K2hFtInfo

end K2hFtFuse

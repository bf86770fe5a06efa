import K2hFtFuse.Util

/-!
# Rule — rules and their matching patterns

The data of `k2hftinfo.h`: a rule decides which lines of a file are passed on, how matched lines
are rewritten and where the result goes. Regular expressions are those of `<regex.h>`; the engine
is a parameter.
-/

namespace K2hFtFuse

open ByteSeq

/-! ## Regular expressions -/

/-- `regmatch_t`. -/
structure RegMatch where
  rm_so : Int
  rm_eo : Int
  deriving DecidableEq

/-- `regcomp` and `regexec` with `REG_EXTENDED | REG_NEWLINE`. A compiled expression is its text;
`regexec` gives the match of each group. -/
structure RegexEngine where
  regcomp : Bytes → Bool
  regexec : Bytes → Bytes → Option (Nat → RegMatch)

/-- `INI_K2HFT_MAX_REPLACE_NUMBER`. -/
def INI_K2HFT_MAX_REPLACE_NUMBER : Int := 9

def K2HTFT_MAX_REG_MATCH : Int := INI_K2HFT_MAX_REPLACE_NUMBER + 1

/-! ## Patterns and rules -/

/-- `K2HFTREPPTN`: `matchno` is -1 for a static string, 0 for the whole match, else a group. -/
structure K2hFtRepPtn where
  matchno : Int
  substring : Bytes
  deriving DecidableEq

/-- `K2HFTMATCHPTN`. -/
structure K2hFtMatchPtn where
  IsRegex : Bool
  BaseString : Bytes
  ReplaceList : List K2hFtRepPtn
  deriving DecidableEq

/-- The pattern that a bare `new K2HFTMATCHPTN` is: it matches every line. -/
def K2hFtMatchPtn.any : K2hFtMatchPtn :=
  { IsRegex := false
    BaseString := []
    ReplaceList := [] }

/-- The configured part of `K2HFT_PLUGIN`. -/
structure K2hFtPluginInfo where
  BaseParam : Bytes
  OutputPath : Bytes
  PipeFilePath : Bytes
  mode : UInt32
  not_execute : Bool
  deriving DecidableEq

/-- `K2HFTRULE`. -/
structure K2hFtRule where
  TargetPath : Bytes
  IsTransfer : Bool
  OutputPath : Bytes
  pPlugin : Option K2hFtPluginInfo
  DefaultDenyAll : Bool
  Mode : UInt32
  Uid : UInt32
  Gid : UInt32
  AccumSize : Int64
  StartTime : Timespec
  LastTime : Timespec
  MatchingList : List K2hFtMatchPtn
  deriving DecidableEq

/-- `new K2HFTRULE`. -/
def K2hFtRule.fresh : K2hFtRule :=
  { TargetPath := []
    IsTransfer := false
    OutputPath := []
    pPlugin := none
    DefaultDenyAll := true
    Mode := 0
    Uid := 0
    Gid := 0
    AccumSize := 0
    StartTime := common_init_time
    LastTime := common_init_time
    MatchingList := [] }

/-! ## File modes -/

def S_IFMT : UInt32 := 0o170000
def S_IFDIR : UInt32 := 0o040000
def S_IFREG : UInt32 := 0o100000

/-- `S_IRWXU | S_IRWXG | S_IRWXO`. -/
def S_IRWXUGO : UInt32 := 0o777

def S_ISDIR (mode : UInt32) : Bool := mode &&& S_IFMT == S_IFDIR

/-- Permission bits do not say what kind of file it is. -/
theorem S_ISDIR_or {perm : UInt32} (h : perm &&& S_IFMT = 0) (mode : UInt32) :
    S_ISDIR (mode ||| perm) = S_ISDIR mode := by
  -- the mask reaches both parts, and it takes the permissions away
  have hmask : (mode ||| perm) &&& S_IFMT = (mode &&& S_IFMT) ||| (perm &&& S_IFMT) :=
    UInt32.toBitVec_inj.1 BitVec.and_or_distrib_right
  rw [S_ISDIR, hmask, h, UInt32.or_zero]
  rfl

theorem S_ISDIR_masked_or {perm : UInt32} (h : perm &&& S_IFMT = 0) (mask mode : UInt32) :
    S_ISDIR ((perm &&& mask) ||| mode) = S_ISDIR mode := by
  rw [UInt32.or_comm, S_ISDIR_or]
  calc (perm &&& mask) &&& S_IFMT
      = mask &&& (perm &&& S_IFMT) := by
        rw [UInt32.and_comm perm mask, UInt32.and_assoc]
    _ = 0 := by
        rw [h, UInt32.and_zero]

/-! ## The line filter -/

def CR : UInt8 := 13
def LF : UInt8 := 10

/-- `append_substring`: append the matched slice of `data`. -/
def appendSubstring (tgdata data : Bytes) (m : RegMatch) : Option Bytes :=
  if m.rm_eo = -1 then
    -- the group did not take part in the match
    some tgdata
  else if m.rm_so < 0 ∨ m.rm_eo < m.rm_so ∨ (data.length : Int) < m.rm_eo then
    -- offsets outside of the line are no slice of it
    none
  else
    some (tgdata ++ (data.drop m.rm_so.toNat).take (m.rm_eo - m.rm_so).toNat)

/-- Number of NUL bytes that end the first `len` bytes of the area `at?`. -/
def trailingNuls (byteAt : Nat → UInt8) : Nat → Nat
  | 0 => 0
  | len + 1 => if byteAt len = 0 then trailingNuls byteAt len + 1 else 0

/-- `append_lastword`. The final line end is that of `data`; the end of the target is found by
scanning `data` at the target's offset, past its end where the target is longer: `beyond` are the
bytes found there. -/
def appendLastword (beyond : Nat → UInt8) (tgdata data : Bytes) : Bytes :=
  let byteAt := fun i => data.getD i (beyond i)
  let lastpos := data.length - trailingNuls byteAt data.length
  let lastwords :=
    if lastpos = 0 then [LF]
    else if byteAt (lastpos - 1) = LF then [LF]
    else if byteAt (lastpos - 1) = CR then
      -- a CR behind an LF is read as the end `\r\n`
      if 2 < data.length ∧ byteAt (lastpos - 2) = LF then [CR, LF] else [CR]
    else [LF]
  let tgoffset := tgdata.length - trailingNuls byteAt tgdata.length
  tgdata.take tgoffset ++ lastwords ++ [0]

/-- `build_replace_result_data`. -/
def buildReplaceResultData (beyond : Nat → UInt8) (replist : List K2hFtRepPtn) (data : Bytes)
    (pmatches : Nat → RegMatch) : Option Bytes :=
  let result := replist.foldl (fun (presult : Option Bytes) ptn => do
    let tgdata ← presult
    -- the array of matches has one place for each number below the bound
    if K2HTFT_MAX_REG_MATCH ≤ ptn.matchno then
      none
    else if ptn.matchno < 0 then
      appendSubstring tgdata ptn.substring ⟨0, ptn.substring.length⟩
    else
      appendSubstring tgdata data (pmatches ptn.matchno.toNat)) (some [])
  result.map fun tgdata => appendLastword beyond tgdata data

/-- `strstr(data, base) != NULL`. -/
def strstr : Bytes → Bytes → Bool
  | [], base => base.isEmpty
  | b :: data, base => base.isPrefixOf (b :: data) || strstr data base

/-- One entry of the matching list on a line: the rewritten line of a regular expression, or the
line itself. -/
def K2hFtMatchPtn.hits (eng : RegexEngine) (ptn : K2hFtMatchPtn) (line : Bytes) : Bool :=
  if ptn.IsRegex then (eng.regexec ptn.BaseString line).isSome
  else ptn.BaseString.isEmpty || strstr line ptn.BaseString

/-- The line that `data` is for `strstr` and `regexec`. In text mode it always ends inside `data`. -/
def lineOf (data : Bytes) : Bytes := (cString? data).getD data

/-- The deny-by-default branch of `convert_to_output`: the first matching pattern decides. -/
def convertDenyAll (eng : RegexEngine) (beyond : Nat → UInt8) (data : Bytes) :
    List K2hFtMatchPtn → Option Bytes
  | [] => none
  | ptn :: rest =>
      if ptn.IsRegex then
        match eng.regexec ptn.BaseString (lineOf data) with
        -- a line that matches is rewritten
        | some pmatches => buildReplaceResultData beyond ptn.ReplaceList data pmatches
        | none => convertDenyAll eng beyond data rest
      else if ptn.hits eng (lineOf data) then some data
      else convertDenyAll eng beyond data rest

/-- The allow-by-default branch of `convert_to_output`: any match blocks the line. -/
def convertAllowAll (eng : RegexEngine) (data : Bytes) : List K2hFtMatchPtn → Option Bytes
  | [] => some data
  | ptn :: rest =>
      if ptn.hits eng (lineOf data) then none else convertAllowAll eng data rest

/-- `convert_to_output`. -/
def convertToOutput (eng : RegexEngine) (beyond : Nat → UInt8) (prule : K2hFtRule) (data : Bytes) :
    Option Bytes :=
  if prule.DefaultDenyAll then convertDenyAll eng beyond data prule.MatchingList
  else convertAllowAll eng data prule.MatchingList

/-- `K2hFtInfo::CvtPushData` for a handle that is the rule. -/
def cvtPushData (eng : RegexEngine) (beyond : Nat → UInt8) (pRule : K2hFtRule) (data : Bytes) :
    Option Bytes :=
  if data = [] then none else convertToOutput eng beyond pRule data

end K2hFtFuse

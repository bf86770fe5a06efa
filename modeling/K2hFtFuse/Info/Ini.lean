import K2hFtFuse.Info.Settings

/-!
# Info.Ini — `LoadIni`

The lines of a configuration, each with the answers of the calls that are made while it is read. An
inner loop of the source runs from the line that starts a section to the next such line, so a file is
a list of sections.
-/

namespace K2hFtFuse

open ByteSeq SpinLock

/-- A line that `read_ini_file_contents` gives, with what is met outside while it is read. -/
structure IniLine where
  text : Bytes
  env : LoadEnv

/-- A line that starts a section, with the lines up to the next one. -/
structure IniSection where
  header : IniLine
  body : List IniLine

/-- The lines before the first section, and the sections. -/
def splitSections : List IniLine → List IniLine × List IniSection
  | [] => ([], [])
  | line :: rest =>
      if isSectionLine line.text then
        ([], { header := line, body := (splitSections rest).1 } :: (splitSections rest).2)
      else
        (line :: (splitSections rest).1, (splitSections rest).2)

def iniSections (lines : List IniLine) : List IniSection := (splitSections lines).2

/-- `INI_K2HFT_MAIN_SEC_STR`. -/
def INI_K2HFT_MAIN_SEC_STR : Bytes := ascii "[K2HFTFUSE]"

/-- `INI_K2HFT_RULEDIR_SEC_STR`. -/
def INI_K2HFT_RULEDIR_SEC_STR : Bytes := ascii "[K2HFTFUSE_RULE_DIR]"

/-- `INI_K2HFT_RULE_SEC_STR`. -/
def INI_K2HFT_RULE_SEC_STR : Bytes := ascii "[K2HFTFUSE_RULE]"

/-! ## Rule sections -/

/-- The local variables of a rule section, with what the section says about lines. -/
structure IniRule where
  pTmpRule : K2hFtRule
  AllowMatchs : List K2hFtMatchPtn
  DenyMatchs : List K2hFtMatchPtn
  acl : List AclEntry

namespace IniRule

def fresh : IniRule :=
  { pTmpRule := K2hFtRule.fresh
    AllowMatchs := []
    DenyMatchs := []
    acl := [] }

end IniRule

/-- The pattern of an `ALLOW` or `DENY` value. There is none for a value that is skipped. -/
def iniPattern (lib : ConfLib) (env : LoadEnv) (value : Bytes) : Option K2hFtMatchPtn :=
  match parseIniValue lib value with
  | [] => some K2hFtMatchPtn.any
  | [strcompptn] => buildMatchPattern env.regcomp strcompptn []
  | [strcompptn, strrepptn] => buildMatchPattern env.regcomp strcompptn strrepptn
  -- too many words
  | _ => none

/-- One line of a rule section. -/
def loadIniRuleLine (lib : ConfLib) (sec : IniRule) (line : IniLine) : IniRule :=
  let (key, value) := parseIniLine lib line.text
  if key = ascii "ALLOW" ∨ key = ascii "DENY" then
    let is_key_allow := decide (key = ascii "ALLOW")
    match iniPattern lib line.env value with
    | none => sec
    | some pMatchPtn =>
        { sec with
          AllowMatchs := if is_key_allow then sec.AllowMatchs ++ [pMatchPtn] else sec.AllowMatchs
          DenyMatchs := if is_key_allow then sec.DenyMatchs else sec.DenyMatchs ++ [pMatchPtn]
          acl := sec.acl ++ [.pattern is_key_allow pMatchPtn] }
  else
    let (pTmpRule, said) :=
      loadRuleKey lib line.env (fun name => name == key) value sec.pTmpRule
    { sec with
      pTmpRule := pTmpRule
      acl := sec.acl ++ said }

def loadIniRuleLines (lib : ConfLib) (body : List IniLine) : IniRule :=
  body.foldl (loadIniRuleLine lib) IniRule.fresh

namespace K2hFtInfo

/-- A whole rule section. -/
def loadIniRuleSec (lib : ConfLib) (args : LoadArgs) (is_dir_rule : Bool) (body : List IniLine)
    (info : K2hFtInfo) : K2hFtInfo :=
  let sec := loadIniRuleLines lib body
  info.register sec.acl
    (finishRule args is_dir_rule info.InitTime sec.pTmpRule sec.AllowMatchs sec.DenyMatchs)

/-! ## The main section and the file -/

/-- The lines of the main section. -/
def loadIniMainLines (lib : ConfLib) : List IniLine → Op K2hFtInfo Bool
  | [], info => .ok (true, info)
  | line :: rest, info =>
      let (key, value) := parseIniLine lib line.text
      match info.loadMainKey lib line.env (fun name => name == key) value with
      | (false, info) => do
          let info ← info.clean (line.env.now 0)
          return (false, info)
      | (true, info) => loadIniMainLines lib rest info

/-- The sections of a file. The result false ends loading. -/
def loadIniSections (lib : ConfLib) (args : LoadArgs) :
    List IniSection → (set_main_sec : Bool) → Op K2hFtInfo Bool
  | [], _, info => .ok (true, info)
  | sec :: rest, set_main_sec, info =>
      if sec.header.text = INI_K2HFT_MAIN_SEC_STR then
        if set_main_sec then do
          -- a second main section
          let info ← info.clean (sec.header.env.now 0)
          return (false, info)
        else do
          let (result, info) ← loadIniMainLines lib sec.body info
          if !result then
            return (false, info)
          else if info.IsMemType && !info.K2hFilePath.isEmpty then
            -- `K2HTYPE` and `K2HFILE` contradict each other
            let info ← info.clean (sec.header.env.now 0)
            return (false, info)
          else
            loadIniSections lib args rest true info
      else if sec.header.text = INI_K2HFT_RULEDIR_SEC_STR ∨
          sec.header.text = INI_K2HFT_RULE_SEC_STR then
        loadIniSections lib args rest set_main_sec
          (info.loadIniRuleSec lib args (sec.header.text == INI_K2HFT_RULEDIR_SEC_STR) sec.body)
      else
        -- an unknown section
        loadIniSections lib args rest set_main_sec info

/-- What `LoadIni` does after the last line. -/
def finishIni (args : LoadArgs) (conffile : Bytes) (env : LoadEnv) : Op K2hFtInfo Bool := fun info =>
  if !info.mainValuesOk then do
    let info ← info.clean (env.now 0)
    return (false, info)
  else do
    let (result, info) ← info.initializeOutputFiles args env
    if !result then
      let info ← info.clean (env.now 0)
      return (false, info)
    else
      let info ← info.checkBinaryMode
      return (true, info.setLoaded args conffile)

/-- `LoadIni`; `lines` is the answer of `read_ini_file_contents`, and `env` is met after the last
line. -/
def loadIni (lib : ConfLib) (args : LoadArgs) (conffile : Bytes) (lines : Option (List IniLine))
    (env : LoadEnv) : Op K2hFtInfo Bool := fun info =>
  if conffile = [] then
    return (false, info)
  else if info.Config ≠ [] then
    return (false, info)
  else
    match lines with
    | none => return (false, info)
    | some lines => do
        let (result, info) ← loadIniSections lib args (iniSections lines) false info
        if !result then
          return (false, info)
        else
          finishIni args conffile env info

end K2hFtInfo

end K2hFtFuse

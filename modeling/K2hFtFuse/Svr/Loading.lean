import K2hFtFuse.Info.Yaml
import K2hFtFuse.Svr.Info

/-!
# Svr.Loading — how k2hftfusesvr loads its configuration

`K2hFtSvrInfo` with all its members, the formats that keys set, and its two loaders. They read the
same keys and make the same checks. `LoadIni` checks once, after the last line; `LoadYamlMainSec`
checks at the end of each `K2HFTFUSESVR` mapping, and nothing checks a stream without one.
-/

namespace K2hFtFuse

open ByteSeq

/-! ## Formats -/

/-- `get_string_content`. -/
def getStringContent (value : Bytes) : Bytes :=
  match value with
  | [] => []
  | c :: rest =>
      if c = INI_VALUE_AREA_CHAR then
        match splitLast INI_VALUE_AREA_CHAR rest with
        | none => rest
        | some (content, _) => content
      else
        value

/-- A text part of a time format, if there is text. -/
def timeText (form : Bytes) : List K2hFtSvrTimePart :=
  if form = [] then [] else [{ is_type_ns := false, form := form }]

/-- The loop of `build_time_part_list`; `form` is the text since the last `%-`. -/
def timeParts (form : Bytes) : Bytes → List K2hFtSvrTimePart
  | [] => timeText form
  | 37 :: 45 :: rest => timeText form ++ { is_type_ns := true, form := [] } :: timeParts [] rest
  | c :: rest => timeParts (form ++ [c]) rest

/-- `build_time_part_list`. -/
def buildTimePartList (form : Bytes) : List K2hFtSvrTimePart := timeParts [] (getStringContent form)

/-- A text part of an output format, if there is text. -/
def formText (form : Bytes) : List K2hFtSvrFormPart :=
  if form = [] then [] else [{ type := .STRING, form := form }]

/-- The part that a letter after `%` stands for. -/
def formPartType (c : UInt8) : Option K2hFtSvrFpt :=
  if c = 76 then some .CONTENTS
  else if c = 108 then some .TRIM_CONTENTS
  else if c = 84 ∨ c = 116 then some .TIME
  else if c = 102 then some .FILENAME
  else if c = 70 then some .FILEPATH
  else if c = 80 ∨ c = 112 then some .PID
  else if c = 72 ∨ c = 104 then some .HOSTNAME
  else none

/-- The value of a hexadecimal digit. -/
def hexDigit (c : UInt8) : Option UInt8 :=
  if 48 ≤ c ∧ c ≤ 57 then some (c - 48)
  else if 97 ≤ c ∧ c ≤ 102 then some (c - 97 + 10)
  else if 65 ≤ c ∧ c ≤ 70 then some (c - 65 + 10)
  else none

/-- The character that a backslash makes of a letter other than `0` and `x`. -/
def escapedChar (c : UInt8) : Option UInt8 :=
  if c = 92 ∨ c = 34 ∨ c = 39 ∨ c = 63 then some c
  else if c = 97 then some 7
  else if c = 98 then some 8
  else if c = 102 then some 12
  else if c = 110 then some 10
  else if c = 114 then some 13
  else if c = 116 then some 9
  else if 48 < c ∧ c ≤ 56 then some (c - 48)
  else none

/-- The loop of `build_form_part_list`; `form` is the text since the last part. -/
def formParts (form : Bytes) : Bytes → List K2hFtSvrFormPart
  | [] => formText form
  | c :: rest =>
      if c = 37 then
        match rest with
        | [] => formText form
        | letter :: rest =>
            if letter = 37 then
              formParts (form ++ [letter]) rest
            else
              match formPartType letter with
              | some type => formText form ++ { type := type, form := [] } :: formParts [] rest
              | none => formParts (form ++ [letter]) rest
      else if c = 92 then
        match rest with
        | [] => formText form
        | letter :: rest =>
            if letter = 48 then
              formText form
            else if letter = 120 then
              -- `convert_hex_to_char`
              match rest with
              | [] => formText form
              | high :: rest =>
                  match hexDigit high with
                  | none => formParts form rest
                  | some data =>
                      match rest with
                      | [] => formText (form ++ [data])
                      | low :: rest' =>
                          match hexDigit low with
                          | none => formParts (form ++ [data]) (low :: rest')
                          | some low => formParts (form ++ [data * 16 + low]) rest'
            else
              match escapedChar letter with
              | none => formParts form rest
              | some letter => formParts (form ++ [letter]) rest
      else
        formParts (form ++ [c]) rest

/-- `build_form_part_list`. -/
def buildFormPartList (form : Bytes) : List K2hFtSvrFormPart := formParts [] (getStringContent form)

/-! ## The members -/

/-- Class `K2hFtSvrInfo`. -/
structure K2hFtSvrConf extends K2hFtSvrInfo where
  Config : Bytes
  OutputBaseDir : Bytes
  UnifyFilePath : Bytes
  TransConfig : Bytes
  DtorCtpPath : Bytes
  IsTransK2hMemType : Bool
  TransK2hFilePath : Bytes
  IsTransK2hInit : Bool
  IsTransK2hFullmap : Bool
  TransK2hMaskBitCnt : Int32
  TransK2hCMaskBitCnt : Int32
  TransK2hEleCnt : Int32
  TransK2hPageSize : UInt64
  TransK2hThreadCnt : Int32
  deriving DecidableEq

def K2HFTFSVR_BOTH_TYPE : UInt64 := 3

/-- The values of the constructor, which are those that `Clean` sets. -/
def K2hFtSvrConf.start : K2hFtSvrConf :=
  { OutputType := K2HFTFSVR_FILE_TYPE
    IsBinaryMode := false
    IsNoConvert := false
    TimeFormat := []
    OutputFormat := []
    pluginpathmap := []
    Config := []
    OutputBaseDir := []
    UnifyFilePath := []
    TransConfig := []
    DtorCtpPath := K2HFT_K2HTPDTOR
    IsTransK2hMemType := true
    TransK2hFilePath := []
    IsTransK2hInit := true
    IsTransK2hFullmap := true
    TransK2hMaskBitCnt := 8
    TransK2hCMaskBitCnt := 4
    TransK2hEleCnt := 32
    TransK2hPageSize := 128
    TransK2hThreadCnt := 1 }

def K2hFtSvrConf.isLoad (conf : K2hFtSvrConf) : Bool := !conf.Config.isEmpty

def K2hFtSvrConf.isUnityFileMode (conf : K2hFtSvrConf) : Bool := !conf.UnifyFilePath.isEmpty

/-- `OutputPath` of the main loop. -/
def K2hFtSvrConf.outputPath (conf : K2hFtSvrConf) : Bytes :=
  if conf.isUnityFileMode then conf.UnifyFilePath else conf.OutputBaseDir

/-- The answers of the calls that a loader makes while it reads one line or event. -/
structure SvrLoadEnv where
  realpath : Bytes → Option Bytes
  rightCheckJsonString : Bytes → Bool
  mkdirByAbsPath : Bytes → Option Bytes
  makeFileByAbsPath : Bytes → UInt32 → Option Bytes
  addPluginInfo : K2hFtPluginInfo → Bool

/-- `check_path_real_path`. -/
def SvrLoadEnv.checkPathRealPath (env : SvrLoadEnv) (path : Bytes) : Option Bytes :=
  if path = [] then none else env.realpath path

/-! ## Keys -/

/-- A value of `TYPE`. -/
def outputType (lib : ConfLib) (value : Bytes) : Option UInt64 :=
  let value := lib.upper value
  if value = ascii "F" ∨ value = ascii "FILE" then some K2HFTFSVR_FILE_TYPE
  else if value = ascii "T" ∨ value = ascii "TRANS" ∨ value = ascii "TRANSFER" then
    some K2HFTFSVR_TRANS_TYPE
  else if value = ascii "B" ∨ value = ascii "BOTH" then some K2HFTFSVR_BOTH_TYPE
  else none

/-- The object and the local variable `pPlugin` while a main section is read. -/
structure SvrMainSec where
  conf : K2hFtSvrConf
  pPlugin : Option K2hFtPluginInfo
  deriving DecidableEq

namespace SvrMainSec

/-- One key of the main section, as `LoadIni` and `LoadYamlMainSec` both write it out; `is` tells whether
the key is a given one, which is what they differ in. After the result false everything is cleaned. -/
def loadMainKey (lib : ConfLib) (env : SvrLoadEnv) (is : Bytes → Bool) (value : Bytes)
    (sec : SvrMainSec) : Bool × SvrMainSec :=
  let conf := sec.conf
  if is (ascii "TYPE") then
    match outputType lib value with
    | none => (false, sec)
    | some type => (true, { sec with conf := { conf with OutputType := type } })
  else if is (ascii "FILE_BASEDIR") then
    match env.mkdirByAbsPath value with
    | none => (false, { sec with conf := { conf with OutputBaseDir := [] } })
    | some abspath => (true, { sec with conf := { conf with OutputBaseDir := abspath ++ [SLASH] } })
  else if is (ascii "FILE_UNIFY") then
    (true, { sec with conf := { conf with UnifyFilePath := value } })
  else if is (ascii "FILE_TIMEFORM") then
    (true, { sec with conf := { conf with TimeFormat := buildTimePartList value } })
  else if is (ascii "PLUGIN") then
    -- a plugin that the section has already is overwritten
    let pPlugin : K2hFtPluginInfo :=
      { BaseParam := value
        OutputPath := []
        PipeFilePath := []
        mode := 0
        not_execute := false }
    (true, { sec with pPlugin := some pPlugin })
  else if is (ascii "FORMAT") then
    (true, { sec with conf := { conf with OutputFormat := buildFormPartList value } })
  else if is (ascii "BINTRANS") then
    (true, { sec with conf :=
      { conf with IsBinaryMode := (yesNo lib value).getD conf.IsBinaryMode } })
  else if is (ascii "TRANSCONF") then
    -- the value is a JSON string, or else the path of a file
    if value ≠ [] ∧ env.rightCheckJsonString value = true then
      (true, { sec with conf := { conf with TransConfig := value } })
    else
      match env.checkPathRealPath value with
      | none => (false, { sec with conf := { conf with TransConfig := [] } })
      | some path => (true, { sec with conf := { conf with TransConfig := path } })
  else if is (ascii "K2HTYPE") then
    let value := lib.upper value
    if value = ascii "M" ∨ value = ascii "MEM" ∨ value = ascii "MEMORY" then
      (true, { sec with conf := { conf with IsTransK2hMemType := true } })
    else if value = ascii "T" ∨ value = ascii "TEMP" ∨ value = ascii "TEMPORARY" then
      (true, { sec with conf := { conf with IsTransK2hMemType := false } })
    else if value = ascii "F" ∨ value = ascii "FILE" then
      (true, { sec with conf := { conf with IsTransK2hMemType := false } })
    else
      -- an unknown value is skipped
      (true, sec)
  else if is (ascii "K2HFILE") then
    -- a path that is not there yet is taken as it is written
    (true, { sec with conf :=
      { conf with TransK2hFilePath := (env.checkPathRealPath value).getD value } })
  else if is (ascii "K2HFULLMAP") then
    (true, { sec with conf :=
      { conf with IsTransK2hFullmap := (yesNo lib value).getD conf.IsTransK2hFullmap } })
  else if is (ascii "K2HINIT") then
    (true, { sec with conf :=
      { conf with IsTransK2hInit := (yesNo lib value).getD conf.IsTransK2hInit } })
  else if is (ascii "K2HMASKBIT") then
    (true, { sec with conf := { conf with TransK2hMaskBitCnt := atoi value } })
  else if is (ascii "K2HCMASKBIT") then
    (true, { sec with conf := { conf with TransK2hCMaskBitCnt := atoi value } })
  else if is (ascii "K2HMAXELE") then
    (true, { sec with conf := { conf with TransK2hEleCnt := atoi value } })
  else if is (ascii "K2HPAGESIZE") then
    (true, { sec with conf := { conf with TransK2hPageSize := (atoll value).toUInt64 } })
  else if is (ascii "DTORTHREADCNT") then
    if atoi value ≤ 0 then (false, sec)
    else (true, { sec with conf := { conf with TransK2hThreadCnt := atoi value } })
  else if is (ascii "DTORCTP") then
    match env.checkPathRealPath value with
    | none => (false, { sec with conf := { conf with DtorCtpPath := K2HFT_K2HTPDTOR } })
    | some path => (true, { sec with conf := { conf with DtorCtpPath := path } })
  else
    (true, sec)

end SvrMainSec

/-! ## Checks -/

/-- The format `%L`. -/
def defaultFormat : List K2hFtSvrFormPart := [{ type := .CONTENTS, form := [] }]

/-- `S_IRUSR | S_IWUSR | S_IRGRP | S_IWGRP | S_IROTH | S_IWOTH`. -/
def outputFileMode : UInt32 := 0o666

namespace K2hFtSvrConf

/-- `pluginpathmap[pPlugin->OutputPath] = pPlugin`. -/
def addPlugin (conf : K2hFtSvrConf) (OutputPath : Bytes) : K2hFtSvrConf :=
  if conf.pluginpathmap.contains OutputPath then conf
  else { conf with pluginpathmap := conf.pluginpathmap ++ [OutputPath] }

/-- The format and `IsNoConvert`, which is false before. -/
def checkFormat (conf : K2hFtSvrConf) : K2hFtSvrConf :=
  match conf.OutputFormat with
  | [] =>
      { conf with
        OutputFormat := defaultFormat
        IsNoConvert := true }
  | [part] => if part.type = .CONTENTS then { conf with IsNoConvert := true } else conf
  | _ => conf

/-- Without transfer, its settings go. -/
def dropTransfer (conf : K2hFtSvrConf) : K2hFtSvrConf :=
  if conf.isTransMode then conf
  else
    { conf with
      TransConfig := []
      TransK2hFilePath := [] }

/-- Without file output, its settings go. -/
def dropFileOutput (conf : K2hFtSvrConf) : K2hFtSvrConf :=
  if conf.isOutputFileMode then conf
  else
    { conf with
      OutputBaseDir := []
      UnifyFilePath := []
      TimeFormat := []
      OutputFormat := [] }

/-- `UnifyFilePath` from a relative path to an absolute one. -/
def makeUnifyFile (env : SvrLoadEnv) (conf : K2hFtSvrConf) : Option K2hFtSvrConf :=
  if conf.UnifyFilePath = [] then
    some conf
  else
    (env.makeFileByAbsPath (conf.OutputBaseDir ++ conf.UnifyFilePath) outputFileMode).map
      fun path => { conf with UnifyFilePath := path }

/-- The plugin of the section goes to the plugin manager and to `pluginpathmap`. -/
def installPlugin (env : SvrLoadEnv) (pPlugin : Option K2hFtPluginInfo) (conf : K2hFtSvrConf) :
    Option K2hFtSvrConf :=
  match pPlugin with
  | none => some conf
  | some pPlugin =>
      let pPlugin :=
        { pPlugin with
          OutputPath := conf.outputPath
          mode := outputFileMode ||| S_IFREG
          not_execute := !conf.isUnityFileMode }
      if env.addPluginInfo pPlugin then some (conf.addPlugin pPlugin.OutputPath) else none

/-- The checks for file output; no result where they clean and return false. -/
def checkFileValues (env : SvrLoadEnv) (pPlugin : Option K2hFtPluginInfo) (conf : K2hFtSvrConf) :
    Option K2hFtSvrConf :=
  let conf := conf.dropTransfer
  if conf.OutputBaseDir = [] then
    none
  else
    (conf.makeUnifyFile env).bind fun conf => conf.checkFormat.installPlugin env pPlugin

/-- The checks for transfer; no result where they clean and return false. -/
def checkTransValues (conf : K2hFtSvrConf) : Option K2hFtSvrConf :=
  let conf := conf.dropFileOutput
  if conf.IsTransK2hMemType then
    some { conf with TransK2hFilePath := [], IsTransK2hInit := true }
  else if conf.TransK2hFilePath = [] then
    none
  else
    some conf

end K2hFtSvrConf

/-- `IsNoConvert = false`. -/
def K2hFtSvrConf.clearNoConvert (conf : K2hFtSvrConf) : K2hFtSvrConf :=
  { conf with IsNoConvert := false }

/-- The checks after a main section, as `LoadIni` and `LoadYamlMainSec` both write them out. -/
def SvrMainSec.checkValues (env : SvrLoadEnv) (sec : SvrMainSec) : Option K2hFtSvrConf :=
  let conf := sec.conf.clearNoConvert
  (if conf.isOutputFileMode then conf.checkFileValues env sec.pPlugin else some conf).bind
    fun conf => if conf.isTransMode then conf.checkTransValues else some conf

/-! ## `LoadIni` -/

/-- `INI_K2HFTSVR_MAIN_SEC_STR`. -/
def INI_K2HFTSVR_MAIN_SEC_STR : Bytes := ascii "[K2HFTFUSESVR]"

/-- A line that `read_ini_file_contents` gives, with what is met outside while it is read. -/
structure SvrIniLine where
  text : Bytes
  env : SvrLoadEnv

/-- The loops over the lines; no result where they clean and return false. `in_main_sec` tells that
the loop for the main section runs. -/
def loadSvrIniLines (lib : ConfLib) :
    List SvrIniLine → (in_main_sec set_main_sec : Bool) → SvrMainSec → Option SvrMainSec
  | [], _, _, sec => some sec
  | line :: rest, in_main_sec, set_main_sec, sec =>
      if in_main_sec && !isSectionLine line.text then
        let (key, value) := parseIniLine lib line.text
        match sec.loadMainKey lib line.env (fun name => name == key) value with
        | (false, _) => none
        | (true, sec) => loadSvrIniLines lib rest true set_main_sec sec
      else if line.text = INI_K2HFTSVR_MAIN_SEC_STR then
        if set_main_sec then none else loadSvrIniLines lib rest true true sec
      else
        -- the start of an unknown section, or a line outside the main section
        loadSvrIniLines lib rest false set_main_sec sec

namespace K2hFtSvrConf

/-- `LoadIni`; `lines` is the answer of `read_ini_file_contents`, and `env` is met after the last
line. -/
def loadIni (lib : ConfLib) (lines : Option (List SvrIniLine)) (env : SvrLoadEnv)
    (conf : K2hFtSvrConf) : Bool × K2hFtSvrConf :=
  match lines with
  | none => (false, conf)
  | some lines =>
      let sec : SvrMainSec :=
        { conf := conf
          pPlugin := none }
      match (loadSvrIniLines lib lines false false sec).bind fun sec => sec.checkValues env with
      | none => (false, start)
      | some conf => (true, conf)

end K2hFtSvrConf

/-! ## `LoadYaml` -/

/-- An event with what is met outside while it is handled. -/
structure SvrYamlRead where
  event : YamlEvent
  env : SvrLoadEnv

/-- Where the loader stands: in `LoadYamlTopLevel`, or in `LoadYamlMainSec` before the start of its
mapping or in its loop. -/
inductive SvrYamlPhase
  | top
  | mainStart
  | main (key : Bytes) (pPlugin : Option K2hFtPluginInfo)
  deriving DecidableEq

/-- What comes after an event. -/
inductive SvrYamlNext
  | continue (top : YamlTop) (phase : SvrYamlPhase)
  | done (result : Bool)
  deriving DecidableEq

/-- An event that means the same for `LoadYamlTopLevel` of `K2hFtInfo`. -/
def YamlNext.svr : YamlNext → SvrYamlNext
  | .continue top _ => .continue top .top
  | .done result => .done result

/-- An event in `LoadYamlTopLevel`; `is_set_main` never changes. -/
def svrYamlTopStep (stack : YamlDataStack) (top : YamlTop) (event : YamlEvent) : SvrYamlNext :=
  let skipping := !(top.other_stack.isEmpty || stack.empty top.other_stack)
  match event with
  | .scalar value =>
      if skipping || !top.in_stream || !top.in_document || !top.in_toplevel then
        (K2hFtInfo.yamlSkip stack top event).svr
      else if strcasecmp (ascii "K2HFTFUSESVR") value then
        .continue top .mainStart
      else
        (K2hFtInfo.yamlSkip stack top event).svr
  | _ => (K2hFtInfo.yamlTopStep stack top event).svr

namespace K2hFtSvrConf

/-- An event in the loop of `LoadYamlMainSec`. -/
def yamlMainStep (lib : ConfLib) (env : SvrLoadEnv) (top : YamlTop) (key : Bytes)
    (pPlugin : Option K2hFtPluginInfo) (event : YamlEvent) (conf : K2hFtSvrConf) :
    SvrYamlNext × K2hFtSvrConf :=
  let sec : SvrMainSec :=
    { conf := conf
      pPlugin := pPlugin }
  match event with
  | .mappingEnd =>
      match sec.checkValues env with
      | none => (.done false, start)
      | some conf => (.continue top .top, conf)
  | .scalar value =>
      if key = [] then
        (.continue top (.main value pPlugin), conf)
      else
        match sec.loadMainKey lib env (fun name => strcasecmp name key) value with
        | (false, _) => (.done false, start)
        | (true, sec) => (.continue top (.main [] sec.pPlugin), sec.conf)
  | _ => (.done false, start)

/-- One event. -/
def yamlStep (lib : ConfLib) (stack : YamlDataStack) (env : SvrLoadEnv) (top : YamlTop)
    (phase : SvrYamlPhase) (event : YamlEvent) (conf : K2hFtSvrConf) :
    SvrYamlNext × K2hFtSvrConf :=
  match phase with
  | .top => (svrYamlTopStep stack top event, conf)
  | .mainStart =>
      if event = .mappingStart then (.continue top (.main [] none), conf) else (.done false, conf)
  | .main key pPlugin => conf.yamlMainStep lib env top key pPlugin event

/-- `LoadYamlTopLevel` from where the loader stands. After the last event the parser fails. -/
def loadYamlEvents (lib : ConfLib) (stack : YamlDataStack) :
    List SvrYamlRead → YamlTop → SvrYamlPhase → K2hFtSvrConf → Bool × K2hFtSvrConf
  | [], _, .main _ _, _ => (false, start)
  | [], _, _, conf => (false, conf)
  | read :: rest, top, phase, conf =>
      match conf.yamlStep lib stack read.env top phase read.event with
      | (.done result, conf) => (result, conf)
      | (.continue top phase, conf) => loadYamlEvents lib stack rest top phase conf

/-- `LoadYaml`; there are no events when the parser cannot be set up or the file not be opened. -/
def loadYaml (lib : ConfLib) (stack : YamlDataStack) (events : Option (List SvrYamlRead))
    (conf : K2hFtSvrConf) : Bool × K2hFtSvrConf :=
  match events with
  | none => (false, conf)
  | some events => loadYamlEvents lib stack events YamlTop.fresh .top conf

end K2hFtSvrConf

/-- A configuration: what `check_chmconf_type` tells it to be, with what the loader reads of it. -/
inductive SvrConfSource
  | unknown
  | ini (lines : Option (List SvrIniLine)) (env : SvrLoadEnv)
  | yaml (events : Option (List SvrYamlRead))

namespace K2hFtSvrConf

def loadSource (lib : ConfLib) (stack : YamlDataStack) (source : SvrConfSource)
    (conf : K2hFtSvrConf) : Bool × K2hFtSvrConf :=
  match source with
  | .unknown => (false, conf)
  | .ini lines env => conf.loadIni lib lines env
  | .yaml events => conf.loadYaml lib stack events

/-- `Load`. -/
def load (lib : ConfLib) (stack : YamlDataStack) (config : Bytes) (source : SvrConfSource)
    (conf : K2hFtSvrConf) : Bool × K2hFtSvrConf :=
  if config = [] then
    (false, conf)
  else if conf.isLoad then
    (false, conf)
  else
    match conf.loadSource lib stack source with
    | (true, conf) => (true, { conf with Config := config })
    | (false, conf) => (false, conf)

end K2hFtSvrConf

end K2hFtFuse

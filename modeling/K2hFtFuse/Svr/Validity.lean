import K2hFtFuse.Svr.Loading

/-!
# Svr.Validity — what an accepted server configuration is

What a main section says is read once more without the loader: the type in force, the format, and
whether a plugin stays in `pluginpathmap`. The loader agrees with this reading line by line and event
by event, and its checks make the members fit together. Without a main section a stream meets no
check; and a plugin of one mapping stays when a later mapping of the stream switches file output off.
-/

namespace K2hFtFuse

open ByteSeq

/-! ## Validity -/

/-- What the checks of a main section leave. -/
structure K2hFtSvrConf.Checked (conf : K2hFtSvrConf) : Prop where
  file : conf.isOutputFileMode = true →
    conf.OutputBaseDir ≠ [] ∧ conf.OutputBaseDir.getLast? = some SLASH ∧ conf.OutputFormat ≠ [] ∧
      (conf.IsNoConvert = true ↔ conf.OutputFormat.map K2hFtSvrFormPart.type = [.CONTENTS])
  noTrans : conf.isTransMode = false → conf.TransConfig = [] ∧ conf.TransK2hFilePath = []
  noFile : conf.isOutputFileMode = false →
    conf.OutputBaseDir = [] ∧ conf.UnifyFilePath = [] ∧ conf.TimeFormat = [] ∧
      conf.OutputFormat = []
  trans : conf.isTransMode = true →
    (conf.IsTransK2hMemType = true → conf.TransK2hFilePath = [] ∧ conf.IsTransK2hInit = true) ∧
      (conf.IsTransK2hMemType = false → conf.TransK2hFilePath ≠ [])

/-- A valid server configuration. -/
structure K2hFtSvrConf.Valid (conf : K2hFtSvrConf) : Prop extends conf.Checked where
  noPlugin : conf.isOutputFileMode = false → conf.isPluginEmpty = true

/-! ## Reading a configuration -/

/-- The keys and values of the main section of an INI file. -/
def iniMainPairs (lib : ConfLib) : List Bytes → (in_main_sec : Bool) → List (Bytes × Bytes)
  | [], _ => []
  | line :: rest, in_main_sec =>
      if in_main_sec && !isSectionLine line then
        parseIniLine lib line :: iniMainPairs lib rest true
      else
        iniMainPairs lib rest (line == INI_K2HFTSVR_MAIN_SEC_STR)

/-- Where a reader of a stream stands; in a main section with its keys and values so far. -/
inductive SvrReadPhase
  | top
  | mainStart
  | main (key : Bytes) (pairs : List (Bytes × Bytes))
  deriving DecidableEq

def SvrYamlPhase.reading : SvrYamlPhase → SvrReadPhase
  | .top => .top
  | .mainStart => .mainStart
  | .main key _ => .main key []

/-- The keys and values of the `K2HFTFUSESVR` mappings of a stream that are read to their end. -/
def yamlMainSections (stack : YamlDataStack) :
    List YamlEvent → YamlTop → SvrReadPhase → List (List (Bytes × Bytes))
  | [], _, _ => []
  | event :: rest, top, .top =>
      match svrYamlTopStep stack top event with
      | .continue top phase => yamlMainSections stack rest top phase.reading
      | .done _ => []
  | event :: rest, top, .mainStart =>
      if event = .mappingStart then yamlMainSections stack rest top (.main [] []) else []
  | event :: rest, top, .main key pairs =>
      match event with
      | .mappingEnd => pairs :: yamlMainSections stack rest top .top
      | .scalar value =>
          if key = [] then yamlMainSections stack rest top (.main value pairs)
          else yamlMainSections stack rest top (.main [] (pairs ++ [(key, value)]))
      | _ => []

/-- What was read so far: the type in force, the format, whether the open section has a plugin, and
whether an earlier section left one. -/
structure SvrReading where
  OutputType : UInt64
  OutputFormat : List K2hFtSvrFormPart
  pPlugin : Bool
  plugins : Bool
  deriving DecidableEq

namespace SvrReading

def start : SvrReading :=
  { OutputType := K2HFTFSVR_FILE_TYPE
    OutputFormat := []
    pPlugin := false
    plugins := false }

def isOutputFileMode (r : SvrReading) : Bool :=
  r.OutputType &&& K2HFTFSVR_FILE_TYPE == K2HFTFSVR_FILE_TYPE

/-- One key with its value. -/
def readKey (lib : ConfLib) (is : Bytes → Bool) (value : Bytes) (r : SvrReading) : SvrReading :=
  if is (ascii "TYPE") then
    { r with OutputType := (outputType lib value).getD r.OutputType }
  else if is (ascii "PLUGIN") then
    { r with pPlugin := true }
  else if is (ascii "FORMAT") then
    { r with OutputFormat := buildFormPartList value }
  else
    r

/-- The end of a section: without file output the format goes and the plugin is ignored; with file
output the default format is `%L`. -/
def close (r : SvrReading) : SvrReading :=
  if r.isOutputFileMode then
    { r with
      OutputFormat := if r.OutputFormat = [] then defaultFormat else r.OutputFormat
      pPlugin := false
      plugins := r.plugins || r.pPlugin }
  else
    { r with
      OutputFormat := []
      pPlugin := false }

def readPairs (lib : ConfLib) (same : Bytes → Bytes → Bool) (pairs : List (Bytes × Bytes))
    (r : SvrReading) : SvrReading :=
  pairs.foldl (fun r p => r.readKey lib (fun name => same name p.1) p.2) r

/-- A whole section. -/
def readSection (lib : ConfLib) (same : Bytes → Bytes → Bool) (r : SvrReading)
    (pairs : List (Bytes × Bytes)) : SvrReading :=
  (r.readPairs lib same pairs).close

end SvrReading

namespace SvrConfSource

/-- The main sections of a configuration. An INI file is checked as one, also when it has none. -/
def mainSections (lib : ConfLib) (stack : YamlDataStack) :
    SvrConfSource → List (List (Bytes × Bytes))
  | .unknown => []
  | .ini lines _ => [iniMainPairs lib ((lines.getD []).map SvrIniLine.text) false]
  | .yaml events =>
      yamlMainSections stack ((events.getD []).map SvrYamlRead.event) YamlTop.fresh .top

/-- How keys are compared: INI keys are in upper case already. -/
def same : SvrConfSource → Bytes → Bytes → Bool
  | .yaml _ => strcasecmp
  | _ => fun name key => name == key

def reading (lib : ConfLib) (stack : YamlDataStack) (source : SvrConfSource) : SvrReading :=
  (source.mainSections lib stack).foldl (SvrReading.readSection lib source.same) SvrReading.start

/-- A stream has a main section, and when the type in force at its end is without file output, no
section before has left a plugin. An INI file always does. -/
def Configured (lib : ConfLib) (stack : YamlDataStack) (source : SvrConfSource) : Prop :=
  match source with
  | .yaml _ =>
      source.mainSections lib stack ≠ [] ∧
        ((source.reading lib stack).isOutputFileMode = false →
          (source.reading lib stack).plugins = false)
  | _ => True

end SvrConfSource

/-! ## The loader agrees with the reading -/

/-- No two names of keys are taken for the same key, upper and lower case aside. -/
def Distinguishes (is : Bytes → Bool) : Prop :=
  ∀ a b, is a = true → is b = true → strcasecmp a b = true

theorem distinguishes_eq (key : Bytes) : Distinguishes fun name => name == key := by
  intro a b ha hb
  have ha' : a = key := eq_of_beq ha
  have hb' : b = key := eq_of_beq hb
  rw [ha', hb']
  simp [strcasecmp]

theorem distinguishes_strcasecmp (key : Bytes) : Distinguishes fun name => strcasecmp name key := by
  intro a b ha hb
  have ha' : a.map toLower = key.map toLower := eq_of_beq ha
  have hb' : b.map toLower = key.map toLower := eq_of_beq hb
  simp [strcasecmp, ha', hb']

theorem Distinguishes.eq_false {is : Bytes → Bool} (h : Distinguishes is) {a b : Bytes}
    (ha : is a = true) (hne : strcasecmp a b = false) : is b = false := by
  rw [← Bool.not_eq_true]
  intro hb
  rw [h a b ha hb] at hne
  cases hne

/-- The object agrees with what was read. -/
structure SvrReading.Agrees (r : SvrReading) (sec : SvrMainSec) : Prop where
  OutputType : sec.conf.OutputType = r.OutputType
  OutputFormat : sec.conf.OutputFormat = r.OutputFormat
  pPlugin : sec.pPlugin.isSome = r.pPlugin
  plugins : sec.conf.isPluginEmpty = !r.plugins
  type : sec.conf.isOutputFileMode = true ∨ sec.conf.isTransMode = true
  baseDir : sec.conf.OutputBaseDir = [] ∨ sec.conf.OutputBaseDir.getLast? = some SLASH

theorem outputType_isSome {lib : ConfLib} {value : Bytes} {type : UInt64}
    (h : outputType lib value = some type) :
    (type &&& K2HFTFSVR_FILE_TYPE == K2HFTFSVR_FILE_TYPE) = true ∨
      (type &&& K2HFTFSVR_TRANS_TYPE == K2HFTFSVR_TRANS_TYPE) = true := by
  unfold outputType at h
  simp only at h
  split at h
  · cases h
    decide
  · split at h
    · cases h
      decide
    · split at h
      · cases h
        decide
      · cases h

/-- What is read is the same, and the base directory still ends in `/` if there is one. -/
structure SvrMainSec.SameReading (sec sec' : SvrMainSec) : Prop where
  OutputType : sec'.conf.OutputType = sec.conf.OutputType
  OutputFormat : sec'.conf.OutputFormat = sec.conf.OutputFormat
  pPlugin : sec'.pPlugin = sec.pPlugin
  pluginpathmap : sec'.conf.pluginpathmap = sec.conf.pluginpathmap
  baseDir : sec.conf.OutputBaseDir = [] ∨ sec.conf.OutputBaseDir.getLast? = some SLASH →
    sec'.conf.OutputBaseDir = [] ∨ sec'.conf.OutputBaseDir.getLast? = some SLASH

theorem sameReading_ite {sec : SvrMainSec} {c : Prop} [Decidable c] {x y : Bool × SvrMainSec}
    (hx : sec.SameReading x.2) (hy : sec.SameReading y.2) :
    sec.SameReading (if c then x else y).2 := by
  split
  · exact hx
  · exact hy

/-- A key that is none of those that are read says nothing about them. -/
theorem loadMainKey_other (lib : ConfLib) (env : SvrLoadEnv) {is : Bytes → Bool} (value : Bytes)
    (sec : SvrMainSec) (htype : is (ascii "TYPE") = false) (hplugin : is (ascii "PLUGIN") = false)
    (hformat : is (ascii "FORMAT") = false) :
    sec.SameReading (sec.loadMainKey lib env is value).2 := by
  simp only [SvrMainSec.loadMainKey, htype, hplugin, hformat, Bool.false_eq_true, if_false]
  -- the other keys in their order, each a write to one member
  repeat' first | refine sameReading_ite ?_ ?_ | exact ⟨rfl, rfl, rfl, rfl, id⟩
  · cases env.mkdirByAbsPath value
    · exact ⟨rfl, rfl, rfl, rfl, fun _ => .inl rfl⟩
    · exact ⟨rfl, rfl, rfl, rfl, fun _ => .inr List.getLast?_concat⟩
  · cases env.checkPathRealPath value <;> exact ⟨rfl, rfl, rfl, rfl, id⟩
  · cases env.checkPathRealPath value <;> exact ⟨rfl, rfl, rfl, rfl, id⟩

theorem agrees_loadMainKey {lib : ConfLib} {env : SvrLoadEnv} {is : Bytes → Bool}
    (his : Distinguishes is) {value : Bytes} {r : SvrReading} {sec sec' : SvrMainSec}
    (hagrees : r.Agrees sec) (h : sec.loadMainKey lib env is value = (true, sec')) :
    (r.readKey lib is value).Agrees sec' := by
  rcases hagrees with ⟨hOutputType, hOutputFormat, hpPlugin, hplugins, htype, hbaseDir⟩
  by_cases hkey : is (ascii "TYPE") = true
  · simp only [SvrMainSec.loadMainKey, hkey, if_true] at h
    simp only [SvrReading.readKey, hkey, if_true]
    rcases hout : outputType lib value with _ | type
    · -- an unknown type ends the load
      simp [hout] at h
    · simp only [hout, Prod.mk.injEq, true_and] at h
      subst h
      exact ⟨rfl, hOutputFormat, hpPlugin, hplugins, outputType_isSome hout, hbaseDir⟩
  · by_cases hkey' : is (ascii "PLUGIN") = true
    · -- the keys that are looked for before `PLUGIN` are not this one
      have hdir : is (ascii "FILE_BASEDIR") = false := his.eq_false hkey' (by decide +kernel)
      have hunify : is (ascii "FILE_UNIFY") = false := his.eq_false hkey' (by decide +kernel)
      have htime : is (ascii "FILE_TIMEFORM") = false := his.eq_false hkey' (by decide +kernel)
      simp only [SvrMainSec.loadMainKey, hkey, hkey', hdir, hunify, htime, Bool.false_eq_true,
        if_false, if_true, Prod.mk.injEq, true_and] at h
      subst h
      simp only [SvrReading.readKey, hkey, hkey', Bool.false_eq_true, if_false, if_true]
      exact ⟨hOutputType, hOutputFormat, rfl, hplugins, htype, hbaseDir⟩
    · by_cases hkey'' : is (ascii "FORMAT") = true
      · have hdir : is (ascii "FILE_BASEDIR") = false := his.eq_false hkey'' (by decide +kernel)
        have hunify : is (ascii "FILE_UNIFY") = false := his.eq_false hkey'' (by decide +kernel)
        have htime : is (ascii "FILE_TIMEFORM") = false := his.eq_false hkey'' (by decide +kernel)
        simp only [SvrMainSec.loadMainKey, hkey, hkey', hkey'', hdir, hunify, htime,
          Bool.false_eq_true, if_false, if_true, Prod.mk.injEq, true_and] at h
        subst h
        simp only [SvrReading.readKey, hkey, hkey', hkey'', Bool.false_eq_true, if_false, if_true]
        exact ⟨hOutputType, rfl, hpPlugin, hplugins, htype, hbaseDir⟩
      · rw [Bool.not_eq_true] at hkey hkey' hkey''
        have hsame : sec.SameReading sec' := by
          have hother := loadMainKey_other lib env value sec hkey hkey' hkey''
          rw [h] at hother
          exact hother
        simp only [SvrReading.readKey, hkey, hkey', hkey'', Bool.false_eq_true, if_false]
        refine ⟨hsame.OutputType.trans hOutputType, hsame.OutputFormat.trans hOutputFormat, ?_, ?_, ?_,
          hsame.baseDir hbaseDir⟩
        · rw [hsame.pPlugin, hpPlugin]
        · rw [K2hFtSvrInfo.isPluginEmpty, hsame.pluginpathmap]
          exact hplugins
        · rw [K2hFtSvrInfo.isOutputFileMode, K2hFtSvrInfo.isTransMode, hsame.OutputType]
          exact htype

/-! ## The checks -/

namespace K2hFtSvrConf

theorem isPluginEmpty_addPlugin (conf : K2hFtSvrConf) (OutputPath : Bytes) :
    (conf.addPlugin OutputPath).isPluginEmpty = false := by
  unfold addPlugin
  split
  · rename_i hcontains
    rw [K2hFtSvrInfo.isPluginEmpty, List.isEmpty_eq_false_iff]
    exact List.ne_nil_of_mem (List.contains_iff_mem.1 hcontains)
  · simp [K2hFtSvrInfo.isPluginEmpty]

/-- The format after its check, and what `IsNoConvert` says about it. -/
theorem checkFormat_spec (conf : K2hFtSvrConf) (hno : conf.IsNoConvert = false) :
    ∃ IsNoConvert,
      conf.checkFormat =
        { conf with
          OutputFormat := if conf.OutputFormat = [] then defaultFormat else conf.OutputFormat
          IsNoConvert := IsNoConvert } ∧
      (IsNoConvert = true ↔
        conf.checkFormat.OutputFormat.map K2hFtSvrFormPart.type = [.CONTENTS]) := by
  rcases hformat : conf.OutputFormat with _ | ⟨part, _ | ⟨part', rest⟩⟩
  · refine ⟨true, ?_, ?_⟩ <;> simp [checkFormat, defaultFormat, hformat]
  · by_cases htype : part.type = .CONTENTS
    · refine ⟨true, ?_, ?_⟩ <;> simp [checkFormat, hformat, htype]
    · have hsame : conf.checkFormat = conf := by simp [checkFormat, hformat, htype]
      refine ⟨conf.IsNoConvert, ?_, ?_⟩
      · rw [hsame, if_neg (List.cons_ne_nil part []), ← hformat]
      · simp [hsame, hformat, htype, hno]
  · have hsame : conf.checkFormat = conf := by simp [checkFormat, hformat]
    refine ⟨conf.IsNoConvert, ?_, ?_⟩
    · rw [hsame, if_neg (List.cons_ne_nil part _), ← hformat]
    · simp [hsame, hformat, hno]

theorem dropTransfer_spec (conf : K2hFtSvrConf) :
    ∃ TransConfig TransK2hFilePath,
      conf.dropTransfer =
        { conf with
          TransConfig := TransConfig
          TransK2hFilePath := TransK2hFilePath } ∧
      (conf.isTransMode = false → TransConfig = [] ∧ TransK2hFilePath = []) := by
  unfold dropTransfer
  split
  · rename_i htrans
    exact ⟨_, _, rfl, by simp [htrans]⟩
  · exact ⟨[], [], rfl, fun _ => ⟨rfl, rfl⟩⟩

theorem makeUnifyFile_spec {env : SvrLoadEnv} {conf conf' : K2hFtSvrConf}
    (h : conf.makeUnifyFile env = some conf') :
    ∃ UnifyFilePath, conf' = { conf with UnifyFilePath := UnifyFilePath } := by
  unfold makeUnifyFile at h
  split at h
  · exact ⟨conf.UnifyFilePath, (Option.some.inj h).symm⟩
  · rcases Option.map_eq_some_iff.1 h with ⟨path, -, rfl⟩
    exact ⟨path, rfl⟩

theorem installPlugin_spec {env : SvrLoadEnv} {pPlugin : Option K2hFtPluginInfo}
    {conf conf' : K2hFtSvrConf} (h : conf.installPlugin env pPlugin = some conf') :
    ∃ pluginpathmap,
      conf' = { conf with pluginpathmap := pluginpathmap } ∧
      pluginpathmap.isEmpty = (conf.isPluginEmpty && pPlugin.isNone) := by
  rcases pPlugin with _ | pPlugin
  · refine ⟨conf.pluginpathmap, (Option.some.inj h).symm, ?_⟩
    simp [K2hFtSvrInfo.isPluginEmpty]
  · simp only [installPlugin] at h
    split at h
    · have hadded := isPluginEmpty_addPlugin conf conf.outputPath
      rw [Option.some.inj h] at hadded
      refine ⟨conf'.pluginpathmap, ?_, by simpa [K2hFtSvrInfo.isPluginEmpty] using hadded⟩
      rw [← Option.some.inj h, addPlugin]
      split <;> rfl
    · cases h

/-- What the checks for file output leave as it is and what they set. -/
structure FileChecked (pPlugin : Option K2hFtPluginInfo) (conf conf' : K2hFtSvrConf) : Prop where
  dir : conf.OutputBaseDir ≠ []
  OutputType : conf'.OutputType = conf.OutputType
  OutputBaseDir : conf'.OutputBaseDir = conf.OutputBaseDir
  OutputFormat : conf'.OutputFormat =
    if conf.OutputFormat = [] then defaultFormat else conf.OutputFormat
  IsNoConvert : conf'.IsNoConvert = true ↔
    conf'.OutputFormat.map K2hFtSvrFormPart.type = [.CONTENTS]
  noTrans : conf.isTransMode = false → conf'.TransConfig = [] ∧ conf'.TransK2hFilePath = []
  plugins : conf'.isPluginEmpty = (conf.isPluginEmpty && pPlugin.isNone)

theorem checkFileValues_spec {env : SvrLoadEnv} {pPlugin : Option K2hFtPluginInfo}
    {conf conf' : K2hFtSvrConf} (hno : conf.IsNoConvert = false)
    (h : conf.checkFileValues env pPlugin = some conf') : FileChecked pPlugin conf conf' := by
  rcases dropTransfer_spec conf with ⟨TransConfig, TransK2hFilePath, hdrop, htrans⟩
  simp only [checkFileValues, hdrop] at h
  split at h
  · cases h
  · rename_i hdir
    rcases Option.bind_eq_some_iff.1 h with ⟨conf₁, hunify, hinstall⟩
    rcases makeUnifyFile_spec hunify with ⟨UnifyFilePath, rfl⟩
    rcases checkFormat_spec
      { conf with
        TransConfig := TransConfig
        TransK2hFilePath := TransK2hFilePath
        UnifyFilePath := UnifyFilePath } hno with ⟨IsNoConvert, hformat, hconvert⟩
    rw [hformat] at hinstall hconvert
    rcases installPlugin_spec hinstall with ⟨pluginpathmap, rfl, hplugins⟩
    exact ⟨hdir, rfl, rfl, rfl, hconvert, htrans, hplugins⟩

theorem dropFileOutput_of_file {conf : K2hFtSvrConf} (hfile : conf.isOutputFileMode = true) :
    conf.dropFileOutput = conf := by
  simp [dropFileOutput, hfile]

theorem dropFileOutput_of_noFile {conf : K2hFtSvrConf} (hfile : conf.isOutputFileMode = false) :
    conf.dropFileOutput =
      { conf with
        OutputBaseDir := []
        UnifyFilePath := []
        TimeFormat := []
        OutputFormat := [] } := by
  simp [dropFileOutput, hfile]

/-- What the checks for transfer leave as it is, and how the transfer k2hash fits. -/
structure TransChecked (conf conf' : K2hFtSvrConf) : Prop where
  OutputType : conf'.OutputType = conf.OutputType
  OutputBaseDir : conf'.OutputBaseDir = conf.OutputBaseDir
  UnifyFilePath : conf'.UnifyFilePath = conf.UnifyFilePath
  TimeFormat : conf'.TimeFormat = conf.TimeFormat
  OutputFormat : conf'.OutputFormat = conf.OutputFormat
  IsNoConvert : conf'.IsNoConvert = conf.IsNoConvert
  pluginpathmap : conf'.pluginpathmap = conf.pluginpathmap
  memory : conf'.IsTransK2hMemType = true → conf'.TransK2hFilePath = [] ∧ conf'.IsTransK2hInit = true
  file : conf'.IsTransK2hMemType = false → conf'.TransK2hFilePath ≠ []

theorem checkTransValues_spec {conf conf' : K2hFtSvrConf} (h : conf.checkTransValues = some conf') :
    TransChecked conf.dropFileOutput conf' := by
  simp only [checkTransValues] at h
  split at h
  · rename_i hmem
    obtain rfl := Option.some.inj h
    exact ⟨rfl, rfl, rfl, rfl, rfl, rfl, rfl, fun _ => ⟨rfl, rfl⟩, by simp [hmem]⟩
  · rename_i hmem
    split at h
    · cases h
    · rename_i hpath
      obtain rfl := Option.some.inj h
      exact ⟨rfl, rfl, rfl, rfl, rfl, rfl, rfl, fun hmem' => absurd hmem' hmem, fun _ => hpath⟩

end K2hFtSvrConf

/-- The object after a section, with no plugin waiting. -/
def K2hFtSvrConf.closed (conf : K2hFtSvrConf) : SvrMainSec :=
  { conf := conf
    pPlugin := none }

theorem SvrReading.Agrees.isOutputFileMode {r : SvrReading} {sec : SvrMainSec}
    (h : r.Agrees sec) : r.isOutputFileMode = sec.conf.isOutputFileMode := by
  rw [SvrReading.isOutputFileMode, K2hFtSvrInfo.isOutputFileMode, h.OutputType]

/-- The end of a section with file output. -/
theorem agrees_close_file {r : SvrReading} {sec : SvrMainSec} {conf : K2hFtSvrConf}
    (hagrees : r.Agrees sec) (hfile : sec.conf.isOutputFileMode = true)
    (hOutputType : conf.OutputType = sec.conf.OutputType)
    (hOutputBaseDir : conf.OutputBaseDir = sec.conf.OutputBaseDir)
    (hOutputFormat : conf.OutputFormat =
      if sec.conf.OutputFormat = [] then defaultFormat else sec.conf.OutputFormat)
    (hplugins : conf.isPluginEmpty = (sec.conf.isPluginEmpty && sec.pPlugin.isNone)) :
    r.close.Agrees conf.closed := by
  have hread : r.isOutputFileMode = true := hagrees.isOutputFileMode.trans hfile
  simp only [SvrReading.close, hread, if_true]
  refine ⟨hOutputType.trans hagrees.OutputType, ?_, rfl, ?_, .inl ?_, ?_⟩
  · exact hOutputFormat.trans (by rw [hagrees.OutputFormat])
  · -- a plugin is there when it was, or when the section has one
    calc
      conf.isPluginEmpty = (sec.conf.isPluginEmpty && sec.pPlugin.isNone) := hplugins
      _ = (!r.plugins && !r.pPlugin) := by
          rw [hagrees.plugins, ← hagrees.pPlugin, Option.not_isSome]
      _ = !(r.plugins || r.pPlugin) := (Bool.not_or _ _).symm
  · rw [← hfile]
    exact congrArg (fun t => t &&& K2HFTFSVR_FILE_TYPE == K2HFTFSVR_FILE_TYPE) hOutputType
  · show conf.OutputBaseDir = [] ∨ conf.OutputBaseDir.getLast? = some SLASH
    rw [hOutputBaseDir]
    exact hagrees.baseDir

/-- The end of a section without file output. -/
theorem agrees_close_noFile {r : SvrReading} {sec : SvrMainSec} {conf : K2hFtSvrConf}
    (hagrees : r.Agrees sec) (hfile : sec.conf.isOutputFileMode = false)
    (hOutputType : conf.OutputType = sec.conf.OutputType) (hOutputBaseDir : conf.OutputBaseDir = [])
    (hOutputFormat : conf.OutputFormat = [])
    (hplugins : conf.pluginpathmap = sec.conf.pluginpathmap) : r.close.Agrees conf.closed := by
  have hread : r.isOutputFileMode = false := hagrees.isOutputFileMode.trans hfile
  simp only [SvrReading.close, hread, Bool.false_eq_true, if_false]
  refine ⟨hOutputType.trans hagrees.OutputType, hOutputFormat, rfl, ?_, ?_, .inl hOutputBaseDir⟩
  · show conf.pluginpathmap.isEmpty = _
    rw [hplugins]
    exact hagrees.plugins
  · have htype := hagrees.type
    rw [K2hFtSvrInfo.isOutputFileMode, K2hFtSvrInfo.isTransMode, ← hOutputType] at htype
    exact htype

/-- What the checks of the file output give. -/
theorem fileChecked_output {r : SvrReading} {sec : SvrMainSec} {conf' : K2hFtSvrConf}
    (hagrees : r.Agrees sec)
    (hchecked : K2hFtSvrConf.FileChecked sec.pPlugin sec.conf.clearNoConvert conf') :
    conf'.OutputBaseDir ≠ [] ∧ conf'.OutputBaseDir.getLast? = some SLASH ∧
      conf'.OutputFormat ≠ [] ∧
      (conf'.IsNoConvert = true ↔ conf'.OutputFormat.map K2hFtSvrFormPart.type = [.CONTENTS]) := by
  refine ⟨?_, ?_, ?_, hchecked.IsNoConvert⟩
  · rw [hchecked.OutputBaseDir]
    exact hchecked.dir
  · rw [hchecked.OutputBaseDir]
    exact hagrees.baseDir.resolve_left hchecked.dir
  · rw [hchecked.OutputFormat]
    split
    · simp [defaultFormat]
    · assumption

/-- Output to files alone. -/
theorem agrees_checkFile {r : SvrReading} {sec : SvrMainSec} {conf' : K2hFtSvrConf}
    (hagrees : r.Agrees sec) (hfile : sec.conf.isOutputFileMode = true)
    (hnoTrans : sec.conf.isTransMode = false)
    (hchecked : K2hFtSvrConf.FileChecked sec.pPlugin sec.conf.clearNoConvert conf') :
    r.close.Agrees conf'.closed ∧ conf'.Checked := by
  have hfile' : conf'.isOutputFileMode = true := by
    rw [K2hFtSvrInfo.isOutputFileMode, hchecked.OutputType]
    exact hfile
  have htrans' : conf'.isTransMode = false := by
    rw [K2hFtSvrInfo.isTransMode, hchecked.OutputType]
    exact hnoTrans
  refine ⟨agrees_close_file hagrees hfile hchecked.OutputType hchecked.OutputBaseDir
    hchecked.OutputFormat hchecked.plugins, ?_⟩
  -- of the four parts of `Checked`, file output and no transfer are the ones that say something
  constructor
  · exact fun _ => fileChecked_output hagrees hchecked
  · exact fun _ => hchecked.noTrans hnoTrans
  · intro hno
    rw [hfile'] at hno
    cases hno
  · intro hyes
    rw [htrans'] at hyes
    cases hyes

/-- Output to files and transfer. -/
theorem agrees_checkBoth {r : SvrReading} {sec : SvrMainSec} {conf₁ conf' : K2hFtSvrConf}
    (hagrees : r.Agrees sec) (hfile : sec.conf.isOutputFileMode = true)
    (htrans : sec.conf.isTransMode = true)
    (hchecked : K2hFtSvrConf.FileChecked sec.pPlugin sec.conf.clearNoConvert conf₁)
    (htransChecked : K2hFtSvrConf.TransChecked conf₁ conf') :
    r.close.Agrees conf'.closed ∧ conf'.Checked := by
  have houtput := htransChecked.OutputType.trans hchecked.OutputType
  have hfile' : conf'.isOutputFileMode = true := by
    rw [K2hFtSvrInfo.isOutputFileMode, houtput]
    exact hfile
  have htrans' : conf'.isTransMode = true := by
    rw [K2hFtSvrInfo.isTransMode, houtput]
    exact htrans
  have hplugins : conf'.isPluginEmpty = conf₁.isPluginEmpty := by
    rw [K2hFtSvrInfo.isPluginEmpty, htransChecked.pluginpathmap, K2hFtSvrInfo.isPluginEmpty]
  refine ⟨agrees_close_file hagrees hfile houtput
    (htransChecked.OutputBaseDir.trans hchecked.OutputBaseDir)
    (htransChecked.OutputFormat.trans hchecked.OutputFormat)
    (hplugins.trans hchecked.plugins), ?_⟩
  constructor
  · intro _
    rw [htransChecked.OutputBaseDir, htransChecked.OutputFormat, htransChecked.IsNoConvert]
    exact fileChecked_output hagrees hchecked
  · intro hno
    rw [htrans'] at hno
    cases hno
  · intro hno
    rw [hfile'] at hno
    cases hno
  · exact fun _ => ⟨htransChecked.memory, htransChecked.file⟩

/-- Transfer alone. -/
theorem agrees_checkTrans {r : SvrReading} {sec : SvrMainSec} {conf' : K2hFtSvrConf}
    (hagrees : r.Agrees sec) (hnoFile : sec.conf.isOutputFileMode = false)
    (htrans : sec.conf.isTransMode = true)
    (htransChecked :
      K2hFtSvrConf.TransChecked sec.conf.clearNoConvert.dropFileOutput conf') :
    r.close.Agrees conf'.closed ∧ conf'.Checked := by
  have hmode : sec.conf.clearNoConvert.isOutputFileMode = false := hnoFile
  rw [K2hFtSvrConf.dropFileOutput_of_noFile hmode] at htransChecked
  refine ⟨agrees_close_noFile hagrees hnoFile htransChecked.OutputType htransChecked.OutputBaseDir
    htransChecked.OutputFormat htransChecked.pluginpathmap, ?_⟩
  constructor
  · intro hyes
    rw [K2hFtSvrInfo.isOutputFileMode, htransChecked.OutputType] at hyes
    exact absurd (hnoFile.symm.trans hyes) (by decide)
  · intro hno
    rw [K2hFtSvrInfo.isTransMode, htransChecked.OutputType] at hno
    exact absurd (htrans.symm.trans hno) (by decide)
  · intro _
    exact ⟨htransChecked.OutputBaseDir, htransChecked.UnifyFilePath, htransChecked.TimeFormat,
      htransChecked.OutputFormat⟩
  · exact fun _ => ⟨htransChecked.memory, htransChecked.file⟩

/-- The checks make the members fit together and agree with the reading of the end of the section. -/
theorem agrees_checkValues {env : SvrLoadEnv} {r : SvrReading} {sec : SvrMainSec}
    {conf' : K2hFtSvrConf} (hagrees : r.Agrees sec) (h : sec.checkValues env = some conf') :
    r.close.Agrees conf'.closed ∧ conf'.Checked := by
  rcases Option.bind_eq_some_iff.1 h with ⟨conf₁, hvalues, htransfer⟩
  cases hfile : sec.conf.isOutputFileMode with
  | true =>
      have hmode : sec.conf.clearNoConvert.isOutputFileMode = true := hfile
      rw [if_pos hmode] at hvalues
      have hchecked := K2hFtSvrConf.checkFileValues_spec rfl hvalues
      have hfile₁ : conf₁.isOutputFileMode = true := by
        rw [K2hFtSvrInfo.isOutputFileMode, hchecked.OutputType]
        exact hfile
      have htrans₁ : conf₁.isTransMode = sec.conf.isTransMode := by
        rw [K2hFtSvrInfo.isTransMode, hchecked.OutputType]
        rfl
      cases htrans : sec.conf.isTransMode with
      | false =>
          rw [htrans₁, htrans, if_neg Bool.false_ne_true] at htransfer
          obtain rfl := Option.some.inj htransfer
          exact agrees_checkFile hagrees hfile htrans hchecked
      | true =>
          rw [if_pos (htrans₁.trans htrans)] at htransfer
          have htransChecked := K2hFtSvrConf.checkTransValues_spec htransfer
          rw [K2hFtSvrConf.dropFileOutput_of_file hfile₁] at htransChecked
          exact agrees_checkBoth hagrees hfile htrans hchecked htransChecked
  | false =>
      -- a type is never without both outputs
      have htrans : sec.conf.isTransMode = true := by
        rcases hagrees.type with hyes | hyes
        · rw [hfile] at hyes
          cases hyes
        · exact hyes
      have hmode : sec.conf.clearNoConvert.isOutputFileMode = false := hfile
      rw [hmode, if_neg Bool.false_ne_true] at hvalues
      obtain rfl := Option.some.inj hvalues
      have htrans₁ : sec.conf.clearNoConvert.isTransMode = true := htrans
      rw [if_pos htrans₁] at htransfer
      exact agrees_checkTrans hagrees hfile htrans (K2hFtSvrConf.checkTransValues_spec htransfer)

/-! ## Whole files and streams -/

/-- The lines of an INI file. -/
theorem agrees_iniLines {lib : ConfLib} {lines : List SvrIniLine} {in_main_sec set_main_sec : Bool}
    {r : SvrReading} {sec sec' : SvrMainSec} (hagrees : r.Agrees sec)
    (h : loadSvrIniLines lib lines in_main_sec set_main_sec sec = some sec') :
    (r.readPairs lib (fun name key => name == key)
      (iniMainPairs lib (lines.map SvrIniLine.text) in_main_sec)).Agrees sec' := by
  induction lines generalizing in_main_sec set_main_sec r sec with
  | nil =>
      obtain rfl := Option.some.inj h
      exact hagrees
  | cons line rest ih =>
      simp only [loadSvrIniLines] at h
      simp only [List.map_cons, iniMainPairs]
      by_cases hkey : (in_main_sec && !isSectionLine line.text) = true
      · -- a key of the main section
        rw [if_pos hkey] at h ⊢
        rcases hload : sec.loadMainKey lib line.env
          (fun name => name == (parseIniLine lib line.text).1) (parseIniLine lib line.text).2 with
          ⟨result, sec₁⟩
        simp only [hload] at h
        cases result with
        | false => cases h
        | true => exact ih (agrees_loadMainKey (distinguishes_eq _) hagrees hload) h
      · rw [if_neg hkey] at h ⊢
        by_cases hheader : line.text = INI_K2HFTSVR_MAIN_SEC_STR
        · rw [if_pos hheader] at h
          rw [hheader, beq_self_eq_true]
          split at h
          · -- a second main section ends the load
            cases h
          · exact ih hagrees h
        · rw [if_neg hheader] at h
          rw [beq_eq_false_iff_ne.2 hheader]
          exact ih hagrees h

/-- The loader and the reader stand at the same place, and the object agrees with what was read. -/
inductive ReadsSame (lib : ConfLib) (r : SvrReading) :
    SvrYamlPhase → SvrReadPhase → K2hFtSvrConf → Prop
  | top {conf} (h : r.Agrees conf.closed) : ReadsSame lib r .top .top conf
  | mainStart {conf} (h : r.Agrees conf.closed) : ReadsSame lib r .mainStart .mainStart conf
  | main {conf key pPlugin pairs} (h : (r.readPairs lib strcasecmp pairs).Agrees ⟨conf, pPlugin⟩) :
      ReadsSame lib r (.main key pPlugin) (.main key pairs) conf

def SvrReadPhase.inMain : SvrReadPhase → Bool
  | .main _ _ => true
  | _ => false

theorem svr_eq_continue {next : YamlNext} {top : YamlTop} {phase : SvrYamlPhase}
    (h : next.svr = .continue top phase) : phase = .top := by
  cases next with
  | «continue» top' phase' =>
      cases h
      rfl
  | done result => cases h

/-- The top level does not go on inside a main section. -/
theorem svrYamlTopStep_continue {stack : YamlDataStack} {top top' : YamlTop} {event : YamlEvent}
    {phase : SvrYamlPhase} (h : svrYamlTopStep stack top event = .continue top' phase) :
    phase = .top ∨ phase = .mainStart := by
  cases event with
  | scalar value =>
      simp only [svrYamlTopStep] at h
      split at h
      · exact .inl (svr_eq_continue h)
      · split at h
        · cases h
          exact .inr rfl
        · exact .inl (svr_eq_continue h)
  | _ =>
      simp only [svrYamlTopStep] at h
      exact .inl (svr_eq_continue h)

/-- The events of a stream. -/
theorem agrees_yamlEvents {lib : ConfLib} {stack : YamlDataStack} {events : List SvrYamlRead}
    {top : YamlTop} {phase : SvrYamlPhase} {at_ : SvrReadPhase} {r : SvrReading}
    {conf conf' : K2hFtSvrConf} (hsame : ReadsSame lib r phase at_ conf)
    (h : K2hFtSvrConf.loadYamlEvents lib stack events top phase conf = (true, conf')) :
    ((yamlMainSections stack (events.map SvrYamlRead.event) top at_).foldl
      (SvrReading.readSection lib strcasecmp) r).Agrees conf'.closed ∧
    (yamlMainSections stack (events.map SvrYamlRead.event) top at_ ≠ [] ∧ conf'.Checked ∨
      yamlMainSections stack (events.map SvrYamlRead.event) top at_ = [] ∧ at_.inMain = false ∧
        conf' = conf) := by
  induction events generalizing top phase at_ r conf with
  | nil =>
      -- a stream that breaks off is not accepted
      cases hsame <;> cases h
  | cons read rest ih =>
      simp only [List.map_cons]
      cases hsame with
      | top hagrees =>
          simp only [K2hFtSvrConf.loadYamlEvents, K2hFtSvrConf.yamlStep] at h
          simp only [yamlMainSections]
          cases hstep : svrYamlTopStep stack top read.event with
          | done result =>
              simp only [hstep, Prod.mk.injEq] at h ⊢
              rcases h with ⟨-, rfl⟩
              exact ⟨hagrees, .inr ⟨trivial, rfl, rfl⟩⟩
          | «continue» top' phase =>
              simp only [hstep] at h ⊢
              rcases svrYamlTopStep_continue hstep with rfl | rfl
              · exact ih (.top hagrees) h
              · exact ih (.mainStart hagrees) h
      | mainStart hagrees =>
          simp only [K2hFtSvrConf.loadYamlEvents, K2hFtSvrConf.yamlStep] at h
          simp only [yamlMainSections]
          by_cases hstart : read.event = .mappingStart
          · simp only [hstart, if_true] at h ⊢
            have hnone : (r.readPairs lib strcasecmp []).Agrees conf.closed := hagrees
            rcases ih (.main hnone) h with ⟨hfinal, hsections | ⟨-, hmain, -⟩⟩
            · exact ⟨hfinal, .inl hsections⟩
            · cases hmain
          · simp [hstart] at h
      | @main _ key pPlugin pairs hagrees =>
          simp only [K2hFtSvrConf.loadYamlEvents, K2hFtSvrConf.yamlStep] at h
          cases hevent : read.event with
          | mappingEnd =>
              simp only [hevent, K2hFtSvrConf.yamlMainStep] at h
              simp only [yamlMainSections, List.foldl_cons]
              rcases hcheck : SvrMainSec.checkValues read.env ⟨conf, pPlugin⟩ with _ | conf₁
              · simp [hcheck] at h
              · simp only [hcheck] at h
                rcases agrees_checkValues hagrees hcheck with ⟨hclosed, hchecked⟩
                -- the last main section of the stream is the one whose checks count
                rcases ih (.top hclosed) h with ⟨hfinal, ⟨-, hlast⟩ | ⟨-, -, rfl⟩⟩
                · exact ⟨hfinal, .inl ⟨List.cons_ne_nil _ _, hlast⟩⟩
                · exact ⟨hfinal, .inl ⟨List.cons_ne_nil _ _, hchecked⟩⟩
          | scalar value =>
              simp only [hevent, K2hFtSvrConf.yamlMainStep] at h
              simp only [yamlMainSections]
              by_cases hempty : key = []
              · -- the scalar is a key, else the value of the key before
                rw [if_pos hempty] at h ⊢
                rcases ih (.main hagrees) h with ⟨hfinal, hsections | ⟨-, hmain, -⟩⟩
                · exact ⟨hfinal, .inl hsections⟩
                · cases hmain
              · rw [if_neg hempty] at h ⊢
                rcases hload : SvrMainSec.loadMainKey lib read.env (fun name => strcasecmp name key)
                  value ⟨conf, pPlugin⟩ with ⟨result, sec⟩
                simp only [hload] at h
                cases result with
                | false => simp at h
                | true =>
                    have hnext := agrees_loadMainKey (distinguishes_strcasecmp key) hagrees hload
                    have hpairs : (r.readPairs lib strcasecmp (pairs ++ [(key, value)])).Agrees sec := by
                      rw [SvrReading.readPairs, List.foldl_append]
                      exact hnext
                    rcases ih (.main hpairs) h with ⟨hfinal, hsections | ⟨-, hmain, -⟩⟩
                    · exact ⟨hfinal, .inl hsections⟩
                    · cases hmain
          | _ => simp [hevent, K2hFtSvrConf.yamlMainStep] at h

/-! ## Accepted configurations -/

theorem agrees_start : SvrReading.start.Agrees K2hFtSvrConf.start.closed :=
  ⟨rfl, rfl, rfl, rfl, .inl rfl, .inl rfl⟩

/-- A source that is accepted agrees with its reading, and was checked if it has a main section. -/
theorem loadSource_agrees {lib : ConfLib} {stack : YamlDataStack} {source : SvrConfSource}
    {conf : K2hFtSvrConf} (h : K2hFtSvrConf.start.loadSource lib stack source = (true, conf)) :
    (source.reading lib stack).Agrees conf.closed ∧
      (source.mainSections lib stack ≠ [] ∧ conf.Checked ∨
        source.mainSections lib stack = [] ∧ conf = K2hFtSvrConf.start) := by
  cases source with
  | unknown =>
      cases h
  | ini lines env =>
      rcases lines with _ | lines
      · cases h
      · simp only [K2hFtSvrConf.loadSource, K2hFtSvrConf.loadIni] at h
        split at h
        · cases h
        · rename_i conf' hload
          cases h
          rcases Option.bind_eq_some_iff.1 hload with ⟨sec, hlines, hcheck⟩
          rcases agrees_checkValues (agrees_iniLines agrees_start hlines) hcheck with
            ⟨hclosed, hchecked⟩
          exact ⟨hclosed, .inl ⟨List.cons_ne_nil _ _, hchecked⟩⟩
  | yaml events =>
      rcases events with _ | events
      · cases h
      · rcases agrees_yamlEvents (.top agrees_start) h with ⟨hfinal, hsections | ⟨hnone, -, rfl⟩⟩
        · exact ⟨hfinal, .inl hsections⟩
        · exact ⟨hfinal, .inr ⟨hnone, rfl⟩⟩

theorem load_eq_true {lib : ConfLib} {stack : YamlDataStack} {config : Bytes}
    {source : SvrConfSource} {conf conf' : K2hFtSvrConf}
    (h : conf.load lib stack config source = (true, conf')) :
    ∃ conf₁, conf.loadSource lib stack source = (true, conf₁) ∧
      conf' = { conf₁ with Config := config } := by
  unfold K2hFtSvrConf.load at h
  split at h
  · cases h
  · split at h
    · cases h
    · split at h
      · rename_i conf₁ hsource
        cases h
        exact ⟨conf₁, hsource, rfl⟩
      · cases h

theorem readPairs_plugins (lib : ConfLib) (same : Bytes → Bytes → Bool)
    (pairs : List (Bytes × Bytes)) (r : SvrReading) :
    (r.readPairs lib same pairs).plugins = r.plugins := by
  induction pairs generalizing r with
  | nil =>
      rfl
  | cons p rest ih =>
      have hkey : (r.readKey lib (fun name => same name p.1) p.2).plugins = r.plugins := by
        unfold SvrReading.readKey
        repeat' split
        all_goals rfl
      exact (ih _).trans hkey

/-- One section alone leaves no plugin without file output. -/
theorem readSection_start_plugins (lib : ConfLib) (same : Bytes → Bytes → Bool)
    (pairs : List (Bytes × Bytes))
    (hfile : (SvrReading.start.readSection lib same pairs).isOutputFileMode = false) :
    (SvrReading.start.readSection lib same pairs).plugins = false := by
  have hplugins := readPairs_plugins lib same pairs SvrReading.start
  unfold SvrReading.readSection SvrReading.close at hfile ⊢
  split
  · rename_i hmode
    rw [if_pos hmode] at hfile
    exact absurd (hmode.symm.trans hfile) (by decide)
  · exact hplugins

theorem noPlugin_iff {r : SvrReading} {conf : K2hFtSvrConf} (hagrees : r.Agrees conf.closed) :
    (conf.isOutputFileMode = false → conf.isPluginEmpty = true) ↔
      (r.isOutputFileMode = false → r.plugins = false) := by
  have hfile : r.isOutputFileMode = conf.isOutputFileMode := hagrees.isOutputFileMode
  have hplugins : conf.isPluginEmpty = !r.plugins := hagrees.plugins
  rw [hfile, hplugins, Bool.not_eq_true']

/-- **Server configuration validity.** A configuration that is accepted is valid exactly when it is an
INI file, or a stream with a main section in which no plugin is left over without file output. -/
theorem load_valid_iff (lib : ConfLib) (stack : YamlDataStack) (config : Bytes)
    (source : SvrConfSource) {conf : K2hFtSvrConf}
    (hload : K2hFtSvrConf.start.load lib stack config source = (true, conf)) :
    conf.Valid ↔ source.Configured lib stack := by
  rcases load_eq_true hload with ⟨conf₁, hsource, rfl⟩
  rcases loadSource_agrees hsource with ⟨hagrees, hsections⟩
  have hplugin := noPlugin_iff hagrees
  cases source with
  | unknown => cases hsource
  | ini lines env =>
      refine iff_of_true ?_ trivial
      rcases hsections with ⟨-, hchecked⟩ | ⟨hnone, -⟩
      · exact ⟨⟨hchecked.file, hchecked.noTrans, hchecked.noFile, hchecked.trans⟩,
          hplugin.2 (readSection_start_plugins lib _ _)⟩
      · cases hnone
  | yaml events =>
      rcases hsections with ⟨hne, hchecked⟩ | ⟨hnone, rfl⟩
      · constructor
        · intro hvalid
          exact ⟨hne, hplugin.1 hvalid.noPlugin⟩
        · intro hconf
          exact ⟨⟨hchecked.file, hchecked.noTrans, hchecked.noFile, hchecked.trans⟩,
            hplugin.2 hconf.2⟩
      · -- nothing was checked: file output without a base directory
        refine iff_of_false ?_ fun hconf => hconf.1 hnone
        intro hvalid
        have hmode : K2hFtSvrConf.start.isOutputFileMode = true := by decide
        exact (hvalid.file hmode).1 rfl

/-- Every path is there. -/
def plainSvrEnv : SvrLoadEnv :=
  { realpath := some
    rightCheckJsonString := fun _ => false
    mkdirByAbsPath := some
    makeFileByAbsPath := fun path _ => some path
    addPluginInfo := fun _ => true }

/-- A stream with these events in its top mapping. -/
def svrStream (events : List YamlEvent) : SvrConfSource :=
  let before : List YamlEvent := [.streamStart, .documentStart, .mappingStart]
  let after : List YamlEvent := [.mappingEnd, .documentEnd, .streamEnd]
  .yaml (some ((before ++ events ++ after).map fun event =>
    { event := event
      env := plainSvrEnv }))

/-- A `K2HFTFUSESVR` mapping. -/
def svrSection (pairs : List (Bytes × Bytes)) : List YamlEvent :=
  [.scalar (ascii "K2HFTFUSESVR"), .mappingStart] ++
    pairs.flatMap (fun p => [.scalar p.1, .scalar p.2]) ++ [.mappingEnd]

def fileSection : List YamlEvent := svrSection [(ascii "FILE_BASEDIR", ascii "/out")]

theorem load_valid_iff_fileSection :
    ∃ conf, K2hFtSvrConf.start.load plainLib plainStack (ascii "a.yaml") (svrStream fileSection) =
        (true, conf) ∧ conf.Valid := by
  have haccepted : (K2hFtSvrConf.start.load plainLib plainStack (ascii "a.yaml")
      (svrStream fileSection)).1 = true := by
    decide +kernel
  rcases hload : K2hFtSvrConf.start.load plainLib plainStack (ascii "a.yaml")
    (svrStream fileSection) with ⟨result, conf⟩
  rw [hload] at haccepted
  obtain rfl : result = true := haccepted
  refine ⟨conf, rfl, (load_valid_iff plainLib plainStack _ _ hload).2 ⟨?_, ?_⟩⟩
  · decide +kernel
  · decide +kernel

/-- The empty mapping is accepted with file output and no base directory. -/
theorem emptyMapping_accepted :
    (K2hFtSvrConf.start.load plainLib plainStack (ascii "\x7b\x7d") (svrStream [])).1 = true ∧
      ¬ (K2hFtSvrConf.start.load plainLib plainStack (ascii "\x7b\x7d") (svrStream [])).2.Valid := by
  have hdir : (K2hFtSvrConf.start.load plainLib plainStack (ascii "\x7b\x7d")
      (svrStream [])).2.OutputBaseDir = [] := by
    decide +kernel
  refine ⟨by decide +kernel, ?_⟩
  intro hvalid
  exact (hvalid.file (by decide +kernel)).1 hdir

end K2hFtFuse

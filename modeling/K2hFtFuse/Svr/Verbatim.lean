import K2hFtFuse.Svr.Processing
import K2hFtFuse.Svr.Validity

/-!
# Svr.Verbatim — received data in binary mode

In binary mode `ConvertOutput` converts nothing and returns false, so only what needs no conversion
is written. Whether a configuration needs one depends on its format alone.
-/

namespace K2hFtFuse

open ByteSeq

variable {env : SvrEnv} {info : K2hFtSvrInfo} {filepath : Bytes}

theorem readsInside_of_binary (hbin : info.IsBinaryMode = true) (r : K2hFtLine) :
    ReadsInside info r := by
  intro hprint
  simp [K2hFtSvrInfo.printsContents, hbin] at hprint

/-- Without conversion the data of a line are put as they are. -/
theorem putList_of_noConvert (hbin : info.IsBinaryMode = true) (hcvt : info.IsNoConvert = true)
    (lines : List K2hFtLine) :
    putList env info filepath lines = lines.map K2hFtLine.body := by
  induction lines with
  | nil =>
      rfl
  | cons r rest ih =>
      have hdata : recordData env info filepath r = some (some r.body) := by
        simp [recordData, K2hFtSvrInfo.isNeedConvert, hcvt]
      have hput : putData info r.body = r.body := by
        simp [putData, hbin]
      simp only [putList, hdata, hput, ih, List.map_cons]

/-- With conversion nothing is put. -/
theorem putList_of_needConvert (hbin : info.IsBinaryMode = true) (hcvt : info.IsNoConvert = false)
    (lines : List K2hFtLine) : putList env info filepath lines = [] := by
  rcases lines with _ | ⟨r, rest⟩
  · rfl
  · -- the first line is refused, and the loop ends with it
    have hdata : recordData env info filepath r = some none := by
      have hrefused : ∀ src, convertOutput env.text info src = some none := by
        intro src
        rw [convertOutput, if_pos hbin, ite_self]
      simp [recordData, K2hFtSvrInfo.isNeedConvert, hcvt, hrefused]
    simp only [putList, hdata]

/-- Two lines of data are not two empty ones. -/
theorem take_bodies_ne (lines : List K2hFtLine) :
    (lines.map K2hFtLine.body).take 2 ≠ [[], []] := by
  rcases lines with _ | ⟨r, _ | ⟨r', rest⟩⟩
  · simp
  · simp
  · have hbody : r.body ≠ [] := List.ne_nil_of_length_pos r.body_pos
    simp [hbody]

/-- The file mode in binary mode. -/
theorem processFile_binary (env : SvrEnv) (hbin : info.IsBinaryMode = true)
    (hplugin : info.isPluginEmpty = true) {key value ppid : Bytes}
    (hkey : parseK2hFtKey key = some (filepath, ppid)) {lines : List K2hFtLine}
    (hvalue : buildK2hFtValue lines = some value) (IsUnityMode : Bool) (OutputPath : Bytes) :
    processFile env info IsUnityMode OutputPath key value =
      some
        { fileWrites :=
            if info.IsNoConvert then
              [(if IsUnityMode then OutputPath else OutputPath ++ filepath,
                lines.flatMap K2hFtLine.body)]
            else []
          pluginWrites := []
          transSets := [] } := by
  have hne : lines ≠ [] := by
    rintro rfl
    cases hvalue
  rw [processFile_eq env hplugin hkey hvalue fun r _ => readsInside_of_binary hbin r]
  cases hcvt : info.IsNoConvert with
  | true =>
      -- no body is empty, so `realloc` is never asked for 0 bytes
      have htake : ¬ (env.zero = .freesBlock ∧ (lines.map K2hFtLine.body).take 2 = [[], []]) :=
        fun h => take_bodies_ne lines h.2
      have hbodies : lines.map K2hFtLine.body ≠ [] := by simpa using hne
      rw [putList_of_noConvert hbin hcvt, if_neg htake, if_neg hbodies, if_pos rfl,
        List.flatMap_def]
  | false =>
      have htake : ¬ (env.zero = .freesBlock ∧ ([] : List Bytes).take 2 = [[], []]) := by simp
      rw [putList_of_needConvert hbin hcvt, if_neg htake, if_pos rfl, if_neg Bool.false_ne_true]

/-- What a value of lines has done when it is received in binary mode without a plugin. -/
def WrittenVerbatim (env : SvrEnv) (conf : K2hFtSvrConf) (body filepath : Bytes)
    (lines : List K2hFtLine) : Prop :=
  ∃ effects,
    processing env conf.toK2hFtSvrInfo conf.isUnityFileMode conf.outputPath body =
      some (true, effects) ∧
    effects.fileWrites =
      [(if conf.isUnityFileMode then conf.outputPath else conf.outputPath ++ filepath,
        lines.flatMap K2hFtLine.body)] ∧
    effects.pluginWrites = []

/-- The lines are written as they are exactly when they need no conversion. -/
theorem writtenVerbatim_iff_noConvert {conf : K2hFtSvrConf} (hbin : conf.IsBinaryMode = true)
    (hfile : conf.isOutputFileMode = true) (hplugin : conf.isPluginEmpty = true) (env : SvrEnv)
    {body key value filepath ppid : Bytes} {lines : List K2hFtLine}
    (htotal : env.scom_total_length body = body.length)
    (hparse : env.parseBinCom body = some (key, value))
    (hkey : parseK2hFtKey key = some (filepath, ppid))
    (hvalue : buildK2hFtValue lines = some value) :
    WrittenVerbatim env conf body filepath lines ↔ conf.IsNoConvert = true := by
  have hprocessing : processing env conf.toK2hFtSvrInfo conf.isUnityFileMode conf.outputPath body =
      some (true,
        { fileWrites :=
            if conf.IsNoConvert then
              [(if conf.isUnityFileMode then conf.outputPath else conf.outputPath ++ filepath,
                lines.flatMap K2hFtLine.body)]
            else []
          pluginWrites := []
          transSets := if conf.isTransMode then [(key, value)] else [] }) := by
    rw [processing_of_file htotal hparse hfile, processFile_binary env hbin hplugin hkey hvalue]
    rfl
  constructor
  · rintro ⟨effects, heffects, hwrites, -⟩
    rw [hprocessing] at heffects
    simp only [Option.some.injEq, Prod.mk.injEq, true_and] at heffects
    rw [← heffects] at hwrites
    by_contra hcvt
    simp [hcvt] at hwrites
  · intro hcvt
    exact ⟨_, hprocessing, by simp [hcvt], rfl⟩

/-- **Binary mode.** With an accepted configuration in binary mode, with file output and no plugin,
the received data are written as they are exactly when the format in force is the part `%L` alone. -/
theorem processing_verbatim_iff (lib : ConfLib) (stack : YamlDataStack) (config : Bytes)
    (source : SvrConfSource) {conf : K2hFtSvrConf}
    (hload : K2hFtSvrConf.start.load lib stack config source = (true, conf))
    (hsection : source.mainSections lib stack ≠ []) (hbin : conf.IsBinaryMode = true)
    (hfile : conf.isOutputFileMode = true) (hplugin : conf.isPluginEmpty = true)
    (env : SvrEnv) (body key value filepath ppid : Bytes) (lines : List K2hFtLine)
    (htotal : env.scom_total_length body = body.length)
    (hparse : env.parseBinCom body = some (key, value))
    (hkey : parseK2hFtKey key = some (filepath, ppid))
    (hvalue : buildK2hFtValue lines = some value) :
    WrittenVerbatim env conf body filepath lines ↔
      (source.reading lib stack).OutputFormat.map K2hFtSvrFormPart.type = [.CONTENTS] := by
  rw [writtenVerbatim_iff_noConvert hbin hfile hplugin env htotal hparse hkey hvalue]
  rcases load_eq_true hload with ⟨conf₁, hsource, rfl⟩
  rcases loadSource_agrees hsource with ⟨hagrees, ⟨-, hchecked⟩ | ⟨hnone, -⟩⟩
  · have hformat : conf₁.OutputFormat = (source.reading lib stack).OutputFormat :=
      hagrees.OutputFormat
    rw [← hformat]
    exact (hchecked.file hfile).2.2.2
  · exact absurd hnone hsection

/-! ## Two formats -/

/-- A stream for binary data with the given format. -/
def binaryStream (format : Bytes) : SvrConfSource :=
  svrStream (svrSection [(ascii "FILE_BASEDIR", ascii "/out"), (ascii "BINTRANS", ascii "yes"),
    (ascii "FORMAT", format)])

def binaryConf (format : Bytes) : K2hFtSvrConf :=
  (K2hFtSvrConf.start.load plainLib plainStack (ascii "a.yaml") (binaryStream format)).2

/-- The message with one line. -/
def binaryBody : Bytes := frame sampleKey (sampleValue [lineA])

theorem processing_verbatim_iff_contents :
    WrittenVerbatim (SvrEnv.framed .freesBlock) (binaryConf (ascii "%L")) binaryBody (ascii "/log")
      [lineA] := by
  have haccepted : (K2hFtSvrConf.start.load plainLib plainStack (ascii "a.yaml")
      (binaryStream (ascii "%L"))).1 = true := by
    decide +kernel
  have hload : K2hFtSvrConf.start.load plainLib plainStack (ascii "a.yaml")
      (binaryStream (ascii "%L")) = (true, binaryConf (ascii "%L")) := Prod.ext haccepted rfl
  apply (processing_verbatim_iff plainLib plainStack (ascii "a.yaml") (binaryStream (ascii "%L"))
    hload (by decide +kernel) (by decide +kernel) (by decide +kernel) (by decide +kernel)
    (SvrEnv.framed .freesBlock) binaryBody sampleKey (sampleValue [lineA]) (ascii "/log")
    (decimal 1) [lineA] rfl (parseBinCom_frame .freesBlock sampleKey (by decide) _)
    parseK2hFtKey_sampleKey (buildK2hFtValue_sampleValue (by simp) (by decide))).2
  decide +kernel

/-- With the format `%H %L` the configuration is accepted, and the line is lost. -/
theorem formatted_binary_lost :
    (K2hFtSvrConf.start.load plainLib plainStack (ascii "a.yaml")
      (binaryStream (ascii "%H %L"))).1 = true ∧
    ¬ WrittenVerbatim (SvrEnv.framed .freesBlock) (binaryConf (ascii "%H %L")) binaryBody
      (ascii "/log") [lineA] := by
  have hvalue : buildK2hFtValue [lineA] = some (sampleValue [lineA]) :=
    buildK2hFtValue_sampleValue (by simp) (by decide)
  have hcvt : (binaryConf (ascii "%H %L")).IsNoConvert = false := by decide +kernel
  refine ⟨by decide +kernel, ?_⟩
  intro hwritten
  have hno := (writtenVerbatim_iff_noConvert (by decide +kernel) (by decide +kernel)
    (by decide +kernel) (SvrEnv.framed .freesBlock) rfl
    (parseBinCom_frame .freesBlock sampleKey (by decide) _) parseK2hFtKey_sampleKey hvalue).1
    hwritten
  rw [hcvt] at hno
  cases hno

end K2hFtFuse

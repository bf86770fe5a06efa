import K2hFtFuse.Util

/-!
# Svr.Info — the settings of k2hftfusesvr and the output format

`K2hFtSvrInfo` as far as receiving a value needs it, and the conversion of one line by the
configured format (`make_form_output_string`).
-/

namespace K2hFtFuse

open ByteSeq

/-- `K2HFTSVRFPT`. -/
inductive K2hFtSvrFpt
  | STRING
  | CONTENTS
  | TIME
  | FILENAME
  | FILEPATH
  | PID
  | HOSTNAME
  | TRIM_CONTENTS
  deriving DecidableEq

/-- `K2HFTSVRFORMPART`. -/
structure K2hFtSvrFormPart where
  type : K2hFtSvrFpt
  form : Bytes
  deriving DecidableEq

/-- `K2HFTSVRTIMEPART`. -/
structure K2hFtSvrTimePart where
  is_type_ns : Bool
  form : Bytes
  deriving DecidableEq

def K2HFTFSVR_FILE_TYPE : UInt64 := 1
def K2HFTFSVR_TRANS_TYPE : UInt64 := 2

/-- The settings that receiving a value reads; `pluginpathmap` is the set of configured paths. -/
structure K2hFtSvrInfo where
  OutputType : UInt64
  IsBinaryMode : Bool
  IsNoConvert : Bool
  TimeFormat : List K2hFtSvrTimePart
  OutputFormat : List K2hFtSvrFormPart
  pluginpathmap : List Bytes
  deriving DecidableEq

namespace K2hFtSvrInfo

def isOutputFileMode (info : K2hFtSvrInfo) : Bool :=
  info.OutputType &&& K2HFTFSVR_FILE_TYPE == K2HFTFSVR_FILE_TYPE

def isTransMode (info : K2hFtSvrInfo) : Bool :=
  info.OutputType &&& K2HFTFSVR_TRANS_TYPE == K2HFTFSVR_TRANS_TYPE

def isNeedConvert (info : K2hFtSvrInfo) : Bool := !info.IsNoConvert

def isPluginEmpty (info : K2hFtSvrInfo) : Bool := info.pluginpathmap.isEmpty

end K2hFtSvrInfo

/-- The library functions of the conversion: `trim`, and `localtime` followed by `strftime`, which
has no result when `localtime` gives NULL. -/
structure TextLib where
  trim : Bytes → Bytes
  strftime : Bytes → Int64 → Option Bytes

/-- `%09ld`. -/
def decimal9 (i : Int) : Bytes :=
  let sign := if i < 0 then ascii "-" else []
  let digits := decimalNat i.natAbs
  sign ++ List.replicate (9 - (sign.length + digits.length)) 48 ++ digits

/-- `make_time_output_string`; the string stays empty when it fails. -/
def makeTimeOutputString (lib : TextLib) (list : List K2hFtSvrTimePart) (ts : Timespec) : Bytes :=
  let timeform := list.flatMap fun part =>
    if part.is_type_ns then decimal9 ts.tv_nsec.toInt else part.form
  (lib.strftime (cStr timeform) ts.tv_sec).getD []

/-- What the conversion prints of a line. A C string that leaves its memory area is `none`. -/
structure LineSource where
  hostname : Option Bytes
  pid : Pid
  filepath : Bytes
  ts : Timespec
  content : Option Bytes

/-- One part of the format in `make_form_output_string`. -/
def formPartText (lib : TextLib) (strtime : Bytes) (src : LineSource) (part : K2hFtSvrFormPart) :
    Option Bytes :=
  match part.type with
  | .CONTENTS => src.content
  | .TRIM_CONTENTS => src.content.map lib.trim
  | .TIME => some strtime
  | .FILENAME => some ((getFileName src.filepath).getD [])
  | .FILEPATH => some src.filepath
  | .PID => some (decimal src.pid.toInt)
  | .HOSTNAME => src.hostname
  | .STRING => some part.form

/-- `make_form_output_string`. -/
def makeFormOutputString (lib : TextLib) (outputform : List K2hFtSvrFormPart)
    (timeform : List K2hFtSvrTimePart) (src : LineSource) : Option Bytes :=
  (outputform.mapM (formPartText lib (makeTimeOutputString lib timeform src.ts) src)).map
    List.flatten

/-- `ConvertOutput`; the inner `none` is a false result. -/
def convertOutput (lib : TextLib) (info : K2hFtSvrInfo) (src : LineSource) :
    Option (Option Bytes) :=
  if !info.isOutputFileMode then
    -- `ConvertOutput` refuses other modes
    some none
  else if info.IsBinaryMode then
    some none
  else
    (makeFormOutputString lib info.OutputFormat info.TimeFormat src).map some

/-- Does a conversion read the contents of the line? -/
def K2hFtSvrInfo.printsContents (info : K2hFtSvrInfo) : Bool :=
  info.isOutputFileMode && !info.IsBinaryMode &&
    info.OutputFormat.any fun part => part.type == .CONTENTS || part.type == .TRIM_CONTENTS

theorem formPartText_isSome_iff {lib : TextLib} {strtime : Bytes} {src : LineSource}
    (hhost : src.hostname.isSome) (part : K2hFtSvrFormPart) :
    (formPartText lib strtime src part).isSome ↔
      ((part.type == .CONTENTS || part.type == .TRIM_CONTENTS) = true → src.content.isSome) := by
  rcases part with ⟨type, form⟩
  cases type <;> simp [formPartText, hhost]

theorem mapM_isSome_iff {α β : Type} (f : α → Option β) (xs : List α) :
    (xs.mapM f).isSome ↔ ∀ x ∈ xs, (f x).isSome := by
  induction xs with
  | nil =>
      simp
  | cons x xs ih =>
      rcases hx : f x with _ | y
      · simp [hx]
      · rcases hxs : xs.mapM f with _ | ys
        · simp only [hxs, Option.isSome_none, Bool.false_eq_true, false_iff] at ih
          simpa [hx, hxs] using ih
        · simp only [hxs, Option.isSome_some, true_iff] at ih
          simpa [hx, hxs] using ih

theorem mapM_congr_mem {α β : Type} {f g : α → Option β} {xs : List α}
    (h : ∀ x ∈ xs, f x = g x) : xs.mapM f = xs.mapM g := by
  induction xs with
  | nil =>
      rfl
  | cons x xs ih =>
      have hx : f x = g x := h x (by simp)
      have hxs : xs.mapM f = xs.mapM g := ih fun y hy => h y (by simp [hy])
      simp only [List.mapM_cons, hx, hxs]

/-- A conversion that does not print the contents does not depend on them. -/
theorem convertOutput_content_irrel {lib : TextLib} {info : K2hFtSvrInfo}
    (hprint : info.printsContents = false) (src : LineSource) (content : Option Bytes) :
    convertOutput lib info { src with content := content } = convertOutput lib info src := by
  by_cases hfile : info.isOutputFileMode = true
  · by_cases hbin : info.IsBinaryMode = true
    · simp [convertOutput, hfile, hbin]
    · have hbin' : info.IsBinaryMode = false := by simpa using hbin
      simp only [K2hFtSvrInfo.printsContents, hfile, hbin', Bool.not_false, Bool.true_and,
        List.any_eq_false] at hprint
      -- no part is one of the two that read the contents
      have hparts : ∀ part ∈ info.OutputFormat,
          formPartText lib (makeTimeOutputString lib info.TimeFormat src.ts)
            { src with content := content } part =
          formPartText lib (makeTimeOutputString lib info.TimeFormat src.ts) src part := by
        intro part hpart
        have hno := hprint part hpart
        rcases part with ⟨type, form⟩
        cases type <;> simp [formPartText] at hno ⊢
      simp only [convertOutput, hfile, hbin', Bool.not_true, Bool.false_eq_true, if_false,
        makeFormOutputString, mapM_congr_mem hparts]
  · simp [convertOutput, hfile]

/-- A conversion stays inside its line exactly when it has a C string for each contents part. -/
theorem convertOutput_isSome_iff {lib : TextLib} {info : K2hFtSvrInfo} {src : LineSource}
    (hhost : src.hostname.isSome) :
    (convertOutput lib info src).isSome ↔ (info.printsContents = true → src.content.isSome) := by
  by_cases hfile : info.isOutputFileMode = true
  · by_cases hbin : info.IsBinaryMode = true
    · simp [convertOutput, K2hFtSvrInfo.printsContents, hfile, hbin]
    · have hparts : (convertOutput lib info src).isSome ↔
          ∀ part ∈ info.OutputFormat, (formPartText lib
            (makeTimeOutputString lib info.TimeFormat src.ts) src part).isSome := by
        simp [convertOutput, hfile, hbin, makeFormOutputString, mapM_isSome_iff]
      rw [hparts]
      simp only [formPartText_isSome_iff hhost]
      simp [K2hFtSvrInfo.printsContents, hfile, hbin]
  · simp [convertOutput, K2hFtSvrInfo.printsContents, hfile]

end K2hFtFuse

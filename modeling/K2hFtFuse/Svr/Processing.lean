import K2hFtFuse.Svr.Info

/-!
# Svr.Processing — what k2hftfusesvr writes for a received value

`Processing` of `k2hftfusesvr.cc` on the memory areas of the received key and value. The loop over
the lines of a value stacks their outputs in one block that `realloc` grows, and puts the block to
the output file at the end.

- `processLines_byLine`: on a value that was packed from lines the loop is a walk over the lines.
- `processing_independent_iff`: when the file gets the concatenation of the outputs of all lines.
-/

namespace K2hFtFuse

open ByteSeq

/-! ## The stacked file block -/

/-- What `realloc` does with a block and size 0: the standard leaves it open. -/
inductive ReallocZero
  | returnsBlock
  | freesBlock
  deriving DecidableEq

/-- `pFileOutput`: NULL, a block with its `FilePutSize` bytes, or a pointer that `realloc` freed. -/
inductive FileOutput
  | null
  | block (bytes : Bytes)
  | dangling
  deriving DecidableEq

/-- Stacking of some data. A dangling pointer must not be given to `realloc`. -/
def FileOutput.put (zero : ReallocZero) : FileOutput → Bytes → Option FileOutput
  | .null, data => some (.block data)
  | .block bytes, data =>
      -- an empty block asks `realloc` for size 0
      if bytes ++ data = [] ∧ zero = .freesBlock then some .dangling
      else some (.block (bytes ++ data))
  | .dangling, _ => none

/-- The bytes put to the file after the loop. -/
def FileOutput.finish : FileOutput → Option (Option Bytes)
  | .null => some none
  | .block bytes => some (some bytes)
  | .dangling => none

/-! ## The loop over the lines -/

/-- What `Processing` calls: the message format of the transaction library, the conversion
functions, the allocator, and whether a plugin for a path is running. -/
structure SvrEnv where
  scom_total_length : Bytes → Nat
  parseBinCom : Bytes → Option (Bytes × Bytes)
  text : TextLib
  zero : ReallocZero
  getPlugin : Bytes → Bool

/-- The data of a line as it is put: in text mode without its last byte when that is NUL. -/
def putData (info : K2hFtSvrInfo) (data : Bytes) : Bytes :=
  if info.IsBinaryMode = false ∧ data.getLast? = some 0 then data.dropLast else data

/-- The state of the loop: the stacked block and the data written to plugins. -/
structure LoopState where
  pFileOutput : FileOutput
  pluginWrites : List Bytes
  deriving DecidableEq

def LoopState.start : LoopState :=
  { pFileOutput := .null
    pluginWrites := [] }

/-- The data of the line at `pLines` after conversion; the inner `none` is a failed or empty
conversion. -/
def lineData (env : SvrEnv) (info : K2hFtSvrInfo) (filepath value : Bytes) (p : ParsedLine)
    (data : Nat) : Option (Option Bytes) :=
  if info.isNeedConvert then
    (convertOutput env.text info
      { hostname := cStringAt value p.hostname
        pid := p.pid
        filepath := filepath
        ts := p.ts
        content := cStringAt value data }).map fun cvtoutput =>
          cvtoutput.filter fun s => !s.isEmpty
  else
    (slice? value data p.length).map some

/-- One line's data to the plugin or to the block. -/
def LoopState.put (env : SvrEnv) (info : K2hFtSvrInfo) (OutputFile : Bytes) (st : LoopState)
    (data : Bytes) : Option LoopState :=
  if !info.isPluginEmpty then
    if env.getPlugin OutputFile then
      some { st with pluginWrites := st.pluginWrites ++ [putData info data] }
    else
      some st
  else
    (st.pFileOutput.put env.zero (putData info data)).map fun b => { st with pFileOutput := b }

/-- The loop, with the rounds that are left. The line pointer moves only at the end of a round. -/
def processLines (env : SvrEnv) (info : K2hFtSvrInfo) (filepath OutputFile value : Bytes) :
    Nat → Option Nat → LoopState → Option LoopState
  | 0, _, st => some st
  | _ + 1, none, st => some st
  | n + 1, some pLines, st => do
      let pNextLines ← getNextK2hFtLine value pLines
      let p ← parseK2hFtLine value pLines
      match p.data with
      -- the round is skipped, and the pointer is not moved
      | none => processLines env info filepath OutputFile value n (some pLines) st
      | some data =>
          match ← lineData env info filepath value p data with
          | none => processLines env info filepath OutputFile value n (some pLines) st
          | some data => do
              let st ← st.put env info OutputFile data
              processLines env info filepath OutputFile value n pNextLines st

/-! ## Processing -/

/-- What a call of `Processing` does outside: puts to files, plugins and the transfer k2hash. -/
structure SvrEffects where
  fileWrites : List (Bytes × Bytes)
  pluginWrites : List Bytes
  transSets : List (Bytes × Bytes)
  deriving DecidableEq

def SvrEffects.none : SvrEffects :=
  { fileWrites := []
    pluginWrites := []
    transSets := [] }

/-- The output file mode of `Processing`. -/
def processFile (env : SvrEnv) (info : K2hFtSvrInfo) (IsUnityMode : Bool)
    (OutputPath key value : Bytes) : Option SvrEffects := do
  let (pLines, count) ← getK2hFtLines value
  let (filepath, _) ← parseK2hFtKey key
  -- in unity mode all keys share one file
  let OutputFile := if IsUnityMode then OutputPath else OutputPath ++ filepath
  let st ← processLines env info filepath OutputFile value count pLines LoopState.start
  let put ← st.pFileOutput.finish
  pure
    { fileWrites := put.toList.map fun bytes => (OutputFile, bytes)
      pluginWrites := st.pluginWrites
      transSets := [] }

/-- `Processing`. -/
def processing (env : SvrEnv) (info : K2hFtSvrInfo) (IsUnityMode : Bool) (OutputPath : Bytes)
    (body : Bytes) : Option (Bool × SvrEffects) :=
  if body.length ≠ env.scom_total_length body then
    -- the header tells another length
    some (false, SvrEffects.none)
  else
    match env.parseBinCom body with
    -- what cannot be parsed is dropped
    | none => some (true, SvrEffects.none)
    | some (key, value) => do
        let effects ← if info.isOutputFileMode then
            processFile env info IsUnityMode OutputPath key value
          else
            some SvrEffects.none
        return (true,
          { effects with transSets := if info.isTransMode then [(key, value)] else [] })

/-- `Processing` of a whole message with file output. -/
theorem processing_of_file {env : SvrEnv} {info : K2hFtSvrInfo} {body key value : Bytes}
    (htotal : env.scom_total_length body = body.length)
    (hparse : env.parseBinCom body = some (key, value)) (hfile : info.isOutputFileMode = true)
    (IsUnityMode : Bool) (OutputPath : Bytes) :
    processing env info IsUnityMode OutputPath body =
      (processFile env info IsUnityMode OutputPath key value).map fun effects =>
        (true, { effects with transSets := if info.isTransMode then [(key, value)] else [] }) := by
  simp only [processing, htotal, ne_eq, not_true_eq_false, if_false, hparse, hfile, if_true]
  cases processFile env info IsUnityMode OutputPath key value with
  | none => rfl
  | some effects => rfl

/-- The bytes that reach output files. -/
def SvrEffects.fileBytes (effects : SvrEffects) : Bytes :=
  effects.fileWrites.flatMap Prod.snd

/-! ## Lines on their own -/

/-- The data of a line by itself: `none` when the conversion needs a C string that the line does
not have, the inner `none` when the conversion fails or is empty. -/
def recordData (env : SvrEnv) (info : K2hFtSvrInfo) (filepath : Bytes) (r : K2hFtLine) :
    Option (Option Bytes) :=
  if info.isNeedConvert then
    (convertOutput env.text info
      { hostname := cString? r.head.hostname
        pid := r.head.pid
        filepath := filepath
        ts := r.head.ts
        content := cString? r.body }).map fun cvtoutput => cvtoutput.filter fun s => !s.isEmpty
  else
    some (some r.body)

/-- What a line contributes to the file. -/
def lineOutput (env : SvrEnv) (info : K2hFtSvrInfo) (filepath : Bytes) (r : K2hFtLine) :
    Option Bytes :=
  (recordData env info filepath r).map fun data => (data.map (putData info)).getD []

/-- The conversion of the line stays inside the line. -/
def ReadsInside (info : K2hFtSvrInfo) (r : K2hFtLine) : Prop :=
  (info.isNeedConvert && info.printsContents) = true → (0 : UInt8) ∈ r.body

theorem recordData_isSome_iff (env : SvrEnv) {info : K2hFtSvrInfo} (filepath : Bytes)
    {r : K2hFtLine} : (recordData env info filepath r).isSome ↔ ReadsInside info r := by
  have hhost : (cString? r.head.hostname).isSome := cString?_isSome_iff.2 r.hostname_nul
  rcases hcvt : info.isNeedConvert with _ | _
  · simp [recordData, ReadsInside, hcvt]
  · simp only [recordData, ReadsInside, hcvt, if_true, Bool.true_and, Option.isSome_map]
    -- the conversion reads at most the contents
    rw [convertOutput_isSome_iff hhost]
    simp only [cString?_isSome_iff]

/-- A C string that a line has is the one read at its place in the value. -/
theorem lineData_byLine {env : SvrEnv} {info : K2hFtSvrInfo} {filepath : Bytes} {r : K2hFtLine}
    (hr : ReadsInside info r) (pre post : Bytes) :
    lineData env info filepath (pre ++ (r.byLine ++ post))
        { data := some (pre.length + sizeofLineHead)
          length := r.body.length
          hostname := pre.length + offsetHostname
          ts := r.head.ts
          pid := r.head.pid } (pre.length + sizeofLineHead) =
      recordData env info filepath r := by
  rcases hcvt : info.isNeedConvert with _ | _
  · simp [lineData, recordData, hcvt, slice?_body]
  · simp only [lineData, recordData, hcvt, if_true, cStringAt_hostname, cStringAt_body]
    rcases hprint : info.printsContents with _ | _
    · -- the contents are not printed, so it does not matter where they end
      exact congrArg _ (convertOutput_content_irrel hprint
        { hostname := cString? r.head.hostname
          pid := r.head.pid
          filepath := filepath
          ts := r.head.ts
          content := cString? r.body } _)
    · have hnul : (0 : UInt8) ∈ r.body := hr (by simp [hcvt, hprint])
      rcases hcstr : cString? r.body with _ | s
      · exact absurd hnul (cString?_eq_none_iff.1 hcstr)
      · rw [cString?_append hcstr]

/-! ## The loop as a walk over the lines -/

section Walk

variable (env : SvrEnv) (info : K2hFtSvrInfo) (filepath OutputFile : Bytes)

/-- The loop on lines: after a line without data the pointer stays, so nothing more is put. -/
def runRecords : List K2hFtLine → LoopState → Option LoopState
  | [], st => some st
  | r :: rest, st => do
      match ← recordData env info filepath r with
      | none => some st
      | some data => do
          let st ← st.put env info OutputFile data
          runRecords rest st

variable {env info filepath OutputFile}

/-- A round on a line without data leaves the state and the pointer as they are. -/
theorem processLines_stuck {r : K2hFtLine} (hr : ReadsInside info r)
    (hskip : recordData env info filepath r = some none) (pre post : Bytes)
    (hfit : pre.length + r.byLine.length < SIZE_LIMIT) (n : Nat) (st : LoopState) :
    processLines env info filepath OutputFile (pre ++ (r.byLine ++ post)) n (some pre.length) st =
      some st := by
  induction n with
  | zero =>
      rfl
  | succ n ih =>
      simp only [processLines, getNextK2hFtLine_byLine pre post r hfit, parseK2hFtLine_byLine,
        Option.bind_eq_bind, Option.bind_some, lineData_byLine hr, hskip, ih]

theorem processLines_byLine (env : SvrEnv) (filepath OutputFile : Bytes) {lines : List K2hFtLine}
    (hlines : ∀ r ∈ lines, ReadsInside info r) (pre : Bytes)
    (hfit : (pre ++ lines.flatMap K2hFtLine.byLine).length < SIZE_LIMIT)
    (st : LoopState) :
    processLines env info filepath OutputFile (pre ++ lines.flatMap K2hFtLine.byLine) lines.length
      (some pre.length) st = runRecords env info filepath OutputFile lines st := by
  induction lines generalizing pre st with
  | nil =>
      rfl
  | cons r rest ih =>
      have hr : ReadsInside info r := hlines r (by simp)
      have hhead : pre.length + r.byLine.length < SIZE_LIMIT := by
        simp only [List.flatMap_cons, List.length_append] at hfit
        omega
      rcases hdata : recordData env info filepath r with _ | _ | data
      · have := (recordData_isSome_iff env filepath).2 hr
        simp [hdata] at this
      · -- a line without data: all later rounds stand at it
        rw [List.flatMap_cons, processLines_stuck hr hdata pre _ hhead]
        simp [runRecords, hdata]
      · have hmove : pre ++ (r.byLine ++ rest.flatMap K2hFtLine.byLine) =
            (pre ++ r.byLine) ++ rest.flatMap K2hFtLine.byLine := by simp
        have hrec : ∀ st', processLines env info filepath OutputFile
            (pre ++ (r.byLine ++ rest.flatMap K2hFtLine.byLine)) rest.length
            (some (pre.length + r.byLine.length)) st' =
            runRecords env info filepath OutputFile rest st' := by
          intro st'
          rw [hmove, ← List.length_append]
          exact ih (fun q hq => hlines q (by simp [hq])) _ (by simpa using hfit) st'
        simp only [List.flatMap_cons, List.length_cons, processLines,
          getNextK2hFtLine_byLine pre _ r hhead, parseK2hFtLine_byLine, Option.bind_eq_bind,
          Option.bind_some, lineData_byLine hr, hdata, runRecords, hrec]

/-- The data put for the lines before the first one without data. -/
def putList (env : SvrEnv) (info : K2hFtSvrInfo) (filepath : Bytes) : List K2hFtLine → List Bytes
  | [] => []
  | r :: rest =>
      match recordData env info filepath r with
      | some (some data) => putData info data :: putList env info filepath rest
      | _ => []

/-- Without a plugin the walk stacks the data of those lines. -/
theorem runRecords_eq_putList (hplugin : info.isPluginEmpty = true) {lines : List K2hFtLine}
    (hlines : ∀ r ∈ lines, ReadsInside info r) (b : FileOutput) (pw : List Bytes) :
    runRecords env info filepath OutputFile lines ⟨b, pw⟩ =
      ((putList env info filepath lines).foldlM (FileOutput.put env.zero) b).map
        fun b => ⟨b, pw⟩ := by
  induction lines generalizing b with
  | nil =>
      rfl
  | cons r rest ih =>
      have hr : ReadsInside info r := hlines r (by simp)
      rcases hdata : recordData env info filepath r with _ | _ | data
      · have := (recordData_isSome_iff env filepath).2 hr
        simp [hdata] at this
      · simp [runRecords, putList, hdata]
      · rcases hput : b.put env.zero (putData info data) with _ | b'
        · simp [runRecords, putList, hdata, LoopState.put, hplugin, hput]
        · have hrec := ih (fun q hq => hlines q (by simp [hq])) b'
          simp [runRecords, putList, hdata, LoopState.put, hplugin, hput, hrec]

end Walk

/-! ## The stacked block -/

theorem foldlM_put_block (zero : ReallocZero) {bytes : Bytes}
    (h : bytes ≠ [] ∨ zero = .returnsBlock) (ds : List Bytes) :
    ds.foldlM (FileOutput.put zero) (.block bytes) = some (.block (bytes ++ ds.flatten)) := by
  induction ds generalizing bytes with
  | nil =>
      simp
  | cons d ds ih =>
      have hkeep : ¬ (bytes ++ d = [] ∧ zero = .freesBlock) := by
        rintro ⟨hnil, hfrees⟩
        rcases h with h | h
        · exact h (List.append_eq_nil_iff.1 hnil).1
        · simp [h] at hfrees
      have hnext : bytes ++ d ≠ [] ∨ zero = .returnsBlock := by
        rcases h with h | h
        · exact Or.inl (by simp [h])
        · exact Or.inr h
      simp only [List.foldlM_cons, FileOutput.put, if_neg hkeep, Option.bind_eq_bind,
        Option.bind_some, ih hnext]
      simp

/-- What is put to the file for a list of data: two empty ones at the start free the block. -/
theorem finish_foldlM_put (zero : ReallocZero) (ds : List Bytes) :
    (ds.foldlM (FileOutput.put zero) .null).bind FileOutput.finish =
      if zero = .freesBlock ∧ ds.take 2 = [[], []] then none
      else some (if ds = [] then none else some ds.flatten) := by
  rcases ds with _ | ⟨d, ds⟩
  · simp [FileOutput.finish]
  · by_cases hkeep : d ≠ [] ∨ zero = .returnsBlock
    · have hno : ¬ (zero = .freesBlock ∧ (d :: ds).take 2 = [[], []]) := by
        rintro ⟨hfrees, htake⟩
        rcases hkeep with h | h
        · rcases ds with _ | ⟨e, ds⟩ <;> simp at htake
          exact h htake.1
        · simp [h] at hfrees
      simp only [List.foldlM_cons, FileOutput.put, Option.bind_eq_bind, Option.bind_some,
        foldlM_put_block zero hkeep, if_neg hno, FileOutput.finish]
      simp
    · simp only [not_or, not_not] at hkeep
      rcases hkeep with ⟨rfl, hzero⟩
      have hfrees : zero = .freesBlock := by
        cases zero
        · exact absurd rfl hzero
        · rfl
      subst hfrees
      rcases ds with _ | ⟨e, ds⟩
      · simp [FileOutput.put, FileOutput.finish]
      · by_cases he : e = []
        · subst he
          rcases ds with _ | ⟨f, ds⟩ <;> simp [FileOutput.put, FileOutput.finish]
        · have hcons := foldlM_put_block .freesBlock (Or.inl he) ds
          simp [FileOutput.put, he, hcons, FileOutput.finish]

/-! ## Independence of the lines -/

section Independence

variable (env : SvrEnv) (info : K2hFtSvrInfo) (filepath : Bytes)

/-- The line has data of which nothing is left to put. -/
def IsBlank (r : K2hFtLine) : Prop :=
  ∃ data, recordData env info filepath r = some (some data) ∧ putData info data = []

/-- When the lines of a value do not disturb each other: every conversion stays inside its line, no
line with a failed or empty conversion stands before a line with output, and, where `realloc` frees
a block of size 0, the value does not begin with two blank lines. -/
structure Independent (lines : List K2hFtLine) : Prop where
  readsInside : ∀ r ∈ lines, ReadsInside info r
  noneLost : lines.Pairwise fun r r' =>
    recordData env info filepath r = some none → lineOutput env info filepath r' = some []
  blockKept : env.zero = .freesBlock → ∀ r₁ r₂ rest, lines = r₁ :: r₂ :: rest →
    ¬ (IsBlank env info filepath r₁ ∧ IsBlank env info filepath r₂)

variable {env info filepath}

/-- The outputs of all lines, of those that have one. -/
def outputs (env : SvrEnv) (info : K2hFtSvrInfo) (filepath : Bytes) (lines : List K2hFtLine) :
    List Bytes :=
  lines.map fun r => (lineOutput env info filepath r).getD []

theorem mapM_lineOutput {lines : List K2hFtLine} (hlines : ∀ r ∈ lines, ReadsInside info r) :
    lines.mapM (lineOutput env info filepath) = some (outputs env info filepath lines) := by
  induction lines with
  | nil =>
      rfl
  | cons r rest ih =>
      have hr : (recordData env info filepath r).isSome :=
        (recordData_isSome_iff env filepath).2 (hlines r (by simp))
      rcases Option.isSome_iff_exists.1 hr with ⟨data, hdata⟩
      have hrest := ih fun q hq => hlines q (by simp [hq])
      simp [lineOutput, hdata, outputs] at hrest ⊢
      simp [hrest]

/-- The lines before the first one without data give the whole output when that line loses none. -/
theorem flatten_putList_iff {lines : List K2hFtLine} (hlines : ∀ r ∈ lines, ReadsInside info r) :
    (putList env info filepath lines).flatten = (outputs env info filepath lines).flatten ↔
      lines.Pairwise fun r r' =>
        recordData env info filepath r = some none → lineOutput env info filepath r' = some [] := by
  induction lines with
  | nil =>
      simp [putList, outputs]
  | cons r rest ih =>
      have hr : (recordData env info filepath r).isSome :=
        (recordData_isSome_iff env filepath).2 (hlines r (by simp))
      have hrest : ∀ q ∈ rest, ReadsInside info q := fun q hq => hlines q (by simp [hq])
      have hrec := ih hrest
      rcases hdata : recordData env info filepath r with _ | _ | data
      · simp [hdata] at hr
      · -- nothing more is put, so the rest must have no output
        have hempty : (outputs env info filepath rest).flatten = [] ↔
            ∀ q ∈ rest, lineOutput env info filepath q = some [] := by
          simp only [outputs, List.flatten_eq_nil_iff, List.forall_mem_map]
          constructor
          · intro h q hq
            have hq' : (recordData env info filepath q).isSome :=
              (recordData_isSome_iff env filepath).2 (hrest q hq)
            rcases Option.isSome_iff_exists.1 hq' with ⟨data, hdata⟩
            have := h q hq
            simpa [lineOutput, hdata] using this
          · intro h q hq
            simp [h q hq]
        have hfirst : (outputs env info filepath (r :: rest)).flatten =
            (outputs env info filepath rest).flatten := by
          simp [outputs, lineOutput, hdata]
        rw [hfirst, List.pairwise_cons]
        simp only [putList, hdata, List.flatten_nil, true_imp_iff]
        rw [eq_comm, hempty]
        constructor
        · intro h
          exact ⟨h, (List.pairwise_of_forall_mem_list fun a ha b hb _ => h b hb)⟩
        · exact fun h => h.1
      · have hfirst : (outputs env info filepath (r :: rest)).flatten =
            putData info data ++ (outputs env info filepath rest).flatten := by
          simp [outputs, lineOutput, hdata]
        rw [hfirst, List.pairwise_cons]
        simp only [putList, hdata, List.flatten_cons, List.append_cancel_left_eq]
        simp [hrec]

theorem take_putList_iff {lines : List K2hFtLine} :
    (putList env info filepath lines).take 2 = [[], []] ↔
      ∃ r₁ r₂ rest, lines = r₁ :: r₂ :: rest ∧ IsBlank env info filepath r₁ ∧
        IsBlank env info filepath r₂ := by
  constructor
  · intro h
    rcases lines with _ | ⟨r₁, _ | ⟨r₂, rest⟩⟩
    · simp [putList] at h
    · rcases hdata : recordData env info filepath r₁ with _ | _ | data <;>
        simp [putList, hdata] at h
    · rcases hdata₁ : recordData env info filepath r₁ with _ | _ | data₁ <;>
        simp [putList, hdata₁] at h
      rcases hdata₂ : recordData env info filepath r₂ with _ | _ | data₂ <;>
        simp [hdata₂] at h
      exact ⟨r₁, r₂, rest, rfl, ⟨data₁, hdata₁, h.1⟩, ⟨data₂, hdata₂, h.2⟩⟩
  · rintro ⟨r₁, r₂, rest, rfl, ⟨data₁, hdata₁, hput₁⟩, ⟨data₂, hdata₂, hput₂⟩⟩
    simp [putList, hdata₁, hdata₂, hput₁, hput₂]

/-- The file mode on a value of lines whose conversions stay inside them. -/
theorem processFile_eq (env : SvrEnv) (hplugin : info.isPluginEmpty = true) {key value ppid : Bytes}
    (hkey : parseK2hFtKey key = some (filepath, ppid)) {lines : List K2hFtLine}
    (hvalue : buildK2hFtValue lines = some value) (hlines : ∀ r ∈ lines, ReadsInside info r)
    (IsUnityMode : Bool) (OutputPath : Bytes) :
    processFile env info IsUnityMode OutputPath key value =
      if env.zero = .freesBlock ∧ (putList env info filepath lines).take 2 = [[], []] then none
      else
        some
          { fileWrites :=
              if putList env info filepath lines = [] then []
              else [(if IsUnityMode then OutputPath else OutputPath ++ filepath,
                (putList env info filepath lines).flatten)]
            pluginWrites := []
            transSets := [] } := by
  rcases buildK2hFtValue_eq_some hvalue with ⟨-, hfit, hbytes⟩
  have hvalue' : value = (encodeLE 8 (totallen lines) ++ encodeLE 8 lines.length) ++
      lines.flatMap K2hFtLine.byLine := by simp [hbytes]
  have hpre : sizeofValueHead =
      (encodeLE 8 (totallen lines) ++ encodeLE 8 lines.length).length := by simp [sizeofValueHead]
  have hlen : ((encodeLE 8 (totallen lines) ++ encodeLE 8 lines.length) ++
      lines.flatMap K2hFtLine.byLine).length < SIZE_LIMIT := by
    rw [List.length_append, ← hpre, length_flatMap_byLine]
    omega
  have hwalk := processLines_byLine env filepath
    (if IsUnityMode then OutputPath else OutputPath ++ filepath) hlines
    (encodeLE 8 (totallen lines) ++ encodeLE 8 lines.length) hlen LoopState.start
  rw [← hvalue', ← hpre, LoopState.start, runRecords_eq_putList hplugin hlines] at hwalk
  have hfinish := finish_foldlM_put env.zero (putList env info filepath lines)
  simp only [processFile, getK2hFtLines_buildK2hFtValue hvalue, hkey, Option.bind_eq_bind,
    Option.bind_some, LoopState.start, hwalk]
  rcases hfold : (putList env info filepath lines).foldlM (FileOutput.put env.zero) .null with
    _ | b
  · rw [hfold] at hfinish
    simp only [Option.bind_none] at hfinish
    split at hfinish
    · rename_i hfree
      simp [hfree]
    · simp at hfinish
  · rw [hfold] at hfinish
    simp only [Option.bind_some] at hfinish
    simp only [Option.map_some, Option.bind_some, hfinish]
    split
    · rfl
    · by_cases hnil : putList env info filepath lines = [] <;> simp [hnil, pure]

/-- **Record independence.** The output file gets the concatenation of the outputs of all lines of
a value exactly when the lines are independent. -/
theorem processing_independent_iff (env : SvrEnv) (info : K2hFtSvrInfo) (IsUnityMode : Bool)
    (OutputPath body key value filepath ppid : Bytes) (lines : List K2hFtLine)
    (htotal : env.scom_total_length body = body.length)
    (hparse : env.parseBinCom body = some (key, value))
    (hkey : parseK2hFtKey key = some (filepath, ppid))
    (hvalue : buildK2hFtValue lines = some value) (hfile : info.isOutputFileMode = true)
    (hplugin : info.isPluginEmpty = true) :
    (∃ outs effects, lines.mapM (lineOutput env info filepath) = some outs ∧
        processing env info IsUnityMode OutputPath body = some (true, effects) ∧
        effects.fileBytes = outs.flatten) ↔
      Independent env info filepath lines := by
  rw [processing_of_file htotal hparse hfile]
  by_cases hlines : ∀ r ∈ lines, ReadsInside info r
  · rw [processFile_eq env hplugin hkey hvalue hlines, mapM_lineOutput hlines]
    by_cases hfree : env.zero = .freesBlock ∧
        (putList env info filepath lines).take 2 = [[], []]
    · rw [if_pos hfree]
      constructor
      · rintro ⟨outs, effects, -, h, -⟩
        simp at h
      · intro h
        rcases take_putList_iff.1 hfree.2 with ⟨r₁, r₂, rest, hcons, hblank⟩
        exact absurd hblank (h.blockKept hfree.1 r₁ r₂ rest hcons)
    · rw [if_neg hfree]
      have hbytes : ∀ transSets, SvrEffects.fileBytes
          { fileWrites :=
              if putList env info filepath lines = [] then []
              else [(if IsUnityMode then OutputPath else OutputPath ++ filepath,
                (putList env info filepath lines).flatten)]
            pluginWrites := []
            transSets := transSets } = (putList env info filepath lines).flatten := by
        intro transSets
        by_cases hnil : putList env info filepath lines = [] <;>
          simp [SvrEffects.fileBytes, hnil]
      constructor
      · rintro ⟨outs, effects, houts, heffects, hwritten⟩
        simp only [Option.map_some, Option.some.injEq, Prod.mk.injEq, true_and] at heffects
        rw [← Option.some.inj houts, ← heffects, hbytes] at hwritten
        refine ⟨hlines, (flatten_putList_iff hlines).1 hwritten, ?_⟩
        rintro hzero r₁ r₂ rest hcons hblank
        exact hfree ⟨hzero, take_putList_iff.2 ⟨r₁, r₂, rest, hcons, hblank⟩⟩
      · intro h
        refine ⟨_, _, rfl, rfl, ?_⟩
        rw [hbytes]
        exact (flatten_putList_iff hlines).2 h.noneLost
  · constructor
    · rintro ⟨outs, effects, houts, -, -⟩
      refine absurd ?_ hlines
      intro r hr
      have hsome := (mapM_isSome_iff (lineOutput env info filepath) lines).1 (by simp [houts]) r hr
      rw [lineOutput, Option.isSome_map] at hsome
      exact (recordData_isSome_iff env filepath).1 hsome
    · intro h
      exact absurd h.readsInside hlines

end Independence

/-! ## A server whose messages are plain frames -/

/-- A message: the length of the key, the key, the value. -/
def frame (key value : Bytes) : Bytes :=
  encodeLE 8 key.length ++ (key ++ value)

/-- An environment that reads frames, trims blanks, has no clock and no plugins. -/
def SvrEnv.framed (zero : ReallocZero) : SvrEnv :=
  { scom_total_length := List.length
    parseBinCom := fun body => do
      let keylen ← readLE body 0 8
      let key ← slice? body 8 keylen
      return (key, body.drop (8 + keylen))
    text :=
      { trim := fun s =>
          ((s.dropWhile fun c => c == 32).reverse.dropWhile fun c => c == 32).reverse
        strftime := fun _ _ => none }
    zero := zero
    getPlugin := fun _ => false }

theorem parseBinCom_frame (zero : ReallocZero) (key : Bytes) (hkey : key.length < 256 ^ 8)
    (value : Bytes) : (SvrEnv.framed zero).parseBinCom (frame key value) = some (key, value) := by
  have hlen : readLE (frame key value) 0 8 = some key.length := @readLE_append [] _ _ _ _ rfl hkey
  have hslice : slice? (frame key value) 8 key.length = some key :=
    slice?_append (by simp) rfl
  simp [SvrEnv.framed, hlen, hslice]
  simp [frame, ← List.drop_drop]

/-- A file server in text mode that converts with the format `%l`. -/
def trimmingInfo : K2hFtSvrInfo :=
  { OutputType := K2HFTFSVR_FILE_TYPE
    IsBinaryMode := false
    IsNoConvert := false
    TimeFormat := []
    OutputFormat := [{ type := .TRIM_CONTENTS, form := [] }]
    pluginpathmap := [] }

/-- A line of process 1 with the given body. -/
def sampleLine (body : Bytes) (hpos : 0 < body.length)
    (hsize : body.length + sizeofLineHead < SIZE_LIMIT) : K2hFtLine :=
  { head :=
      { linelength := body.length
        ts := common_init_time
        pid := 1
        hostname := List.replicate (HOST_NAME_MAX + 8) 0 }
    body := body
    linelength_eq := rfl
    body_pos := hpos
    size_lt := hsize
    hostname_size := rfl
    hostname_nul := by simp [HOST_NAME_MAX] }

def lineA : K2hFtLine := sampleLine (ascii "a\x00") (by decide) (by decide)

def lineBlank : K2hFtLine := sampleLine (ascii " \x00") (by decide) (by decide)

def sampleKey : Bytes := buildK2hFtKey (ascii "/log") 1

theorem parseK2hFtKey_sampleKey : parseK2hFtKey sampleKey = some (ascii "/log", decimal 1) :=
  parseK2hFtKey_buildK2hFtKey (by decide) 1

/-- The value of some sample lines. -/
def sampleValue (lines : List K2hFtLine) : Bytes := (buildK2hFtValue lines).getD []

theorem buildK2hFtValue_sampleValue {lines : List K2hFtLine} (hne : lines ≠ [])
    (hfit : totallen lines + sizeofValueHead < SIZE_LIMIT) :
    buildK2hFtValue lines = some (sampleValue lines) := by
  have hempty : lines.isEmpty = false := by simpa using hne
  simp [sampleValue, buildK2hFtValue, hempty, hfit]

theorem processing_independent_iff_two_lines :
    (∃ outs effects,
        [lineA, lineA].mapM (lineOutput (SvrEnv.framed .freesBlock) trimmingInfo (ascii "/log")) =
          some outs ∧
        processing (SvrEnv.framed .freesBlock) trimmingInfo false (ascii "/out")
            (frame sampleKey (sampleValue [lineA, lineA])) = some (true, effects) ∧
        effects.fileBytes = outs.flatten) ↔
      Independent (SvrEnv.framed .freesBlock) trimmingInfo (ascii "/log") [lineA, lineA] :=
  processing_independent_iff (SvrEnv.framed .freesBlock) trimmingInfo false (ascii "/out")
    (frame sampleKey (sampleValue [lineA, lineA])) sampleKey (sampleValue [lineA, lineA])
    (ascii "/log") (decimal 1) [lineA, lineA] rfl (parseBinCom_frame .freesBlock sampleKey (by decide) _)
    parseK2hFtKey_sampleKey (buildK2hFtValue_sampleValue (by simp) (by decide)) rfl rfl

/-- A blank line before `a`: with the format `%l` the line `a` has an output of its own, but nothing
is put to the file. -/
theorem blank_line_loses_next :
    lineOutput (SvrEnv.framed .freesBlock) trimmingInfo (ascii "/log") lineBlank = some [] ∧
      lineOutput (SvrEnv.framed .freesBlock) trimmingInfo (ascii "/log") lineA =
        some (ascii "a") ∧
      (processing (SvrEnv.framed .freesBlock) trimmingInfo false (ascii "/out")
        (frame sampleKey (sampleValue [lineBlank, lineA]))).map (fun r => r.2.fileBytes) =
        some [] := by
  have hinside : ∀ r ∈ [lineBlank, lineA], ReadsInside trimmingInfo r := by
    intro r hr _
    rcases List.mem_cons.1 hr with rfl | hr
    · decide
    · rw [List.mem_singleton.1 hr]
      decide
  have hvalue : buildK2hFtValue [lineBlank, lineA] = some (sampleValue [lineBlank, lineA]) :=
    buildK2hFtValue_sampleValue (by simp) (by decide)
  have hfile := processFile_eq (SvrEnv.framed .freesBlock) (show trimmingInfo.isPluginEmpty = true from rfl)
    parseK2hFtKey_sampleKey hvalue hinside false (ascii "/out")
  have hput : putList (SvrEnv.framed .freesBlock) trimmingInfo (ascii "/log")
      [lineBlank, lineA] = [] := by decide
  rw [hput] at hfile
  have hparse := parseBinCom_frame .freesBlock sampleKey (by decide)
    (sampleValue [lineBlank, lineA])
  refine ⟨by decide, by decide, ?_⟩
  rw [processing_of_file rfl hparse rfl, hfile]
  simp [SvrEffects.fileBytes]

end K2hFtFuse

import K2hFtFuse.WriteBuff.Chunking
import K2hFtFuse.WriteBuff.TextRecords
import K2hFtFuse.Info.Processing
import K2hFtFuse.Svr.Processing

/-!
# EndToEnd — from the writes of a process to the file of the server

A process writes to a file and closes it; the lines are popped in groups, each group is a value that
k2hftfuse sets in k2hash, and k2hftfusesvr appends the values that are delivered to its output file.

`text_fidelity_iff` says when the file gets the written bytes without their NUL bytes.
-/

namespace K2hFtFuse

open ByteSeq Segmenter K2hFtBinBuff

/-! ## The client side -/

/-- Pushes of one process on a write buffer. -/
def pushRun (sink : LineSink) (is_binary_mode : Bool) (pid : Pid) :
    K2hFtWriteBuff → List (PushEnv × Bytes) → Option K2hFtWriteBuff
  | w, [] => some w
  | w, (env, data) :: rest => do
      let r ← w.push sink is_binary_mode env data pid
      pushRun sink is_binary_mode pid r.2 rest

/-- `K2hFtInfo::Processing` of popped values, one after the other, with memory for every key: what
reaches k2hash. -/
def transferRun (IsBinaryMode : Bool) :
    K2hFtRule → List (ProcessEnv × Bytes) → Option (List (Bytes × Bytes))
  | _, [] => some []
  | pRule, (env, pValue) :: rest => do
      let r ← infoProcessing true env IsBinaryMode pRule pValue
      let later ← transferRun IsBinaryMode r.2.2 rest
      return r.2.1.sets ++ later

/-- The lines of blocks that the rule passes on unchanged are those blocks. -/
theorem map_body_stackLines {sink : LineSink} (hlimit : sink.limits.LineByteLimit = 0)
    (blocks : List (Pid × Bytes))
    (hpass : ∀ b ∈ blocks, ∀ beyond, sink.cvtPushData beyond b.2 = some b.2)
    (hne : ∀ b ∈ blocks, b.2 ≠ [])
    (hfit : ∀ b ∈ blocks, b.2.length + sizeofLineHead < SIZE_LIMIT) (env : Nat → StackEnv) :
    (stackLines sink env blocks).map K2hFtLine.body = blocks.map Prod.snd := by
  induction blocks generalizing env with
  | nil =>
      rfl
  | cons b blocks ih =>
      rcases b with ⟨pid, block⟩
      have hb : block ≠ [] := hne (pid, block) (by simp)
      have hpos : 0 < block.length := List.length_pos_iff.2 hb
      have hsize : block.length + sizeofLineHead < SIZE_LIMIT := hfit (pid, block) (by simp)
      have hcvt : ∀ beyond, sink.cvtPushData beyond block = some block :=
        hpass (pid, block) (by simp)
      have hrest := ih (fun b hb => hpass b (by simp [hb])) (fun b hb => hne b (by simp [hb]))
        (fun b hb => hfit b (by simp [hb])) (fun n => env (n + 1))
      simp [stackLines, stackLine, hb, hcvt, hlimit, DEFAULT_LINE_LIMIT, buildK2hFtLine, hpos, hsize,
        hrest]

theorem pushRun_eq_writeRun (sink : LineSink) {pid : Pid} {writes : List (PushEnv × Bytes)}
    {w : K2hFtWriteBuff} {bufs' : OrdMap Pid K2hFtBinBuff} {blocks : List (Pid × Bytes)}
    (hrun : writeRun sink.limits pid w.InputBuffMap writes = some (bufs', blocks))
    (hlimit : sink.limits.LineByteLimit = 0)
    (hpass : ∀ b ∈ blocks, ∀ beyond, sink.cvtPushData beyond b.2 = some b.2)
    (hne : ∀ b ∈ blocks, b.2 ≠ [])
    (hfit : ∀ b ∈ blocks, b.2.length + sizeofLineHead < SIZE_LIMIT) :
    ∃ w', pushRun sink false pid w writes = some w' ∧
      w'.Stack.map K2hFtLine.body = w.Stack.map K2hFtLine.body ++ blocks.map Prod.snd := by
  induction writes generalizing w blocks with
  | nil =>
      simp only [writeRun, Option.some.injEq, Prod.mk.injEq] at hrun
      exact ⟨w, rfl, by simp [← hrun.2]⟩
  | cons p writes ih =>
      rcases p with ⟨env, data⟩
      simp only [writeRun, Option.bind_eq_bind, Option.bind_eq_some_iff, pure,
        Option.some.injEq, Prod.mk.injEq] at hrun
      rcases hrun with ⟨r, hpush, t, hrest, hbufs, hblocks⟩
      rw [← hblocks] at hpass hne hfit ⊢
      have hlines := map_body_stackLines hlimit r.2.2
        (fun b hb => hpass b (by simp [hb])) (fun b hb => hne b (by simp [hb]))
        (fun b hb => hfit b (by simp [hb])) env.line
      have hrest' : writeRun sink.limits pid r.2.1 writes = some (bufs', t.2) := by
        rw [hrest, ← hbufs]
      rcases ih (w := { InputBuffMap := r.2.1, Stack := w.Stack ++ stackLines sink env.line r.2.2 })
          hrest' (fun b hb => hpass b (by simp [hb])) (fun b hb => hne b (by simp [hb]))
          (fun b hb => hfit b (by simp [hb])) with ⟨w', hrun', hstack⟩
      refine ⟨w', by simp [pushRun, K2hFtWriteBuff.push, hpush, hrun'], ?_⟩
      rw [hstack]
      simp [hlines]

/-! ## The bytes of the records of a run -/

theorem textRun_bytes (carry : Bytes) (hcarry : ∀ c ∈ carry, isEol c = false)
    (chunks : List Bytes) :
    (∀ b ∈ (textRun carry chunks).1, IsTextRecord b) ∧
      (textRun carry chunks).1.flatMap List.dropLast ++ (textRun carry chunks).2 =
        carry ++ chunks.flatMap fun c => (keptBytes false c).filter fun c => c ≠ 0 := by
  induction chunks generalizing carry with
  | nil =>
      simp [textRun]
  | cons c chunks ih =>
      rcases textPush_bytes hcarry c with ⟨hrecords, hcarry', hbytes⟩
      rcases ih _ hcarry' with ⟨hrecords', hbytes'⟩
      constructor
      · intro b hb
        rcases List.mem_append.1 hb with hb | hb
        · exact hrecords b hb
        · exact hrecords' b hb
      · simp only [textRun, List.flatMap_append, List.append_assoc, hbytes', List.flatMap_cons]
        rw [← List.append_assoc, hbytes, List.append_assoc]

theorem textRun_close_rest (carry : Bytes) (chunks : List Bytes) :
    (textRun carry (chunks ++ [[]])).2 = [] := by
  induction chunks generalizing carry with
  | nil =>
      simp [textRun, textPush]
  | cons c chunks ih =>
      simp [textRun, ih]

/-! ## Which writes keep all their bytes -/

theorem keptBytes_sublist (skip : Bool) (data : Bytes) : (keptBytes skip data).Sublist data := by
  induction data generalizing skip with
  | nil =>
      exact List.Sublist.refl _
  | cons c rest ih =>
      cases skip with
      | true =>
          simpa [keptBytes] using (ih false).cons c
      | false =>
          simpa [keptBytes] using (ih (c == CR && rest.head? == some LF)).cons_cons c

/-- Only line feeds are skipped, so the NUL bytes are all kept. -/
theorem filter_nul_keptBytes (skip : Bool) (data : Bytes)
    (hskip : skip = true → data.head? = some LF) :
    ((keptBytes skip data).filter fun c => c = 0) = data.filter fun c => c = 0 := by
  induction data generalizing skip with
  | nil =>
      rfl
  | cons c rest ih =>
      cases skip with
      | true =>
          have hc : c = LF := by simpa using hskip rfl
          subst hc
          simpa [keptBytes, LF] using ih false (by simp)
      | false =>
          have hnext : (c == CR && rest.head? == some LF) = true → rest.head? = some LF := by
            intro h
            simp only [Bool.and_eq_true, beq_iff_eq] at h
            exact h.2
          simp only [keptBytes, Bool.false_eq_true, if_false, List.filter_cons, ih _ hnext]

theorem keptBytes_eq_iff (data : Bytes) :
    keptBytes false data = data ↔ ¬ [CR, LF] <:+: data := by
  induction data with
  | nil =>
      simp [keptBytes]
  | cons c rest ih =>
      rw [keptBytes_cons_eol, List.infix_cons_iff]
      rcases hnext : (c == CR && rest.head? == some LF) with _ | _
      · have hno : ¬ [CR, LF] <+: c :: rest := by
          intro h
          rcases h with ⟨t, ht⟩
          simp only [List.cons_append, List.nil_append, List.cons.injEq] at ht
          simp [← ht.1, ← ht.2] at hnext
        simp only [List.cons.injEq, true_and, ih, hno, false_or]
      · simp only [Bool.and_eq_true, beq_iff_eq] at hnext
        rcases rest with _ | ⟨d, rest⟩
        · simp at hnext
        · have hd : d = LF := by simpa using hnext.2
          rw [hnext.1, hd]
          have hyes : [CR, LF] <+: CR :: LF :: rest := ⟨rest, rfl⟩
          have hlen := (keptBytes_sublist false rest).length_le
          constructor
          · intro h
            have := congrArg List.length h
            simp only [keptBytes, if_true, List.length_cons] at this
            omega
          · intro h
            exact absurd (Or.inl hyes) h

/-- Sublists that concatenate to the same list are equal one by one. -/
theorem flatMap_sublist_eq_iff {f g : Bytes → Bytes} (hsub : ∀ c, (f c).Sublist (g c))
    (chunks : List Bytes) :
    chunks.flatMap f = chunks.flatMap g ↔ ∀ c ∈ chunks, f c = g c := by
  induction chunks with
  | nil =>
      simp
  | cons c chunks ih =>
      have hlen : ∀ cs : List Bytes, (cs.flatMap f).length ≤ (cs.flatMap g).length := by
        intro cs
        induction cs with
        | nil =>
            simp
        | cons d cs ih =>
            have := (hsub d).length_le
            simp only [List.flatMap_cons, List.length_append]
            omega
      simp only [List.flatMap_cons, List.forall_mem_cons, ← ih]
      constructor
      · intro h
        have htotal := congrArg List.length h
        simp only [List.length_append] at htotal
        have hc := (hsub c).length_le
        have hrest := hlen chunks
        have hfirst : f c = g c := (hsub c).eq_of_length (by omega)
        rw [hfirst] at h
        exact ⟨hfirst, List.append_cancel_left h⟩
      · rintro ⟨hfirst, hrest⟩
        rw [hfirst, hrest]

/-- The kept bytes other than NUL are all written ones when no chunk holds a CRLF pair. -/
theorem keptBytes_filter_eq_iff (chunks : List Bytes) :
    (chunks.flatMap fun c => (keptBytes false c).filter fun c => c ≠ 0) =
        chunks.flatten.filter (fun c => c ≠ 0) ↔
      ∀ c ∈ chunks, ¬ [CR, LF] <:+: c := by
  have hflat : chunks.flatten.filter (fun c => c ≠ 0) =
      chunks.flatMap fun c => c.filter fun c => c ≠ 0 := by
    rw [List.filter_flatten, List.flatMap_def]
  rw [hflat, flatMap_sublist_eq_iff fun c => (keptBytes_sublist false c).filter _]
  refine forall₂_congr fun c _ => ?_
  rw [← keptBytes_eq_iff]
  constructor
  · intro h
    -- the NUL bytes are the same too, so nothing was skipped
    have hnul := congrArg List.length (filter_nul_keptBytes false c (by simp))
    have hother := congrArg List.length h
    have hsplit : ∀ s : Bytes, (s.filter fun c => decide (c ≠ 0)).length +
        (s.filter fun c => decide (c = 0)).length = s.length := by
      intro s
      have := List.length_eq_length_filter_add (l := s) fun c => decide (c = 0)
      simp only [ne_eq, decide_not]
      omega
    refine (keptBytes_sublist false c).eq_of_length ?_
    rw [← hsplit, ← hsplit c, hnul, hother]
  · intro h
    rw [h]

/-! ## The server side -/

/-- `Processing` of received messages, one after the other: the bytes put to the output file. -/
def serverRun (env : SvrEnv) (info : K2hFtSvrInfo) (IsUnityMode : Bool) (OutputPath : Bytes) :
    List Bytes → Option Bytes
  | [] => some []
  | body :: rest => do
      let r ← processing env info IsUnityMode OutputPath body
      let later ← serverRun env info IsUnityMode OutputPath rest
      return r.2.fileBytes ++ later

/-- The message carries the key and the value that were set. -/
def Delivers (env : SvrEnv) (body : Bytes) (set : Bytes × Bytes) : Prop :=
  env.scom_total_length body = body.length ∧ env.parseBinCom body = some set

/-- A file server that puts text lines as they are. -/
structure PlainText (info : K2hFtSvrInfo) : Prop where
  file : info.isOutputFileMode = true
  text : info.IsBinaryMode = false
  noConvert : info.IsNoConvert = true
  noPlugin : info.isPluginEmpty = true

/-- Two empty lines: a value that begins with them makes `Processing` ask for size 0 twice. -/
def BlankStart (g : List K2hFtLine) : Prop :=
  ∃ r₁ r₂ rest, g = r₁ :: r₂ :: rest ∧ r₁.body = [0] ∧ r₂.body = [0]

section Server

variable {env : SvrEnv} {info : K2hFtSvrInfo}

theorem putData_textRecord (hplain : PlainText info) {b : Bytes} (hb : IsTextRecord b) :
    putData info b = b.dropLast := by
  rcases hb with ⟨s, rfl, -⟩
  simp [putData, hplain.text]

theorem putList_plainText (hplain : PlainText info) (filepath : Bytes) {g : List K2hFtLine}
    (hg : ∀ r ∈ g, IsTextRecord r.body) :
    putList env info filepath g = g.map fun r => r.body.dropLast := by
  induction g with
  | nil =>
      rfl
  | cons r g ih =>
      have hrest := ih fun q hq => hg q (by simp [hq])
      have hdata : recordData env info filepath r = some (some r.body) := by
        simp [recordData, K2hFtSvrInfo.isNeedConvert, hplain.noConvert]
      simp [putList, hdata, putData_textRecord hplain (hg r (by simp)), hrest]

theorem dropLast_eq_nil_iff {b : Bytes} (hb : IsTextRecord b) : b.dropLast = [] ↔ b = [0] := by
  rcases hb with ⟨s, rfl, -⟩
  simp

theorem take_dropLast_iff {g : List K2hFtLine} (hg : ∀ r ∈ g, IsTextRecord r.body) :
    (g.map fun r => r.body.dropLast).take 2 = [[], []] ↔ BlankStart g := by
  rcases g with _ | ⟨r₁, _ | ⟨r₂, rest⟩⟩
  · simp [BlankStart]
  · simp [BlankStart]
  · have h₁ := dropLast_eq_nil_iff (hg r₁ (by simp))
    have h₂ := dropLast_eq_nil_iff (hg r₂ (by simp))
    simp only [List.map_cons, List.take_succ_cons, List.take_zero, List.cons.injEq, and_true, h₁, h₂]
    constructor
    · rintro ⟨hb₁, hb₂⟩
      exact ⟨r₁, r₂, rest, rfl, hb₁, hb₂⟩
    · rintro ⟨q₁, q₂, rest', hcons, hb₁, hb₂⟩
      simp only [List.cons.injEq] at hcons
      rw [hcons.1, hcons.2.1]
      exact ⟨hb₁, hb₂⟩

/-- One delivered value of text records. -/
theorem processing_plainText (hplain : PlainText info) (IsUnityMode : Bool) (OutputPath : Bytes)
    {body key value filepath ppid : Bytes} (hbody : Delivers env body (key, value))
    (hkey : parseK2hFtKey key = some (filepath, ppid)) {g : List K2hFtLine}
    (hvalue : buildK2hFtValue g = some value) (hg : ∀ r ∈ g, IsTextRecord r.body) :
    (processing env info IsUnityMode OutputPath body).map (fun r => r.2.fileBytes) =
      if env.zero = .freesBlock ∧ (g.map fun r => r.body.dropLast).take 2 = [[], []] then none
      else some (g.flatMap fun r => r.body.dropLast) := by
  have hinside : ∀ r ∈ g, ReadsInside info r := by
    intro r _ h
    simp [K2hFtSvrInfo.isNeedConvert, hplain.noConvert] at h
  have hfile := processFile_eq env hplain.noPlugin hkey hvalue hinside IsUnityMode OutputPath
  rw [putList_plainText hplain filepath hg] at hfile
  rw [processing_of_file hbody.1 hbody.2 hplain.file, hfile]
  by_cases hfree : env.zero = .freesBlock ∧ (g.map fun r => r.body.dropLast).take 2 = [[], []]
  · simp [hfree]
  · rw [if_neg hfree, if_neg hfree]
    by_cases hnil : (g.map fun r => r.body.dropLast) = []
    · have : g = [] := by simpa using hnil
      simp [this, SvrEffects.fileBytes]
    · simp [hnil, SvrEffects.fileBytes, List.flatMap_def]

/-- The delivered values of groups of text records. -/
theorem serverRun_plainText (hplain : PlainText info) {IsUnityMode : Bool} {OutputPath : Bytes}
    {messages : List Bytes} {sets : List (Bytes × Bytes)} {groups : List (List K2hFtLine)}
    (hdelivered : List.Forall₂ (Delivers env) messages sets)
    (hsets : List.Forall₂ (fun (set : Bytes × Bytes) g =>
      (∃ filepath ppid, parseK2hFtKey set.1 = some (filepath, ppid)) ∧
        buildK2hFtValue g = some set.2) sets groups)
    (hgroups : ∀ g ∈ groups, ∀ r ∈ g, IsTextRecord r.body) (out : Bytes) :
    serverRun env info IsUnityMode OutputPath messages = some out ↔
      (env.zero = .freesBlock → ∀ g ∈ groups, ¬ BlankStart g) ∧
        out = groups.flatten.flatMap fun r => r.body.dropLast := by
  induction hdelivered generalizing groups out with
  | nil =>
      cases hsets
      simp [serverRun, eq_comm]
  | @cons body set messages sets hbody _ ih =>
      cases hsets with
      | @cons _ g _ groups hset hsets =>
          rcases hset with ⟨⟨filepath, ppid, hkey⟩, hvalue⟩
          have hg : ∀ r ∈ g, IsTextRecord r.body := hgroups g (by simp)
          have hone := processing_plainText hplain IsUnityMode OutputPath hbody hkey hvalue hg
          have hrest := ih hsets fun g hg => hgroups g (by simp [hg])
          have hstart := take_dropLast_iff hg
          by_cases hbad : env.zero = .freesBlock ∧
              (g.map fun r => r.body.dropLast).take 2 = [[], []]
          · rw [if_pos hbad, Option.map_eq_none_iff] at hone
            constructor
            · intro h
              simp [serverRun, hone] at h
            · intro h
              exact absurd (hstart.1 hbad.2) (h.1 hbad.1 g (by simp))
          · rw [if_neg hbad, Option.map_eq_some_iff] at hone
            rcases hone with ⟨r, hr, hbytes⟩
            have hgood : env.zero = .freesBlock → ¬ BlankStart g := fun hz hb =>
              hbad ⟨hz, hstart.2 hb⟩
            constructor
            · intro h
              simp only [serverRun, hr, Option.bind_eq_bind, Option.bind_some,
                Option.bind_eq_some_iff, pure, Option.some.injEq] at h
              rcases h with ⟨later, hlater, rfl⟩
              rcases (hrest later).1 hlater with ⟨hkeep, rfl⟩
              refine ⟨fun hz => ?_, by simp [hbytes]⟩
              simpa using ⟨hgood hz, hkeep hz⟩
            · rintro ⟨hkeep, rfl⟩
              have hlater := (hrest _).2 ⟨fun hz g hg => hkeep hz g (by simp [hg]), rfl⟩
              simp [serverRun, hr, hlater, hbytes]

end Server

/-! ## End to end -/

/-- A rule that transfers every line. -/
structure TransfersAll (pRule : K2hFtRule) : Prop where
  transfer : pRule.IsTransfer = true
  allow : pRule.DefaultDenyAll = false
  noPattern : pRule.MatchingList = []

theorem TransfersAll.cvtPushData {pRule : K2hFtRule} (h : TransfersAll pRule) (eng : RegexEngine)
    (beyond : Nat → UInt8) {data : Bytes} (hne : data ≠ []) :
    K2hFtFuse.cvtPushData eng beyond pRule data = some data := by
  simp [K2hFtFuse.cvtPushData, hne, convertToOutput, h.allow, h.noPattern, convertAllowAll]

/-- The values of a transferring rule reach k2hash as they were built. -/
theorem transferRun_sets (IsBinaryMode : Bool) {pRule : K2hFtRule}
    (htrans : pRule.IsTransfer = true) {groups : List (List K2hFtLine)}
    (values : List (ProcessEnv × Bytes))
    (hvalues : groups.mapM buildK2hFtValue = some (values.map Prod.snd)) :
    ∃ sets, transferRun IsBinaryMode pRule values = some sets ∧
      List.Forall₂ (fun (set : Bytes × Bytes) g =>
        (∃ filepath ppid, parseK2hFtKey set.1 = some (filepath, ppid)) ∧
          buildK2hFtValue g = some set.2) sets groups := by
  induction groups generalizing pRule values with
  | nil =>
      have hnil : values = [] := by simpa using hvalues
      subst hnil
      exact ⟨[], rfl, List.Forall₂.nil⟩
  | cons g groups ih =>
      rcases hg : buildK2hFtValue g with _ | value
      · simp [hg] at hvalues
      · rcases hrest : groups.mapM buildK2hFtValue with _ | later
        · simp [hg, hrest] at hvalues
        · simp only [List.mapM_cons, hg, hrest, Option.bind_eq_bind, Option.bind_some, pure,
            Option.some.injEq] at hvalues
          rcases values with _ | ⟨⟨env, pValue⟩, values⟩
          · simp at hvalues
          · simp only [List.map_cons, List.cons.injEq] at hvalues
            rcases hvalues with ⟨rfl, hlater⟩
            rcases infoProcessing_sets env IsBinaryMode htrans hg with
              ⟨result, effects, pRule', hproc, hset, htrans', -⟩
            rcases ih htrans' values (by rw [hrest, hlater]) with ⟨sets, hrun, hsets⟩
            have hkey := parseK2hFtKey_buildK2hFtKey (nul_notMem_cStr pRule.TargetPath) env.getpid
            exact ⟨(buildK2hFtKey (cStr pRule.TargetPath) env.getpid, value) :: sets,
              by simp [transferRun, hproc, hset, hrun],
              List.Forall₂.cons ⟨⟨_, _, hkey⟩, hg⟩ hsets⟩

section Pipeline

variable (limits : BuffLimits) (eng : RegexEngine) (pRule : K2hFtRule) (pid : Pid)
  (writes : List (PushEnv × Bytes)) (last : PushEnv) (env : SvrEnv)
  (info : K2hFtSvrInfo) (IsUnityMode : Bool) (OutputPath : Bytes)

/-- The blocks of the writes and of the close are such that `BuildK2hFtLine` gets its memory. -/
def LinesFit : Prop :=
  ∀ blocks, handedRecords limits pid writes last = some blocks →
    ∀ b ∈ blocks, b.2.length + sizeofLineHead < SIZE_LIMIT

/-- The whole way: what the server puts to its file for the values of a run. -/
theorem pipeline_output (hrule : TransfersAll pRule)
    (hlimit : limits.LineByteLimit = DEFAULT_LINE_LIMIT) (hpid : pid ≠ K2HFT_INVALID_PID)
    (halloc : ∀ w ∈ writes ++ [(last, [])], w.1.AllocOk) (hfit : LinesFit limits pid writes last)
    (hplain : PlainText info) :
    ∃ w, pushRun (ruleSink limits eng pRule) false pid K2hFtWriteBuff.fresh
        (writes ++ [(last, [])]) = some w ∧
      w.Stack.map K2hFtLine.body = (textRun [] (writes.map Prod.snd ++ [[]])).1 ∧
      ∀ (groups : List (List K2hFtLine)) (values : List (ProcessEnv × Bytes)),
        groups.flatten = w.Stack → groups.mapM buildK2hFtValue = some (values.map Prod.snd) →
        ∃ sets, transferRun false pRule values = some sets ∧
          ∀ messages, List.Forall₂ (Delivers env) messages sets → ∀ out,
            (serverRun env info IsUnityMode OutputPath messages = some out ↔
              (env.zero = .freesBlock → ∀ g ∈ groups, ¬ BlankStart g) ∧
                out = (writes.map Prod.snd).flatMap fun c =>
                  (keptBytes false c).filter fun c => c ≠ 0) := by
  rcases writeRun_good limits hpid halloc soundBuffs_empty with ⟨bufs', hwrite, -⟩
  simp only [getBinBuff, OrdMap.find?_empty, Option.getD_none, content_empty, List.map_append,
    List.map_cons, List.map_nil] at hwrite
  rcases textRun_bytes [] (by simp) (writes.map Prod.snd ++ [[]]) with
    ⟨hrecords, hbytes⟩
  have hblocks : ∀ b ∈ (textRun [] (writes.map Prod.snd ++ [[]])).1.map fun block => (pid, block),
      IsTextRecord b.2 := by
    intro b hb
    rcases List.mem_map.1 hb with ⟨block, hblock, rfl⟩
    exact hrecords block hblock
  have hne : ∀ b ∈ (textRun [] (writes.map Prod.snd ++ [[]])).1.map fun block => (pid, block),
      b.2 ≠ [] := by
    intro b hb
    rcases hblocks b hb with ⟨s, hs, -⟩
    simp [hs]
  have hhanded : handedRecords limits pid writes last =
      some ((textRun [] (writes.map Prod.snd ++ [[]])).1.map fun block => (pid, block)) := by
    simp only [handedRecords, hwrite, Option.map_some]
  have hfit' := hfit _ hhanded
  rcases pushRun_eq_writeRun (ruleSink limits eng pRule)
      (w := K2hFtWriteBuff.fresh) hwrite hlimit
      (fun b hb beyond => hrule.cvtPushData eng beyond (hne b hb)) hne hfit' with ⟨w, hrun, hstack⟩
  have hbodies : w.Stack.map K2hFtLine.body = (textRun [] (writes.map Prod.snd ++ [[]])).1 := by
    rw [hstack]
    simp [K2hFtWriteBuff.fresh, Function.comp_def]
  refine ⟨w, hrun, hbodies, ?_⟩
  intro groups values hgroups hvalues
  rcases transferRun_sets false hrule.transfer values hvalues with ⟨sets, hsets, hbuilt⟩
  refine ⟨sets, hsets, ?_⟩
  intro messages hdelivered out
  have htext : ∀ g ∈ groups, ∀ r ∈ g, IsTextRecord r.body := by
    intro g hg r hr
    have hmem : r ∈ w.Stack := by
      rw [← hgroups]
      exact List.mem_flatten.2 ⟨g, hg, hr⟩
    refine hrecords r.body ?_
    rw [← hbodies]
    exact List.mem_map_of_mem hmem
  rw [serverRun_plainText hplain hdelivered hbuilt htext]
  have hout : (groups.flatten.flatMap fun r => r.body.dropLast) =
      (writes.map Prod.snd).flatMap fun c => (keptBytes false c).filter fun c => c ≠ 0 := by
    rw [textRun_close_rest, List.append_nil, List.nil_append, ← hbodies, List.flatMap_map] at hbytes
    rw [hgroups, hbytes]
    simp [keptBytes]
  rw [hout]

end Pipeline

/-- **End-to-end fidelity.** For the values of any grouping of the lines, the output file gets the
written bytes without their NUL bytes exactly when no write holds a CRLF pair and, where `realloc`
frees a block of size 0, no value begins with two empty lines. -/
theorem text_fidelity_iff (limits : BuffLimits) (eng : RegexEngine) (pRule : K2hFtRule) (pid : Pid)
    (writes : List (PushEnv × Bytes)) (last : PushEnv)
    (env : SvrEnv) (info : K2hFtSvrInfo) (IsUnityMode : Bool) (OutputPath : Bytes)
    (hrule : TransfersAll pRule) (hlimit : limits.LineByteLimit = DEFAULT_LINE_LIMIT)
    (hpid : pid ≠ K2HFT_INVALID_PID) (halloc : ∀ w ∈ writes ++ [(last, [])], w.1.AllocOk)
    (hfit : LinesFit limits pid writes last) (hplain : PlainText info) :
    ∃ w, pushRun (ruleSink limits eng pRule) false pid K2hFtWriteBuff.fresh
        (writes ++ [(last, [])]) = some w ∧
      ∀ (groups : List (List K2hFtLine)) (values : List (ProcessEnv × Bytes)),
        groups.flatten = w.Stack → groups.mapM buildK2hFtValue = some (values.map Prod.snd) →
        ∃ sets, transferRun false pRule values = some sets ∧
          ∀ messages, List.Forall₂ (Delivers env) messages sets →
            (serverRun env info IsUnityMode OutputPath messages =
                some ((writes.map Prod.snd).flatten.filter fun c => c ≠ 0) ↔
              (∀ w ∈ writes, ¬ [CR, LF] <:+: w.2) ∧
                (env.zero = .freesBlock → ∀ g ∈ groups, ¬ BlankStart g)) := by
  rcases pipeline_output limits eng pRule pid writes last env info IsUnityMode OutputPath
    hrule hlimit hpid halloc hfit hplain with ⟨w, hrun, -, hpipe⟩
  refine ⟨w, hrun, ?_⟩
  intro groups values hgroups hvalues
  rcases hpipe groups values hgroups hvalues with ⟨sets, hsets, hserver⟩
  refine ⟨sets, hsets, ?_⟩
  intro messages hdelivered
  have hbytes := keptBytes_filter_eq_iff (writes.map Prod.snd)
  rw [List.forall_mem_map] at hbytes
  rw [hserver messages hdelivered, ← hbytes, and_comm]
  exact and_congr_left fun _ => eq_comm

/-! ### A server that puts plain text -/

/-- A file server in text mode without conversion. -/
def plainInfo : K2hFtSvrInfo :=
  { trimmingInfo with IsNoConvert := true }

theorem plainText_plainInfo : PlainText plainInfo := ⟨rfl, rfl, rfl, rfl⟩

/-- A rule that transfers the lines of `/log` as they are. -/
def logRule : K2hFtRule :=
  { K2hFtRule.fresh with
    TargetPath := ascii "/log"
    IsTransfer := true
    DefaultDenyAll := false }

theorem transfersAll_logRule : TransfersAll logRule := ⟨rfl, rfl, rfl⟩

/-- An engine for rules without regular expressions. -/
def noRegex : RegexEngine :=
  { regcomp := fun _ => false
    regexec := fun _ _ => none }

theorem linesFit_of_short {chunk : Bytes} (hchunk : chunk ≠ [])
    (hshort : ∀ b ∈ linesOf [] (keptBytes false chunk), b.length + sizeofLineHead < SIZE_LIMIT) :
    LinesFit BuffLimits.default 1 [(PushEnv.zeroed, chunk)] PushEnv.zeroed := by
  intro blocks hblocks
  rw [handedRecords_eq (by decide) (by simp [zeroed_allocOk]) (by simpa using hchunk)
    zeroed_allocOk] at hblocks
  rw [← Option.some.inj hblocks]
  simpa using hshort

theorem text_fidelity_iff_one_line :
    ∃ w, pushRun (ruleSink BuffLimits.default noRegex logRule) false 1
        K2hFtWriteBuff.fresh ([(PushEnv.zeroed, ascii "a\n")] ++ [(PushEnv.zeroed, [])]) = some w ∧
      ∀ (groups : List (List K2hFtLine)) (values : List (ProcessEnv × Bytes)),
        groups.flatten = w.Stack → groups.mapM buildK2hFtValue = some (values.map Prod.snd) →
        ∃ sets, transferRun false logRule values = some sets ∧
          ∀ messages, List.Forall₂ (Delivers (SvrEnv.framed .freesBlock)) messages sets →
            (serverRun (SvrEnv.framed .freesBlock) plainInfo false (ascii "/out") messages =
                some (([(PushEnv.zeroed, ascii "a\n")].map Prod.snd).flatten.filter fun c => c ≠ 0) ↔
              (∀ w ∈ [(PushEnv.zeroed, ascii "a\n")], ¬ [CR, LF] <:+: w.2) ∧
                ((SvrEnv.framed .freesBlock).zero = .freesBlock →
                  ∀ g ∈ groups, ¬ BlankStart g)) :=
  text_fidelity_iff BuffLimits.default noRegex logRule 1
    [(PushEnv.zeroed, ascii "a\n")] PushEnv.zeroed (SvrEnv.framed .freesBlock) plainInfo false
    (ascii "/out") transfersAll_logRule rfl (by decide) (by simp [zeroed_allocOk])
    (linesFit_of_short (by decide) (by decide)) plainText_plainInfo

theorem totallen_eq_map_body (lines : List K2hFtLine) :
    totallen lines = ((lines.map K2hFtLine.body).map fun b => sizeofLineHead + b.length).sum := by
  simp [totallen, K2hFtLine.linelength_eq, Function.comp_def]

/-- `a\r\n` written at once and delivered as one value reaches the file as `a\r`. -/
theorem crlf_loses_line_feed :
    ∃ w value sets message,
      pushRun (ruleSink BuffLimits.default noRegex logRule) false 1
        K2hFtWriteBuff.fresh [(PushEnv.zeroed, ascii "a\r\n"), (PushEnv.zeroed, [])] = some w ∧
      buildK2hFtValue w.Stack = some value ∧
      transferRun false logRule [({ getpid := 7, set := true, put := fun _ => true, now := none },
        value)] = some sets ∧
      List.Forall₂ (Delivers (SvrEnv.framed .returnsBlock)) [message] sets ∧
      serverRun (SvrEnv.framed .returnsBlock) plainInfo false (ascii "/out") [message] =
        some (ascii "a\r") ∧
      ascii "a\r" ≠ (ascii "a\r\n").filter fun c => c ≠ 0 := by
  rcases pipeline_output BuffLimits.default noRegex logRule 1
      [(PushEnv.zeroed, ascii "a\r\n")] PushEnv.zeroed (SvrEnv.framed .returnsBlock) plainInfo false
      (ascii "/out") transfersAll_logRule rfl (by decide) (by simp [zeroed_allocOk])
      (linesFit_of_short (by decide) (by decide)) plainText_plainInfo with
    ⟨w, hrun, hbodies, hpipe⟩
  have hrecords : w.Stack.map K2hFtLine.body = [ascii "a\r\x00"] := by
    rw [hbodies]
    decide
  have hne : w.Stack ≠ [] := by
    intro hnil
    simp [hnil] at hrecords
  have hvalue := buildK2hFtValue_sampleValue hne (by
    rw [totallen_eq_map_body, hrecords]
    decide)
  rcases hpipe [w.Stack]
      [({ getpid := 7, set := true, put := fun _ => true, now := none }, sampleValue w.Stack)]
      (by simp) (by simp [hvalue]) with ⟨sets, hsets, hserver⟩
  rcases infoProcessing_sets { getpid := 7, set := true, put := fun _ => true, now := none } false
    transfersAll_logRule.transfer hvalue with ⟨result, effects, pRule', hproc, hset, -, -⟩
  have hsets' : sets = [(buildK2hFtKey (cStr logRule.TargetPath) 7, sampleValue w.Stack)] := by
    simpa [transferRun, hproc, hset, eq_comm] using hsets
  have hdelivers : List.Forall₂ (Delivers (SvrEnv.framed .returnsBlock))
      [frame (buildK2hFtKey (cStr logRule.TargetPath) 7) (sampleValue w.Stack)] sets := by
    rw [hsets']
    exact List.Forall₂.cons ⟨rfl, parseBinCom_frame .returnsBlock _ (by decide) _⟩ List.Forall₂.nil
  refine ⟨w, _, sets, _, hrun, hvalue, hsets, hdelivers, ?_, by decide⟩
  rw [hserver _ hdelivers]
  exact ⟨by simp [SvrEnv.framed], by decide⟩

end K2hFtFuse

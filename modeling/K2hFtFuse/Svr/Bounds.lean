import K2hFtFuse.Svr.Processing

/-!
# Svr.Bounds — the reads of `Processing` in a received message

Key and value of a message are slices of its body, and nothing in `Processing` compares the lengths
inside the value with the length of the slice. This module lists the reads that the file mode makes:

- `processReads`: the reads in their order, up to the first one that leaves its slice;
- `processReads_inside_iff`: they all stay inside exactly when the value head, the two strings of
  the key and every record that the walk reaches lie inside (`MessageFits`).
-/

namespace K2hFtFuse

open ByteSeq

/-! ## Reads -/

/-- A read of the key or of the value: some bytes, or a C string with its NUL. -/
inductive Access
  | keyString (off : Nat)
  | valueBytes (off len : Nat)
  | valueString (off : Nat)
  deriving DecidableEq

def Access.Inside (key value : Bytes) : Access → Prop
  | .keyString off => (0 : UInt8) ∈ key.drop off
  | .valueBytes off len => off + len ≤ value.length
  | .valueString off => (0 : UInt8) ∈ value.drop off

instance instDecidableInside (key value : Bytes) : ∀ a : Access, Decidable (a.Inside key value)
  | .keyString off => inferInstanceAs (Decidable ((0 : UInt8) ∈ key.drop off))
  | .valueBytes off len => inferInstanceAs (Decidable (off + len ≤ value.length))
  | .valueString off => inferInstanceAs (Decidable ((0 : UInt8) ∈ value.drop off))

/-- What decides which reads are made besides the message: the debug mode, and whether `realloc`
finds a block in round `cnt`. -/
structure ReadEnv where
  svr : SvrEnv
  dump : Bool
  reallocOk : Nat → Bool

/-- Does a conversion print the host name of the line? -/
def K2hFtSvrInfo.printsHostname (info : K2hFtSvrInfo) : Bool :=
  info.isOutputFileMode && !info.IsBinaryMode &&
    info.OutputFormat.any fun part => part.type == .HOSTNAME

section Reads

variable (env : ReadEnv) (info : K2hFtSvrInfo) (filepath OutputFile key value : Bytes)

/-- `GetNextK2hFtLine` and `ParseK2hFtLine`. -/
def headReads (pline : Nat) : List Access :=
  [.valueBytes pline 8, .valueBytes (pline + offsetPid) 4, .valueBytes (pline + offsetTs) 16]

/-- The debug print of a line. -/
def dumpReads (data hostname : Nat) : List Access :=
  if env.dump then
    [.keyString 0, .keyString (filepath.length + 1), .valueString data, .valueString hostname]
  else
    []

/-- `ConvertOutput`. -/
def convertReads (data hostname : Nat) : List Access :=
  if info.isOutputFileMode && !info.IsBinaryMode then
    info.OutputFormat.flatMap fun part =>
      match part.type with
      | .CONTENTS => [.valueString data]
      | .TRIM_CONTENTS => [.valueString data]
      | .HOSTNAME => [.valueString hostname]
      | _ => []
  else
    []

/-- `data[datalength - 1]`; the address wraps around. -/
def lastByte (data datalength : Nat) : Nat := (data + datalength - 1) % SIZE_LIMIT

/-- How much of unconverted data is put: in text mode not its last byte when that is NUL. -/
def putLength (data datalength : Nat) : Nat :=
  if info.IsBinaryMode = false ∧ value[lastByte data datalength]? = some 0 then datalength - 1
  else datalength

/-- Unconverted data goes somewhere: to a running plugin, or to the file. -/
def hasTarget : Bool := info.isPluginEmpty || env.svr.getPlugin OutputFile

/-- The data is copied: to the plugin, or to the block if `realloc` has found one. -/
def isCopied (cnt : Nat) : Bool :=
  if info.isPluginEmpty then env.reallocOk cnt else env.svr.getPlugin OutputFile

/-- Putting data that is not converted. -/
def putReads (cnt data datalength : Nat) : List Access :=
  (if hasTarget env info OutputFile && !info.IsBinaryMode then
    [.valueBytes (lastByte data datalength) 1]
  else
    []) ++
  (if isCopied env info OutputFile cnt then
    [.valueBytes data (putLength info value data datalength)]
  else
    [])

/-- The reads of round `cnt` when the line at `pLines` has data. -/
def dataReads (cnt data hostname datalength : Nat) : List Access :=
  dumpReads env filepath data hostname ++
    if info.isNeedConvert then convertReads info data hostname
    else putReads env info OutputFile value cnt data datalength

/-- The reads of round `cnt`. -/
def lineReads (cnt pLines : Nat) : List Access :=
  headReads pLines ++
    match parseK2hFtLine value pLines with
    | none => []
    | some p =>
        match p.data with
        | none => []
        | some data => dataReads env info filepath OutputFile value cnt data p.hostname p.length

/-- The round ends with `pLines = pNextLines`. -/
def moves (pLines : Nat) : Bool :=
  match parseK2hFtLine value pLines with
  | none => false
  | some p =>
      match p.data with
      | none => false
      | some data =>
          !info.isNeedConvert ||
            (lineData env.svr info filepath value p data).any Option.isSome

/-- The reads of the loop from round `cnt` on, with the rounds that are left. -/
def walkReads : Nat → Nat → Option Nat → List Access
  | _, 0, _ => []
  | _, _ + 1, none => []
  | cnt, n + 1, some pLines =>
      let reads := lineReads env info filepath OutputFile value cnt pLines
      if ∀ a ∈ reads, a.Inside key value then
        reads ++ walkReads (cnt + 1) n
          -- the pointer stays where the loop body is left by `continue`
          (if moves env info filepath value pLines then (getNextK2hFtLine value pLines).getD none
          else some pLines)
      else
        reads

end Reads

/-- The reads of the output file mode of `Processing`. -/
def processReads (env : ReadEnv) (info : K2hFtSvrInfo) (IsUnityMode : Bool)
    (OutputPath key value : Bytes) : List Access :=
  match getK2hFtValueSize value with
  | none => [.valueBytes 0 8]
  | some AllLength =>
      .valueBytes 0 8 ::
        if AllLength < sizeofLineHead then
          [.keyString 0]
        else
          match readLE value 8 8 with
          | none => [.valueBytes 8 8]
          | some linecount =>
              .valueBytes 8 8 :: .keyString 0 ::
                match cStringAt key 0 with
                | none => []
                | some filepath =>
                    walkReads env info filepath
                      (if IsUnityMode then OutputPath else OutputPath ++ filepath) key value 0
                      linecount (some sizeofValueHead)

/-! ## Messages whose parts lie inside -/

section Fits

variable (env : ReadEnv) (info : K2hFtSvrInfo) (filepath OutputFile key value : Bytes)

/-- The data of a record, as far as it is printed, converted or put, lies inside. -/
structure DataFits (cnt data hostname datalength : Nat) : Prop where
  dumped : env.dump = true → (0 : UInt8) ∈ key ∧ (0 : UInt8) ∈ key.drop (filepath.length + 1) ∧
    (0 : UInt8) ∈ value.drop data ∧ (0 : UInt8) ∈ value.drop hostname
  contents : info.isNeedConvert = true → info.printsContents = true →
    (0 : UInt8) ∈ value.drop data
  host : info.isNeedConvert = true → info.printsHostname = true →
    (0 : UInt8) ∈ value.drop hostname
  last : info.isNeedConvert = false → hasTarget env info OutputFile = true →
    info.IsBinaryMode = false → lastByte data datalength + 1 ≤ value.length
  copied : info.isNeedConvert = false → isCopied env info OutputFile cnt = true →
    data + putLength info value data datalength ≤ value.length

/-- The record at `pline` lies inside, as far as round `cnt` looks at it. -/
def LineFits (cnt pline : Nat) : Prop :=
  pline + offsetHostname ≤ value.length ∧
    ∀ linelength, readLE value pline 8 = some linelength → 0 < linelength →
      DataFits env info filepath OutputFile key value cnt (pline + sizeofLineHead)
        (pline + offsetHostname) linelength

/-- From the record at the first offset, adding up lengths over so many records leads to the other
one. The walk does not go on behind a record without data or with an empty conversion, nor
behind one whose size wraps to 0. -/
inductive Reaches : Nat → Nat → Nat → Prop
  | here (pline : Nat) : Reaches pline 0 pline
  | next {pline linelength cnt pline' : Nat} (hmoves : moves env info filepath value pline = true)
      (hlength : readLE value pline 8 = some linelength)
      (hcur : (linelength + sizeofLineHead) % SIZE_LIMIT ≠ 0)
      (hrest : Reaches ((pline + (linelength + sizeofLineHead) % SIZE_LIMIT) % SIZE_LIMIT) cnt
        pline') :
      Reaches pline (cnt + 1) pline'

end Fits

/-- The parts of key and value that the lengths in the value point to lie inside. -/
structure MessageFits (env : ReadEnv) (info : K2hFtSvrInfo) (IsUnityMode : Bool)
    (OutputPath key value : Bytes) : Prop where
  bodylength : 8 ≤ value.length
  linecount : ∀ AllLength, getK2hFtValueSize value = some AllLength → sizeofLineHead ≤ AllLength →
    sizeofValueHead ≤ value.length
  path : (0 : UInt8) ∈ key
  lines : ∀ filepath pLines count, cStringAt key 0 = some filepath →
    getK2hFtLines value = some (some pLines, count) → ∀ cnt pline, cnt < count →
      Reaches env info filepath value pLines cnt pline →
        LineFits env info filepath (if IsUnityMode then OutputPath else OutputPath ++ filepath) key
          value cnt pline

/-! ## One record -/

section Record

variable {env : ReadEnv} {info : K2hFtSvrInfo} {filepath OutputFile key value : Bytes}

theorem headReads_inside_iff {pline : Nat} :
    (∀ a ∈ headReads pline, a.Inside key value) ↔ pline + offsetHostname ≤ value.length := by
  simp only [headReads, List.forall_mem_cons, Access.Inside, List.not_mem_nil, false_implies,
    implies_true, and_true, offsetPid, offsetTs, offsetHostname]
  omega

/-- A head that lies inside is parsed. -/
theorem parseK2hFtLine_of_head {pline : Nat} (h : pline + offsetHostname ≤ value.length) :
    ∃ linelength p, readLE value pline 8 = some linelength ∧
      parseK2hFtLine value pline = some p ∧ p.length = linelength ∧
      p.hostname = pline + offsetHostname ∧
      p.data = if 0 < linelength then some (pline + sizeofLineHead) else none := by
  -- the four members that are read lie before the host name
  have hread : ∀ off width, off + width ≤ offsetHostname →
      slice? value (pline + off) width = some ((value.drop (pline + off)).take width) := by
    intro off width hle
    rw [slice?, if_pos (by omega)]
  have hlength := hread 0 8 (by decide)
  have hpid := hread offsetPid 4 (by decide)
  have hsec := hread offsetTs 8 (by decide)
  have hnsec := hread (offsetTs + 8) 8 (by decide)
  rw [Nat.add_zero] at hlength
  rw [← Nat.add_assoc] at hnsec
  refine ⟨decodeLE ((value.drop pline).take 8), ?_⟩
  simp [parseK2hFtLine, readLE, readInt, hlength, hpid, hsec, hnsec]

theorem dumpReads_inside_iff {data hostname : Nat} :
    (∀ a ∈ dumpReads env filepath data hostname, a.Inside key value) ↔
      (env.dump = true → (0 : UInt8) ∈ key ∧ (0 : UInt8) ∈ key.drop (filepath.length + 1) ∧
        (0 : UInt8) ∈ value.drop data ∧ (0 : UInt8) ∈ value.drop hostname) := by
  rcases hdump : env.dump with _ | _ <;> simp [dumpReads, hdump, Access.Inside]

theorem convertReads_inside_iff {data hostname : Nat} :
    (∀ a ∈ convertReads info data hostname, a.Inside key value) ↔
      (info.printsContents = true → (0 : UInt8) ∈ value.drop data) ∧
        (info.printsHostname = true → (0 : UInt8) ∈ value.drop hostname) := by
  rcases hmode : info.isOutputFileMode && !info.IsBinaryMode with _ | _
  · simp [convertReads, K2hFtSvrInfo.printsContents, K2hFtSvrInfo.printsHostname, hmode]
  · simp only [convertReads, K2hFtSvrInfo.printsContents, K2hFtSvrInfo.printsHostname, hmode,
      if_true, Bool.true_and, List.mem_flatMap, List.any_eq_true]
    constructor
    · intro h
      constructor
      · rintro ⟨part, hpart, htype⟩
        refine h (.valueString data) ⟨part, hpart, ?_⟩
        rcases part with ⟨type, form⟩
        cases type <;> simp at htype ⊢
      · rintro ⟨part, hpart, htype⟩
        refine h (.valueString hostname) ⟨part, hpart, ?_⟩
        rcases part with ⟨type, form⟩
        cases type <;> simp at htype ⊢
    · -- each part that reads names one of the two strings
      rintro ⟨hcontents, hhost⟩ a ⟨part, hpart, ha⟩
      rcases part with ⟨type, form⟩
      cases type <;> simp only [List.not_mem_nil, List.mem_singleton] at ha <;> subst ha
      · exact hcontents ⟨_, hpart, rfl⟩
      · exact hhost ⟨_, hpart, rfl⟩
      · exact hcontents ⟨_, hpart, rfl⟩

theorem putReads_inside_iff {cnt data datalength : Nat} :
    (∀ a ∈ putReads env info OutputFile value cnt data datalength, a.Inside key value) ↔
      (hasTarget env info OutputFile = true → info.IsBinaryMode = false →
        lastByte data datalength + 1 ≤ value.length) ∧
      (isCopied env info OutputFile cnt = true →
        data + putLength info value data datalength ≤ value.length) := by
  rcases htarget : hasTarget env info OutputFile with _ | _ <;>
    rcases hbinary : info.IsBinaryMode with _ | _ <;>
    rcases hcopied : isCopied env info OutputFile cnt with _ | _ <;>
    simp [putReads, htarget, hbinary, hcopied, Access.Inside]

theorem dataReads_inside_iff {cnt data hostname datalength : Nat} :
    (∀ a ∈ dataReads env info filepath OutputFile value cnt data hostname datalength,
      a.Inside key value) ↔
      DataFits env info filepath OutputFile key value cnt data hostname datalength := by
  simp only [dataReads, List.forall_mem_append, dumpReads_inside_iff]
  rcases hcvt : info.isNeedConvert with _ | _
  · simp only [Bool.false_eq_true, if_false, putReads_inside_iff]
    constructor
    · rintro ⟨hdump, hlast, hcopied⟩
      exact ⟨hdump, by simp [hcvt], by simp [hcvt], fun _ => hlast, fun _ => hcopied⟩
    · intro h
      exact ⟨h.dumped, h.last hcvt, h.copied hcvt⟩
  · -- converted data is put from a new string
    simp only [if_true, convertReads_inside_iff]
    constructor
    · rintro ⟨hdump, hcontents, hhost⟩
      exact ⟨hdump, fun _ => hcontents, fun _ => hhost, by simp [hcvt], by simp [hcvt]⟩
    · intro h
      exact ⟨h.dumped, h.contents hcvt, h.host hcvt⟩

theorem lineReads_inside_iff {cnt pline : Nat} :
    (∀ a ∈ lineReads env info filepath OutputFile value cnt pline, a.Inside key value) ↔
      LineFits env info filepath OutputFile key value cnt pline := by
  rw [lineReads, List.forall_mem_append, headReads_inside_iff, LineFits]
  refine and_congr_right fun hhead => ?_
  rcases parseK2hFtLine_of_head hhead with ⟨linelength, p, hlength, hparse, hlen, hhost, hdata⟩
  simp only [hparse, hlength, Option.some.injEq, forall_eq']
  -- a record without data is not read behind its head
  by_cases hpos : 0 < linelength
  · rw [if_pos hpos] at hdata
    simp only [hdata, hpos, forall_const, hlen, hhost, dataReads_inside_iff]
  · rw [if_neg hpos] at hdata
    simp [hdata, hpos]

/-- A record behind which the walk does not go on is looked at in the same way in every round. -/
theorem LineFits.stay {cnt pline : Nat} (h : LineFits env info filepath OutputFile key value cnt pline)
    (hmoves : moves env info filepath value pline = false) (cnt' : Nat) :
    LineFits env info filepath OutputFile key value cnt' pline := by
  refine ⟨h.1, ?_⟩
  intro linelength hlength hpos
  have hfits := h.2 linelength hlength hpos
  rcases parseK2hFtLine_of_head h.1 with ⟨n, p, hn, hparse, -, -, hdata⟩
  obtain rfl : linelength = n := Option.some.inj (hlength.symm.trans hn)
  rw [if_pos hpos] at hdata
  have hcvt : info.isNeedConvert = true := by
    simp only [moves, hparse, hdata, Bool.or_eq_false_iff, Bool.not_eq_false'] at hmoves
    exact hmoves.1
  exact ⟨hfits.dumped, hfits.contents, hfits.host, by simp [hcvt], by simp [hcvt]⟩

theorem getNextK2hFtLine_of_length {pline linelength : Nat}
    (h : readLE value pline 8 = some linelength) :
    getNextK2hFtLine value pline =
      some (if (linelength + sizeofLineHead) % SIZE_LIMIT = 0 then none
        else some ((pline + (linelength + sizeofLineHead) % SIZE_LIMIT) % SIZE_LIMIT)) := by
  simp only [getNextK2hFtLine, getK2hFtLineSize, h, Option.bind_eq_bind, Option.bind_some, pure]
  split <;> rfl

end Record

/-! ## The walk -/

section Walk

variable {env : ReadEnv} {info : K2hFtSvrInfo} {filepath OutputFile key value : Bytes}

theorem reaches_of_not_moves {pline cnt pline' : Nat}
    (hmoves : moves env info filepath value pline = false)
    (h : Reaches env info filepath value pline cnt pline') : cnt = 0 ∧ pline' = pline := by
  cases h with
  | here =>
      exact ⟨rfl, rfl⟩
  | next hmoves' =>
      rw [hmoves] at hmoves'
      cases hmoves'

theorem walkReads_none (cnt n : Nat) :
    walkReads env info filepath OutputFile key value cnt n none = [] := by
  cases n <;> rfl

/-- The reads of the loop stay inside exactly when every record that it reaches lies inside. -/
theorem walkReads_inside_iff (n : Nat) :
    ∀ cnt pline, (∀ a ∈ walkReads env info filepath OutputFile key value cnt n (some pline),
        a.Inside key value) ↔
      ∀ j pline', j < n → Reaches env info filepath value pline j pline' →
        LineFits env info filepath OutputFile key value (cnt + j) pline' := by
  induction n with
  | zero =>
      intro cnt pline
      simp [walkReads]
  | succ n ih =>
      intro cnt pline
      by_cases hfits : LineFits env info filepath OutputFile key value cnt pline
      · have hline := lineReads_inside_iff.2 hfits
        simp only [walkReads, if_pos hline, List.forall_mem_append]
        rw [and_iff_right hline]
        rcases hmoves : moves env info filepath value pline with _ | _
        · -- the pointer stays, and every further round looks at the same record
          simp only [Bool.false_eq_true, if_false, ih]
          constructor
          · intro _ j pline' _ hreach
            rcases reaches_of_not_moves hmoves hreach with ⟨rfl, rfl⟩
            exact hfits
          · intro _ j pline' _ hreach
            rcases reaches_of_not_moves hmoves hreach with ⟨rfl, rfl⟩
            exact hfits.stay hmoves _
        · rcases parseK2hFtLine_of_head hfits.1 with ⟨linelength, -, hlength, -⟩
          simp only [if_true, getNextK2hFtLine_of_length hlength, Option.getD_some]
          by_cases hcur : (linelength + sizeofLineHead) % SIZE_LIMIT = 0
          · -- the size wraps to 0, and the next pointer is NULL
            rw [if_pos hcur, walkReads_none]
            refine iff_of_true (by simp) ?_
            intro j pline' _ hreach
            cases hreach with
            | here =>
                exact hfits
            | next _ hlength' hcur' _ =>
                rw [hlength] at hlength'
                exact absurd (Option.some.inj hlength' ▸ hcur) hcur'
          · rw [if_neg hcur, ih]
            constructor
            · intro h j pline' hj hreach
              cases hreach with
              | here =>
                  exact hfits
              | @next _ linelength' j _ _ hlength' _ hrest =>
                  rw [hlength] at hlength'
                  obtain rfl := Option.some.inj hlength'
                  have := h j pline' (by omega) hrest
                  rwa [Nat.add_assoc, Nat.add_comm 1 j] at this
            · intro h j pline' hj hreach
              have := h (j + 1) pline' (by omega) (.next hmoves hlength hcur hreach)
              rwa [Nat.add_assoc, Nat.add_comm 1 j]
      · have hline : ¬ ∀ a ∈ lineReads env info filepath OutputFile value cnt pline,
            a.Inside key value := fun h => hfits (lineReads_inside_iff.1 h)
        simp only [walkReads, if_neg hline]
        refine iff_of_false hline ?_
        intro h
        exact hfits (h 0 pline (by omega) (.here pline))

end Walk

/-! ## A whole message -/

theorem readLE_isSome_iff {m : Bytes} {off width : Nat} :
    (readLE m off width).isSome ↔ off + width ≤ m.length := by
  by_cases h : off + width ≤ m.length <;> simp [readLE, slice?, h]

theorem cStringAt_isSome_iff {m : Bytes} {off : Nat} :
    (cStringAt m off).isSome ↔ (0 : UInt8) ∈ m.drop off := cString?_isSome_iff

theorem getK2hFtValueSize_isSome_iff {value : Bytes} :
    (getK2hFtValueSize value).isSome ↔ 8 ≤ value.length := by
  have := @readLE_isSome_iff value 0 8
  simp only [Nat.zero_add] at this
  rw [← this, getK2hFtValueSize]
  rcases readLE value 0 8 with _ | _ <;> simp

/-- A value that is too short for a line: the head and the path are read. -/
theorem processReads_inside_noLines {env : ReadEnv} {info : K2hFtSvrInfo} {IsUnityMode : Bool}
    {OutputPath key value : Bytes} {AllLength : Nat}
    (hsize : getK2hFtValueSize value = some AllLength) (hno : AllLength < sizeofLineHead) :
    (∀ a ∈ processReads env info IsUnityMode OutputPath key value, a.Inside key value) ↔
      MessageFits env info IsUnityMode OutputPath key value := by
  have hlong : 8 ≤ value.length := getK2hFtValueSize_isSome_iff.1 (by simp [hsize])
  have hlines : getK2hFtLines value = some (none, 0) := by
    simp [getK2hFtLines, hsize, hno]
  simp only [processReads, hsize, if_pos hno, List.forall_mem_cons, Access.Inside,
    Nat.zero_add, List.drop_zero]
  constructor
  · rintro ⟨-, hpath, -⟩
    refine ⟨hlong, ?_, hpath, ?_⟩
    · intro a ha hle
      rw [hsize] at ha
      have := Option.some.inj ha
      omega
    · intro filepath pLines count _ hfound
      rw [hlines] at hfound
      cases hfound
  · intro h
    exact ⟨hlong, h.path, by simp⟩

/-- A value with a head for lines: the head, the path and the walk through the lines are read. -/
theorem processReads_inside_lines {env : ReadEnv} {info : K2hFtSvrInfo} {IsUnityMode : Bool}
    {OutputPath key value : Bytes} {AllLength linecount : Nat}
    (hsize : getK2hFtValueSize value = some AllLength) (hno : ¬ AllLength < sizeofLineHead)
    (hcount : readLE value 8 8 = some linecount) :
    (∀ a ∈ processReads env info IsUnityMode OutputPath key value, a.Inside key value) ↔
      MessageFits env info IsUnityMode OutputPath key value := by
  have hlong : 8 ≤ value.length := getK2hFtValueSize_isSome_iff.1 (by simp [hsize])
  have hhead : 8 + 8 ≤ value.length := readLE_isSome_iff.1 (by simp [hcount])
  have hkey : (0 : UInt8) ∈ key ↔ (cStringAt key 0).isSome := by
    rw [cStringAt_isSome_iff, List.drop_zero]
  have hlines : getK2hFtLines value = some (some sizeofValueHead, linecount) := by
    simp [getK2hFtLines, hsize, hno, hcount]
  simp only [processReads, hsize, if_neg hno, hcount]
  rcases hpath : cStringAt key 0 with _ | filepath
  · have hnul : (0 : UInt8) ∉ key := by
      rw [hkey, hpath]
      simp
    simp only [List.forall_mem_cons, Access.Inside, List.drop_zero]
    exact iff_of_false (fun h => hnul h.2.2.1) fun h => hnul h.path
  · have hnul : (0 : UInt8) ∈ key := hkey.2 (by simp [hpath])
    rw [List.forall_mem_cons, List.forall_mem_cons, List.forall_mem_cons, walkReads_inside_iff]
    simp only [Access.Inside, Nat.zero_add, List.drop_zero]
    constructor
    · rintro ⟨-, -, -, hwalk⟩
      refine ⟨hlong, fun _ _ _ => hhead, hnul, ?_⟩
      -- the path and the lines that are found are the ones the walk starts from
      intro filepath' pLines count hpath' hfound cnt pline hcnt hreach
      rw [hpath] at hpath'
      rw [hlines] at hfound
      obtain rfl := Option.some.inj hpath'
      obtain ⟨rfl, rfl⟩ : sizeofValueHead = pLines ∧ linecount = count := by
        simpa using hfound
      exact hwalk cnt pline hcnt hreach
    · intro h
      exact ⟨hlong, hhead, hnul, fun j pline hj hreach =>
        h.lines filepath sizeofValueHead linecount hpath hlines j pline hj hreach⟩

/-- Whatever the message, the debug mode and the answers of `realloc` are: every read of the file
mode of `Processing` lies inside the key and the value exactly when their parts do. Nothing is
tested before it is read, so no other message is rejected. -/
theorem processReads_inside_iff (env : ReadEnv) (info : K2hFtSvrInfo) (IsUnityMode : Bool)
    (OutputPath key value : Bytes) :
    (∀ a ∈ processReads env info IsUnityMode OutputPath key value, a.Inside key value) ↔
      MessageFits env info IsUnityMode OutputPath key value := by
  rcases hsize : getK2hFtValueSize value with _ | AllLength
  · have hshort : ¬ 8 ≤ value.length := by
      rw [← getK2hFtValueSize_isSome_iff, hsize]
      simp
    simp only [processReads, hsize, List.forall_mem_cons, Access.Inside, Nat.zero_add]
    exact iff_of_false (fun h => hshort h.1) fun h => hshort h.bodylength
  · by_cases hno : AllLength < sizeofLineHead
    · exact processReads_inside_noLines hsize hno
    · rcases hcount : readLE value 8 8 with _ | linecount
      · -- the number of lines is read past the end of the value
        have hshort : ¬ 8 + 8 ≤ value.length := by
          rw [← readLE_isSome_iff, hcount]
          simp
        simp only [processReads, hsize, if_neg hno, hcount, List.forall_mem_cons, Access.Inside]
        exact iff_of_false (fun h => hshort h.2.1)
          fun h => hshort (h.linecount AllLength hsize (by omega))
      · exact processReads_inside_lines hsize hno hcount

/-! ## The reads and the model of `Processing` -/

section Results

variable {env : ReadEnv} {info : K2hFtSvrInfo} {filepath OutputFile key value : Bytes}

/-- A conversion with a result found every C string that it prints. -/
theorem strings_of_convertOutput {lib : TextLib} {src : LineSource}
    (h : (convertOutput lib info src).isSome) :
    (info.printsContents = true → src.content.isSome) ∧
      (info.printsHostname = true → src.hostname.isSome) := by
  rcases hmode : info.isOutputFileMode && !info.IsBinaryMode with _ | _
  · simp [K2hFtSvrInfo.printsContents, K2hFtSvrInfo.printsHostname, hmode]
  · rw [Bool.and_eq_true, Bool.not_eq_true'] at hmode
    have hparts : ∀ part ∈ info.OutputFormat, (formPartText lib
        (makeTimeOutputString lib info.TimeFormat src.ts) src part).isSome := by
      simpa [convertOutput, hmode, makeFormOutputString, mapM_isSome_iff] using h
    simp only [K2hFtSvrInfo.printsContents, K2hFtSvrInfo.printsHostname, hmode, Bool.not_false,
      Bool.and_true, Bool.true_and, List.any_eq_true]
    constructor
    · rintro ⟨⟨type, form⟩, hpart, htype⟩
      have := hparts _ hpart
      cases type <;> simp [formPartText] at htype this <;> exact this
    · rintro ⟨⟨type, form⟩, hpart, htype⟩
      have := hparts _ hpart
      cases type <;> simp [formPartText] at htype this
      exact this

/-- Without the debug print, a round of the model that has a result reads inside the value. -/
theorem dataFits_of_lineData (hdump : env.dump = false) {p : ParsedLine} {data : Nat}
    (hpos : 0 < p.length) (h : (lineData env.svr info filepath value p data).isSome) (cnt : Nat) :
    DataFits env info filepath OutputFile key value cnt data p.hostname p.length := by
  unfold lineData at h
  split at h
  · rename_i hcvt
    rw [Option.isSome_map] at h
    rcases strings_of_convertOutput h with ⟨hcontents, hhost⟩
    exact ⟨by simp [hdump], fun _ hp => cStringAt_isSome_iff.1 (hcontents hp),
      fun _ hp => cStringAt_isSome_iff.1 (hhost hp), by simp [hcvt], by simp [hcvt]⟩
  · rename_i hcvt
    have hinside : data + p.length ≤ value.length := by
      by_contra hout
      simp [slice?, hout] at h
    have hlast : lastByte data p.length + 1 ≤ value.length := by
      have := Nat.mod_le (data + p.length - 1) SIZE_LIMIT
      rw [lastByte]
      omega
    have hput : putLength info value data p.length ≤ p.length := by
      unfold putLength
      split <;> omega
    exact ⟨by simp [hdump], by simp [hcvt], by simp [hcvt], fun _ _ _ => hlast, fun _ _ => by omega⟩

theorem head_of_parseK2hFtLine {pline : Nat} {p : ParsedLine}
    (h : parseK2hFtLine value pline = some p) : pline + offsetHostname ≤ value.length := by
  simp only [parseK2hFtLine, Option.bind_eq_bind, Option.bind_eq_some_iff] at h
  rcases h with ⟨-, -, pid, hpid, -⟩
  by_contra hout
  have hno : ¬ pline + offsetPid + 4 ≤ value.length := by
    simp only [offsetPid, offsetHostname] at hout ⊢
    omega
  simp [readInt, slice?, hno] at hpid

/-- A loop of the model that has a result reads inside key and value. -/
theorem walkReads_of_processLines (hdump : env.dump = false) (n : Nat) :
    ∀ cnt pLines st, (processLines env.svr info filepath OutputFile value n pLines st).isSome →
      ∀ a ∈ walkReads env info filepath OutputFile key value cnt n pLines, a.Inside key value := by
  induction n with
  | zero =>
      intro cnt pLines st _
      simp [walkReads]
  | succ n ih =>
      intro cnt pLines st h
      rcases pLines with _ | pLines
      · simp [walkReads]
      · rcases hnext : getNextK2hFtLine value pLines with _ | next
        · simp [processLines, hnext] at h
        rcases hparse : parseK2hFtLine value pLines with _ | p
        · simp [processLines, hnext, hparse] at h
        have hhead := head_of_parseK2hFtLine hparse
        rcases parseK2hFtLine_of_head hhead with ⟨linelength, p', hlength, hparse', hlen, hhost, hp⟩
        obtain rfl : p = p' := Option.some.inj (hparse.symm.trans hparse')
        simp only [processLines, hnext, hparse, Option.bind_eq_bind, Option.bind_some] at h
        by_cases hpos : 0 < linelength
        · rw [if_pos hpos] at hp
          simp only [hp] at h
          rcases hdata : lineData env.svr info filepath value p (pLines + sizeofLineHead) with _ | data
          · simp [hdata] at h
          · have hfits : LineFits env info filepath OutputFile key value cnt pLines := by
              refine ⟨hhead, ?_⟩
              intro m hm _
              obtain rfl : linelength = m := Option.some.inj (hlength.symm.trans hm)
              rw [← hhost, ← hlen]
              exact dataFits_of_lineData hdump (by omega) (by simp [hdata]) cnt
            have hline := lineReads_inside_iff.2 hfits
            simp only [walkReads, if_pos hline, List.forall_mem_append]
            refine ⟨hline, ?_⟩
            rw [hdata] at h
            rcases data with _ | data
            · -- an empty conversion: the pointer stays
              have hmoves : moves env info filepath value pLines = false := by
                have hcvt : info.isNeedConvert = true := by
                  by_contra hno
                  rcases hslice : slice? value (pLines + sizeofLineHead) p.length with _ | _ <;>
                    simp [lineData, hno, hslice] at hdata
                simp [moves, hparse, hp, hdata, hcvt]
              rw [hmoves]
              exact ih (cnt + 1) (some pLines) st h
            · have hmoves : moves env info filepath value pLines = true := by
                simp [moves, hparse, hp, hdata]
              simp only [Option.bind_some] at h
              rcases hput : st.put env.svr info OutputFile data with _ | st'
              · simp [hput] at h
              · rw [hput, Option.bind_some] at h
                rw [hmoves, hnext]
                exact ih (cnt + 1) next st' h
        · rw [if_neg hpos] at hp
          have hfits : LineFits env info filepath OutputFile key value cnt pLines := by
            refine ⟨hhead, ?_⟩
            intro m hm hm'
            obtain rfl : linelength = m := Option.some.inj (hlength.symm.trans hm)
            exact absurd hm' hpos
          have hline := lineReads_inside_iff.2 hfits
          have hmoves : moves env info filepath value pLines = false := by
            simp [moves, hparse, hp]
          simp only [walkReads, if_pos hline, List.forall_mem_append, hmoves]
          simp only [hp] at h
          exact ⟨hline, ih (cnt + 1) (some pLines) st h⟩

/-- A message that `processFile` has a result for is read inside its bounds. -/
theorem processReads_of_processFile (hdump : env.dump = false) {IsUnityMode : Bool}
    {OutputPath : Bytes} (h : (processFile env.svr info IsUnityMode OutputPath key value).isSome) :
    ∀ a ∈ processReads env info IsUnityMode OutputPath key value, a.Inside key value := by
  rcases hlines : getK2hFtLines value with _ | ⟨pLines, count⟩
  · simp [processFile, hlines] at h
  rcases hkey : parseK2hFtKey key with _ | ⟨filepath, ppid⟩
  · simp [processFile, hlines, hkey] at h
  have hpath : cStringAt key 0 = some filepath := by
    simp only [parseK2hFtKey, Option.bind_eq_bind, Option.bind_eq_some_iff, pure,
      Option.some.injEq, Prod.mk.injEq] at hkey
    rcases hkey with ⟨path, hpath, -, -, rfl, -⟩
    exact hpath
  have hnul : (0 : UInt8) ∈ key := by
    have := cStringAt_isSome_iff.1 (Option.isSome_of_eq_some hpath)
    rwa [List.drop_zero] at this
  have hwalk : (processLines env.svr info filepath
      (if IsUnityMode then OutputPath else OutputPath ++ filepath) value count pLines
        LoopState.start).isSome := by
    by_contra hno
    rw [Option.not_isSome_iff_eq_none] at hno
    simp [processFile, hlines, hkey, hno] at h
  rcases hsize : getK2hFtValueSize value with _ | AllLength
  · simp [getK2hFtLines, hsize] at hlines
  have hlong : 8 ≤ value.length := getK2hFtValueSize_isSome_iff.1 (by simp [hsize])
  by_cases hno : AllLength < sizeofLineHead
  · simp only [processReads, hsize, if_pos hno, List.forall_mem_cons, Access.Inside, Nat.zero_add,
      List.drop_zero]
    exact ⟨hlong, hnul, by simp⟩
  · rcases hcount : readLE value 8 8 with _ | linecount
    · simp [getK2hFtLines, hsize, hno, hcount] at hlines
    have hhead : 8 + 8 ≤ value.length := readLE_isSome_iff.1 (by simp [hcount])
    obtain ⟨rfl, rfl⟩ : some sizeofValueHead = pLines ∧ linecount = count := by
      simpa [getK2hFtLines, hsize, hno, hcount] using hlines
    simp only [processReads, hsize, if_neg hno, hcount, hpath]
    rw [List.forall_mem_cons, List.forall_mem_cons, List.forall_mem_cons]
    simp only [Access.Inside, Nat.zero_add, List.drop_zero]
    exact ⟨hlong, hhead, hnul, walkReads_of_processLines hdump linecount 0 _ _ hwalk⟩

end Results

/-- A value that is nothing but a head which announces one line. -/
def headOnly : Bytes := encodeLE 8 sizeofLineHead ++ encodeLE 8 1

theorem head_read_outside :
    (SvrEnv.framed .returnsBlock).scom_total_length (frame sampleKey headOnly) =
        (frame sampleKey headOnly).length ∧
      (SvrEnv.framed .returnsBlock).parseBinCom (frame sampleKey headOnly) =
        some (sampleKey, headOnly) ∧
      ¬ ∀ a ∈ processReads ⟨SvrEnv.framed .returnsBlock, false, fun _ => true⟩ trimmingInfo false
        (ascii "/out") sampleKey headOnly, a.Inside sampleKey headOnly := by
  refine ⟨rfl, parseBinCom_frame .returnsBlock sampleKey (by decide) headOnly, ?_⟩
  decide +kernel

end K2hFtFuse

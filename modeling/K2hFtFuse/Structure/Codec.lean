import K2hFtFuse.Structure

/-!
# Codec — a value gives back the records it was packed from

The walk that k2hftfuse and k2hftfusesvr make over a value: `GetK2hFtLines`, then as many rounds of
`ParseK2hFtLine` and `GetNextK2hFtLine` as the value counts. On a value that was built it reads the
records in order and stops at the end of the value (`readValue_roundtrip`).
-/

namespace K2hFtFuse

open ByteSeq

/-! ## The walk over a value -/

/-- What a reader gets of one line: the data, the host name as a C string, time and pid. -/
structure ReadRecord where
  data : Bytes
  hostname : Bytes
  ts : Timespec
  pid : Pid
  deriving DecidableEq

/-- `ParseK2hFtLine`, and the reads through the pointers that it gives. -/
def readRecord (mem : Bytes) (pline : Nat) : Option ReadRecord := do
  let p ← parseK2hFtLine mem pline
  let data ←
    match p.data with
    | none => some []
    | some data => slice? mem data p.length
  let hostname ← cStringAt mem p.hostname
  return {
    data := data
    hostname := hostname
    ts := p.ts
    pid := p.pid }

/-- The rounds that are left: the records, and the line pointer behind them. -/
def walkLines (mem : Bytes) : Nat → Option Nat → Option (List ReadRecord × Option Nat)
  | 0, pLines => some ([], pLines)
  | _ + 1, none => some ([], none)
  | n + 1, some pLines => do
      let pNextLines ← getNextK2hFtLine mem pLines
      let r ← readRecord mem pLines
      let rest ← walkLines mem n pNextLines
      return (r :: rest.1, rest.2)

def readValue (mem : Bytes) : Option (List ReadRecord × Option Nat) := do
  let (pLines, count) ← getK2hFtLines mem
  walkLines mem count pLines

/-! ## Reading back lines -/

/-- What the line holds. -/
def K2hFtLine.seen (l : K2hFtLine) : ReadRecord :=
  { data := l.body
    hostname := cStr l.head.hostname
    ts := l.head.ts
    pid := l.head.pid }

theorem cString?_eq_some_cStr {m : Bytes} (h : (0 : UInt8) ∈ m) : cString? m = some (cStr m) := by
  induction m with
  | nil =>
      simp at h
  | cons b m ih =>
      by_cases hb : b = 0
      · simp [cString?, cStr, hb]
      · have hrest : (0 : UInt8) ∈ m := by
          rcases List.mem_cons.1 h with h | h
          · exact absurd h.symm hb
          · exact h
        have htail : cString? m = some (m.takeWhile fun b => b ≠ 0) := ih hrest
        simp [cString?, cStr, hb, htail]

theorem readRecord_byLine (pre post : Bytes) (l : K2hFtLine) :
    readRecord (pre ++ (l.byLine ++ post)) pre.length = some l.seen := by
  have hhost : cStringAt (pre ++ (l.byLine ++ post)) (pre.length + offsetHostname) =
      some (cStr l.head.hostname) := by
    rw [cStringAt_hostname, cString?_eq_some_cStr l.hostname_nul]
  simp [readRecord, parseK2hFtLine_byLine, slice?_body, hhost, K2hFtLine.seen]

/-- The walk over lines that lie one behind the other. -/
theorem walkLines_byLine (lines : List K2hFtLine) (pre : Bytes)
    (hfit : (pre ++ lines.flatMap K2hFtLine.byLine).length < SIZE_LIMIT) :
    walkLines (pre ++ lines.flatMap K2hFtLine.byLine) lines.length (some pre.length) =
      some (lines.map K2hFtLine.seen,
        some (pre ++ lines.flatMap K2hFtLine.byLine).length) := by
  induction lines generalizing pre with
  | nil =>
      simp [walkLines]
  | cons l rest ih =>
      have hhead : pre.length + l.byLine.length < SIZE_LIMIT := by
        simp only [List.flatMap_cons, List.length_append] at hfit
        omega
      -- the line that was read becomes part of what lies before the pointer
      have hmove : pre ++ (l.byLine ++ rest.flatMap K2hFtLine.byLine) =
          (pre ++ l.byLine) ++ rest.flatMap K2hFtLine.byLine := by simp
      have hrec := ih (pre ++ l.byLine) (by simpa using hfit)
      rw [← hmove, List.length_append] at hrec
      simp only [List.flatMap_cons, List.length_cons, List.map_cons, walkLines,
        getNextK2hFtLine_byLine pre _ l hhead, readRecord_byLine, Option.bind_eq_bind,
        Option.bind_some, hrec, pure]

/-- The walk over a value that was built. -/
theorem readValue_buildK2hFtValue {lines : List K2hFtLine} {value : Bytes}
    (h : buildK2hFtValue lines = some value) :
    readValue value = some (lines.map K2hFtLine.seen, some value.length) := by
  have hlen := length_buildK2hFtValue h
  have hlines := getK2hFtLines_buildK2hFtValue h
  rcases buildK2hFtValue_eq_some h with ⟨-, hfit, hbytes⟩
  have hsplit : value = (encodeLE 8 (totallen lines) ++ encodeLE 8 lines.length) ++
      lines.flatMap K2hFtLine.byLine := by simp [hbytes]
  have hpre : sizeofValueHead =
      (encodeLE 8 (totallen lines) ++ encodeLE 8 lines.length).length := by simp [sizeofValueHead]
  have hwalk := walkLines_byLine lines (encodeLE 8 (totallen lines) ++ encodeLE 8 lines.length)
    (by rw [← hsplit]; omega)
  rw [← hsplit, ← hpre] at hwalk
  simp only [readValue, hlines, Option.bind_eq_bind, Option.bind_some, hwalk]

theorem readLE_bodylength {lines : List K2hFtLine} {value : Bytes}
    (h : buildK2hFtValue lines = some value) : readLE value 0 8 = some (totallen lines) := by
  rcases buildK2hFtValue_eq_some h with ⟨-, hfit, rfl⟩
  have htotal : totallen lines < 256 ^ 8 := by
    simp only [SIZE_LIMIT] at hfit
    omega
  exact @readLE_append [] _ _ _ _ rfl htotal

/-! ## The round trip -/

/-- What `BuildK2hFtLine` is called with, and the host name, clock and memory it meets. -/
structure SourceRecord where
  env : LineEnv
  data : Bytes
  pid : Pid

namespace SourceRecord

def build (r : SourceRecord) : Option K2hFtLine := buildK2hFtLine r.env r.data r.pid

/-- The record as it should be read back. -/
def expected (r : SourceRecord) : ReadRecord :=
  { data := r.data
    hostname := r.env.host.name
    ts := r.env.now.getD common_init_time
    pid := r.pid }

theorem build_seen {r : SourceRecord} (hdata : r.data ≠ [])
    (hsize : r.data.length + sizeofLineHead < SIZE_LIMIT) :
    ∃ l, r.build = some l ∧ l.seen = r.expected ∧ l.head.linelength = r.data.length := by
  have hpos : 0 < r.data.length := List.length_pos_iff.2 hdata
  have hname : cStr (hostnameField r.env.fresh r.env.host) = r.env.host.name := by
    have hnul : (0 : UInt8) ∈ hostnameField r.env.fresh r.env.host := by simp [hostnameField]
    have hread := cString?_hostnameField r.env.fresh r.env.host
    rw [cString?_eq_some_cStr hnul] at hread
    exact Option.some.inj hread
  simp only [build, buildK2hFtLine, dif_pos hpos, dif_pos hsize]
  exact ⟨_, rfl, by simp [K2hFtLine.seen, expected, hname], rfl⟩

end SourceRecord

/-- The bytes that records take behind the head of a value. -/
def recordsSize (recs : List SourceRecord) : Nat :=
  (recs.map fun r => sizeofLineHead + r.data.length).sum

theorem mapM_build_seen {recs : List SourceRecord} (hdata : ∀ r ∈ recs, r.data ≠ [])
    (hfit : recordsSize recs < SIZE_LIMIT) :
    ∃ lines, recs.mapM SourceRecord.build = some lines ∧
      lines.map K2hFtLine.seen = recs.map SourceRecord.expected ∧
        totallen lines = recordsSize recs := by
  induction recs with
  | nil =>
      exact ⟨[], rfl, rfl, rfl⟩
  | cons r recs ih =>
      have hsize : sizeofLineHead + r.data.length + recordsSize recs < SIZE_LIMIT := by
        simpa [recordsSize] using hfit
      rcases SourceRecord.build_seen (hdata r (by simp)) (by omega) with ⟨l, hbuild, hseen, hlen⟩
      rcases ih (fun q hq => hdata q (by simp [hq])) (by omega) with ⟨lines, hlines, hall, htotal⟩
      refine ⟨l :: lines, ?_, ?_, ?_⟩
      · simp [hbuild, hlines]
      · simp [hseen, hall]
      · simp only [totallen, recordsSize, List.map_cons, List.sum_cons, hlen] at htotal ⊢
        rw [htotal]

/-- Records that are packed and walked come back unchanged and in order, and the walk ends where
the value ends: `bodylength` bytes behind its head. -/
theorem readValue_roundtrip (recs : List SourceRecord) (hne : recs ≠ [])
    (hdata : ∀ r ∈ recs, r.data ≠ []) (hfit : recordsSize recs + sizeofValueHead < SIZE_LIMIT) :
    ∃ lines value bodylength,
      recs.mapM SourceRecord.build = some lines ∧ buildK2hFtValue lines = some value ∧
        readLE value 0 8 = some bodylength ∧
        readValue value =
          some (recs.map SourceRecord.expected, some (sizeofValueHead + bodylength)) ∧
        value.length = sizeofValueHead + bodylength ∧
        getK2hFtValueSize value = some value.length := by
  rcases mapM_build_seen hdata (by omega) with ⟨lines, hlines, hseen, htotal⟩
  have hcount : lines.length = recs.length := by
    simpa using congrArg List.length hseen
  have hempty : lines.isEmpty = false := by
    rw [List.isEmpty_eq_false_iff_exists_mem]
    exact List.exists_mem_of_length_pos (by rw [hcount]; exact List.length_pos_iff.2 hne)
  have hvalue : ∃ value, buildK2hFtValue lines = some value := by
    simp [buildK2hFtValue, hempty, htotal, hfit]
  rcases hvalue with ⟨value, hvalue⟩
  have hlen : value.length = sizeofValueHead + totallen lines := by
    rw [length_buildK2hFtValue hvalue, Nat.add_comm]
  refine ⟨lines, value, totallen lines, hlines, hvalue, readLE_bodylength hvalue, ?_, hlen,
    getK2hFtValueSize_buildK2hFtValue hvalue⟩
  rw [readValue_buildK2hFtValue hvalue, hseen, hlen]

/-- Two records, one of them the single byte NUL. -/
def sampleRecords : List SourceRecord :=
  [{ env :=
      { fresh := fun _ => 7
        host :=
          { name := ascii "host"
            noNul := by decide
            length_le := by decide }
        now := some { tv_sec := 5, tv_nsec := 6 } }
     data := ascii "ab"
     pid := 12 },
   { env :=
      { fresh := fun _ => 0
        host :=
          { name := []
            noNul := by decide
            length_le := by decide }
        now := none }
     data := [0]
     pid := -3 }]

theorem readValue_roundtrip_two_records :
    ∃ lines value bodylength,
      sampleRecords.mapM SourceRecord.build = some lines ∧ buildK2hFtValue lines = some value ∧
        readLE value 0 8 = some bodylength ∧
        readValue value =
          some (sampleRecords.map SourceRecord.expected, some (sizeofValueHead + bodylength)) ∧
        value.length = sizeofValueHead + bodylength ∧
        getK2hFtValueSize value = some value.length := by
  have hdata : ∀ r ∈ sampleRecords, r.data ≠ [] := by
    intro r hr
    simp only [sampleRecords, List.mem_cons, List.not_mem_nil, or_false] at hr
    rcases hr with rfl | rfl <;> decide
  exact readValue_roundtrip sampleRecords (by simp [sampleRecords]) hdata (by decide)

end K2hFtFuse

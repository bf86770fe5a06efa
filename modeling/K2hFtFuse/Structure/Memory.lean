import K2hFtFuse.Structure
import K2hFtFuse.Lib.Block

/-!
# Structure.Memory — lines and values as stores into fresh blocks

`BuildK2hFtLine` and `BuildK2hFtValue` store field by field into blocks that `malloc` returns.  This
file defines:

* both functions on memory, `buildLineBlock` and `buildValueBlock`;
* `serialise`, the bytes that go to k2hash for a list of lines, as a function of what the memory held;

and shows that the stores give `K2hFtLine.byLine` and `buildK2hFtValue`, of which the bytes behind
the host name are the only ones that no store has written.
-/

namespace K2hFtFuse

open ByteSeq

/-! ## Lines -/

/-- `BuildK2hFtLine`. The outer `none` is a store outside of the block, the inner one is NULL. -/
def buildLineBlock (env : LineEnv) (data : Bytes) (pid : Pid) : Option (Option Bytes) :=
  if data.length = 0 then
    some none
  else if data.length + sizeofLineHead < SIZE_LIMIT then do
    let pBuff := malloc env.fresh (data.length + sizeofLineHead)
    let pBuff ← store pBuff 0 (encodeLE 8 data.length)
    let pBuff ← store pBuff offsetPid (encodeInt 4 pid.toInt)
    let pBuff ← strcpy pBuff offsetHostname env.host.name
    let tmpts := env.now.getD common_init_time
    let pBuff ← store pBuff offsetTs (encodeInt 8 tmpts.tv_sec.toInt ++ encodeInt 8 tmpts.tv_nsec.toInt)
    let pBuff ← store pBuff sizeofLineHead data
    return some pBuff
  else
    some none

/-- The areas of a line, in which the members of the head lie one behind the other. -/
structure LineAreas where
  linelength : Bytes
  ts : Bytes
  pid : Bytes
  hostname : Bytes
  body : Bytes
  length_linelength : linelength.length = 8
  length_ts : ts.length = 16
  length_pid : pid.length = 4
  length_hostname : hostname.length = HOST_NAME_MAX + 8

namespace LineAreas

def bytes (areas : LineAreas) : Bytes :=
  areas.linelength ++ (areas.ts ++ (areas.pid ++ (areas.hostname ++ areas.body)))

variable (areas : LineAreas) {data : Bytes}

theorem store_linelength (h : data.length = 8) :
    store areas.bytes 0 data =
      some (bytes { areas with linelength := data, length_linelength := h }) :=
  store_of_eq (List.nil_append _).symm rfl (areas.length_linelength.trans h.symm)

theorem store_ts (h : data.length = 16) :
    store areas.bytes offsetTs data = some (bytes { areas with ts := data, length_ts := h }) :=
  store_of_eq rfl areas.length_linelength.symm (areas.length_ts.trans h.symm)

theorem store_pid (h : data.length = 4) :
    store areas.bytes offsetPid data = some (bytes { areas with pid := data, length_pid := h }) := by
  have hcut : areas.bytes = (areas.linelength ++ areas.ts) ++
      (areas.pid ++ (areas.hostname ++ areas.body)) := by
    simp [bytes]
  rw [store_of_eq hcut (by simp [areas.length_linelength, areas.length_ts, offsetPid])
    (areas.length_pid.trans h.symm)]
  simp [bytes]

theorem store_body (h : data.length = areas.body.length) :
    store areas.bytes sizeofLineHead data = some (bytes { areas with body := data }) := by
  have hcut : areas.bytes =
      (areas.linelength ++ (areas.ts ++ (areas.pid ++ areas.hostname))) ++ (areas.body ++ []) := by
    simp [bytes]
  have hoff : sizeofLineHead =
      (areas.linelength ++ (areas.ts ++ (areas.pid ++ areas.hostname))).length := by
    simp [areas.length_linelength, areas.length_ts, areas.length_pid, areas.length_hostname,
      sizeofLineHead, HOST_NAME_MAX]
  rw [store_of_eq hcut hoff h.symm]
  simp [bytes]

/-- A host name that is copied leaves the bytes behind its NUL as they are. -/
theorem strcpy_hostname {name fieldOld rest : Bytes} (hname : fieldOld.length = name.length + 1)
    (hfield : areas.hostname = fieldOld ++ rest)
    (h : (name ++ [0] ++ rest).length = HOST_NAME_MAX + 8) :
    strcpy areas.bytes offsetHostname name =
      some (bytes { areas with hostname := name ++ [0] ++ rest, length_hostname := h }) := by
  have hcut : areas.bytes = (areas.linelength ++ (areas.ts ++ areas.pid)) ++
      (fieldOld ++ (rest ++ areas.body)) := by
    simp [bytes, hfield]
  rw [strcpy, store_of_eq hcut (by simp [areas.length_linelength, areas.length_ts,
    areas.length_pid, offsetHostname]) (by simpa using hname)]
  simp [bytes]

end LineAreas

/-- A fresh block for a line of `n` bytes. -/
def freshLine (fresh : Nat → UInt8) (n : Nat) : LineAreas :=
  { linelength := malloc fresh 8
    ts := malloc (fun i => fresh (8 + i)) 16
    pid := malloc (fun i => fresh (24 + i)) 4
    hostname := malloc (fun i => fresh (offsetHostname + i)) (HOST_NAME_MAX + 8)
    body := malloc (fun i => fresh (sizeofLineHead + i)) n
    length_linelength := length_malloc _ _
    length_ts := length_malloc _ _
    length_pid := length_malloc _ _
    length_hostname := length_malloc _ _ }

theorem malloc_line (fresh : Nat → UInt8) (n : Nat) :
    malloc fresh (n + sizeofLineHead) = (freshLine fresh n).bytes := by
  have hsize : n + sizeofLineHead = 8 + (16 + (4 + (72 + n))) := by
    simp only [sizeofLineHead, HOST_NAME_MAX]
    omega
  rw [hsize, malloc_add, malloc_add, malloc_add, malloc_add]
  simp only [← Nat.add_assoc, Nat.reduceAdd, offsetHostname, HOST_NAME_MAX, freshLine,
    sizeofLineHead, LineAreas.bytes]

/-- The host name field of a fresh line after `strcpy`. -/
theorem hostnameField_eq (fresh : Nat → UInt8) (host : Hostname) :
    hostnameField fresh host = host.name ++ [0] ++
      malloc (fun i => fresh (offsetHostname + (host.name.length + 1 + i)))
        (HOST_NAME_MAX + 8 - (host.name.length + 1)) := by
  simp [hostnameField, malloc, Nat.add_assoc]

/-- The stores of `BuildK2hFtLine` lay out the line. -/
theorem buildLineBlock_eq (env : LineEnv) (data : Bytes) (pid : Pid) :
    buildLineBlock env data pid = some ((buildK2hFtLine env data pid).map K2hFtLine.byLine) := by
  unfold buildLineBlock buildK2hFtLine
  by_cases hpos : 0 < data.length
  · rw [if_neg (by omega), dif_pos hpos]
    by_cases hsize : data.length + sizeofLineHead < SIZE_LIMIT
    · rw [if_pos hsize, dif_pos hsize]
      have hname := env.host.length_le
      -- the host name and its NUL fit into the field
      have hhost := length_hostnameField env.fresh env.host
      rw [hostnameField_eq] at hhost
      let now := env.now.getD common_init_time
      have hts : (encodeInt 8 now.tv_sec.toInt ++ encodeInt 8 now.tv_nsec.toInt).length = 16 := by
        simp
      -- the block after each store
      let areas₀ := freshLine env.fresh data.length
      let areas₁ : LineAreas :=
        { areas₀ with linelength := encodeLE 8 data.length, length_linelength := length_encodeLE 8 _ }
      let areas₂ : LineAreas :=
        { areas₁ with pid := encodeInt 4 pid.toInt, length_pid := length_encodeInt 4 _ }
      let areas₃ : LineAreas :=
        { areas₂ with
          hostname := env.host.name ++ [0] ++
            malloc (fun i => env.fresh (offsetHostname + (env.host.name.length + 1 + i)))
              (HOST_NAME_MAX + 8 - (env.host.name.length + 1))
          length_hostname := hhost }
      let areas₄ : LineAreas :=
        { areas₃ with
          ts := encodeInt 8 now.tv_sec.toInt ++ encodeInt 8 now.tv_nsec.toInt
          length_ts := hts }
      -- each store writes one member and leaves the others
      have hstore₁ : store areas₀.bytes 0 (encodeLE 8 data.length) = some areas₁.bytes :=
        areas₀.store_linelength (length_encodeLE 8 _)
      have hstore₂ : store areas₁.bytes offsetPid (encodeInt 4 pid.toInt) = some areas₂.bytes :=
        areas₁.store_pid (length_encodeInt 4 _)
      have hstore₃ : strcpy areas₂.bytes offsetHostname env.host.name = some areas₃.bytes := by
        refine areas₂.strcpy_hostname (length_malloc (fun i => env.fresh (offsetHostname + i)) _) ?_
          hhost
        change malloc (fun i => env.fresh (offsetHostname + i)) (HOST_NAME_MAX + 8) = _
        rw [← malloc_add]
        congr 1
        omega
      have hstore₄ : store areas₃.bytes offsetTs
          (encodeInt 8 now.tv_sec.toInt ++ encodeInt 8 now.tv_nsec.toInt) = some areas₄.bytes :=
        areas₃.store_ts hts
      have hstore₅ : store areas₄.bytes sizeofLineHead data =
          some (LineAreas.bytes { areas₄ with body := data }) :=
        areas₄.store_body (length_malloc (fun i => env.fresh (sizeofLineHead + i)) _).symm
      simp only [malloc_line, Option.bind_eq_bind, hstore₁, hstore₂, hstore₃, hstore₄, hstore₅,
        Option.bind_some, areas₀, now]
      simp [LineAreas.bytes, K2hFtLine.byLine, hostnameField_eq, areas₄, areas₃, areas₂, areas₁, now]
    · rw [if_neg hsize, dif_neg hsize]
      rfl
  · rw [if_pos (by omega), dif_neg hpos]
    rfl

/-! ## Values -/

/-- `GetK2hFtLineSize` without the wrap, as both loops of `BuildK2hFtValue` compute it. -/
def lineBlockSize (pline : Bytes) : Option Nat := do
  let linelength ← readLE pline 0 8
  return sizeofLineHead + linelength

/-- The second loop of `BuildK2hFtValue`. -/
def storeLines (pBuff : Bytes) (pSetPos : Nat) : List Bytes → Option Bytes
  | [] => some pBuff
  | pline :: lines => do
      let size ← lineBlockSize pline
      let bytes ← slice? pline 0 size
      let pBuff ← store pBuff pSetPos bytes
      storeLines pBuff (pSetPos + size) lines

/-- `BuildK2hFtValue` for the blocks of its lines. The outer `none` is an access outside of a
block, the inner one is NULL. -/
def buildValueBlock (fresh : Nat → UInt8) (lines : List Bytes) : Option (Option Bytes) :=
  if lines.isEmpty then
    some none
  else do
    let sizes ← lines.mapM lineBlockSize
    let totallen := sizes.sum
    if totallen + sizeofValueHead < SIZE_LIMIT then
      let pBuff := malloc fresh (totallen + sizeofValueHead)
      let pBuff ← store pBuff 0 (encodeLE 8 totallen)
      let pBuff ← store pBuff 8 (encodeLE 8 lines.length)
      let pBuff ← storeLines pBuff sizeofValueHead lines
      return some pBuff
    else
      return none

theorem lineBlockSize_byLine (l : K2hFtLine) :
    lineBlockSize l.byLine = some (sizeofLineHead + l.head.linelength) := by
  have hread := readLE_linelength [] [] l
  rw [List.nil_append, List.append_nil] at hread
  simp [lineBlockSize, show readLE l.byLine 0 8 = some l.body.length from hread, l.linelength_eq]

theorem mapM_lineBlockSize (lines : List K2hFtLine) :
    (lines.map K2hFtLine.byLine).mapM lineBlockSize =
      some (lines.map fun l => sizeofLineHead + l.head.linelength) := by
  induction lines with
  | nil =>
      rfl
  | cons l lines ih =>
      simp [lineBlockSize_byLine, ih]

theorem length_byLine_eq (l : K2hFtLine) :
    l.byLine.length = sizeofLineHead + l.head.linelength := by
  rw [l.length_byLine, l.linelength_eq]

theorem slice?_byLine (l : K2hFtLine) :
    slice? l.byLine 0 (sizeofLineHead + l.head.linelength) = some l.byLine := by
  rw [← length_byLine_eq, slice?, if_pos (Nat.zero_add _).le, List.drop_zero, List.take_length]

/-- The loop fills the room behind what was written, line by line. -/
theorem storeLines_eq (lines : List K2hFtLine) (pre room : Bytes)
    (hroom : room.length = totallen lines) :
    storeLines (pre ++ room) pre.length (lines.map K2hFtLine.byLine) =
      some (pre ++ lines.flatMap K2hFtLine.byLine) := by
  induction lines generalizing pre room with
  | nil =>
      have hnil : room = [] := List.length_eq_zero_iff.1 hroom
      simp [storeLines, hnil]
  | cons l lines ih =>
      have hsize : totallen (l :: lines) = l.byLine.length + totallen lines := by
        simp [totallen, l.linelength_eq]
      -- the room of this line, and that of the lines behind it
      have hcut : pre ++ room = pre ++ (room.take l.byLine.length ++ room.drop l.byLine.length) := by
        rw [List.take_append_drop]
      have hstore := store_of_eq hcut rfl
        (show (room.take l.byLine.length).length = l.byLine.length by
          rw [List.length_take]
          omega)
      have hrest := ih (pre ++ l.byLine) (room.drop l.byLine.length) (by
        rw [List.length_drop]
        omega)
      rw [List.length_append, length_byLine_eq, List.append_assoc] at hrest
      simp only [List.map_cons, storeLines, lineBlockSize_byLine, Option.bind_eq_bind,
        Option.bind_some, slice?_byLine, hstore]
      rw [length_byLine_eq, hrest]
      simp

/-- The stores of `BuildK2hFtValue` write every byte of its block. -/
theorem buildValueBlock_eq (fresh : Nat → UInt8) (lines : List K2hFtLine) :
    buildValueBlock fresh (lines.map K2hFtLine.byLine) = some (buildK2hFtValue lines) := by
  have hsum : (lines.map fun l => sizeofLineHead + l.head.linelength).sum = totallen lines := rfl
  unfold buildValueBlock buildK2hFtValue
  rw [List.isEmpty_map, List.length_map, mapM_lineBlockSize, Option.bind_eq_bind, Option.bind_some,
    hsum]
  by_cases hempty : lines.isEmpty
  · rw [if_pos hempty, if_pos hempty]
  · rw [if_neg hempty, if_neg hempty]
    by_cases hsize : totallen lines + sizeofValueHead < SIZE_LIMIT
    · rw [if_pos hsize, if_pos hsize]
      -- the block in three parts: the two members of the head and the room for the lines
      have hblock : malloc fresh (totallen lines + sizeofValueHead) =
          malloc fresh 8 ++ (malloc (fun i => fresh (8 + i)) 8 ++
            malloc (fun i => fresh (8 + (8 + i))) (totallen lines)) := by
        have hadd : totallen lines + sizeofValueHead = 8 + (8 + totallen lines) := by
          rw [sizeofValueHead]
          omega
        rw [hadd, malloc_add, malloc_add]
      have hstore₁ : store (malloc fresh (totallen lines + sizeofValueHead)) 0
          (encodeLE 8 (totallen lines)) =
            some (encodeLE 8 (totallen lines) ++ (malloc (fun i => fresh (8 + i)) 8 ++
              malloc (fun i => fresh (8 + (8 + i))) (totallen lines))) :=
        store_of_eq (hblock.trans (List.nil_append _).symm) rfl (by simp)
      have hstore₂ := @store_append (encodeLE 8 (totallen lines)) (malloc (fun i => fresh (8 + i)) 8)
        (malloc (fun i => fresh (8 + (8 + i))) (totallen lines)) 8 (encodeLE 8 lines.length)
        (by simp) (by simp)
      have hlines := storeLines_eq lines (encodeLE 8 (totallen lines) ++ encodeLE 8 lines.length)
        (malloc (fun i => fresh (8 + (8 + i))) (totallen lines)) (length_malloc _ _)
      have hpos : (encodeLE 8 (totallen lines) ++ encodeLE 8 lines.length).length =
          sizeofValueHead := by
        simp [sizeofValueHead]
      rw [hpos, List.append_assoc, List.append_assoc] at hlines
      simp only [hstore₁, Option.bind_eq_bind, Option.bind_some, hstore₂, hlines, pure]
    · rw [if_neg hsize, if_neg hsize]
      rfl

/-! ## What reaches k2hash -/

/-- The arguments and the time of one call of `BuildK2hFtLine`. -/
structure LineInput where
  data : Bytes
  pid : Pid
  now : Option Timespec
  deriving DecidableEq

/-- What the memory of a block held before `malloc` returned it, for each block in turn. -/
abbrev Heap := Nat → Nat → UInt8

/-- The lines that are stacked, in order; a call that gives NULL stacks none. -/
def lineBlocks (host : Hostname) : List LineInput → Heap → Option (List Bytes)
  | [], _ => some []
  | input :: inputs, heap => do
      let pLine ← buildLineBlock { fresh := heap 0, host := host, now := input.now } input.data input.pid
      let lines ← lineBlocks host inputs fun i => heap (i + 1)
      return pLine.toList ++ lines

/-- The `GetK2hFtValueSize` bytes of the value that is built of the lines. -/
def serialise (host : Hostname) (inputs : List LineInput) (heap : Heap) : Option (Option Bytes) := do
  let lines ← lineBlocks host inputs heap
  match ← buildValueBlock (heap inputs.length) lines with
  | none => return none
  | some pValue =>
      let size ← getK2hFtValueSize pValue
      let value ← slice? pValue 0 size
      return some value

/-- The lines as records. -/
def stackedLines (host : Hostname) : List LineInput → Heap → List K2hFtLine
  | [], _ => []
  | input :: inputs, heap =>
      (buildK2hFtLine { fresh := heap 0, host := host, now := input.now } input.data input.pid).toList ++
        stackedLines host inputs fun i => heap (i + 1)

theorem lineBlocks_eq (host : Hostname) (inputs : List LineInput) (heap : Heap) :
    lineBlocks host inputs heap =
      some ((stackedLines host inputs heap).map K2hFtLine.byLine) := by
  induction inputs generalizing heap with
  | nil =>
      rfl
  | cons input inputs ih =>
      simp only [lineBlocks, buildLineBlock_eq, ih, Option.bind_eq_bind, Option.bind_some, pure,
        stackedLines, List.map_append]
      cases buildK2hFtLine { fresh := heap 0, host := host, now := input.now } input.data input.pid <;>
        rfl

/-- What is stored is the value of the stacked lines. -/
theorem serialise_eq (host : Hostname) (inputs : List LineInput) (heap : Heap) :
    serialise host inputs heap = some (buildK2hFtValue (stackedLines host inputs heap)) := by
  rw [serialise, lineBlocks_eq, Option.bind_eq_bind, Option.bind_some, buildValueBlock_eq,
    Option.bind_eq_bind, Option.bind_some]
  rcases hvalue : buildK2hFtValue (stackedLines host inputs heap) with _ | value
  · rfl
  · have hslice : slice? value 0 value.length = some value := by
      simp [slice?]
    simp only [getK2hFtValueSize_buildK2hFtValue hvalue, hslice, Option.bind_eq_bind,
      Option.bind_some, pure]

/-- `BuildK2hFtLine` gives a line for these arguments. -/
def LineInput.stacks (input : LineInput) : Bool :=
  0 < input.data.length && input.data.length + sizeofLineHead < SIZE_LIMIT

/-- The body length of the value of the lines. -/
def stackedLength (inputs : List LineInput) : Nat :=
  ((inputs.filter LineInput.stacks).map fun input => sizeofLineHead + input.data.length).sum

/-- `BuildK2hFtValue` gives a value for the lines of these calls. -/
def ValueBuilt (inputs : List LineInput) : Prop :=
  (∃ input ∈ inputs, input.stacks = true) ∧ stackedLength inputs + sizeofValueHead < SIZE_LIMIT

theorem buildK2hFtLine_of_stacks (env : LineEnv) {input : LineInput} (h : input.stacks = true) :
    ∃ l, buildK2hFtLine env input.data input.pid = some l ∧
      l.head.linelength = input.data.length ∧
      l.head.hostname = hostnameField env.fresh env.host := by
  obtain ⟨hpos, hsize⟩ : 0 < input.data.length ∧ input.data.length + sizeofLineHead < SIZE_LIMIT := by
    simpa [LineInput.stacks] using h
  unfold buildK2hFtLine
  rw [dif_pos hpos, dif_pos hsize]
  exact ⟨_, rfl, rfl, rfl⟩

theorem buildK2hFtLine_of_not_stacks (env : LineEnv) {input : LineInput} (h : input.stacks = false) :
    buildK2hFtLine env input.data input.pid = none := by
  unfold buildK2hFtLine
  by_cases hpos : 0 < input.data.length
  · have hsize : ¬ input.data.length + sizeofLineHead < SIZE_LIMIT := by
      simpa [LineInput.stacks, hpos] using h
    rw [dif_pos hpos, dif_neg hsize]
  · rw [dif_neg hpos]

theorem totallen_stackedLines (host : Hostname) (inputs : List LineInput) (heap : Heap) :
    totallen (stackedLines host inputs heap) = stackedLength inputs := by
  induction inputs generalizing heap with
  | nil =>
      rfl
  | cons input inputs ih =>
      have hrest := ih fun i => heap (i + 1)
      by_cases hstacks : input.stacks = true
      · obtain ⟨l, hl, hlength, -⟩ :=
          buildK2hFtLine_of_stacks { fresh := heap 0, host := host, now := input.now } hstacks
        simp only [totallen, stackedLength] at hrest
        simp [stackedLines, hl, totallen, stackedLength, hstacks, hlength, hrest]
      · -- the call stacks nothing, and it counts for nothing
        have hnone := buildK2hFtLine_of_not_stacks
          { fresh := heap 0, host := host, now := input.now } (by simpa using hstacks)
        simpa [stackedLines, hnone, stackedLength, hstacks] using hrest

theorem stackedLines_eq_nil_iff (host : Hostname) (inputs : List LineInput) (heap : Heap) :
    stackedLines host inputs heap = [] ↔ ∀ input ∈ inputs, input.stacks = false := by
  induction inputs generalizing heap with
  | nil =>
      simp [stackedLines]
  | cons input inputs ih =>
      by_cases hstacks : input.stacks = true
      · obtain ⟨l, hl, -⟩ :=
          buildK2hFtLine_of_stacks { fresh := heap 0, host := host, now := input.now } hstacks
        simp [stackedLines, hl, hstacks]
      · have hnone := buildK2hFtLine_of_not_stacks
          { fresh := heap 0, host := host, now := input.now } (by simpa using hstacks)
        simpa [stackedLines, hnone, hstacks] using ih fun i => heap (i + 1)

/-- Whether there is a value depends on the inputs only. -/
theorem isSome_buildK2hFtValue_stackedLines (host : Hostname) (inputs : List LineInput)
    (heap : Heap) :
    (buildK2hFtValue (stackedLines host inputs heap)).isSome ↔ ValueBuilt inputs := by
  have hempty := stackedLines_eq_nil_iff host inputs heap
  unfold buildK2hFtValue ValueBuilt
  simp only [List.isEmpty_iff, totallen_stackedLines]
  by_cases hnil : stackedLines host inputs heap = []
  · have hnone := hempty.1 hnil
    rw [if_pos hnil]
    simp only [Option.isSome_none, Bool.false_eq_true, false_iff]
    rintro ⟨⟨input, hinput, hstacks⟩, -⟩
    rw [hnone input hinput] at hstacks
    cases hstacks
  · -- a line was stacked, by some call
    have hsome : ∃ input ∈ inputs, input.stacks = true := by
      by_contra hall
      exact hnil (hempty.2 fun input hinput => by simpa using fun h => hall ⟨input, hinput, h⟩)
    rw [if_neg hnil]
    by_cases hsize : stackedLength inputs + sizeofValueHead < SIZE_LIMIT
    · simp [hsize, hsome]
    · simp [hsize]

/-! ## The bytes that no store has written -/

theorem hostname_eq_of_byLine {l l' : K2hFtLine} (h : l.byLine = l'.byLine) :
    l.head.hostname = l'.head.hostname := by
  have hts := (List.append_inj h (by simp)).2
  have hnsec := (List.append_inj hts (by simp)).2
  have hpid := (List.append_inj hnsec (by simp)).2
  have hhost := (List.append_inj hpid (by simp)).2
  exact (List.append_inj hhost (l.hostname_size.trans l'.hostname_size.symm)).1

/-- The array of the host name is longer than every host name. -/
theorem hostnameField_const_inj {host : Hostname} {b b' : UInt8}
    (h : hostnameField (fun _ => b) host = hostnameField (fun _ => b') host) : b = b' := by
  have hname := host.length_le
  rw [hostnameField_eq, hostnameField_eq, List.append_cancel_left_eq] at h
  have hfirst := congrArg List.head? h
  obtain ⟨k, hk⟩ : ∃ k, HOST_NAME_MAX + 8 - (host.name.length + 1) = k + 1 :=
    ⟨HOST_NAME_MAX + 8 - (host.name.length + 1) - 1, by omega⟩
  simpa [hk, malloc, List.range_succ_eq_map] using hfirst

/-- Memory of one value and memory of another give different lines. -/
theorem flatMap_stackedLines_const {host : Hostname} {inputs : List LineInput} {b b' : UInt8}
    (hstacks : ∃ input ∈ inputs, input.stacks = true)
    (h : (stackedLines host inputs fun _ _ => b).flatMap K2hFtLine.byLine =
      (stackedLines host inputs fun _ _ => b').flatMap K2hFtLine.byLine) : b = b' := by
  induction inputs with
  | nil =>
      obtain ⟨input, hinput, -⟩ := hstacks
      cases hinput
  | cons input inputs ih =>
      by_cases hhead : input.stacks = true
      · -- the first line that is stacked tells the memory
        obtain ⟨l, hl, hlength, hhost⟩ := buildK2hFtLine_of_stacks
          { fresh := fun _ => b, host := host, now := input.now } hhead
        obtain ⟨l', hl', hlength', hhost'⟩ := buildK2hFtLine_of_stacks
          { fresh := fun _ => b', host := host, now := input.now } hhead
        simp only [stackedLines, hl, hl', Option.toList_some, List.singleton_append,
          List.flatMap_cons] at h
        have hbytes := (List.append_inj h (by
          rw [length_byLine_eq, length_byLine_eq, hlength, hlength'])).1
        have hfield := hostname_eq_of_byLine hbytes
        rw [hhost, hhost'] at hfield
        exact hostnameField_const_inj hfield
      · have hnone := fun fresh => buildK2hFtLine_of_not_stacks
          { fresh := fresh, host := host, now := input.now } (by simpa using hhead)
        simp only [stackedLines, hnone, Option.toList_none, List.nil_append] at h
        refine ih ?_ h
        obtain ⟨other, hother, hother'⟩ := hstacks
        rcases List.mem_cons.1 hother with rfl | hmem
        · exact absurd hother' hhead
        · exact ⟨other, hmem, hother'⟩

/-- What is stored is independent of the memory exactly when there is no value to store. -/
theorem serialise_congr_iff (host : Hostname) (inputs : List LineInput) :
    (∀ heap heap' : Heap, serialise host inputs heap = serialise host inputs heap') ↔
      ¬ ValueBuilt inputs := by
  simp only [serialise_eq, Option.some.injEq]
  constructor
  · intro h hbuilt
    have hsome := fun b : UInt8 => Option.isSome_iff_exists.1
      ((isSome_buildK2hFtValue_stackedLines host inputs fun _ _ => b).2 hbuilt)
    obtain ⟨value, hvalue⟩ := hsome 0
    obtain ⟨value', hvalue'⟩ := hsome 1
    have hsame : value = value' := by
      have hboth := h (fun _ _ => 0) (fun _ _ => 1)
      rw [hvalue, hvalue'] at hboth
      exact Option.some.inj hboth
    -- the values differ in the lines, behind two counts that are equal
    obtain ⟨-, -, rfl⟩ := buildK2hFtValue_eq_some hvalue
    obtain ⟨-, -, rfl⟩ := buildK2hFtValue_eq_some hvalue'
    have htail := (List.append_inj hsame (by simp)).2
    have hlines := (List.append_inj htail (by simp)).2
    exact absurd (flatMap_stackedLines_const hbuilt.1 hlines) (by decide)
  · intro hnone heap heap'
    -- nothing is built, whatever the memory holds
    have hnull : ∀ heap, buildK2hFtValue (stackedLines host inputs heap) = none := fun heap =>
      Option.not_isSome_iff_eq_none.1 fun hsome =>
        hnone ((isSome_buildK2hFtValue_stackedLines host inputs heap).1 hsome)
    rw [hnull, hnull]

/-- The line `x` of the host `h`, in memory that held zeros and in memory that held ones. -/
theorem serialise_not_congr :
    ¬ ∀ (host : Hostname) (inputs : List LineInput) (heap heap' : Heap),
      serialise host inputs heap = serialise host inputs heap' := by
  intro h
  have hsame := h { name := [104], noNul := by decide, length_le := by decide }
    [{ data := [120], pid := 1, now := none }] (fun _ _ => 0) (fun _ _ => 1)
  revert hsame
  decide +kernel

end K2hFtFuse

import Mathlib.Data.Nat.Digits.Defs
import K2hFtFuse.Lib.ByteSeq

/-!
# Structure — lines, values and keys as they are laid out in memory

`k2hftstructure.h` defines the three packed layouts that k2hftfuse writes to k2hash and that
k2hftfusesvr reads back:

- a **line** `<K2HFTLINEHEAD><line data>` (`K2hFtLine`),
- a **value** `<K2HFTVHEAD><line>*` (`buildK2hFtValue`),
- a **key** `<file path>\0<pid>\0` (`buildK2hFtKey`).

Building is modelled on records, reading on memory areas: a pointer into a received value is an
offset, and a read outside the area has no result.
-/

namespace K2hFtFuse

open ByteSeq

/-- `HOST_NAME_MAX` of Linux. -/
def HOST_NAME_MAX : Nat := 64

/-- `size_t` is 64 bits wide. -/
def SIZE_LIMIT : Nat := 2 ^ 64

abbrev Pid := Int32

def K2HFT_INVALID_PID : Pid := -1

structure Timespec where
  tv_sec : Int64
  tv_nsec : Int64
  deriving DecidableEq

def common_init_time : Timespec :=
  { tv_sec := 0
    tv_nsec := 0 }

/-! ## Lines -/

/-- `K2HFTLINEHEAD`. -/
structure K2hFtLineHead where
  linelength : Nat
  ts : Timespec
  pid : Pid
  hostname : Bytes
  deriving DecidableEq

/-- `sizeof(K2HFTLINEHEAD)`: the structure is packed. -/
def sizeofLineHead : Nat := 8 + (8 + 8) + 4 + (HOST_NAME_MAX + 8)

def offsetTs : Nat := 8
def offsetPid : Nat := 24
def offsetHostname : Nat := 28

/-- A `K2HFTLINE` block: its length field is the length of its data, the data is not empty, the
block has a size, and the host name array holds a C string. -/
structure K2hFtLine where
  head : K2hFtLineHead
  body : Bytes
  linelength_eq : head.linelength = body.length
  body_pos : 0 < body.length
  size_lt : body.length + sizeofLineHead < SIZE_LIMIT
  hostname_size : head.hostname.length = HOST_NAME_MAX + 8
  hostname_nul : (0 : UInt8) ∈ head.hostname
  deriving DecidableEq

/-- What `get_local_hostname` returns. -/
structure Hostname where
  name : Bytes
  noNul : (0 : UInt8) ∉ name
  length_le : name.length ≤ HOST_NAME_MAX
  deriving DecidableEq

/-- `strcpy` of the host name into the uninitialised array of the line head. -/
def hostnameField (fresh : Nat → UInt8) (host : Hostname) : Bytes :=
  host.name ++ 0 ::
    (List.range (HOST_NAME_MAX + 8 - (host.name.length + 1))).map
      fun i => fresh (offsetHostname + host.name.length + 1 + i)

theorem length_hostnameField (fresh : Nat → UInt8) (host : Hostname) :
    (hostnameField fresh host).length = HOST_NAME_MAX + 8 := by
  have := host.length_le
  simp [hostnameField]
  omega

theorem cString?_hostnameField (fresh : Nat → UInt8) (host : Hostname) :
    cString? (hostnameField fresh host) = some host.name :=
  cString?_of_notMem host.noNul

/-- What `BuildK2hFtLine` reads besides its arguments: the bytes of the block that `malloc`
returned, the host name and the clock. -/
structure LineEnv where
  fresh : Nat → UInt8
  host : Hostname
  now : Option Timespec

/-- `BuildK2hFtLine`. A block of a size that is no `size_t` cannot be allocated. -/
def buildK2hFtLine (env : LineEnv) (data : Bytes) (pid : Pid) : Option K2hFtLine :=
  if hpos : 0 < data.length then
    if hsize : data.length + sizeofLineHead < SIZE_LIMIT then
      some
        { head :=
            -- a clock that cannot be read gives the initial time
            { linelength := data.length
              ts := env.now.getD common_init_time
              pid := pid
              hostname := hostnameField env.fresh env.host }
          body := data
          linelength_eq := rfl
          body_pos := hpos
          size_lt := hsize
          hostname_size := length_hostnameField env.fresh env.host
          hostname_nul := by simp [hostnameField] }
    else
      none
  else
    none

/-- The bytes of a line, `byLine` of the union. -/
def K2hFtLine.byLine (l : K2hFtLine) : Bytes :=
  encodeLE 8 l.head.linelength ++ (encodeInt 8 l.head.ts.tv_sec.toInt ++
    (encodeInt 8 l.head.ts.tv_nsec.toInt ++ (encodeInt 4 l.head.pid.toInt ++
      (l.head.hostname ++ l.body))))

@[simp] theorem K2hFtLine.length_byLine (l : K2hFtLine) :
    l.byLine.length = sizeofLineHead + l.body.length := by
  simp [byLine, l.hostname_size, sizeofLineHead]
  omega

/-! ## Values -/

/-- `sizeof(K2HFTVHEAD)`. -/
def sizeofValueHead : Nat := 8 + 8

/-- The body length that `BuildK2hFtValue` adds up. -/
def totallen (lines : List K2hFtLine) : Nat :=
  (lines.map fun l => sizeofLineHead + l.head.linelength).sum

/-- `BuildK2hFtValue`: the bytes of the value. A value of a size that is no `size_t` cannot be
allocated. -/
def buildK2hFtValue (lines : List K2hFtLine) : Option Bytes :=
  if lines.isEmpty then
    none
  else if totallen lines + sizeofValueHead < SIZE_LIMIT then
    some (encodeLE 8 (totallen lines) ++ (encodeLE 8 lines.length ++ lines.flatMap K2hFtLine.byLine))
  else
    none

theorem length_flatMap_byLine (lines : List K2hFtLine) :
    (lines.flatMap K2hFtLine.byLine).length = totallen lines := by
  induction lines with
  | nil =>
      rfl
  | cons l lines ih =>
      simp [totallen, l.linelength_eq] at ih ⊢
      omega

theorem length_le_totallen (lines : List K2hFtLine) : lines.length ≤ totallen lines := by
  induction lines with
  | nil =>
      simp [totallen]
  | cons l lines ih =>
      simp [totallen, sizeofLineHead] at ih ⊢
      omega

theorem buildK2hFtValue_eq_some {lines : List K2hFtLine} {value : Bytes}
    (h : buildK2hFtValue lines = some value) :
    lines ≠ [] ∧ totallen lines + sizeofValueHead < SIZE_LIMIT ∧
      value = encodeLE 8 (totallen lines) ++
        (encodeLE 8 lines.length ++ lines.flatMap K2hFtLine.byLine) := by
  unfold buildK2hFtValue at h
  split at h
  · simp at h
  · rename_i hne
    split at h
    · rename_i hfit
      exact ⟨by simpa using hne, hfit, by simpa [eq_comm] using h⟩
    · simp at h

/-! ## Reading a value

`GetK2hFtLines`, `ParseK2hFtLine` and `GetNextK2hFtLine` on the memory area `mem` of a value. -/

/-- `GetK2hFtValueSize`. -/
def getK2hFtValueSize (mem : Bytes) : Option Nat := do
  let bodylength ← readLE mem 0 8
  return (bodylength + sizeofValueHead) % SIZE_LIMIT

/-- `GetK2hFtLines`: the first line and the line count; the inner `none` is a NULL pointer, which
leaves the caller's count at 0. -/
def getK2hFtLines (mem : Bytes) : Option (Option Nat × Nat) := do
  let AllLength ← getK2hFtValueSize mem
  if AllLength < sizeofLineHead then
    -- too short for a single line
    return (none, 0)
  let linecount ← readLE mem 8 8
  return (some sizeofValueHead, linecount)

/-- `GetK2hFtLineSize`. -/
def getK2hFtLineSize (mem : Bytes) (pline : Nat) : Option Nat := do
  let linelength ← readLE mem pline 8
  return (linelength + sizeofLineHead) % SIZE_LIMIT

/-- `GetNextK2hFtLine`. -/
def getNextK2hFtLine (mem : Bytes) (pline : Nat) : Option (Option Nat) := do
  let curlength ← getK2hFtLineSize mem pline
  if curlength = 0 then
    return none
  return some ((pline + curlength) % SIZE_LIMIT)

/-- What `ParseK2hFtLine` stores through its pointer arguments. -/
structure ParsedLine where
  data : Option Nat
  length : Nat
  hostname : Nat
  ts : Timespec
  pid : Pid
  deriving DecidableEq

/-- `ParseK2hFtLine`. -/
def parseK2hFtLine (mem : Bytes) (pline : Nat) : Option ParsedLine := do
  let linelength ← readLE mem pline 8
  let pid ← readInt mem (pline + offsetPid) 4
  let tv_sec ← readInt mem (pline + offsetTs) 8
  let tv_nsec ← readInt mem (pline + offsetTs + 8) 8
  pure
    { data := if 0 < linelength then some (pline + sizeofLineHead) else none
      length := linelength
      hostname := pline + offsetHostname
      ts :=
        { tv_sec := Int64.ofInt tv_sec
          tv_nsec := Int64.ofInt tv_nsec }
      pid := Int32.ofInt pid }

/-! ### Reading back a line that was packed -/

section ReadBack

variable (pre post : Bytes) (l : K2hFtLine)

theorem readLE_linelength :
    readLE (pre ++ (l.byLine ++ post)) pre.length 8 = some l.body.length := by
  -- the length is a `size_t`, so its eight bytes are all of it
  have hlt : l.head.linelength < 256 ^ 8 := by
    have := l.size_lt
    rw [l.linelength_eq]
    simp only [SIZE_LIMIT, sizeofLineHead] at this
    omega
  simp only [K2hFtLine.byLine, List.append_assoc]
  rw [readLE_append rfl hlt, l.linelength_eq]

theorem getNextK2hFtLine_byLine (hfit : pre.length + l.byLine.length < SIZE_LIMIT) :
    getNextK2hFtLine (pre ++ (l.byLine ++ post)) pre.length =
      some (some (pre.length + l.byLine.length)) := by
  have hsize : (l.body.length + sizeofLineHead) % SIZE_LIMIT = l.byLine.length := by
    rw [Nat.mod_eq_of_lt l.size_lt, l.length_byLine, Nat.add_comm]
  -- the head alone is not empty
  have hne : l.byLine.length ≠ 0 := by
    have := l.body_pos
    simp only [K2hFtLine.length_byLine]
    omega
  simp only [getNextK2hFtLine, getK2hFtLineSize, readLE_linelength, Option.bind_eq_bind,
    Option.bind_some, pure, hsize, if_neg hne, Nat.mod_eq_of_lt hfit]

theorem readInt_pid :
    readInt (pre ++ (l.byLine ++ post)) (pre.length + offsetPid) 4 = some l.head.pid.toInt := by
  have hlow := Int32.le_toInt l.head.pid
  have hhigh := Int32.toInt_lt l.head.pid
  have hsplit : pre ++ (l.byLine ++ post) =
      (pre ++ (encodeLE 8 l.head.linelength ++ (encodeInt 8 l.head.ts.tv_sec.toInt ++
        encodeInt 8 l.head.ts.tv_nsec.toInt))) ++
      (encodeInt 4 l.head.pid.toInt ++ (l.head.hostname ++ l.body ++ post)) := by
    simp [K2hFtLine.byLine]
  rw [hsplit]
  exact readInt_append (by simp [offsetPid]) (by omega) (by omega)

theorem readInt_tv_sec :
    readInt (pre ++ (l.byLine ++ post)) (pre.length + offsetTs) 8 =
      some l.head.ts.tv_sec.toInt := by
  have hlow := Int64.le_toInt l.head.ts.tv_sec
  have hhigh := Int64.toInt_lt l.head.ts.tv_sec
  have hsplit : pre ++ (l.byLine ++ post) =
      (pre ++ encodeLE 8 l.head.linelength) ++ (encodeInt 8 l.head.ts.tv_sec.toInt ++
        (encodeInt 8 l.head.ts.tv_nsec.toInt ++ (encodeInt 4 l.head.pid.toInt ++
          (l.head.hostname ++ l.body)) ++ post)) := by
    simp [K2hFtLine.byLine]
  rw [hsplit]
  exact readInt_append (by simp [offsetTs]) (by omega) (by omega)

theorem readInt_tv_nsec :
    readInt (pre ++ (l.byLine ++ post)) (pre.length + offsetTs + 8) 8 =
      some l.head.ts.tv_nsec.toInt := by
  have hlow := Int64.le_toInt l.head.ts.tv_nsec
  have hhigh := Int64.toInt_lt l.head.ts.tv_nsec
  have hsplit : pre ++ (l.byLine ++ post) =
      (pre ++ (encodeLE 8 l.head.linelength ++ encodeInt 8 l.head.ts.tv_sec.toInt)) ++
        (encodeInt 8 l.head.ts.tv_nsec.toInt ++ (encodeInt 4 l.head.pid.toInt ++
          (l.head.hostname ++ l.body) ++ post)) := by
    simp [K2hFtLine.byLine]
  rw [hsplit]
  exact readInt_append (by simp [offsetTs]) (by omega) (by omega)

/-- `ParseK2hFtLine` finds every field of the line. -/
theorem parseK2hFtLine_byLine :
    parseK2hFtLine (pre ++ (l.byLine ++ post)) pre.length =
      some
        { data := some (pre.length + sizeofLineHead)
          length := l.body.length
          hostname := pre.length + offsetHostname
          ts := l.head.ts
          pid := l.head.pid } := by
  simp [parseK2hFtLine, readLE_linelength, readInt_pid, readInt_tv_sec, readInt_tv_nsec,
    l.body_pos, Int32.ofInt_toInt, Int64.ofInt_toInt]

theorem slice?_body :
    slice? (pre ++ (l.byLine ++ post)) (pre.length + sizeofLineHead) l.body.length =
      some l.body := by
  have hsplit : pre ++ (l.byLine ++ post) =
      (pre ++ (encodeLE 8 l.head.linelength ++ (encodeInt 8 l.head.ts.tv_sec.toInt ++
        (encodeInt 8 l.head.ts.tv_nsec.toInt ++ (encodeInt 4 l.head.pid.toInt ++
          l.head.hostname))))) ++ (l.body ++ post) := by
    simp [K2hFtLine.byLine]
  rw [hsplit]
  exact slice?_append (by simp [sizeofLineHead, l.hostname_size]; omega) rfl

theorem cStringAt_body :
    cStringAt (pre ++ (l.byLine ++ post)) (pre.length + sizeofLineHead) =
      cString? (l.body ++ post) := by
  have hsplit : pre ++ (l.byLine ++ post) =
      (pre ++ (encodeLE 8 l.head.linelength ++ (encodeInt 8 l.head.ts.tv_sec.toInt ++
        (encodeInt 8 l.head.ts.tv_nsec.toInt ++ (encodeInt 4 l.head.pid.toInt ++
          l.head.hostname))))) ++ (l.body ++ post) := by
    simp [K2hFtLine.byLine]
  rw [hsplit]
  exact cStringAt_append (by simp [sizeofLineHead, l.hostname_size]; omega)

theorem cStringAt_hostname :
    cStringAt (pre ++ (l.byLine ++ post)) (pre.length + offsetHostname) =
      cString? l.head.hostname := by
  have hsplit : pre ++ (l.byLine ++ post) =
      (pre ++ (encodeLE 8 l.head.linelength ++ (encodeInt 8 l.head.ts.tv_sec.toInt ++
        (encodeInt 8 l.head.ts.tv_nsec.toInt ++ encodeInt 4 l.head.pid.toInt)))) ++
      (l.head.hostname ++ (l.body ++ post)) := by
    simp [K2hFtLine.byLine]
  rw [hsplit, cStringAt_append (by simp [offsetHostname])]
  rcases hname : cString? l.head.hostname with _ | name
  · -- the array of a line has a NUL
    exact absurd l.hostname_nul (cString?_eq_none_iff.1 hname)
  · exact cString?_append hname _

end ReadBack

section BuiltValue

variable {lines : List K2hFtLine} {value : Bytes}

theorem length_buildK2hFtValue (h : buildK2hFtValue lines = some value) :
    value.length = totallen lines + sizeofValueHead := by
  rcases buildK2hFtValue_eq_some h with ⟨-, -, rfl⟩
  rw [List.length_append, List.length_append, length_flatMap_byLine, length_encodeLE,
    length_encodeLE, sizeofValueHead]
  omega

theorem getK2hFtValueSize_buildK2hFtValue (h : buildK2hFtValue lines = some value) :
    getK2hFtValueSize value = some value.length := by
  rw [length_buildK2hFtValue h]
  rcases buildK2hFtValue_eq_some h with ⟨-, hfit, rfl⟩
  have htotal : totallen lines < 256 ^ 8 := by
    simp only [SIZE_LIMIT] at hfit
    omega
  have hread : readLE (encodeLE 8 (totallen lines) ++
      (encodeLE 8 lines.length ++ lines.flatMap K2hFtLine.byLine)) 0 8 = some (totallen lines) :=
    @readLE_append [] _ _ _ _ rfl htotal
  simp [getK2hFtValueSize, hread, Nat.mod_eq_of_lt hfit]

/-- `GetK2hFtLines` on a value that was built: the lines begin behind the head. -/
theorem getK2hFtLines_buildK2hFtValue (h : buildK2hFtValue lines = some value) :
    getK2hFtLines value = some (some sizeofValueHead, lines.length) := by
  -- a value that was built has one line at least
  have hlong : ¬ value.length < sizeofLineHead := by
    rw [length_buildK2hFtValue h]
    rcases lines with _ | ⟨l, rest⟩
    · simp [buildK2hFtValue] at h
    · simp [totallen]
      omega
  have hsize := getK2hFtValueSize_buildK2hFtValue h
  rcases buildK2hFtValue_eq_some h with ⟨-, hfit, rfl⟩
  have hcount : lines.length < 256 ^ 8 := by
    have := length_le_totallen lines
    simp only [SIZE_LIMIT] at hfit
    omega
  have hread : readLE (encodeLE 8 (totallen lines) ++
      (encodeLE 8 lines.length ++ lines.flatMap K2hFtLine.byLine)) 8 8 = some lines.length :=
    readLE_append (by simp) hcount
  simp only [getK2hFtLines, hsize, Option.bind_eq_bind, Option.bind_some, if_neg hlong, hread, pure]

end BuiltValue

/-! ## Keys -/

/-- `%d`. -/
def decimalNat (n : Nat) : Bytes :=
  if n = 0 then ascii "0"
  else (Nat.digits 10 n).reverse.map fun d => UInt8.ofNat (48 + d)

def decimal (i : Int) : Bytes :=
  if i < 0 then ascii "-" ++ decimalNat i.natAbs else decimalNat i.natAbs

/-- `BuildK2hFtKey` for a path, which as a C string holds no NUL. -/
def buildK2hFtKey (path : Bytes) (pid : Pid) : Bytes :=
  path ++ [0] ++ decimal pid.toInt ++ [0]

/-- `ParseK2hFtKey` with the pid as a string: both C strings of the key. -/
def parseK2hFtKey (mem : Bytes) : Option (Bytes × Bytes) := do
  let path ← cStringAt mem 0
  let ppid ← cStringAt mem (path.length + 1)
  return (path, ppid)

theorem nul_notMem_decimalNat (n : Nat) : (0 : UInt8) ∉ decimalNat n := by
  unfold decimalNat
  split
  · decide
  · intro h
    rcases List.mem_map.1 h with ⟨d, hd, hzero⟩
    have hlt : d < 10 := Nat.digits_lt_base (by omega) (List.mem_reverse.1 hd)
    -- the codes of digits are not zero modulo 256
    have hmod : (48 + d) % 256 = 0 := by
      simpa using congrArg UInt8.toNat hzero
    omega

theorem nul_notMem_decimal (i : Int) : (0 : UInt8) ∉ decimal i := by
  unfold decimal
  split
  · have hsign : (0 : UInt8) ∉ ascii "-" := by decide
    simp [hsign, nul_notMem_decimalNat]
  · exact nul_notMem_decimalNat _

/-- Both parts of a key are found again. -/
theorem parseK2hFtKey_buildK2hFtKey {path : Bytes} (hpath : (0 : UInt8) ∉ path) (pid : Pid) :
    parseK2hFtKey (buildK2hFtKey path pid) = some (path, decimal pid.toInt) := by
  have hsplit : buildK2hFtKey path pid = path ++ 0 :: (decimal pid.toInt ++ 0 :: []) := by
    simp [buildK2hFtKey]
  have hfirst : cStringAt (buildK2hFtKey path pid) 0 = some path := by
    rw [hsplit]
    exact cString?_of_notMem hpath
  have hsecond : cStringAt (buildK2hFtKey path pid) (path.length + 1) =
      some (decimal pid.toInt) := by
    have : buildK2hFtKey path pid = (path ++ [0]) ++ (decimal pid.toInt ++ 0 :: []) := by
      simp [buildK2hFtKey]
    rw [this, cStringAt_append (by simp)]
    exact cString?_of_notMem (nul_notMem_decimal _)
  simp [parseK2hFtKey, hfirst, hsecond]

end K2hFtFuse

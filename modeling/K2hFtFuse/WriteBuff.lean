import K2hFtFuse.Lib.OrdMap
import K2hFtFuse.Lib.Segmenter
import K2hFtFuse.Rule

/-!
# WriteBuff — the write buffer of a file handle

`k2hftwbuf.cc`: a `K2hFtWriteBuff` keeps one `K2hFtBinBuff` for each writing process and the stack
of finished lines. Text mode ends a line at LF, CR, CRLF or NUL; binary mode at a size.

Memory comes from `realloc`, whose answers are an input. A result `none` of an operation is
undefined behaviour of the source: an access outside a block, or a loop that never ends.
-/

namespace K2hFtFuse

open ByteSeq

/-! ## The input buffer of one process -/

/-- `K2hFtBinBuff::BUFFER_SINGLE_SIZE`. -/
def BUFFER_SINGLE_SIZE : Nat := 8192

/-- What `realloc` does: fail, or give a block whose new bytes hold anything. -/
abbrev ReallocAnswer := Option (Nat → UInt8)

/-- `K2hFtBinBuff`; `CacheBuff` is the block, which may be shorter than `CacheBuffSize` says. -/
structure K2hFtBinBuff where
  CacheBuff : Option Bytes
  CacheBuffSize : Nat
  CacheBuffPos : Nat
  deriving DecidableEq

namespace K2hFtBinBuff

def empty : K2hFtBinBuff :=
  { CacheBuff := none
    CacheBuffSize := 0
    CacheBuffPos := 0 }

def isEmpty (b : K2hFtBinBuff) : Bool := b.CacheBuffPos == 0

def size (b : K2hFtBinBuff) : Nat := b.CacheBuffPos

/-- A block that `realloc` has grown. -/
def growBlock (fresh : Nat → UInt8) (block : Bytes) (size : Nat) : Bytes :=
  block.take size ++ (List.range (size - block.length)).map fun i => fresh (block.length + i)

/-- The size check of `AppendStringBuff`. `CacheBuffSize` grows before `realloc` answers. -/
def reserve (realloc : ReallocAnswer) (b : K2hFtBinBuff) (length : Nat) : Bool × K2hFtBinBuff :=
  if b.CacheBuffSize < b.CacheBuffPos + length + 1 then
    let newSize := b.CacheBuffSize + max BUFFER_SINGLE_SIZE (length + 1)
    match realloc with
    | none =>
        -- the block keeps its old size
        (false, { b with CacheBuffSize := newSize })
    | some fresh =>
        (true,
          { b with
            CacheBuff := some (growBlock fresh (b.CacheBuff.getD []) newSize)
            CacheBuffSize := newSize })
  else
    (true, b)

/-- `memcpy` to the current position. -/
def store (b : K2hFtBinBuff) (data : Bytes) : Option K2hFtBinBuff :=
  if data = [] then
    some b
  else
    match b.CacheBuff with
    | none => none
    | some block =>
        if b.CacheBuffPos + data.length ≤ block.length then
          some
            { b with
              CacheBuff :=
                some (block.take b.CacheBuffPos ++ data ++
                  block.drop (b.CacheBuffPos + data.length))
              CacheBuffPos := b.CacheBuffPos + data.length }
        else
          none

/-- The last character check: a NUL is added unless the buffer ends with one. -/
def checkLastChar (b : K2hFtBinBuff) : Option K2hFtBinBuff := do
  let block ← b.CacheBuff
  -- `CacheBuff[CacheBuffPos - 1]` would lie before the block
  if b.CacheBuffPos = 0 then none
  else
    let last ← block[b.CacheBuffPos - 1]?
    if last = 0 then some b else b.store [0]

/-- `AppendStringBuff`. -/
def appendStringBuff (realloc : ReallocAnswer) (b : K2hFtBinBuff) (data : Bytes)
    (check_last_char : Bool) : Option (Bool × K2hFtBinBuff) :=
  match b.reserve realloc data.length with
  | (false, b) => some (false, b)
  | (true, b) => do
      let b ← b.store data
      let b ← if check_last_char then b.checkLastChar else some b
      return (true, b)

/-- `TakeoutBuff`: the used part of the block; a NULL block is an empty one. -/
def takeoutBuff (b : K2hFtBinBuff) : Bytes × K2hFtBinBuff :=
  ((b.CacheBuff.getD []).take b.CacheBuffPos, empty)

/-! ### What a buffer holds -/

/-- The block has the recorded size and the position is inside it. -/
structure Good (b : K2hFtBinBuff) : Prop where
  size_eq : (b.CacheBuff.getD []).length = b.CacheBuffSize
  pos_le : b.CacheBuffPos ≤ b.CacheBuffSize

def content (b : K2hFtBinBuff) : Bytes :=
  (b.CacheBuff.getD []).take b.CacheBuffPos

theorem good_empty : empty.Good := ⟨rfl, le_rfl⟩

@[simp] theorem content_empty : empty.content = [] := rfl

@[simp] theorem takeoutBuff_eq (b : K2hFtBinBuff) : b.takeoutBuff = (b.content, empty) := rfl

theorem Good.length_content {b : K2hFtBinBuff} (hb : b.Good) :
    b.content.length = b.CacheBuffPos := by
  have hsize := hb.size_eq
  have hpos := hb.pos_le
  simp only [content, List.length_take]
  omega

theorem Good.isEmpty_iff {b : K2hFtBinBuff} (hb : b.Good) : b.isEmpty = true ↔ b.content = [] := by
  rw [← List.length_eq_zero_iff, hb.length_content]
  simp [isEmpty]

theorem length_growBlock (fresh : Nat → UInt8) {block : Bytes} {size : Nat}
    (h : block.length ≤ size) : (growBlock fresh block size).length = size := by
  simp [growBlock]
  omega

/-- A growing block keeps its contents. -/
theorem reserve_good {realloc : ReallocAnswer} (hok : realloc.isSome) {b : K2hFtBinBuff}
    (hb : b.Good) (length : Nat) :
    ∃ b', b.reserve realloc length = (true, b') ∧ b'.Good ∧ b'.content = b.content ∧
      b'.CacheBuffPos = b.CacheBuffPos ∧ b'.CacheBuffPos + length + 1 ≤ b'.CacheBuffSize := by
  rcases Option.isSome_iff_exists.1 hok with ⟨fresh, rfl⟩
  have hsize := hb.size_eq
  have hpos := hb.pos_le
  unfold reserve
  split
  · generalize hnew : b.CacheBuffSize + max BUFFER_SINGLE_SIZE (length + 1) = newSize
    have hlen : (b.CacheBuff.getD []).length ≤ newSize := by omega
    refine ⟨_, rfl, ⟨by simpa using length_growBlock fresh hlen, by simp only; omega⟩, ?_, rfl, ?_⟩
    · simp only [content, Option.getD_some, growBlock, List.take_of_length_le hlen]
      exact List.take_append_of_le_length (by omega)
    · simp only
      omega
  · rename_i hfits
    exact ⟨b, rfl, hb, rfl, rfl, by omega⟩

theorem store_good {b : K2hFtBinBuff} (hb : b.Good) (data : Bytes)
    (hfit : b.CacheBuffPos + data.length ≤ b.CacheBuffSize) :
    ∃ b', b.store data = some b' ∧ b'.Good ∧ b'.content = b.content ++ data ∧
      b'.CacheBuffPos = b.CacheBuffPos + data.length ∧ b'.CacheBuffSize = b.CacheBuffSize := by
  have hsize := hb.size_eq
  unfold store
  split
  · rename_i hnil
    subst hnil
    exact ⟨b, rfl, hb, by simp, rfl, rfl⟩
  · rename_i hne
    have hpos : 0 < data.length := List.length_pos_iff.2 hne
    rcases hblock : b.CacheBuff with _ | block
    · rw [hblock] at hsize
      simp at hsize
      omega
    · rw [hblock] at hsize
      simp only [Option.getD_some] at hsize
      have htake : (block.take b.CacheBuffPos).length = b.CacheBuffPos := by
        rw [List.length_take]
        omega
      simp only [if_pos (show b.CacheBuffPos + data.length ≤ block.length by omega)]
      refine ⟨_, rfl, ⟨?_, hfit⟩, ?_, rfl, rfl⟩
      · simp only [Option.getD_some, List.length_append, htake, List.length_drop]
        omega
      · simp only [content, hblock, Option.getD_some]
        exact List.take_left' (by simp only [List.length_append, htake])

/-- The line that the last character check makes of some bytes. -/
def terminate (s : Bytes) : Bytes :=
  if s.getLast? = some 0 then s else s ++ [0]

theorem terminate_ne_nil (s : Bytes) : terminate s ≠ [] := by
  unfold terminate
  split
  · rename_i hlast
    intro hnil
    simp [hnil] at hlast
  · simp

theorem checkLastChar_good {b : K2hFtBinBuff} (hb : b.Good) (hne : b.content ≠ [])
    (hfit : b.CacheBuffPos + 1 ≤ b.CacheBuffSize) :
    ∃ b', b.checkLastChar = some b' ∧ b'.Good ∧ b'.content = terminate b.content := by
  have hlen := hb.length_content
  have hsize := hb.size_eq
  have hpos : b.CacheBuffPos ≠ 0 := by
    intro h
    exact hne (List.length_eq_zero_iff.1 (by omega))
  rcases hblock : b.CacheBuff with _ | block
  · rw [hblock] at hsize
    simp at hsize
    omega
  · rw [hblock] at hsize
    simp only [Option.getD_some] at hsize
    have hlast : b.content.getLast? = block[b.CacheBuffPos - 1]? := by
      rw [List.getLast?_eq_getElem?, hlen]
      simp only [content, hblock, Option.getD_some, List.getElem?_take]
      rw [if_pos (by omega)]
    rcases hget : block[b.CacheBuffPos - 1]? with _ | last
    · rw [List.getElem?_eq_none_iff] at hget
      omega
    · rw [hget] at hlast
      simp only [checkLastChar, hblock, Option.bind_eq_bind, Option.bind_some, if_neg hpos, hget]
      by_cases hnul : last = 0
      · subst hnul
        exact ⟨b, by simp, hb, by simp [terminate, hlast]⟩
      · rcases store_good hb [0] (by simpa using hfit) with ⟨b', hstore, hgood, hcont, -⟩
        exact ⟨b', by simpa [hnul] using hstore, hgood, by simp [terminate, hlast, hnul, hcont]⟩

/-- `AppendStringBuff` on a sound buffer whose memory requests succeed. -/
theorem appendStringBuff_good {realloc : ReallocAnswer} (hok : realloc.isSome) {b : K2hFtBinBuff}
    (hb : b.Good) (data : Bytes) (check : Bool) (hne : check = true → b.content ++ data ≠ []) :
    ∃ b', b.appendStringBuff realloc data check = some (true, b') ∧ b'.Good ∧
      b'.content = if check then terminate (b.content ++ data) else b.content ++ data := by
  rcases reserve_good hok hb data.length with ⟨b₁, hres, hgood₁, hcont₁, hpos₁, hfit₁⟩
  rcases store_good hgood₁ data (by omega) with ⟨b₂, hstore, hgood₂, hcont₂, hpos₂, hsize₂⟩
  rw [hcont₁] at hcont₂
  cases check with
  | false =>
      exact ⟨b₂, by simp [appendStringBuff, hres, hstore], hgood₂, by simpa using hcont₂⟩
  | true =>
      have hne₂ : b₂.content ≠ [] := by rw [hcont₂]; exact hne rfl
      rcases checkLastChar_good hgood₂ hne₂ (by omega) with ⟨b₃, hcheck, hgood₃, hcont₃⟩
      exact ⟨b₃, by simp [appendStringBuff, hres, hstore, hcheck], hgood₃, by
        simpa [hcont₂] using hcont₃⟩

end K2hFtBinBuff

/-! ## Ending a line -/

/-- The bytes at which `StringPush` ends a line. -/
def isEol (c : UInt8) : Bool := c == LF || c == CR || c == 0

/-- What a push on one input buffer gives back: its result, the buffer, and the blocks that it
handed to `StackPush`, in order. -/
structure InputPush where
  result : Bool
  buff : K2hFtBinBuff
  blocks : List Bytes
  deriving DecidableEq

/-- The remaining answers of `realloc`. -/
def laterAnswers (realloc : Nat → ReallocAnswer) : Nat → ReallocAnswer := fun n => realloc (n + 1)

/-- The loop of `StringPush` over the rest of the chunk; `seg` are the bytes from `start`, and
`skip` is `addcr`. -/
def stringPushLoop (realloc : Nat → ReallocAnswer) (b : K2hFtBinBuff) (skip : Bool) (seg : Bytes) :
    Bytes → Option InputPush
  | [] =>
      -- the rest of the chunk waits for the end of its line
      if seg = [] then
        some ⟨true, b, []⟩
      else
        (b.appendStringBuff (realloc 0) seg false).map fun r => ⟨r.1, r.2, []⟩
  | c :: rest =>
      if skip then
        -- the LF of a CRLF belongs to no line
        stringPushLoop realloc b false seg rest
      else if isEol c then
        match b.appendStringBuff (realloc 0) (seg ++ [c]) true with
        | none => none
        | some (false, b) => some ⟨false, b, []⟩
        | some (true, b) =>
            let addcr := c == CR && rest.head? == some LF
            (stringPushLoop (laterAnswers realloc) b.takeoutBuff.2 addcr [] rest).map
              fun r => { r with blocks := b.takeoutBuff.1 :: r.blocks }
      else
        stringPushLoop realloc b false (seg ++ [c]) rest

/-- `StringPush`; no data forces the unfinished line out. -/
def stringPush (realloc : Nat → ReallocAnswer) (b : K2hFtBinBuff) (data : Bytes) :
    Option InputPush :=
  if data = [] then
    if b.isEmpty then
      some ⟨true, b, []⟩
    else
      -- the unfinished line gets its NUL
      match b.appendStringBuff (realloc 0) [] true with
      | none => none
      | some (false, b) => some ⟨false, b, []⟩
      | some (true, b) => some ⟨true, b.takeoutBuff.2, [b.takeoutBuff.1]⟩
  else
    stringPushLoop realloc b false [] data

/-- `setsize`: what fits below the limit. The subtraction is one of `size_t`, so it wraps when the
buffer is over the limit. -/
def binarySetsize (BinaryBuffLimit nowsize length : Nat) : Nat :=
  let maxsize :=
    if nowsize ≤ BinaryBuffLimit then BinaryBuffLimit - nowsize
    else BinaryBuffLimit + SIZE_LIMIT - nowsize
  min maxsize length

/-- The loop of `BinaryPush`, with the rounds that are left. A round that finds the buffer at the
limit consumes nothing and empties it; with a limit of zero such rounds repeat for ever. -/
def binaryPushLoop (BinaryBuffLimit : Nat) :
    Nat → (Nat → ReallocAnswer) → K2hFtBinBuff → Bytes → Option InputPush
  | 0, _, b, data => if data = [] then some ⟨true, b, []⟩ else none
  | fuel + 1, realloc, b, data =>
      if data = [] then
        some ⟨true, b, []⟩
      else
        let setsize := binarySetsize BinaryBuffLimit b.size data.length
        match b.appendStringBuff (realloc 0) (data.take setsize) false with
        | none => none
        | some (false, b) => some ⟨false, b, []⟩
        | some (true, b) =>
            -- a full buffer becomes a block
            if BinaryBuffLimit ≤ b.size then
              (binaryPushLoop BinaryBuffLimit fuel (laterAnswers realloc) b.takeoutBuff.2
                (data.drop setsize)).map fun r => { r with blocks := b.takeoutBuff.1 :: r.blocks }
            else
              binaryPushLoop BinaryBuffLimit fuel (laterAnswers realloc) b (data.drop setsize)

/-- `BinaryPush`. -/
def binaryPush (BinaryBuffLimit : Nat) (realloc : Nat → ReallocAnswer) (b : K2hFtBinBuff)
    (data : Bytes) : Option InputPush :=
  if data = [] then
    if b.isEmpty then some ⟨true, b, []⟩
    else some ⟨true, b.takeoutBuff.2, [b.takeoutBuff.1]⟩
  else
    -- one round for each byte, and one for a buffer that is full already
    binaryPushLoop BinaryBuffLimit (data.length + 1) realloc b data

/-! ## The write buffer of a handle -/

/-- The class variables of `K2hFtWriteBuff`. -/
structure BuffLimits where
  BinaryBuffLimit : Nat
  LineByteLimit : Nat
  StackLineMax : Nat
  StackTimeup : Int64
  deriving DecidableEq

/-- `DEFAULT_LINE_LIMIT`: no limit. -/
def DEFAULT_LINE_LIMIT : Nat := 0

def DEFAULT_LINE_MAX : Nat := 0

def DEFAULT_TIMEUP : Int64 := 0

/-- The limits before a configuration is loaded. -/
def BuffLimits.default : BuffLimits :=
  { BinaryBuffLimit := 8192 * 10
    LineByteLimit := DEFAULT_LINE_LIMIT
    StackLineMax := DEFAULT_LINE_MAX
    StackTimeup := DEFAULT_TIMEUP }

structure K2hFtWriteBuff where
  InputBuffMap : OrdMap Pid K2hFtBinBuff
  Stack : List K2hFtLine
  deriving DecidableEq

namespace K2hFtWriteBuff

def fresh : K2hFtWriteBuff :=
  { InputBuffMap := ∅
    Stack := [] }

end K2hFtWriteBuff

/-- What one call of `StackPush` meets outside: the bytes that memory holds behind its block, by their
offset from the start of the block, and what `BuildK2hFtLine` reads. -/
structure StackEnv extends LineEnv where
  beyond : Nat → UInt8

/-- What one call of `Push` meets outside: the answers of `realloc` for each buffer it fills, and
the environment of each block it stacks. -/
structure PushEnv where
  realloc : Pid → Nat → ReallocAnswer
  line : Nat → StackEnv

/-- The environment of a call in which memory comes zeroed and the clock is not readable. -/
def PushEnv.zeroed : PushEnv :=
  { realloc := fun _ _ => some fun _ => 0
    line := fun _ =>
      { fresh := fun _ => 0
        beyond := fun _ => 0
        host :=
          { name := ascii "localhost"
            noNul := by decide
            length_le := by decide }
        now := none } }

/-- Every request for memory of the call succeeds. -/
def PushEnv.AllocOk (env : PushEnv) : Prop :=
  ∀ pid n, (env.realloc pid n).isSome

theorem zeroed_allocOk : PushEnv.zeroed.AllocOk := fun _ _ => rfl

/-- What a handle does with its blocks: the limits, and `K2hFtManage::CvtPushData` for it, which may
look at the bytes behind a block. -/
structure LineSink where
  limits : BuffLimits
  cvtPushData : (Nat → UInt8) → Bytes → Option Bytes

/-- `StackPush`: the line that a block becomes, if any. -/
def stackLine (sink : LineSink) (env : StackEnv) (block : Bytes) (pid : Pid) : Option K2hFtLine :=
  if block = [] then
    none
  else
    match sink.cvtPushData env.beyond block with
    | none => none
    | some pOutput =>
        if DEFAULT_LINE_LIMIT ≠ sink.limits.LineByteLimit ∧
            sink.limits.LineByteLimit < pOutput.length then
          none
        else
          buildK2hFtLine env.toLineEnv pOutput pid

/-- `StringPush` or `BinaryPush`. -/
def inputPush (limits : BuffLimits) (is_binary_mode : Bool) (realloc : Nat → ReallocAnswer)
    (b : K2hFtBinBuff) (data : Bytes) : Option InputPush :=
  if is_binary_mode then binaryPush limits.BinaryBuffLimit realloc b data
  else stringPush realloc b data

/-- `GetBinBuff`. -/
def getBinBuff (bufs : OrdMap Pid K2hFtBinBuff) (pid : Pid) : K2hFtBinBuff :=
  (bufs.find? pid).getD K2hFtBinBuff.empty

/-- The blocks of `Push` for all processes: every buffer is pushed and erased. -/
def pushAllBlocks (limits : BuffLimits) (is_binary_mode : Bool) (env : PushEnv) (data : Bytes) :
    List (Pid × K2hFtBinBuff) → Option (Bool × List (Pid × Bytes))
  | [] => some (true, [])
  | (pid_map, pBuff) :: rest => do
      let p ← inputPush limits is_binary_mode (env.realloc pid_map) pBuff data
      let r ← pushAllBlocks limits is_binary_mode env data rest
      return (p.result && r.1, p.blocks.map (fun block => (pid_map, block)) ++ r.2)

/-- The part of `Push` before the stack: its result, the buffers, and the blocks for `StackPush`. -/
def pushBlocks (limits : BuffLimits) (is_binary_mode : Bool) (env : PushEnv)
    (bufs : OrdMap Pid K2hFtBinBuff) (data : Bytes) (pid : Pid) :
    Option (Bool × OrdMap Pid K2hFtBinBuff × List (Pid × Bytes)) :=
  if pid = K2HFT_INVALID_PID then do
    let r ← pushAllBlocks limits is_binary_mode env data bufs.entries
    return (r.1, ∅, r.2)
  else do
    let p ← inputPush limits is_binary_mode (env.realloc pid) (getBinBuff bufs pid) data
    return (p.result, bufs.insert pid p.buff, p.blocks.map fun block => (pid, block))

/-- The lines that `StackPush` appends for a list of blocks. -/
def stackLines (sink : LineSink) (env : Nat → StackEnv) : List (Pid × Bytes) → List K2hFtLine
  | [] => []
  | (pid, block) :: rest =>
      (stackLine sink (env 0) block pid).toList ++ stackLines sink (fun n => env (n + 1)) rest

namespace K2hFtWriteBuff

/-- `K2hFtWriteBuff::Push`. -/
def push (sink : LineSink) (is_binary_mode : Bool) (env : PushEnv) (w : K2hFtWriteBuff)
    (data : Bytes) (pid : Pid) : Option (Bool × K2hFtWriteBuff) := do
  let r ← pushBlocks sink.limits is_binary_mode env w.InputBuffMap data pid
  return (r.1,
    { InputBuffMap := r.2.1
      Stack := w.Stack ++ stackLines sink env.line r.2.2 })

/-- `ForcePush`. -/
def forcePush (sink : LineSink) (is_binary_mode : Bool) (env : PushEnv) (w : K2hFtWriteBuff)
    (pid : Pid) : Option (Bool × K2hFtWriteBuff) :=
  w.push sink is_binary_mode env [] pid

/-- `ForceAllPush`. -/
def forceAllPush (sink : LineSink) (is_binary_mode : Bool) (env : PushEnv) (w : K2hFtWriteBuff) :
    Option (Bool × K2hFtWriteBuff) :=
  w.push sink is_binary_mode env [] K2HFT_INVALID_PID

/-- `Pop`: the stacked lines as one value; `none` is NULL. -/
def pop (w : K2hFtWriteBuff) : Option Bytes × K2hFtWriteBuff :=
  (buildK2hFtValue w.Stack, { w with Stack := [] })

end K2hFtWriteBuff

/-- The check of `IsStackLimit` without the lock. -/
def stackLimitFast (limits : BuffLimits) (count : Nat) : Bool :=
  limits.StackLineMax < count

/-- The check of `IsStackLimit` under the lock. -/
def stackLimitLocked (limits : BuffLimits) (now : Int64) (Stack : List K2hFtLine) : Bool :=
  match Stack with
  | [] => false
  | pline :: _ =>
      if Stack.length ≤ limits.StackLineMax then
        !(decide (now.toInt ≤ pline.head.ts.tv_sec.toInt + limits.StackTimeup.toInt))
      else
        true

/-- `IsStackLimit` when nothing happens between its two checks. -/
def isStackLimit (limits : BuffLimits) (now : Int64) (Stack : List K2hFtLine) : Bool :=
  stackLimitFast limits Stack.length || stackLimitLocked limits now Stack

/-! ## What text mode hands to the stack

The line feed of a CRLF inside one chunk is skipped; otherwise the chunk is cut behind its
terminators, with the buffer as the unfinished segment. -/

/-- The bytes of a chunk that `StringPush` keeps. -/
def keptBytes (skip : Bool) : Bytes → Bytes
  | [] => []
  | c :: rest =>
      if skip then keptBytes false rest
      else c :: keptBytes (c == CR && rest.head? == some LF) rest

open K2hFtBinBuff Segmenter

theorem keptBytes_cons_eol {c : UInt8} (rest : Bytes) :
    keptBytes false (c :: rest) = c :: keptBytes (c == CR && rest.head? == some LF) rest := by
  simp [keptBytes]

theorem keptBytes_cons_other {c : UInt8} (hc : isEol c = false) (rest : Bytes) :
    keptBytes false (c :: rest) = c :: keptBytes false rest := by
  have hcr : (c == CR) = false := by
    simp only [isEol, Bool.or_eq_false_iff] at hc
    exact hc.1.2
  simp [keptBytes, hcr]

theorem stringPushLoop_good {realloc : Nat → ReallocAnswer} (hok : ∀ n, (realloc n).isSome)
    {b : K2hFtBinBuff} (hb : b.Good) (skip : Bool) (seg : Bytes)
    (hseg : ∀ c ∈ seg, isEol c = false) (data : Bytes) :
    ∃ b', stringPushLoop realloc b skip seg data =
        some ⟨true, b', (cut isEol (b.content ++ seg) (keptBytes skip data)).1.map terminate⟩ ∧
      b'.Good ∧ b'.content = (cut isEol (b.content ++ seg) (keptBytes skip data)).2 := by
  induction data generalizing realloc b skip seg with
  | nil =>
      by_cases hnil : seg = []
      · subst hnil
        exact ⟨b, by simp [stringPushLoop, keptBytes], hb, by simp [keptBytes]⟩
      · rcases appendStringBuff_good (hok 0) hb seg false (by simp) with
          ⟨b', happ, hgood, hcont⟩
        exact ⟨b', by simp [stringPushLoop, keptBytes, hnil, happ], hgood, by
          simpa [keptBytes] using hcont⟩
  | cons c rest ih =>
      cases skip with
      | true =>
          rcases ih hok hb false seg hseg with ⟨b', hrun, hgood, hcont⟩
          exact ⟨b', by simpa [stringPushLoop, keptBytes] using hrun, hgood, by
            simpa [keptBytes] using hcont⟩
      | false =>
          rcases hc : isEol c with _ | _
          · have hseg' : ∀ d ∈ seg ++ [c], isEol d = false := by
              intro d hd
              rcases List.mem_append.1 hd with hd | hd
              · exact hseg d hd
              · simpa [List.mem_singleton.1 hd] using hc
            rcases ih hok hb false _ hseg' with ⟨b', hrun, hgood, hcont⟩
            rw [keptBytes_cons_other hc, cut_cons_notEnd isEol _ _ hc]
            rw [← List.append_assoc] at hrun hcont
            exact ⟨b', by simpa [stringPushLoop, hc] using hrun, hgood, hcont⟩
          · rcases appendStringBuff_good (hok 0) hb (seg ++ [c]) true (by simp) with
              ⟨b₁, happ, hgood₁, hcont₁⟩
            have hok' : ∀ n, (laterAnswers realloc n).isSome := fun n => hok (n + 1)
            rcases ih hok' good_empty (c == CR && rest.head? == some LF) [] (by simp) with
              ⟨b', hrun, hgood, hcont⟩
            rw [keptBytes_cons_eol, cut_cons_end isEol _ _ hc]
            simp only [content_empty, List.append_nil] at hrun hcont
            refine ⟨b', ?_, hgood, hcont⟩
            simp only [if_true, ← List.append_assoc] at hcont₁
            simp [stringPushLoop, hc, happ, hrun, hcont₁]

/-- What a text push makes of the unfinished line: the finished lines and the new unfinished one. No
data finishes it. -/
def textPush (carry data : Bytes) : List Bytes × Bytes :=
  if data = [] then
    (if carry = [] then [] else [terminate carry], [])
  else
    ((cut isEol carry (keptBytes false data)).1.map terminate,
      (cut isEol carry (keptBytes false data)).2)

/-- The forced push of a sound buffer. -/
theorem stringPush_force {realloc : Nat → ReallocAnswer} (hok : ∀ n, (realloc n).isSome)
    {b : K2hFtBinBuff} (hb : b.Good) :
    ∃ b', stringPush realloc b [] =
        some ⟨true, b', if b.content = [] then [] else [terminate b.content]⟩ ∧
      b'.Good ∧ b'.content = [] := by
  by_cases hnil : b.content = []
  · have hempty : b.isEmpty = true := hb.isEmpty_iff.2 hnil
    exact ⟨b, by simp [stringPush, hempty, hnil], hb, hnil⟩
  · have hfull : b.isEmpty = false := by
      rw [← Bool.not_eq_true, hb.isEmpty_iff]
      exact hnil
    rcases appendStringBuff_good (hok 0) hb [] true (by simpa using hnil) with
      ⟨b', happ, hgood, hcont⟩
    simp only [List.append_nil, if_true] at hcont
    exact ⟨K2hFtBinBuff.empty, by simp [stringPush, hfull, happ, hnil, hcont], good_empty, rfl⟩

/-- `StringPush` on a sound buffer computes `textPush` of its content. -/
theorem stringPush_good {realloc : Nat → ReallocAnswer} (hok : ∀ n, (realloc n).isSome)
    {b : K2hFtBinBuff} (hb : b.Good) (data : Bytes) :
    ∃ b', stringPush realloc b data = some ⟨true, b', (textPush b.content data).1⟩ ∧
      b'.Good ∧ b'.content = (textPush b.content data).2 := by
  by_cases hnil : data = []
  · subst hnil
    simpa [textPush] using stringPush_force hok hb
  · have h := stringPushLoop_good hok hb false [] (by simp) data
    simpa [stringPush, textPush, hnil] using h

/-! ## Pushes keep buffers sound -/

theorem binaryPushLoop_good (BinaryBuffLimit : Nat) {fuel : Nat} {realloc : Nat → ReallocAnswer}
    (hok : ∀ n, (realloc n).isSome) {b : K2hFtBinBuff} (hb : b.Good) {data : Bytes} {p : InputPush}
    (h : binaryPushLoop BinaryBuffLimit fuel realloc b data = some p) :
    p.result = true ∧ p.buff.Good := by
  induction fuel generalizing realloc b data p with
  | zero =>
      simp only [binaryPushLoop, Option.ite_none_right_eq_some, Option.some.injEq] at h
      rw [← h.2]
      exact ⟨rfl, hb⟩
  | succ fuel ih =>
      rcases appendStringBuff_good (hok 0) hb
          (data.take (binarySetsize BinaryBuffLimit b.size data.length)) false (by simp) with
        ⟨b', happ, hgood, -⟩
      have hok' : ∀ n, (laterAnswers realloc n).isSome := fun n => hok (n + 1)
      by_cases hnil : data = []
      · simp only [binaryPushLoop, if_pos hnil, Option.some.injEq] at h
        rw [← h]
        exact ⟨rfl, hb⟩
      · simp only [binaryPushLoop, if_neg hnil, happ] at h
        split at h
        · rcases Option.map_eq_some_iff.1 h with ⟨p', hrun, rfl⟩
          have hp := ih hok' good_empty hrun
          exact hp
        · exact ih hok' hgood h

/-- What a forced push hands over for the content of a buffer. -/
def forcedBlocks (is_binary_mode : Bool) (content : Bytes) : List Bytes :=
  if content = [] then [] else [if is_binary_mode then content else terminate content]

theorem inputPush_force (limits : BuffLimits) (is_binary_mode : Bool)
    {realloc : Nat → ReallocAnswer} (hok : ∀ n, (realloc n).isSome) {b : K2hFtBinBuff}
    (hb : b.Good) :
    ∃ b', inputPush limits is_binary_mode realloc b [] =
        some ⟨true, b', forcedBlocks is_binary_mode b.content⟩ ∧ b'.Good ∧ b'.content = [] := by
  cases is_binary_mode with
  | true =>
      by_cases hnil : b.content = []
      · have hempty : b.isEmpty = true := hb.isEmpty_iff.2 hnil
        exact ⟨b, by simp [inputPush, binaryPush, hempty, forcedBlocks, hnil], hb, hnil⟩
      · have hfull : b.isEmpty = false := by
          rw [← Bool.not_eq_true, hb.isEmpty_iff]
          exact hnil
        exact ⟨K2hFtBinBuff.empty, by simp [inputPush, binaryPush, hfull, forcedBlocks, hnil],
          good_empty, rfl⟩
  | false =>
      simpa [inputPush, forcedBlocks] using stringPush_force hok hb

theorem inputPush_good (limits : BuffLimits) (is_binary_mode : Bool)
    {realloc : Nat → ReallocAnswer} (hok : ∀ n, (realloc n).isSome) {b : K2hFtBinBuff}
    (hb : b.Good) {data : Bytes} {p : InputPush}
    (h : inputPush limits is_binary_mode realloc b data = some p) :
    p.result = true ∧ p.buff.Good := by
  by_cases hnil : data = []
  · subst hnil
    rcases inputPush_force limits is_binary_mode hok hb with ⟨b', hpush, hgood, -⟩
    rw [hpush] at h
    rw [← Option.some.inj h]
    exact ⟨rfl, hgood⟩
  · cases is_binary_mode with
    | true =>
        simp only [inputPush, binaryPush, if_true, if_neg hnil] at h
        exact binaryPushLoop_good limits.BinaryBuffLimit hok hb h
    | false =>
        rcases stringPush_good hok hb data with ⟨b', hpush, hgood, -⟩
        simp only [inputPush, Bool.false_eq_true, if_false, hpush] at h
        rw [← Option.some.inj h]
        exact ⟨rfl, hgood⟩

/-- Every buffer of the map is sound. -/
def SoundBuffs (bufs : OrdMap Pid K2hFtBinBuff) : Prop :=
  ∀ pid b, bufs.find? pid = some b → b.Good

theorem SoundBuffs.getBinBuff {bufs : OrdMap Pid K2hFtBinBuff} (h : SoundBuffs bufs) (pid : Pid) :
    (getBinBuff bufs pid).Good := by
  rcases hfind : bufs.find? pid with _ | b
  · simpa [K2hFtFuse.getBinBuff, hfind] using good_empty
  · simpa [K2hFtFuse.getBinBuff, hfind] using h pid b hfind

theorem SoundBuffs.insert {bufs : OrdMap Pid K2hFtBinBuff} (h : SoundBuffs bufs) (pid : Pid)
    {b : K2hFtBinBuff} (hb : b.Good) : SoundBuffs (bufs.insert pid b) := by
  intro pid' b' hfind
  rw [OrdMap.find?_insert] at hfind
  split at hfind
  · simpa [← Option.some.inj hfind] using hb
  · exact h pid' b' hfind

theorem soundBuffs_empty : SoundBuffs ∅ := by
  intro pid b h
  simp at h

/-- The forced push of all buffers hands over what each of them holds. -/
theorem pushAllBlocks_force (limits : BuffLimits) (is_binary_mode : Bool) {env : PushEnv}
    (henv : env.AllocOk) {entries : List (Pid × K2hFtBinBuff)} (hgood : ∀ e ∈ entries, e.2.Good) :
    pushAllBlocks limits is_binary_mode env [] entries =
      some (true, entries.flatMap fun e =>
        (forcedBlocks is_binary_mode e.2.content).map fun block => (e.1, block)) := by
  induction entries with
  | nil =>
      rfl
  | cons e entries ih =>
      rcases e with ⟨pid, b⟩
      rcases inputPush_force limits is_binary_mode (henv pid) (hgood (pid, b) (by simp)) with
        ⟨b', hpush, -, -⟩
      have hrest := ih fun e he => hgood e (by simp [he])
      simp [pushAllBlocks, hpush, hrest]

/-- A push keeps the buffers of a handle sound. -/
theorem pushBlocks_sound {limits : BuffLimits} {is_binary_mode : Bool} {env : PushEnv}
    (henv : env.AllocOk) {bufs bufs' : OrdMap Pid K2hFtBinBuff} (hbufs : SoundBuffs bufs)
    {data : Bytes} {pid : Pid} {result : Bool} {blocks : List (Pid × Bytes)}
    (h : pushBlocks limits is_binary_mode env bufs data pid = some (result, bufs', blocks)) :
    SoundBuffs bufs' := by
  unfold pushBlocks at h
  split at h
  · rcases hall : pushAllBlocks limits is_binary_mode env data bufs.entries with _ | r
    · simp [hall] at h
    · simp only [hall, Option.bind_eq_bind, Option.bind_some, pure, Option.some.injEq,
        Prod.mk.injEq] at h
      rw [← h.2.1]
      exact soundBuffs_empty
  · rcases hone : inputPush limits is_binary_mode (env.realloc pid) (getBinBuff bufs pid) data with
      _ | p
    · simp [hone] at h
    · have hp := inputPush_good limits is_binary_mode (henv pid) (hbufs.getBinBuff pid) hone
      simp only [hone, Option.bind_eq_bind, Option.bind_some, pure, Option.some.injEq,
        Prod.mk.injEq] at h
      rw [← h.2.1]
      exact hbufs.insert pid hp.2

end K2hFtFuse

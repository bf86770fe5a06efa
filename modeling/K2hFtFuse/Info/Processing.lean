import K2hFtFuse.Rule

/-!
# Info.Processing — what k2hftfuse does with a popped value

`K2hFtInfo::Processing`: a value of a handle goes to k2hash when the rule transfers, and line by
line to the plugin or the output file of the rule. Where `BuildK2hFtKey` gets no memory nothing is set,
and the size of the rule grows all the same.
-/

namespace K2hFtFuse

open ByteSeq

/-- The outcomes of the calls that `Processing` makes; `put` is `K2hFtPluginMan::Write` or
`K2hFtFdCache::Write` for the n-th line. -/
structure ProcessEnv where
  getpid : Pid
  set : Bool
  put : Nat → Bool
  now : Option Timespec

/-- What a call of `Processing` gives to k2hash, the sizes of what it skips for want of a key, and what
it gives to the plugin or the output file. -/
structure ProcessEffects where
  sets : List (Bytes × Bytes)
  skipped : List Nat
  puts : List Bytes
  deriving DecidableEq

/-- One line's data for the plugin or file: in text mode without a NUL at its end. -/
def linePut (IsBinaryMode : Bool) (pOutput : Bytes) : Bytes :=
  if IsBinaryMode = false ∧ pOutput.getLast? = some 0 then pOutput.dropLast else pOutput

/-- The loop over the lines of the value, with the rounds that are left. -/
def putLines (put : Nat → Bool) (IsBinaryMode : Bool) (value : Bytes) :
    Nat → Option Nat → Option (Bool × List Bytes)
  | 0, _ => some (true, [])
  | _ + 1, none => some (true, [])
  | n + 1, some pLines => do
      -- the next line is looked up before this one is used
      let pNextLines ← getNextK2hFtLine value pLines
      let linelen ← readLE value pLines 8
      if 0 < linelen then
        let pOutput ← slice? value (pLines + sizeofLineHead) linelen
        let r ← putLines (fun i => put (i + 1)) IsBinaryMode value n pNextLines
        return (put 0 && r.1, linePut IsBinaryMode pOutput :: r.2)
      else
        -- a line without data is skipped and makes no call
        putLines put IsBinaryMode value n pNextLines

/-- The `Set` of a rule that transfers: key and value, if there is memory for the key. -/
def infoSets (malloc : Bool) (env : ProcessEnv) (pRule : K2hFtRule) (pValue : Bytes) (size : Nat) :
    Option (List (Bytes × Bytes)) :=
  if pRule.IsTransfer && malloc then
    (slice? pValue 0 size).map fun v => [(buildK2hFtKey (cStr pRule.TargetPath) env.getpid, v)]
  else
    some []

/-- The plugin and file part. -/
def infoPuts (env : ProcessEnv) (IsBinaryMode : Bool) (pRule : K2hFtRule) (pValue : Bytes) :
    Option (Bool × List Bytes) :=
  if pRule.pPlugin.isSome || !pRule.OutputPath.isEmpty then do
    let (pLines, count) ← getK2hFtLines pValue
    putLines env.put IsBinaryMode pValue count pLines
  else
    some (true, [])

/-- `K2hFtInfo::Processing` for a handle that is the rule; `malloc` is whether `BuildK2hFtKey` gets its
memory. -/
def infoProcessing (malloc : Bool) (env : ProcessEnv) (IsBinaryMode : Bool) (pRule : K2hFtRule)
    (pValue : Bytes) : Option (Bool × ProcessEffects × K2hFtRule) :=
  if !pRule.IsTransfer && pRule.pPlugin.isNone && pRule.OutputPath.isEmpty then
    -- nothing is to be done for the rule
    some (true, { sets := [], skipped := [], puts := [] }, pRule)
  else do
    let size ← getK2hFtValueSize pValue
    let sets ← infoSets malloc env pRule pValue size
    let lines ← infoPuts env IsBinaryMode pRule pValue
    return ((!pRule.IsTransfer || (malloc && env.set)) && lines.1,
      { sets := sets
        skipped := if pRule.IsTransfer && !malloc then [size] else []
        puts := lines.2 },
      { pRule with
        -- `off_t` wraps around; the size grows whether or not anything was set
        AccumSize := pRule.AccumSize + Int64.ofNat size
        LastTime := env.now.getD pRule.LastTime })

theorem putLines_byLine (IsBinaryMode : Bool) (lines : List K2hFtLine) (pre : Bytes)
    (hfit : (pre ++ lines.flatMap K2hFtLine.byLine).length < SIZE_LIMIT) (put : Nat → Bool) :
    ∃ result, putLines put IsBinaryMode (pre ++ lines.flatMap K2hFtLine.byLine) lines.length
      (some pre.length) = some (result, lines.map fun l => linePut IsBinaryMode l.body) := by
  induction lines generalizing pre put with
  | nil =>
      exact ⟨true, rfl⟩
  | cons l rest ih =>
      have hhead : pre.length + l.byLine.length < SIZE_LIMIT := by
        simp only [List.flatMap_cons, List.length_append] at hfit
        omega
      -- the lines behind this one begin where it ends
      have hmove : pre ++ (l.byLine ++ rest.flatMap K2hFtLine.byLine) =
          (pre ++ l.byLine) ++ rest.flatMap K2hFtLine.byLine := by simp
      rcases ih (pre ++ l.byLine) (by simpa using hfit) (fun i => put (i + 1)) with ⟨r, hrec⟩
      rw [← hmove, List.length_append] at hrec
      refine ⟨put 0 && r, ?_⟩
      simp only [List.flatMap_cons, List.length_cons, putLines, getNextK2hFtLine_byLine pre _ l hhead,
        readLE_linelength, slice?_body, Option.bind_eq_bind, Option.bind_some, if_pos l.body_pos,
        hrec, pure, List.map_cons]

/-- The plugin or the file gets every line of a built value. -/
theorem infoPuts_buildK2hFtValue (env : ProcessEnv) (IsBinaryMode : Bool) (pRule : K2hFtRule)
    {lines : List K2hFtLine} {value : Bytes} (hvalue : buildK2hFtValue lines = some value) :
    ∃ result, infoPuts env IsBinaryMode pRule value =
      some (result,
        if pRule.pPlugin.isSome || !pRule.OutputPath.isEmpty then
          lines.map fun l => linePut IsBinaryMode l.body
        else []) := by
  rcases buildK2hFtValue_eq_some hvalue with ⟨-, hfit, hbytes⟩
  have hvalue' : value = (encodeLE 8 (totallen lines) ++ encodeLE 8 lines.length) ++
      lines.flatMap K2hFtLine.byLine := by simp [hbytes]
  have hlen := length_buildK2hFtValue hvalue
  have hpre : sizeofValueHead =
      (encodeLE 8 (totallen lines) ++ encodeLE 8 lines.length).length := by simp [sizeofValueHead]
  rcases putLines_byLine IsBinaryMode lines
    (encodeLE 8 (totallen lines) ++ encodeLE 8 lines.length) (by rw [← hvalue']; omega) env.put with
    ⟨result, hwalk⟩
  rw [← hvalue', ← hpre] at hwalk
  unfold infoPuts
  split
  · exact ⟨result, by simp [getK2hFtLines_buildK2hFtValue hvalue, hwalk]⟩
  · exact ⟨true, rfl⟩

/-- With memory for the key, a rule that transfers gives k2hash the value as it was built, under its
path. -/
theorem infoProcessing_sets (env : ProcessEnv) (IsBinaryMode : Bool) {pRule : K2hFtRule}
    (htrans : pRule.IsTransfer = true) {lines : List K2hFtLine} {value : Bytes}
    (hvalue : buildK2hFtValue lines = some value) :
    ∃ result effects pRule',
      infoProcessing true env IsBinaryMode pRule value = some (result, effects, pRule') ∧
        effects.sets = [(buildK2hFtKey (cStr pRule.TargetPath) env.getpid, value)] ∧
        pRule'.IsTransfer = true ∧ pRule'.TargetPath = pRule.TargetPath := by
  have hsets : infoSets true env pRule value value.length =
      some [(buildK2hFtKey (cStr pRule.TargetPath) env.getpid, value)] := by
    simp [infoSets, htrans, slice?]
  rcases infoPuts_buildK2hFtValue env IsBinaryMode pRule hvalue with ⟨r, hputs⟩
  unfold infoProcessing
  simp only [htrans, Bool.not_true, Bool.false_and, Bool.false_eq_true, if_false,
    getK2hFtValueSize_buildK2hFtValue hvalue, hsets, hputs, Option.bind_eq_bind, Option.bind_some]
  exact ⟨_, _, _, rfl, rfl, rfl, rfl⟩

end K2hFtFuse

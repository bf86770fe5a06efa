import K2hFtFuse.Info.Alike

/-!
# Info.Entries — the settings that `Clean` forgets

`Clean` sets the members back that it names. The transfer mode, the expire time and the limits of
`K2hFtWriteBuff` are not among them: they are what the keys of all main sections that were read said
last (`ReadForgotten`).
-/

namespace K2hFtFuse

open ByteSeq

/-! ## The keys of a main section -/

/-- A key of a main section with its value; `is` tells whether the key is a given one. -/
structure MainEntry where
  env : LoadEnv
  is : Bytes → Bool
  value : Bytes

/-- The keys in the order in which they are compared. -/
def mainKeys : List Bytes :=
  [ascii "K2HTYPE", ascii "K2HFILE", ascii "K2HFULLMAP", ascii "K2HINIT", ascii "K2HMASKBIT",
    ascii "K2HCMASKBIT", ascii "K2HMAXELE", ascii "K2HPAGESIZE", ascii "DTORTHREADCNT",
    ascii "DTORCTP", ascii "BINTRANS", ascii "EXPIRE", ascii "TRANSLINECNT", ascii "TRANSTIMEUP",
    ascii "BYTELIMIT"]

/-- A value of `EXPIRE` that is accepted. -/
def expireSec (value : Bytes) : Option Int64 :=
  if atoi value ≤ 0 then none else some (atoi value).toInt64

/-- A value of `TRANSTIMEUP` that is accepted. -/
def timeup (value : Bytes) : Option Int64 :=
  if atoi value < 0 then none else some (atoi value).toInt64

/-- What a value tells about `name`, where its key is taken for `key` and `read` accepts it. -/
def valueFor {α : Type} (key : Option Bytes) (value : Bytes) (read : Bytes → Option α)
    (name : Bytes) : Option α :=
  if key = some name then read value else none

namespace MainEntry

/-- The key that the entry is taken for. -/
def key (e : MainEntry) : Option Bytes := mainKeys.find? e.is

def load (lib : ConfLib) (e : MainEntry) (info : K2hFtInfo) : Bool × K2hFtInfo :=
  info.loadMainKey lib e.env e.is e.value

end MainEntry

/-- The last value for `name` that `read` accepts. -/
def lastValue {α : Type} (read : Bytes → Option α) (name : Bytes) (entries : List MainEntry) :
    Option α :=
  (entries.filterMap fun e => valueFor e.key e.value read name).getLast?

theorem lastValue_append_singleton {α : Type} (read : Bytes → Option α) (name : Bytes)
    (entries : List MainEntry) (e : MainEntry) :
    lastValue read name (entries ++ [e]) =
      (valueFor e.key e.value read name).or (lastValue read name entries) := by
  unfold lastValue
  -- a value that is not accepted leaves the earlier one in force
  rw [List.filterMap_append, List.getLast?_append]
  cases hvalue : valueFor e.key e.value read name <;> simp [hvalue]

/-- None of the settings that `Clean` forgets was given a value of its own. -/
structure ForgottenUnset (lib : ConfLib) (entries : List MainEntry) : Prop where
  BINTRANS : lastValue (yesNo lib) (ascii "BINTRANS") entries ≠ some true
  EXPIRE : lastValue expireSec (ascii "EXPIRE") entries = none
  TRANSLINECNT : (lastValue nonnegative (ascii "TRANSLINECNT") entries).getD 0 = 0
  TRANSTIMEUP : (lastValue timeup (ascii "TRANSTIMEUP") entries).getD 0 = 0
  BYTELIMIT : (lastValue nonnegative (ascii "BYTELIMIT") entries).getD 0 = 0

instance instDecidableForgottenUnset (lib : ConfLib) (entries : List MainEntry) :
    Decidable (ForgottenUnset lib entries) :=
  decidable_of_iff
    (lastValue (yesNo lib) (ascii "BINTRANS") entries ≠ some true ∧
      lastValue expireSec (ascii "EXPIRE") entries = none ∧
      (lastValue nonnegative (ascii "TRANSLINECNT") entries).getD 0 = 0 ∧
      (lastValue timeup (ascii "TRANSTIMEUP") entries).getD 0 = 0 ∧
      (lastValue nonnegative (ascii "BYTELIMIT") entries).getD 0 = 0)
    ⟨fun h => ⟨h.1, h.2.1, h.2.2.1, h.2.2.2.1, h.2.2.2.2⟩,
      fun h => ⟨h.BINTRANS, h.EXPIRE, h.TRANSLINECNT, h.TRANSTIMEUP, h.BYTELIMIT⟩⟩

/-! ## The settings that are forgotten -/

namespace K2hFtInfo

/-- The settings that `Clean` forgets are those of a new object. -/
structure Unforgotten (info : K2hFtInfo) : Prop where
  IsBinaryMode : info.IsBinaryMode = false
  ExpireTime : info.ExpireTime = 0
  limits : info.limits = BuffLimits.default

/-- The settings that `Clean` forgets are those that the entries say. -/
structure ReadForgotten (lib : ConfLib) (entries : List MainEntry) (info : K2hFtInfo) : Prop where
  IsBinaryMode : info.IsBinaryMode =
    (lastValue (yesNo lib) (ascii "BINTRANS") entries).getD false
  ExpireTime : info.ExpireTime = (lastValue expireSec (ascii "EXPIRE") entries).getD 0
  limits : info.limits =
    { BuffLimits.default with
      StackLineMax := (lastValue nonnegative (ascii "TRANSLINECNT") entries).getD 0
      StackTimeup := (lastValue timeup (ascii "TRANSTIMEUP") entries).getD 0
      LineByteLimit := (lastValue nonnegative (ascii "BYTELIMIT") entries).getD 0 }

/-- What a key that is taken for `key` does to the settings that `Clean` forgets. -/
structure WritesForgotten (lib : ConfLib) (value : Bytes) (info : K2hFtInfo) (key : Option Bytes)
    (result : Bool × K2hFtInfo) : Prop where
  IsBinaryMode : result.2.IsBinaryMode =
    (valueFor key value (yesNo lib) (ascii "BINTRANS")).getD info.IsBinaryMode
  ExpireTime : result.2.ExpireTime =
    (valueFor key value expireSec (ascii "EXPIRE")).getD info.ExpireTime
  limits : result.2.limits =
    { info.limits with
      StackLineMax :=
        (valueFor key value nonnegative (ascii "TRANSLINECNT")).getD info.limits.StackLineMax
      StackTimeup :=
        (valueFor key value timeup (ascii "TRANSTIMEUP")).getD info.limits.StackTimeup
      LineByteLimit :=
        (valueFor key value nonnegative (ascii "BYTELIMIT")).getD info.limits.LineByteLimit }

def forgottenKeys : List Bytes :=
  [ascii "BINTRANS", ascii "EXPIRE", ascii "TRANSLINECNT", ascii "TRANSTIMEUP", ascii "BYTELIMIT"]

section Keys

variable {lib : ConfLib} {value : Bytes} {info : K2hFtInfo} {result : Bool × K2hFtInfo}

/-- A key that writes to none of these settings. -/
theorem WritesForgotten.of_other {key : Option Bytes} (hkey : ∀ name ∈ forgottenKeys, key ≠ some name)
    (hmode : result.2.IsBinaryMode = info.IsBinaryMode)
    (hexpire : result.2.ExpireTime = info.ExpireTime) (hlimits : result.2.limits = info.limits) :
    WritesForgotten lib value info key result := by
  have hnone : ∀ {α : Type} (read : Bytes → Option α) name, name ∈ forgottenKeys →
      valueFor key value read name = none :=
    fun read name hname => if_neg (hkey name hname)
  refine ⟨?_, ?_, ?_⟩
  · rw [hnone _ _ (by simp [forgottenKeys])]
    exact hmode
  · rw [hnone _ _ (by simp [forgottenKeys])]
    exact hexpire
  · rw [hnone nonnegative (ascii "TRANSLINECNT") (by simp [forgottenKeys]),
      hnone timeup (ascii "TRANSTIMEUP") (by simp [forgottenKeys]),
      hnone nonnegative (ascii "BYTELIMIT") (by simp [forgottenKeys])]
    exact hlimits

/-- One key of the chain that is compared. -/
theorem writesForgotten_cons {is : Bytes → Bool} {name : Bytes} {names : List Bytes}
    {x y : Bool × K2hFtInfo} (hx : WritesForgotten lib value info (some name) x)
    (hy : WritesForgotten lib value info (names.find? is) y) :
    WritesForgotten lib value info ((name :: names).find? is) (if is name then x else y) := by
  rw [List.find?_cons]
  cases is name with
  | true => exact hx
  | false => exact hy

theorem writesForgotten_ite {key : Option Bytes} {c : Prop} [Decidable c] {x y : Bool × K2hFtInfo}
    (hx : WritesForgotten lib value info key x) (hy : WritesForgotten lib value info key y) :
    WritesForgotten lib value info key (if c then x else y) := by
  split
  · exact hx
  · exact hy

/-- One key with its value. -/
theorem load_writesForgotten (lib : ConfLib) (e : MainEntry) (info : K2hFtInfo) :
    WritesForgotten lib e.value info e.key (e.load lib info) := by
  have hother : ∀ name ∈ mainKeys.take 10, ∀ forgotten ∈ forgottenKeys,
      some name ≠ some forgotten := by
    decide +kernel
  -- the keys are compared in their order, so it matters that they differ
  have hdistinct : forgottenKeys.Nodup ∧ forgottenKeys.reverse.Nodup := by
    decide +kernel
  simp only [forgottenKeys, List.reverse_cons, List.reverse_nil, List.nil_append, List.cons_append,
    List.nodup_cons, List.mem_cons, List.not_mem_nil, or_false, not_or] at hdistinct
  unfold MainEntry.key mainKeys MainEntry.load loadMainKey
  refine writesForgotten_cons ?K2HTYPE <| writesForgotten_cons ?K2HFILE <|
    writesForgotten_cons ?K2HFULLMAP <| writesForgotten_cons ?K2HINIT <|
    writesForgotten_cons ?K2HMASKBIT <| writesForgotten_cons ?K2HCMASKBIT <|
    writesForgotten_cons ?K2HMAXELE <| writesForgotten_cons ?K2HPAGESIZE <|
    writesForgotten_cons ?DTORTHREADCNT <| writesForgotten_cons ?DTORCTP <|
    writesForgotten_cons ?BINTRANS <| writesForgotten_cons ?EXPIRE <|
    writesForgotten_cons ?TRANSLINECNT <| writesForgotten_cons ?TRANSTIMEUP <|
    writesForgotten_cons ?BYTELIMIT ?none
  case BINTRANS =>
    refine ⟨?_, ?_, ?_⟩ <;> simp [valueFor, hdistinct]
  case EXPIRE =>
    by_cases hpos : atoi e.value ≤ 0
    · refine ⟨?_, ?_, ?_⟩ <;> simp [valueFor, hdistinct, expireSec, hpos]
    · refine ⟨?_, ?_, ?_⟩ <;> simp [valueFor, hdistinct, expireSec, hpos]
  case TRANSLINECNT =>
    cases hcount : nonnegative e.value with
    | none => refine ⟨?_, ?_, ?_⟩ <;> simp [valueFor, hdistinct, hcount]
    | some linecnt => refine ⟨?_, ?_, ?_⟩ <;> simp [valueFor, hdistinct, hcount]
  case TRANSTIMEUP =>
    by_cases hneg : atoi e.value < 0
    · refine ⟨?_, ?_, ?_⟩ <;> simp [valueFor, hdistinct, timeup, hneg]
    · refine ⟨?_, ?_, ?_⟩ <;> simp [valueFor, hdistinct, timeup, hneg]
  case BYTELIMIT =>
    cases hcount : nonnegative e.value with
    | none => refine ⟨?_, ?_, ?_⟩ <;> simp [valueFor, hdistinct, hcount]
    | some limit => refine ⟨?_, ?_, ?_⟩ <;> simp [valueFor, hdistinct, hcount]
  case none =>
    exact .of_other (by simp) rfl rfl rfl
  case DTORCTP =>
    cases e.env.checkPathRealPath e.value with
    | none => exact .of_other (hother _ (by simp [mainKeys])) rfl rfl rfl
    | some path => exact .of_other (hother _ (by simp [mainKeys])) rfl rfl rfl
  -- the other keys write to settings that are not forgotten
  all_goals
    repeat' first
      | refine writesForgotten_ite ?_ ?_
      | exact .of_other (hother _ (by simp [mainKeys])) rfl rfl rfl

end Keys

/-- The entries with one more. -/
theorem ReadForgotten.load {lib : ConfLib} {entries : List MainEntry} {info : K2hFtInfo}
    (h : ReadForgotten lib entries info) (e : MainEntry) :
    ReadForgotten lib (entries ++ [e]) (e.load lib info).2 := by
  have hwrites := load_writesForgotten lib e info
  have hor : ∀ {α : Type} (x y : Option α) (a : α), (x.or y).getD a = x.getD (y.getD a) := by
    intro α x y a
    cases x <;> rfl
  refine ⟨?_, ?_, ?_⟩
  · rw [hwrites.IsBinaryMode, h.IsBinaryMode, lastValue_append_singleton, hor]
  · rw [hwrites.ExpireTime, h.ExpireTime, lastValue_append_singleton, hor]
  · rw [hwrites.limits, h.limits]
    simp only [lastValue_append_singleton, hor]

/-- An accepted value of `EXPIRE` is not the one of a new object. -/
theorem expireSec_ne_zero {value : Bytes} {sec : Int64} (h : expireSec value = some sec) :
    sec ≠ 0 := by
  unfold expireSec at h
  split at h
  · cases h
  · rename_i hpos
    obtain rfl := Option.some.inj h
    intro hzero
    apply hpos
    have hint := congrArg Int64.toInt hzero
    rw [Int32.toInt_toInt64] at hint
    rw [Int32.le_iff_toInt_le, hint]
    rfl

/-- The settings that are forgotten are those of a new object when no entry said another value. -/
theorem ReadForgotten.unforgotten_iff {lib : ConfLib} {entries : List MainEntry} {info : K2hFtInfo}
    (h : ReadForgotten lib entries info) : Unforgotten info ↔ ForgottenUnset lib entries := by
  constructor
  · rintro ⟨hmode, hexpire, hlimits⟩
    rw [h.limits] at hlimits
    refine ⟨?_, ?_, ?_, ?_, ?_⟩
    · intro hyes
      rw [h.IsBinaryMode, hyes] at hmode
      cases hmode
    · rw [h.ExpireTime] at hexpire
      cases hsec : lastValue expireSec (ascii "EXPIRE") entries with
      | none =>
          rfl
      | some sec =>
          rw [hsec] at hexpire
          rcases List.mem_filterMap.1 (List.mem_of_getLast? hsec) with ⟨e, -, he⟩
          unfold valueFor at he
          split at he
          · exact absurd hexpire (expireSec_ne_zero he)
          · cases he
    · exact congrArg BuffLimits.StackLineMax hlimits
    · exact congrArg BuffLimits.StackTimeup hlimits
    · exact congrArg BuffLimits.LineByteLimit hlimits
  · rintro ⟨hmode, hexpire, hcount, htimeup, hlimit⟩
    refine ⟨?_, ?_, ?_⟩
    · rw [h.IsBinaryMode]
      rcases hread : lastValue (yesNo lib) (ascii "BINTRANS") entries with _ | _ | _
      · rfl
      · rfl
      · exact absurd hread hmode
    · rw [h.ExpireTime, hexpire]
      rfl
    · rw [h.limits, hcount, htimeup, hlimit]
      rfl

end K2hFtInfo

end K2hFtFuse

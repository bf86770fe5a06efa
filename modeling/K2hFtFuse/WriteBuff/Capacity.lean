import K2hFtFuse.Lib.Transition
import K2hFtFuse.WriteBuff.BinaryBlocks

/-!
# Capacity — input buffers when memory runs out

`AppendStringBuff` raises `CacheBuffSize` before `realloc` answers.  This file defines:

* `BuffAct`, the calls of `AppendStringBuff` and `TakeoutBuff` that a push makes;
* `CapacityKept`, for pushes after which the recorded size is covered by the block;

and shows that this holds of a run of pushes exactly if `AppendStringBuff` always gets the memory that
it asks for.
-/

namespace K2hFtFuse

open ByteSeq

/-! ## The acts of a push -/

inductive BuffAct
  | append (realloc : ReallocAnswer) (data : Bytes) (check_last_char : Bool)
  | takeout

namespace K2hFtBinBuff

/-- The buffer after an act; no result when `AppendStringBuff` leaves the block. -/
def act (b : K2hFtBinBuff) : BuffAct → Option K2hFtBinBuff
  | .append realloc data check_last_char =>
      (b.appendStringBuff realloc data check_last_char).map Prod.snd
  | .takeout => some b.takeoutBuff.2

end K2hFtBinBuff

/-- An append and, if it succeeds, what follows on the buffer that it leaves. -/
def appendThen (b : K2hFtBinBuff) (realloc : ReallocAnswer) (data : Bytes)
    (check_last_char : Bool) (next : K2hFtBinBuff → List BuffAct) : List BuffAct :=
  .append realloc data check_last_char ::
    match b.appendStringBuff realloc data check_last_char with
    | some (true, b) => next b
    | some (false, _) => []
    | none => []

/-- The acts of the loop of `StringPush`. -/
def stringPushLoopActs (realloc : Nat → ReallocAnswer) (b : K2hFtBinBuff) (skip : Bool)
    (seg : Bytes) : Bytes → List BuffAct
  | [] => if seg = [] then [] else [.append (realloc 0) seg false]
  | c :: rest =>
      if skip then
        stringPushLoopActs realloc b false seg rest
      else if isEol c then
        appendThen b (realloc 0) (seg ++ [c]) true fun b =>
          .takeout :: stringPushLoopActs (laterAnswers realloc) b.takeoutBuff.2
            (c == CR && rest.head? == some LF) [] rest
      else
        stringPushLoopActs realloc b false (seg ++ [c]) rest

def stringPushActs (realloc : Nat → ReallocAnswer) (b : K2hFtBinBuff) (data : Bytes) :
    List BuffAct :=
  if data = [] then
    if b.isEmpty then [] else appendThen b (realloc 0) [] true fun _ => [.takeout]
  else
    stringPushLoopActs realloc b false [] data

/-- The acts of the loop of `BinaryPush`. -/
def binaryPushLoopActs (BinaryBuffLimit : Nat) :
    Nat → (Nat → ReallocAnswer) → K2hFtBinBuff → Bytes → List BuffAct
  | 0, _, _, _ => []
  | fuel + 1, realloc, b, data =>
      if data = [] then
        []
      else
        let setsize := binarySetsize BinaryBuffLimit b.size data.length
        appendThen b (realloc 0) (data.take setsize) false fun b =>
          if BinaryBuffLimit ≤ b.size then
            .takeout :: binaryPushLoopActs BinaryBuffLimit fuel (laterAnswers realloc)
              b.takeoutBuff.2 (data.drop setsize)
          else
            binaryPushLoopActs BinaryBuffLimit fuel (laterAnswers realloc) b (data.drop setsize)

def binaryPushActs (BinaryBuffLimit : Nat) (realloc : Nat → ReallocAnswer) (b : K2hFtBinBuff)
    (data : Bytes) : List BuffAct :=
  if data = [] then
    if b.isEmpty then [] else [.takeout]
  else
    binaryPushLoopActs BinaryBuffLimit (data.length + 1) realloc b data

/-- A call of `StringPush` or `BinaryPush`; no data forces what is in the buffer out. -/
structure BuffPush where
  is_binary_mode : Bool
  realloc : Nat → ReallocAnswer
  data : Bytes

namespace BuffPush

/-- The buffer after the call, whatever its result; none when the call leaves the block or does not
end. -/
def step (limits : BuffLimits) (b : K2hFtBinBuff) (push : BuffPush) : Option K2hFtBinBuff :=
  (inputPush limits push.is_binary_mode push.realloc b push.data).map InputPush.buff

def acts (limits : BuffLimits) (b : K2hFtBinBuff) (push : BuffPush) : List BuffAct :=
  if push.is_binary_mode then binaryPushActs limits.BinaryBuffLimit push.realloc b push.data
  else stringPushActs push.realloc b push.data

end BuffPush

namespace K2hFtBinBuff

open Transition

/-! ## A push is its acts -/

theorem run_takeout (b : K2hFtBinBuff) (acts : List BuffAct) :
    run act b (.takeout :: acts) = run act empty acts := rfl

theorem run_appendThen (b : K2hFtBinBuff) (realloc : ReallocAnswer) (data : Bytes) (check : Bool)
    (next : K2hFtBinBuff → List BuffAct) :
    run act b (appendThen b realloc data check next) =
      (b.appendStringBuff realloc data check).bind fun r =>
        if r.1 then run act r.2 (next r.2) else some r.2 := by
  rw [appendThen, run_cons, act]
  rcases b.appendStringBuff realloc data check with _ | ⟨_ | _, b'⟩
  · rfl
  · rfl
  · rfl

/-- A condition is met where the append meets it and, after a success, what follows does. -/
theorem guarded_appendThen {ok : K2hFtBinBuff → BuffAct → Prop} {b : K2hFtBinBuff}
    {realloc : ReallocAnswer} {data : Bytes} {check : Bool}
    {next : K2hFtBinBuff → List BuffAct} (hok : ok b (.append realloc data check))
    (hnext : ∀ b', Guarded act ok b' (next b')) :
    Guarded act ok b (appendThen b realloc data check next) := by
  refine ⟨hok, ?_⟩
  intro b' hact
  rw [act] at hact
  rcases happ : b.appendStringBuff realloc data check with _ | ⟨_ | _, b₁⟩
  · simp [happ] at hact
  · trivial
  · obtain rfl : b₁ = b' := by simpa [happ] using hact
    exact hnext b₁

theorem run_stringPushLoopActs (realloc : Nat → ReallocAnswer) (b : K2hFtBinBuff) (skip : Bool)
    (seg data : Bytes) :
    run act b (stringPushLoopActs realloc b skip seg data) =
      (stringPushLoop realloc b skip seg data).map InputPush.buff := by
  induction data generalizing realloc b skip seg with
  | nil =>
      by_cases hnil : seg = []
      · simp [stringPushLoopActs, stringPushLoop, hnil]
      · simp only [stringPushLoopActs, stringPushLoop, if_neg hnil, run_cons, run_nil, act]
        rcases b.appendStringBuff (realloc 0) seg false with _ | r
        · rfl
        · rfl
  | cons c rest ih =>
      cases skip with
      | true =>
          simpa [stringPushLoopActs, stringPushLoop] using ih realloc b false seg
      | false =>
          by_cases hc : isEol c = true
          · simp only [stringPushLoopActs, stringPushLoop, Bool.false_eq_true, if_false, if_pos hc,
              run_appendThen]
            rcases b.appendStringBuff (realloc 0) (seg ++ [c]) true with _ | ⟨_ | _, b₁⟩
            · rfl
            · rfl
            · -- a finished line leaves an empty buffer
              simp only [Option.bind_some, if_true, run_takeout, takeoutBuff_eq, ih, Option.map_map]
              rfl
          · simpa [stringPushLoopActs, stringPushLoop, hc] using ih realloc b false (seg ++ [c])

theorem run_stringPushActs (realloc : Nat → ReallocAnswer) (b : K2hFtBinBuff) (data : Bytes) :
    run act b (stringPushActs realloc b data) =
      (stringPush realloc b data).map InputPush.buff := by
  by_cases hnil : data = []
  · cases hempty : b.isEmpty with
    | true =>
        simp [stringPushActs, stringPush, hnil, hempty]
    | false =>
        simp only [stringPushActs, stringPush, if_pos hnil, hempty, Bool.false_eq_true, if_false,
          run_appendThen]
        rcases b.appendStringBuff (realloc 0) [] true with _ | ⟨_ | _, b₁⟩
        · rfl
        · rfl
        · rfl
  · simp only [stringPushActs, stringPush, if_neg hnil]
    exact run_stringPushLoopActs realloc b false [] data

/-- Without the check of the last character, an append that succeeds adds its data. -/
theorem size_appendStringBuff {realloc : ReallocAnswer} {b b' : K2hFtBinBuff} {data : Bytes}
    (h : b.appendStringBuff realloc data false = some (true, b')) :
    b'.size = b.size + data.length := by
  -- the size check leaves the position alone
  have hpos : (b.reserve realloc data.length).2.CacheBuffPos = b.CacheBuffPos := by
    unfold reserve
    split
    · cases realloc with
      | none =>
          rfl
      | some fresh =>
          rfl
    · rfl
  unfold appendStringBuff at h
  rcases hres : b.reserve realloc data.length with ⟨_ | _, b₁⟩
  · simp [hres] at h
  · rw [hres] at hpos
    simp only [hres, Bool.false_eq_true, if_false, Option.bind_eq_bind, Option.bind_some,
      Option.bind_eq_some_iff, pure, Option.some.injEq, Prod.mk.injEq, true_and] at h
    rcases h with ⟨b₂, hstore, rfl⟩
    have hsize : b₂.CacheBuffPos = b₁.CacheBuffPos + data.length := by
      unfold store at hstore
      split at hstore
      · rename_i hnil
        rw [← Option.some.inj hstore, hnil]
        rfl
      · split at hstore
        · cases hstore
        · simp only [Option.ite_none_right_eq_some, Option.some.injEq] at hstore
          rw [← hstore.2]
    exact hsize.trans (congrArg (· + data.length) hpos)

/-- The loop of `BinaryPush` has rounds enough: one for each byte, and one more for a buffer that is
at the limit. -/
theorem run_binaryPushLoopActs {L : Nat} (hL : 1 ≤ L) {fuel : Nat}
    (realloc : Nat → ReallocAnswer) {b : K2hFtBinBuff} {data : Bytes}
    (hfuel : data.length + 1 ≤ fuel ∨ (data.length ≤ fuel ∧ b.size < L)) :
    run act b (binaryPushLoopActs L fuel realloc b data) =
      (binaryPushLoop L fuel realloc b data).map InputPush.buff := by
  induction fuel generalizing realloc b data with
  | zero =>
      have hnil : data = [] := List.length_eq_zero_iff.1 (by omega)
      simp [binaryPushLoopActs, binaryPushLoop, hnil]
  | succ fuel ih =>
      by_cases hnil : data = []
      · simp [binaryPushLoopActs, binaryPushLoop, hnil]
      · simp only [binaryPushLoopActs, binaryPushLoop, if_neg hnil, run_appendThen]
        rcases happ : b.appendStringBuff (realloc 0)
          (data.take (binarySetsize L b.size data.length)) false with _ | ⟨_ | _, b₁⟩
        · rfl
        · rfl
        · have hle : binarySetsize L b.size data.length ≤ data.length := Nat.min_le_right _ _
          have hsize : b₁.size = b.size + binarySetsize L b.size data.length := by
            rw [size_appendStringBuff happ, List.length_take, Nat.min_eq_left hle]
          have hroom : b.size < L →
              binarySetsize L b.size data.length = min (L - b.size) data.length :=
            fun h => binarySetsize_of_room h data.length
          have hlen : 0 < data.length := List.length_pos_iff.2 hnil
          simp only [Option.bind_some, if_true]
          split
          · -- below the limit the round has taken a byte; at the limit it has emptied the buffer
            rw [run_takeout, takeoutBuff_eq, ih, Option.map_map]
            · rfl
            · refine Or.inr ⟨?_, hL⟩
              rw [List.length_drop]
              rcases hfuel with hmore | ⟨henough, hbelow⟩
              · omega
              · rw [hroom hbelow]
                omega
          · -- the buffer has room left, so the data are used up
            refine ih _ (Or.inr ⟨?_, by omega⟩)
            have hbelow : b.size < L := by omega
            rw [hroom hbelow] at hsize ⊢
            rw [List.length_drop]
            omega

theorem run_binaryPushActs {L : Nat} (hL : 1 ≤ L) (realloc : Nat → ReallocAnswer)
    (b : K2hFtBinBuff) (data : Bytes) :
    run act b (binaryPushActs L realloc b data) =
      (binaryPush L realloc b data).map InputPush.buff := by
  by_cases hnil : data = []
  · cases hempty : b.isEmpty with
    | true =>
        simp [binaryPushActs, binaryPush, hnil, hempty]
    | false =>
        simp [binaryPushActs, binaryPush, hnil, hempty, run_takeout]
  · simp only [binaryPushActs, binaryPush, if_neg hnil]
    exact run_binaryPushLoopActs hL realloc (Or.inl le_rfl)

theorem run_acts {limits : BuffLimits} (hL : 1 ≤ limits.BinaryBuffLimit) (b : K2hFtBinBuff)
    (push : BuffPush) : run act b (push.acts limits b) = push.step limits b := by
  unfold BuffPush.acts BuffPush.step inputPush
  split
  · exact run_binaryPushActs hL push.realloc b push.data
  · exact run_stringPushActs push.realloc b push.data

/-! ## The check of the last character -/

/-- Where the last character is checked there is one. -/
def HasLastChar (b : K2hFtBinBuff) : BuffAct → Prop
  | .append _ data check_last_char => check_last_char = true → data ≠ [] ∨ b.CacheBuffPos ≠ 0
  | .takeout => True

theorem hasLastChar_stringPushLoopActs (realloc : Nat → ReallocAnswer) (b : K2hFtBinBuff)
    (skip : Bool) (seg data : Bytes) :
    Guarded act HasLastChar b (stringPushLoopActs realloc b skip seg data) := by
  induction data generalizing realloc b skip seg with
  | nil =>
      unfold stringPushLoopActs
      split
      · trivial
      · exact ⟨fun h => (Bool.false_ne_true h).elim, fun _ _ => trivial⟩
  | cons c rest ih =>
      unfold stringPushLoopActs
      split
      · exact ih realloc b false seg
      · split
        · -- the segment ends with its terminator
          refine guarded_appendThen (fun _ => Or.inl (by simp)) ?_
          intro b'
          refine ⟨trivial, ?_⟩
          intro b'' htakeout
          obtain rfl : b'.takeoutBuff.2 = b'' := Option.some.inj htakeout
          exact ih _ _ _ _
        · exact ih realloc b false (seg ++ [c])

theorem hasLastChar_stringPushActs (realloc : Nat → ReallocAnswer) (b : K2hFtBinBuff)
    (data : Bytes) : Guarded act HasLastChar b (stringPushActs realloc b data) := by
  unfold stringPushActs
  split
  · split
    · trivial
    · -- the forced line is not empty
      rename_i hfull
      have hpos : b.CacheBuffPos ≠ 0 := by simpa [isEmpty] using hfull
      exact guarded_appendThen (fun _ => Or.inr hpos) fun b' => ⟨trivial, fun _ _ => trivial⟩
  · exact hasLastChar_stringPushLoopActs realloc b false [] data

theorem hasLastChar_binaryPushLoopActs (L fuel : Nat) (realloc : Nat → ReallocAnswer)
    (b : K2hFtBinBuff) (data : Bytes) :
    Guarded act HasLastChar b (binaryPushLoopActs L fuel realloc b data) := by
  induction fuel generalizing realloc b data with
  | zero =>
      trivial
  | succ fuel ih =>
      unfold binaryPushLoopActs
      split
      · trivial
      · refine guarded_appendThen (fun h => (Bool.false_ne_true h).elim) ?_
        intro b'
        split
        · refine ⟨trivial, ?_⟩
          intro b'' htakeout
          obtain rfl : b'.takeoutBuff.2 = b'' := Option.some.inj htakeout
          exact ih _ _ _
        · exact ih _ _ _

theorem hasLastChar_acts (limits : BuffLimits) (b : K2hFtBinBuff) (push : BuffPush) :
    Guarded act HasLastChar b (push.acts limits b) := by
  unfold BuffPush.acts
  split
  · unfold binaryPushActs
    split
    · split
      · trivial
      · exact ⟨trivial, fun _ _ => trivial⟩
    · exact hasLastChar_binaryPushLoopActs limits.BinaryBuffLimit _ push.realloc b push.data
  · exact hasLastChar_stringPushActs push.realloc b push.data

/-! ## Memory -/

/-- `CacheBuffSize` is covered by the block, and the position by `CacheBuffSize`. -/
structure Capacity (b : K2hFtBinBuff) : Prop where
  size_le : b.CacheBuffSize ≤ (b.CacheBuff.getD []).length
  pos_le : b.CacheBuffPos ≤ b.CacheBuffSize

/-- An append that fails leaves the buffered bytes and both numbers. -/
def FailureKeeps (b : K2hFtBinBuff) : BuffAct → K2hFtBinBuff → Prop
  | .append realloc data check_last_char, b' =>
      b.appendStringBuff realloc data check_last_char = some (false, b') →
        b'.content = b.content ∧ b'.CacheBuffPos = b.CacheBuffPos ∧
          b'.CacheBuffSize = b.CacheBuffSize
  | .takeout, _ => True

/-- `AppendStringBuff` has room, or gets the memory that it asks for. -/
def Allocates (b : K2hFtBinBuff) : BuffAct → Prop
  | .append realloc data _ =>
      b.CacheBuffPos + data.length + 1 ≤ b.CacheBuffSize ∨ realloc.isSome = true
  | .takeout => True

instance instDecidableAllocates (b : K2hFtBinBuff) : ∀ act, Decidable (b.Allocates act)
  | .append realloc data _ =>
      inferInstanceAs (Decidable
        (b.CacheBuffPos + data.length + 1 ≤ b.CacheBuffSize ∨ realloc.isSome = true))
  | .takeout => .isTrue trivial

theorem Good.capacity {b : K2hFtBinBuff} (hb : b.Good) : b.Capacity :=
  ⟨hb.size_eq.ge, hb.pos_le⟩

/-- With room, `realloc` is not asked. -/
theorem appendStringBuff_of_room {b : K2hFtBinBuff} {data : Bytes}
    (hroom : b.CacheBuffPos + data.length + 1 ≤ b.CacheBuffSize) (realloc realloc' : ReallocAnswer)
    (check : Bool) :
    b.appendStringBuff realloc data check = b.appendStringBuff realloc' data check := by
  have hroom' : ¬ b.CacheBuffSize < b.CacheBuffPos + data.length + 1 := Nat.not_lt.2 hroom
  simp only [appendStringBuff, reserve, if_neg hroom']

/-- Without it, a refusal of `realloc` has already raised `CacheBuffSize`. -/
theorem appendStringBuff_refused {b : K2hFtBinBuff} {data : Bytes}
    (hroom : ¬ b.CacheBuffPos + data.length + 1 ≤ b.CacheBuffSize) (check : Bool) :
    b.appendStringBuff none data check =
      some (false, { b with
        CacheBuffSize := b.CacheBuffSize + max BUFFER_SINGLE_SIZE (data.length + 1) }) := by
  simp only [appendStringBuff, reserve, if_pos (Nat.lt_of_not_le hroom)]

theorem act_good {b : K2hFtBinBuff} (hb : b.Good) {a : BuffAct} (halloc : b.Allocates a)
    (hlast : b.HasLastChar a) : ∃ b', b.act a = some b' ∧ b'.Good ∧ b.FailureKeeps a b' := by
  cases a with
  | append realloc data check =>
      -- where `realloc` is not asked, its answer may as well be a block
      have hanswer : ∃ realloc' : ReallocAnswer, realloc'.isSome = true ∧
          b.appendStringBuff realloc data check = b.appendStringBuff realloc' data check := by
        rcases halloc with hroom | hsome
        · exact ⟨some fun _ => 0, rfl, appendStringBuff_of_room hroom _ _ check⟩
        · exact ⟨realloc, hsome, rfl⟩
      have hne : check = true → b.content ++ data ≠ [] := by
        intro hcheck hnil
        rcases List.append_eq_nil_iff.1 hnil with ⟨hcontent, hdata⟩
        rcases hlast hcheck with hdata' | hpos
        · exact hdata' hdata
        · rw [← hb.length_content, hcontent] at hpos
          exact hpos rfl
      rcases hanswer with ⟨realloc', hsome, heq⟩
      rcases appendStringBuff_good hsome hb data check hne with ⟨b', happ, hgood, -⟩
      refine ⟨b', ?_, hgood, ?_⟩
      · rw [act, heq, happ, Option.map_some]
      · intro hfail
        rw [heq, happ] at hfail
        cases hfail
  | takeout =>
      exact ⟨empty, rfl, good_empty, trivial⟩

theorem allocates_of_failureKeeps {b b' : K2hFtBinBuff} {a : BuffAct} (hact : b.act a = some b')
    (h : b.FailureKeeps a b') : b.Allocates a := by
  cases a with
  | append realloc data check =>
      by_contra hnot
      rcases not_or.1 hnot with ⟨hroom, hnone⟩
      rw [Bool.not_eq_true, Option.isSome_eq_false_iff, Option.isNone_iff_eq_none] at hnone
      have hrefused := appendStringBuff_refused hroom check
      rw [hnone, act, hrefused, Option.map_some] at hact
      obtain rfl := Option.some.inj hact
      have hsize := (h (hnone ▸ hrefused)).2.2
      have hgrown : data.length + 1 ≤ max BUFFER_SINGLE_SIZE (data.length + 1) :=
        Nat.le_max_right _ _
      simp only at hsize
      omega
  | takeout =>
      trivial

end K2hFtBinBuff

/-! ## Runs -/

namespace BuffPush

open K2hFtBinBuff

/-- In the call, `CacheBuffSize` is covered between any two acts and kept by every append that
fails. -/
def AppendsKeep (limits : BuffLimits) (b : K2hFtBinBuff) (push : BuffPush) : Prop :=
  Transition.Throughout act Capacity FailureKeeps b (push.acts limits b)

/-- Every append of the call has room, or gets the memory that it asks for. -/
def Served (limits : BuffLimits) (b : K2hFtBinBuff) (push : BuffPush) : Prop :=
  Transition.Guarded act Allocates b (push.acts limits b)

instance instDecidableServed (limits : BuffLimits) (b : K2hFtBinBuff) (push : BuffPush) :
    Decidable (push.Served limits b) :=
  inferInstanceAs (Decidable (Transition.Guarded act Allocates b (push.acts limits b)))

end BuffPush

/-- A run of calls on a new buffer: none leaves the block, and the recorded size is covered by the
block and kept by every append that fails. -/
structure CapacityKept (limits : BuffLimits) (pushes : List BuffPush) : Prop where
  inside : (Transition.run (BuffPush.step limits) K2hFtBinBuff.empty pushes).isSome
  capacity : Transition.Throughout (BuffPush.step limits) K2hFtBinBuff.Capacity
    (fun b push _ => push.AppendsKeep limits b) K2hFtBinBuff.empty pushes

open K2hFtBinBuff BuffPush

theorem step_good {limits : BuffLimits} (hL : 1 ≤ limits.BinaryBuffLimit) {b : K2hFtBinBuff}
    {push : BuffPush} (hb : b.Good) (hserved : push.Served limits b) :
    ∃ b', push.step limits b = some b' ∧ b'.Good ∧ push.AppendsKeep limits b := by
  have hguard := hserved.and (hasLastChar_acts limits b push)
  rw [← run_acts hL]
  refine Transition.exists_run_of_guarded ?_ (fun s hs => hs.capacity) hguard hb
  intro s a hs hok
  exact act_good hs hok.1 hok.2

/-- The recorded size of an input buffer stays covered by its block exactly as long as no append is
refused the memory that it asks for. -/
theorem capacityKept_iff {limits : BuffLimits} (hL : 1 ≤ limits.BinaryBuffLimit)
    (pushes : List BuffPush) :
    CapacityKept limits pushes ↔
      Transition.Guarded (BuffPush.step limits) (fun b push => push.Served limits b)
        K2hFtBinBuff.empty pushes := by
  constructor
  · intro h
    refine Transition.guarded_of_throughout ?_ h.inside h.capacity
    intro b push b' hstep hkeep
    -- the call is a run of its acts, so every one of them can be taken
    refine Transition.guarded_of_throughout ?_ ?_ hkeep
    · intro s a s' hact hkeeps
      exact allocates_of_failureKeeps hact hkeeps
    · rw [run_acts hL, hstep]
      rfl
  · intro hguard
    rcases Transition.exists_run_of_guarded (fun b push hb hserved => step_good hL hb hserved)
      (fun b hb => hb.capacity) hguard good_empty with ⟨b', hrun, -, hthroughout⟩
    exact ⟨Option.isSome_of_eq_some hrun, hthroughout⟩

/-- A limit of three bytes. -/
def smallBlocks : BuffLimits := { BuffLimits.default with BinaryBuffLimit := 3 }

/-- Text, a block that it makes full, and a forced line; `realloc` refuses only where it is not
asked. -/
def servedPushes : List BuffPush :=
  [ { is_binary_mode := false
      realloc := fun _ => some fun _ => 0
      data := ascii "ab" },
    { is_binary_mode := true
      realloc := fun n => if n = 0 then none else some fun _ => 0
      data := ascii "cde" },
    { is_binary_mode := false
      realloc := fun _ => none
      data := [] } ]

theorem capacityKept_iff_served : CapacityKept smallBlocks servedPushes := by
  refine (capacityKept_iff (by decide) servedPushes).2 ?_
  decide +kernel

/-- A push that gets no memory, and one behind it. -/
def refusedPushes : List BuffPush :=
  [ { is_binary_mode := false
      realloc := fun _ => none
      data := ascii "a" },
    { is_binary_mode := false
      realloc := fun _ => some fun _ => 0
      data := ascii "b" } ]

/-- The second push does not ask for memory and writes through NULL. -/
theorem not_capacityKept :
    ¬ ∀ (limits : BuffLimits) (pushes : List BuffPush), 1 ≤ limits.BinaryBuffLimit →
      CapacityKept limits pushes := by
  intro h
  have hinside := (h BuffLimits.default refusedPushes (by decide)).inside
  revert hinside
  decide +kernel

end K2hFtFuse

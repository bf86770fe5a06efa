import K2hFtFuse.WriteBuff

/-!
# BinaryBlocks — what binary mode hands to the stack

In binary mode a block ends at the size `BinaryBuffLimit`. The loop of `BinaryPush` makes progress
because the buffer is below the limit between its rounds; a full block empties it.
-/

namespace K2hFtFuse

open ByteSeq Segmenter K2hFtBinBuff

variable {L : Nat}

/-! ## One push -/

theorem K2hFtBinBuff.Good.size_eq_length {b : K2hFtBinBuff} (hb : b.Good) : b.size = b.content.length :=
  hb.length_content.symm

/-- Below the limit, the step takes what fits. -/
theorem binarySetsize_of_room {nowsize : Nat} (h : nowsize < L) (length : Nat) :
    binarySetsize L nowsize length = min (L - nowsize) length := by
  simp [binarySetsize, h.le]

/-- The loop on a buffer below the limit: it ends, and it cuts its data at the size `L`. -/
theorem binaryPushLoop_eq_cutAt {fuel : Nat} {realloc : Nat → ReallocAnswer}
    (hok : ∀ n, (realloc n).isSome) {b : K2hFtBinBuff} (hb : b.Good)
    (hroom : b.content.length < L) {data : Bytes} (hfuel : data.length ≤ fuel) :
    ∃ b', binaryPushLoop L fuel realloc b data =
        some ⟨true, b', (cutAt L b.content data).1⟩ ∧
      b'.Good ∧ b'.content = (cutAt L b.content data).2 := by
  induction fuel generalizing realloc b data with
  | zero =>
      have hnil : data = [] := List.length_eq_zero_iff.1 (Nat.le_zero.1 hfuel)
      subst hnil
      exact ⟨b, rfl, hb, rfl⟩
  | succ fuel ih =>
      by_cases hnil : data = []
      · subst hnil
        exact ⟨b, by simp [binaryPushLoop], hb, rfl⟩
      · have hlen : 0 < data.length := List.length_pos_iff.2 hnil
        have hok' : ∀ n, (laterAnswers realloc n).isSome := fun n => hok (n + 1)
        have hset : binarySetsize L b.size data.length =
            min (L - b.content.length) data.length := by
          rw [hb.size_eq_length, binarySetsize_of_room hroom]
        rcases appendStringBuff_good (hok 0) hb
            (data.take (min (L - b.content.length) data.length)) false (by simp) with
          ⟨b₁, happ, hgood₁, hcont₁⟩
        simp only [Bool.false_eq_true, if_false] at hcont₁
        by_cases hfull : L ≤ b.content.length + data.length
        · -- the data reach the limit: the block is handed over and the buffer starts again
          have hmin : min (L - b.content.length) data.length = L - b.content.length := by omega
          rw [hmin] at hset happ hcont₁
          have htake : (data.take (L - b.content.length)).length = L - b.content.length := by
            rw [List.length_take]
            omega
          have hne : data.take (L - b.content.length) ≠ [] := by
            rw [← List.length_pos_iff, htake]
            omega
          have hfill : b.content.length + (data.take (L - b.content.length)).length = L := by
            rw [htake]
            omega
          have hsize : L ≤ b₁.size := by
            rw [hgood₁.size_eq_length, hcont₁, List.length_append, hfill]
          have hrest : (data.drop (L - b.content.length)).length ≤ fuel := by
            rw [List.length_drop]
            omega
          rcases ih hok' good_empty (by simpa using Nat.lt_of_le_of_lt (Nat.zero_le _) hroom)
              hrest with ⟨b', hrun, hgood, hcont⟩
          have hcut : cutAt L b.content data =
              ((b.content ++ data.take (L - b.content.length)) ::
                (cutAt L [] (data.drop (L - b.content.length))).1,
                (cutAt L [] (data.drop (L - b.content.length))).2) := by
            calc cutAt L b.content data
                = cutAt L b.content (data.take (L - b.content.length) ++
                    data.drop (L - b.content.length)) := by
                  rw [List.take_append_drop]
              _ = _ := by
                  rw [cutAt_append, cutAt_of_fill hne hfill]
                  rfl
          refine ⟨b', ?_, hgood, ?_⟩
          · simp only [content_empty] at hrun
            simp [binaryPushLoop, hnil, hset, happ, hsize, hrun, hcont₁, hcut]
          · rw [hcut]
            exact hcont
        · -- everything fits below the limit
          have hmin : min (L - b.content.length) data.length = data.length := by omega
          rw [hmin] at hset happ hcont₁
          rw [List.take_length] at happ hcont₁
          have hroom₁ : b₁.content.length < L := by
            rw [hcont₁, List.length_append]
            omega
          have hsize : ¬ L ≤ b₁.size := by
            rw [hgood₁.size_eq_length]
            omega
          rcases ih hok' hgood₁ hroom₁ (by simp : ([] : Bytes).length ≤ fuel) with
            ⟨b', hrun, hgood, hcont⟩
          have hcut : cutAt L b.content data = ([], b₁.content) := by
            rw [cutAt_of_room (by omega), hcont₁]
          refine ⟨b', ?_, hgood, ?_⟩
          · simp [binaryPushLoop, hnil, hset, happ, hsize, hrun, hcut]
          · rw [hcut]
            simpa using hcont

/-- What a binary push makes of the unfinished block; no data hands it over. -/
def blockPush (L : Nat) (carry data : Bytes) : List Bytes × Bytes :=
  if data = [] then (if carry = [] then [] else [carry], [])
  else cutAt L carry data

/-- `BinaryPush` on a sound buffer below the limit computes `blockPush` of its content. -/
theorem binaryPush_good {realloc : Nat → ReallocAnswer} (hok : ∀ n, (realloc n).isSome)
    {b : K2hFtBinBuff} (hb : b.Good) (hroom : b.content.length < L) (data : Bytes) :
    ∃ b', binaryPush L realloc b data = some ⟨true, b', (blockPush L b.content data).1⟩ ∧
      b'.Good ∧ b'.content = (blockPush L b.content data).2 := by
  by_cases hnil : data = []
  · subst hnil
    by_cases hempty : b.content = []
    · have h : b.isEmpty = true := hb.isEmpty_iff.2 hempty
      exact ⟨b, by simp [binaryPush, blockPush, h, hempty], hb, by simp [blockPush, hempty]⟩
    · -- the unfinished block is handed over
      have h : b.isEmpty = false := by
        rw [← Bool.not_eq_true, hb.isEmpty_iff]
        exact hempty
      exact ⟨K2hFtBinBuff.empty, by simp [binaryPush, blockPush, h, hempty], good_empty, rfl⟩
  · rcases binaryPushLoop_eq_cutAt hok hb hroom (Nat.le_succ data.length) with
      ⟨b', hrun, hgood, hcont⟩
    exact ⟨b', by simp [binaryPush, blockPush, hnil, hrun], hgood, by simpa [blockPush, hnil]⟩

theorem blockPush_flatten (carry data : Bytes) :
    (blockPush L carry data).1.flatten ++ (blockPush L carry data).2 = carry ++ data := by
  unfold blockPush
  split
  · rename_i hnil
    split
    · simp_all
    · simp [hnil]
  · exact flatten_cutAt carry data

theorem blockPush_room {carry : Bytes} (hcarry : carry.length < L) (data : Bytes) :
    (blockPush L carry data).2.length < L := by
  unfold blockPush
  split
  · exact Nat.lt_of_le_of_lt (Nat.zero_le _) hcarry
  · exact (length_cutAt hcarry data).2

/-- The blocks of a push: full ones, or what a forced push finds unfinished. -/
theorem blockPush_blocks {carry : Bytes} (hcarry : carry.length < L) (data : Bytes) :
    (data ≠ [] → ∀ block ∈ (blockPush L carry data).1, block.length = L) ∧
      (data = [] → (blockPush L carry data).1.length ≤ 1 ∧
        ∀ block ∈ (blockPush L carry data).1, 1 ≤ block.length ∧ block.length < L) := by
  refine ⟨?_, ?_⟩
  · intro hne
    simpa [blockPush, hne] using (length_cutAt hcarry data).1
  · intro hnil
    by_cases hempty : carry = []
    · simp [blockPush, hnil, hempty]
    · have hpos : 1 ≤ carry.length := List.length_pos_iff.2 hempty
      simp [blockPush, hnil, hempty, hpos, hcarry]

/-! ## A sequence of pushes -/

/-- `BinaryPush` calls one after another on one buffer, each with its memory and its data: what each
call gives back. -/
def binaryRun (L : Nat) :
    K2hFtBinBuff → List ((Nat → ReallocAnswer) × Bytes) → Option (List InputPush)
  | _, [] => some []
  | b, (realloc, data) :: calls => do
      let p ← binaryPush L realloc b data
      let rest ← binaryRun L p.buff calls
      return p :: rest

/-- The buffer after the calls. -/
def lastBuff (b : K2hFtBinBuff) (outs : List InputPush) : K2hFtBinBuff :=
  (outs.getLast?.map InputPush.buff).getD b

/-- One call as it should be: its blocks have the size `L`, but for one shorter block that an empty
force push hands over, and the buffer is left below the limit. -/
structure BlockCall (L : Nat) (data : Bytes) (out : InputPush) : Prop where
  result : out.result = true
  full : data ≠ [] → ∀ block ∈ out.blocks, block.length = L
  forced : data = [] → out.blocks.length ≤ 1 ∧
    ∀ block ∈ out.blocks, 1 ≤ block.length ∧ block.length < L
  room : out.buff.size < L

theorem lastBuff_cons (b : K2hFtBinBuff) (out : InputPush) (outs : List InputPush) :
    lastBuff b (out :: outs) = lastBuff out.buff outs := by
  cases outs with
  | nil => rfl
  | cons out' outs =>
      simp [lastBuff, List.getLast?_cons]

theorem binaryRun_good {calls : List ((Nat → ReallocAnswer) × Bytes)}
    (hok : ∀ call ∈ calls, ∀ n, (call.1 n).isSome) {b : K2hFtBinBuff} (hb : b.Good)
    (hroom : b.content.length < L) :
    ∃ outs, binaryRun L b calls = some outs ∧
      List.Forall₂ (fun call out => BlockCall L call.2 out) calls outs ∧
      (outs.flatMap InputPush.blocks).flatten ++ (lastBuff b outs).content =
        b.content ++ (calls.map Prod.snd).flatten := by
  induction calls generalizing b with
  | nil =>
      exact ⟨[], rfl, .nil, by simp [lastBuff]⟩
  | cons call calls ih =>
      rcases call with ⟨realloc, data⟩
      rcases binaryPush_good (hok (realloc, data) (by simp)) hb hroom data with
        ⟨b₁, hpush, hgood₁, hcont₁⟩
      -- the next call starts below the limit again
      have hroom₁ : b₁.content.length < L := by
        rw [hcont₁]
        exact blockPush_room hroom data
      have hblocks := blockPush_blocks hroom data
      rcases ih (fun c hc => hok c (by simp [hc])) hgood₁ hroom₁ with
        ⟨outs, hrun, hcalls, hflat⟩
      refine ⟨⟨true, b₁, (blockPush L b.content data).1⟩ :: outs, ?_, ?_, ?_⟩
      · simp [binaryRun, hpush, hrun]
      · refine .cons ⟨rfl, hblocks.1, hblocks.2, ?_⟩ hcalls
        simpa [hgood₁.size_eq_length] using hroom₁
      · -- what this call leaves is what the next calls start from
        calc ((_ :: outs).flatMap InputPush.blocks).flatten ++ (lastBuff b (_ :: outs)).content
            = (blockPush L b.content data).1.flatten ++
                ((outs.flatMap InputPush.blocks).flatten ++ (lastBuff b₁ outs).content) := by
              simp [lastBuff_cons]
          _ = ((blockPush L b.content data).1.flatten ++ b₁.content) ++
                (calls.map Prod.snd).flatten := by
              rw [hflat, List.append_assoc]
          _ = (b.content ++ data) ++ (calls.map Prod.snd).flatten := by
              rw [hcont₁, blockPush_flatten]
          _ = _ := by
              simp

/-- A fresh buffer under any sequence of pushes: every call ends, the blocks with what is left are
the bytes that were pushed, and only a force push hands over a block below the limit. -/
theorem binaryRun_segments (hL : 1 ≤ L) {calls : List ((Nat → ReallocAnswer) × Bytes)}
    (hok : ∀ call ∈ calls, ∀ n, (call.1 n).isSome) :
    ∃ outs, binaryRun L K2hFtBinBuff.empty calls = some outs ∧
      List.Forall₂ (fun call out => BlockCall L call.2 out) calls outs ∧
      (outs.flatMap InputPush.blocks).flatten ++
          (lastBuff K2hFtBinBuff.empty outs).content =
        (calls.map Prod.snd).flatten := by
  have h := binaryRun_good (L := L) hok good_empty hL
  simpa using h

/-- Limit 3: seven bytes in two pushes and a force push. -/
theorem binaryRun_segments_seven :
    ∃ outs, binaryRun 3 K2hFtBinBuff.empty
        [(fun _ => some fun _ => 0, [1, 2, 3, 4]), (fun _ => some fun _ => 0, [5, 6, 7]),
          (fun _ => some fun _ => 0, [])] = some outs ∧
      List.Forall₂ (fun call out => BlockCall 3 call.2 out)
        [((fun _ => some fun _ => 0 : Nat → ReallocAnswer), ([1, 2, 3, 4] : Bytes)),
          (fun _ => some fun _ => 0, [5, 6, 7]), (fun _ => some fun _ => 0, [])] outs ∧
      (outs.flatMap InputPush.blocks).flatten ++
          (lastBuff K2hFtBinBuff.empty outs).content = [1, 2, 3, 4, 5, 6, 7] :=
  binaryRun_segments (by decide) (by simp)

end K2hFtFuse

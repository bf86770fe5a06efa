import Mathlib.Data.List.Forall2
import K2hFtFuse.WriteBuff.Rewriting

/-!
# Isolation — the records of a process and other processes

Two runs on one write buffer are compared: one with the calls of any processes in any order, one
with the calls of process `p` alone. The input buffer of `p` goes through alike states in both
(`Alike`: same sizes, same bytes in use), since a call of another process neither reads nor writes
it. Memory may hold different bytes in the two runs, but a request of `p` for memory fails in both
or in none.

What other processes have left in memory reaches the records of `p` in one way: `append_lastword`
looks for the end of a replacement behind the line when the replacement is longer than it
(`cvtPushData_settled_iff`). Where no line of `p` is replaced by a longer text, the records of `p` are
those of the run alone (`isolation`).
-/

namespace K2hFtFuse

open ByteSeq Segmenter K2hFtBinBuff

/-! ## Buffers that cannot be told apart -/

namespace K2hFtBinBuff

/-- Same sizes and same bytes in use. The bytes that are not in use may differ. -/
structure Alike (b b' : K2hFtBinBuff) : Prop where
  size_eq : b.CacheBuffSize = b'.CacheBuffSize
  pos_eq : b.CacheBuffPos = b'.CacheBuffPos
  isSome_eq : b.CacheBuff.isSome = b'.CacheBuff.isSome
  length_eq : (b.CacheBuff.getD []).length = (b'.CacheBuff.getD []).length
  content_eq : b.content = b'.content
  pos_le : b.CacheBuffPos ≤ (b.CacheBuff.getD []).length
  length_le : (b.CacheBuff.getD []).length ≤ b.CacheBuffSize

theorem alike_empty : Alike empty empty :=
  ⟨rfl, rfl, rfl, rfl, rfl, le_rfl, le_rfl⟩

/-- A grown block keeps the bytes in use. -/
theorem take_growBlock (fresh : Nat → UInt8) {block : Bytes} {pos size : Nat}
    (hpos : pos ≤ block.length) (hsize : block.length ≤ size) :
    (growBlock fresh block size).take pos = block.take pos := by
  rw [growBlock, List.take_of_length_le hsize, List.take_append_of_le_length hpos]

theorem reserve_alike {b b' : K2hFtBinBuff} (h : Alike b b') {ra ra' : ReallocAnswer}
    (hra : ra.isSome = ra'.isSome) (length : Nat) :
    (b.reserve ra length).1 = (b'.reserve ra' length).1 ∧
      Alike (b.reserve ra length).2 (b'.reserve ra' length).2 := by
  have hlen := h.length_eq
  have hle := h.length_le
  unfold reserve
  rw [← h.size_eq, ← h.pos_eq]
  split
  · generalize hnew : b.CacheBuffSize + max BUFFER_SINGLE_SIZE (length + 1) = newSize
    have hgrow : (b.CacheBuff.getD []).length ≤ newSize := by omega
    have hgrow' : (b'.CacheBuff.getD []).length ≤ newSize := by omega
    rcases ra with _ | fresh <;> rcases ra' with _ | fresh'
    · have hcont : b.content = { b' with CacheBuffPos := b.CacheBuffPos }.content := by
        simpa [content, h.pos_eq] using h.content_eq
      exact ⟨rfl, rfl, rfl, h.isSome_eq, hlen, hcont, h.pos_le, hgrow⟩
    · simp at hra
    · simp at hra
    · have hcont : (growBlock fresh (b.CacheBuff.getD []) newSize).take b.CacheBuffPos =
          (growBlock fresh' (b'.CacheBuff.getD []) newSize).take b.CacheBuffPos := by
        rw [take_growBlock fresh h.pos_le hgrow, take_growBlock fresh' (hlen ▸ h.pos_le) hgrow']
        simpa [content, h.pos_eq] using h.content_eq
      refine ⟨rfl, rfl, rfl, rfl, ?_, hcont, ?_, ?_⟩
      · simp only [Option.getD_some, length_growBlock _ hgrow, length_growBlock _ hgrow']
      · have := h.pos_le
        simp only [Option.getD_some, length_growBlock _ hgrow]
        omega
      · simp only [Option.getD_some, length_growBlock _ hgrow, le_refl]
  · exact ⟨rfl, h⟩

theorem store_alike {b b' : K2hFtBinBuff} (h : Alike b b') (data : Bytes) :
    Option.Rel Alike (b.store data) (b'.store data) := by
  have hcont := h.content_eq
  have hlen := h.length_eq
  have hpos := h.pos_le
  have hle := h.length_le
  unfold store
  split
  · exact .some h
  · rcases hb : b.CacheBuff with _ | block <;> rcases hb' : b'.CacheBuff with _ | block'
    · exact .none
    · have := h.isSome_eq
      simp [hb, hb'] at this
    · have := h.isSome_eq
      simp [hb, hb'] at this
    · simp only [hb, hb', Option.getD_some, content, ← h.pos_eq] at hlen hpos hle hcont
      simp only [← h.pos_eq, ← hlen]
      split
      · rename_i hfit
        have htake : (block.take b.CacheBuffPos).length = b.CacheBuffPos := by
          rw [List.length_take]
          omega
        have htake' : (block'.take b.CacheBuffPos).length = b.CacheBuffPos := by
          rw [List.length_take]
          omega
        -- the bytes in use end behind the stored data
        have hused : ∀ rest, (block.take b.CacheBuffPos ++ data ++ rest).take
            (b.CacheBuffPos + data.length) = block.take b.CacheBuffPos ++ data := by
          intro rest
          exact List.take_left' (by rw [List.length_append, htake])
        refine .some ⟨h.size_eq, rfl, rfl, ?_, ?_, ?_, ?_⟩
        · simp only [Option.getD_some, List.length_append, htake, htake', List.length_drop, hlen]
        · simp only [content, Option.getD_some, ← hcont, hused]
        · simp only [Option.getD_some, List.length_append, htake]
          omega
        · simp only [Option.getD_some, List.length_append, htake, List.length_drop]
          omega
      · exact .none

theorem checkLastChar_alike {b b' : K2hFtBinBuff} (h : Alike b b') :
    Option.Rel Alike b.checkLastChar b'.checkLastChar := by
  rcases hb : b.CacheBuff with _ | block <;> rcases hb' : b'.CacheBuff with _ | block'
  · simp [checkLastChar, hb, hb']
  · have := h.isSome_eq
    simp [hb, hb'] at this
  · have := h.isSome_eq
    simp [hb, hb'] at this
  · have hcont := h.content_eq
    simp only [content, hb, hb', Option.getD_some, ← h.pos_eq] at hcont
    simp only [checkLastChar, hb, hb', Option.bind_eq_bind, Option.bind_some, ← h.pos_eq]
    by_cases hzero : b.CacheBuffPos = 0
    · simp [hzero]
    · have hlast : block[b.CacheBuffPos - 1]? = block'[b.CacheBuffPos - 1]? := by
        have hidx := congrArg (fun l : Bytes => l[b.CacheBuffPos - 1]?) hcont
        simpa [List.getElem?_take, show b.CacheBuffPos - 1 < b.CacheBuffPos by omega] using hidx
      simp only [if_neg hzero, ← hlast]
      rcases block[b.CacheBuffPos - 1]? with _ | last
      · exact .none
      · by_cases hnul : last = 0
        · simpa [hnul] using Option.Rel.some h
        · simpa [hnul] using store_alike h [0]

theorem appendStringBuff_alike {b b' : K2hFtBinBuff} (h : Alike b b') {ra ra' : ReallocAnswer}
    (hra : ra.isSome = ra'.isSome) (data : Bytes) (check : Bool) :
    Option.Rel (fun r r' => r.1 = r'.1 ∧ Alike r.2 r'.2) (b.appendStringBuff ra data check)
      (b'.appendStringBuff ra' data check) := by
  rcases reserve_alike h hra data.length with ⟨hresult, hbuff⟩
  unfold appendStringBuff
  rcases hres : b.reserve ra data.length with ⟨ok, b₁⟩
  rcases hres' : b'.reserve ra' data.length with ⟨ok', b₁'⟩
  rw [hres, hres'] at hresult hbuff
  obtain rfl : ok = ok' := hresult
  cases ok with
  | false =>
      exact .some ⟨rfl, hbuff⟩
  | true =>
      have hstore := store_alike hbuff data
      simp only [Option.bind_eq_bind]
      generalize b₁.store data = s at hstore
      generalize b₁'.store data = s' at hstore
      cases hstore with
      | none =>
          exact .none
      | some hb₂ =>
          cases check with
          | false =>
              exact .some ⟨rfl, hb₂⟩
          | true =>
              have hcheck := checkLastChar_alike hb₂
              simp only [Option.bind_some, if_true]
              generalize checkLastChar _ = s at hcheck
              generalize checkLastChar _ = s' at hcheck
              cases hcheck with
              | none =>
                  exact .none
              | some hb₃ =>
                  exact .some ⟨rfl, hb₃⟩

theorem takeoutBuff_alike {b b' : K2hFtBinBuff} (h : Alike b b') :
    b.takeoutBuff.1 = b'.takeoutBuff.1 := by
  simpa using h.content_eq

end K2hFtBinBuff

/-! ## Pushes on alike buffers -/

/-- Two pushes with the same result and blocks, whose buffers are alike. -/
structure InputPush.Alike (r r' : InputPush) : Prop where
  result_eq : r.result = r'.result
  blocks_eq : r.blocks = r'.blocks
  buff : K2hFtBinBuff.Alike r.buff r'.buff

/-- The n-th request for memory fails in both or in none. -/
def SameAnswers (realloc realloc' : Nat → ReallocAnswer) : Prop :=
  ∀ n, (realloc n).isSome = (realloc' n).isSome

theorem SameAnswers.later {realloc realloc' : Nat → ReallocAnswer} (h : SameAnswers realloc realloc') :
    SameAnswers (laterAnswers realloc) (laterAnswers realloc') := fun n => h (n + 1)

theorem rel_map_cons {block block' : Bytes} (hblock : block = block') {o o' : Option InputPush}
    (h : Option.Rel InputPush.Alike o o') :
    Option.Rel InputPush.Alike (o.map fun r => { r with blocks := block :: r.blocks })
      (o'.map fun r => { r with blocks := block' :: r.blocks }) := by
  subst hblock
  cases h with
  | none =>
      exact .none
  | some h =>
      exact .some ⟨h.result_eq, by simp [h.blocks_eq], h.buff⟩

theorem stringPushLoop_alike {realloc realloc' : Nat → ReallocAnswer}
    (hra : SameAnswers realloc realloc') {b b' : K2hFtBinBuff} (h : K2hFtBinBuff.Alike b b')
    (skip : Bool) (seg data : Bytes) :
    Option.Rel InputPush.Alike (stringPushLoop realloc b skip seg data)
      (stringPushLoop realloc' b' skip seg data) := by
  induction data generalizing realloc realloc' b b' skip seg with
  | nil =>
      unfold stringPushLoop
      split
      · exact .some ⟨rfl, rfl, h⟩
      · have happ := appendStringBuff_alike h (hra 0) seg false
        generalize b.appendStringBuff (realloc 0) seg false = o at happ
        generalize b'.appendStringBuff (realloc' 0) seg false = o' at happ
        cases happ with
        | none =>
            exact .none
        | some hr =>
            exact .some ⟨hr.1, rfl, hr.2⟩
  | cons c rest ih =>
      unfold stringPushLoop
      split
      · exact ih hra h false seg
      · split
        · have happ := appendStringBuff_alike h (hra 0) (seg ++ [c]) true
          generalize b.appendStringBuff (realloc 0) (seg ++ [c]) true = o at happ
          generalize b'.appendStringBuff (realloc' 0) (seg ++ [c]) true = o' at happ
          cases happ with
          | none =>
              exact .none
          | @some r r' hr =>
              rcases r with ⟨ok, b₁⟩
              rcases r' with ⟨ok', b₁'⟩
              obtain ⟨rfl, hbuff⟩ : ok = ok' ∧ K2hFtBinBuff.Alike b₁ b₁' := hr
              cases ok with
              | false =>
                  exact .some ⟨rfl, rfl, hbuff⟩
              | true =>
                  exact rel_map_cons (takeoutBuff_alike hbuff)
                    (ih hra.later alike_empty (c == CR && rest.head? == some LF) [])
        · exact ih hra h false (seg ++ [c])

theorem isEmpty_alike {b b' : K2hFtBinBuff} (h : K2hFtBinBuff.Alike b b') :
    b.isEmpty = b'.isEmpty := by
  simp [isEmpty, h.pos_eq]

theorem stringPush_alike {realloc realloc' : Nat → ReallocAnswer}
    (hra : SameAnswers realloc realloc') {b b' : K2hFtBinBuff} (h : K2hFtBinBuff.Alike b b')
    (data : Bytes) :
    Option.Rel InputPush.Alike (stringPush realloc b data) (stringPush realloc' b' data) := by
  unfold stringPush
  split
  · rw [← isEmpty_alike h]
    split
    · exact .some ⟨rfl, rfl, h⟩
    · have happ := appendStringBuff_alike h (hra 0) [] true
      generalize b.appendStringBuff (realloc 0) [] true = o at happ
      generalize b'.appendStringBuff (realloc' 0) [] true = o' at happ
      cases happ with
      | none =>
          exact .none
      | @some r r' hr =>
          rcases r with ⟨ok, b₁⟩
          rcases r' with ⟨ok', b₁'⟩
          obtain ⟨rfl, hbuff⟩ : ok = ok' ∧ K2hFtBinBuff.Alike b₁ b₁' := hr
          cases ok with
          | false =>
              exact .some ⟨rfl, rfl, hbuff⟩
          | true =>
              exact .some ⟨rfl, congrArg (fun block => [block]) (takeoutBuff_alike hbuff), alike_empty⟩
  · exact stringPushLoop_alike hra h false [] data

theorem binaryPushLoop_alike (BinaryBuffLimit : Nat) {fuel : Nat}
    {realloc realloc' : Nat → ReallocAnswer} (hra : SameAnswers realloc realloc')
    {b b' : K2hFtBinBuff} (h : K2hFtBinBuff.Alike b b') (data : Bytes) :
    Option.Rel InputPush.Alike (binaryPushLoop BinaryBuffLimit fuel realloc b data)
      (binaryPushLoop BinaryBuffLimit fuel realloc' b' data) := by
  induction fuel generalizing realloc realloc' b b' data with
  | zero =>
      unfold binaryPushLoop
      split
      · exact .some ⟨rfl, rfl, h⟩
      · exact .none
  | succ fuel ih =>
      unfold binaryPushLoop
      split
      · exact .some ⟨rfl, rfl, h⟩
      · have hsize : b.size = b'.size := h.pos_eq
        simp only [← hsize]
        have happ := appendStringBuff_alike h (hra 0)
          (data.take (binarySetsize BinaryBuffLimit b.size data.length)) false
        generalize b.appendStringBuff _ _ false = o at happ
        generalize b'.appendStringBuff _ _ false = o' at happ
        cases happ with
        | none =>
            exact .none
        | @some r r' hr =>
            rcases r with ⟨ok, b₁⟩
            rcases r' with ⟨ok', b₁'⟩
            obtain ⟨rfl, hbuff⟩ : ok = ok' ∧ K2hFtBinBuff.Alike b₁ b₁' := hr
            cases ok with
            | false =>
                exact .some ⟨rfl, rfl, hbuff⟩
            | true =>
                have hsize₁ : b₁.size = b₁'.size := hbuff.pos_eq
                simp only [← hsize₁]
                split
                · exact rel_map_cons (takeoutBuff_alike hbuff) (ih hra.later alike_empty _)
                · exact ih hra.later hbuff _

theorem inputPush_alike (limits : BuffLimits) (is_binary_mode : Bool)
    {realloc realloc' : Nat → ReallocAnswer} (hra : SameAnswers realloc realloc')
    {b b' : K2hFtBinBuff} (h : K2hFtBinBuff.Alike b b') (data : Bytes) :
    Option.Rel InputPush.Alike (inputPush limits is_binary_mode realloc b data)
      (inputPush limits is_binary_mode realloc' b' data) := by
  unfold inputPush
  split
  · unfold binaryPush
    split
    · rw [← isEmpty_alike h]
      split
      · exact .some ⟨rfl, rfl, h⟩
      · exact .some ⟨rfl, congrArg (fun block => [block]) (takeoutBuff_alike h), alike_empty⟩
    · exact binaryPushLoop_alike limits.BinaryBuffLimit hra h data
  · exact stringPush_alike hra h data

/-! ## What is handed over

The blocks of a text push are the finished lines, also when a request for memory fails: then they
are the first ones. -/

namespace K2hFtBinBuff

theorem Alike.refl_left {b b' : K2hFtBinBuff} (h : Alike b b') : Alike b b :=
  ⟨rfl, rfl, rfl, rfl, rfl, h.pos_le, h.length_le⟩

variable {b b₁ : K2hFtBinBuff} {ra : ReallocAnswer} {data : Bytes}

theorem content_reserve (h : Alike b b) (ra : ReallocAnswer) (length : Nat) :
    (b.reserve ra length).2.content = b.content := by
  have hle := h.length_le
  unfold reserve
  split
  · generalize hnew : b.CacheBuffSize + max BUFFER_SINGLE_SIZE (length + 1) = newSize
    cases ra with
    | none =>
        rfl
    | some fresh =>
        have hgrow : (b.CacheBuff.getD []).length ≤ newSize := by omega
        exact take_growBlock fresh h.pos_le hgrow
  · rfl

theorem content_of_store (h : Alike b b) (hstore : b.store data = some b₁) :
    b₁.content = b.content ++ data := by
  have hpos := h.pos_le
  unfold store at hstore
  split at hstore
  · rename_i hnil
    rw [← Option.some.inj hstore, hnil, List.append_nil]
  · rcases hblock : b.CacheBuff with _ | block
    · rw [hblock] at hstore
      cases hstore
    · simp only [hblock] at hstore
      split at hstore
      · rw [hblock, Option.getD_some] at hpos
        have htake : (block.take b.CacheBuffPos).length = b.CacheBuffPos := by
          rw [List.length_take]
          omega
        rw [← Option.some.inj hstore]
        simp only [content, hblock, Option.getD_some]
        exact List.take_left' (by rw [List.length_append, htake])
      · cases hstore

theorem content_of_checkLastChar (h : Alike b b) (hcheck : b.checkLastChar = some b₁) :
    b₁.content = terminate b.content := by
  have hpos := h.pos_le
  simp only [checkLastChar, Option.bind_eq_bind] at hcheck
  rcases Option.bind_eq_some_iff.1 hcheck with ⟨block, hblock, hrest⟩
  rw [hblock, Option.getD_some] at hpos
  split at hrest
  · cases hrest
  · rename_i hne
    rcases Option.bind_eq_some_iff.1 hrest with ⟨last, hget, hlast⟩
    -- the character that is checked is the last one in use
    have hused : b.content.getLast? = some last := by
      have htake : (block.take b.CacheBuffPos).length = b.CacheBuffPos := by
        rw [List.length_take]
        omega
      rw [content, hblock, Option.getD_some, List.getLast?_eq_getElem?, htake,
        List.getElem?_take, if_pos (by omega), hget]
    split at hlast
    · rename_i hnul
      rw [← Option.some.inj hlast, terminate, if_pos (by rw [hused, hnul])]
    · rename_i hnul
      have hother : b.content.getLast? ≠ some 0 := by
        rw [hused]
        exact fun heq => hnul (Option.some.inj heq)
      rw [content_of_store h hlast, terminate, if_neg hother]

/-- What a buffer holds after an append that got its memory. -/
theorem content_of_appendStringBuff (h : Alike b b) {check : Bool}
    (happ : b.appendStringBuff ra data check = some (true, b₁)) :
    b₁.content = if check then terminate (b.content ++ data) else b.content ++ data := by
  have hreserved := content_reserve h ra data.length
  have hanswer : ra.isSome = ra.isSome := rfl
  have halike := (reserve_alike h hanswer data.length).2
  unfold appendStringBuff at happ
  rcases hres : b.reserve ra data.length with ⟨ok, b₂⟩
  rw [hres] at happ hreserved halike
  cases ok with
  | false =>
      cases happ
  | true =>
      simp only [Option.bind_eq_bind] at happ
      rcases Option.bind_eq_some_iff.1 happ with ⟨b₃, hstore, hrest⟩
      have hstored := content_of_store halike hstore
      rw [hreserved] at hstored
      cases check with
      | false =>
          cases hrest
          exact hstored
      | true =>
          have halike₃ := store_alike halike data
          rw [hstore] at halike₃
          cases halike₃ with
          | some halike₃ =>
              rcases Option.bind_eq_some_iff.1 hrest with ⟨b₄, hcheck, hlast⟩
              cases hlast
              simpa [hstored] using content_of_checkLastChar halike₃ hcheck

end K2hFtBinBuff

theorem stringPushLoop_blocks {realloc : Nat → ReallocAnswer} {b : K2hFtBinBuff}
    (h : K2hFtBinBuff.Alike b b) {skip : Bool} {seg data : Bytes} {r : InputPush}
    (hpush : stringPushLoop realloc b skip seg data = some r) :
    ∀ block ∈ r.blocks,
      block ∈ (cut isEol (b.content ++ seg) (keptBytes skip data)).1.map terminate := by
  induction data generalizing realloc b skip seg r with
  | nil =>
      -- the rest of the chunk is no block
      simp only [stringPushLoop] at hpush
      split at hpush
      · rw [← Option.some.inj hpush]
        simp
      · rcases Option.map_eq_some_iff.1 hpush with ⟨r', -, rfl⟩
        simp
  | cons c rest ih =>
      simp only [stringPushLoop] at hpush
      cases skip with
      | true =>
          simpa [keptBytes] using ih h hpush
      | false =>
          simp only [Bool.false_eq_true, if_false] at hpush
          cases hc : isEol c with
          | false =>
              simp only [hc, Bool.false_eq_true, if_false] at hpush
              rw [keptBytes_cons_other hc, cut_cons_notEnd isEol _ _ hc, List.append_assoc]
              exact ih h hpush
          | true =>
              simp only [hc, if_true] at hpush
              rw [keptBytes_cons_eol, cut_cons_end isEol _ _ hc]
              split at hpush
              · cases hpush
              · rw [← Option.some.inj hpush]
                simp
              · rename_i b₁ happ
                have hcont := content_of_appendStringBuff h happ
                rcases Option.map_eq_some_iff.1 hpush with ⟨r', hlater, rfl⟩
                have hrest := ih alike_empty hlater
                simp only [content_empty, List.append_nil] at hrest
                intro block hblock
                rcases List.mem_cons.1 hblock with rfl | hblock
                · simp [hcont]
                · exact List.mem_cons_of_mem _ (hrest block hblock)

theorem stringPush_blocks {realloc : Nat → ReallocAnswer} {b : K2hFtBinBuff}
    (h : K2hFtBinBuff.Alike b b) {data : Bytes} {r : InputPush}
    (hpush : stringPush realloc b data = some r) :
    ∀ block ∈ r.blocks, block ∈ (textPush b.content data).1 := by
  unfold stringPush at hpush
  split at hpush
  · rename_i hnil
    subst hnil
    split at hpush
    · rw [← Option.some.inj hpush]
      simp
    · rename_i hempty
      -- the unfinished line is not empty
      have hne : b.content ≠ [] := by
        intro hcont
        have hlen : b.content.length = b.CacheBuffPos := by
          rw [content, List.length_take]
          exact Nat.min_eq_left h.pos_le
        rw [hcont, List.length_nil] at hlen
        exact hempty (by simp [isEmpty, ← hlen])
      split at hpush
      · cases hpush
      · rw [← Option.some.inj hpush]
        simp
      · rename_i b₁ happ
        have hcont := content_of_appendStringBuff h happ
        rw [← Option.some.inj hpush]
        simpa [textPush, hne] using hcont
  · rename_i hnil
    intro block hblock
    simpa [textPush, hnil] using stringPushLoop_blocks h hpush block hblock

theorem ne_nil_of_mem_textPush {carry data line : Bytes} (h : line ∈ (textPush carry data).1) :
    line ≠ [] := by
  unfold textPush at h
  split at h
  · split at h
    · cases h
    · rw [List.mem_singleton.1 h]
      exact terminate_ne_nil carry
  · rcases List.mem_map.1 h with ⟨segment, -, rfl⟩
    exact terminate_ne_nil segment

/-! ## What the bytes behind a block can change -/

theorem trailingNuls_congr {byteAt byteAt' : Nat → UInt8} {len : Nat}
    (h : ∀ i < len, byteAt i = byteAt' i) : trailingNuls byteAt len = trailingNuls byteAt' len := by
  induction len with
  | zero =>
      rfl
  | succ len ih =>
      rw [trailingNuls, trailingNuls, h len (by omega), ih fun i hi => h i (by omega)]

theorem getD_inside (data : Bytes) (beyond beyond' : Nat → UInt8) {i : Nat} (hi : i < data.length) :
    data.getD i (beyond i) = data.getD i (beyond' i) := by
  simp [List.getD_eq_getElem?_getD, List.getElem?_eq_getElem hi]

/-- The line end that `append_lastword` adds is that of the line. -/
theorem appendLastword_nil (beyond beyond' : Nat → UInt8) (data : Bytes) :
    appendLastword beyond [] data = appendLastword beyond' [] data := by
  have hbyte : ∀ i < data.length, data.getD i (beyond i) = data.getD i (beyond' i) :=
    fun i hi => getD_inside data beyond beyond' hi
  unfold appendLastword
  simp only [trailingNuls_congr hbyte]
  generalize hpos : data.length - trailingNuls (fun i => data.getD i (beyond' i)) data.length =
    lastpos
  by_cases hzero : lastpos = 0
  · simp [hzero, trailingNuls]
  · rw [hbyte (lastpos - 1) (by omega), hbyte (lastpos - 2) (by omega)]
    rfl

theorem appendLastword_eq_take (beyond : Nat → UInt8) (tgdata data : Bytes) :
    appendLastword beyond tgdata data =
      tgdata.take (tgdata.length -
          trailingNuls (fun i => data.getD i (beyond i)) tgdata.length) ++
        appendLastword beyond [] data := by
  simp [appendLastword, List.append_assoc]

/-- What is left of a target is sure exactly when it is not longer than the line. -/
theorem appendLastword_settled_iff {tgdata data : Bytes} :
    (∀ beyond beyond', appendLastword beyond tgdata data = appendLastword beyond' tgdata data) ↔
      tgdata.length ≤ data.length := by
  constructor
  · intro h
    by_contra hlong
    rcases hlen : tgdata.length with _ | len
    · omega
    · -- before a NUL behind the line the target is cut, before another byte it is not
      have hbehind : data[len]? = none := List.getElem?_eq_none (by omega)
      have hnul : data.getD len 0 = 0 := by simp [List.getD_eq_getElem?_getD, hbehind]
      have hcut : 0 < trailingNuls (fun i => data.getD i 0) (len + 1) := by
        rw [trailingNuls, if_pos hnul]
        omega
      have hkeep : trailingNuls (fun i => data.getD i 1) (len + 1) = 0 :=
        trailingNuls_succ_of_ne (by simp [List.getD_eq_getElem?_getD, hbehind])
      have heq := h (fun _ => 0) fun _ => 1
      rw [appendLastword_eq_take, appendLastword_eq_take (fun _ => 1), hlen, hkeep,
        appendLastword_nil (fun _ => 0) (fun _ => 1), List.append_cancel_right_eq] at heq
      have hlength := congrArg List.length heq
      simp only [List.length_take, hlen] at hlength
      omega
  · intro hshort beyond beyond'
    have hbyte : ∀ i < tgdata.length, data.getD i (beyond i) = data.getD i (beyond' i) :=
      fun i hi => getD_inside data beyond beyond' (by omega)
    rw [appendLastword_eq_take, appendLastword_eq_take beyond', trailingNuls_congr hbyte,
      appendLastword_nil beyond beyond']

/-- The replacement that a deny-by-default rule makes of a block, with the groups that matched: the
one of the first pattern that matches, if this is a regular expression. -/
def rewriteOf (eng : RegexEngine) (data : Bytes) :
    List K2hFtMatchPtn → Option (List K2hFtRepPtn × (Nat → RegMatch))
  | [] => none
  | ptn :: rest =>
      if ptn.IsRegex then
        match eng.regexec ptn.BaseString (lineOf data) with
        | some pmatches => some (ptn.ReplaceList, pmatches)
        | none => rewriteOf eng data rest
      else if ptn.hits eng (lineOf data) then none
      else rewriteOf eng data rest

/-- A replacement of the block has a text that is not longer than the block. -/
def FitsBlock (eng : RegexEngine) (pRule : K2hFtRule) (block : Bytes) : Prop :=
  pRule.DefaultDenyAll = true → ∀ replist pmatches tgdata,
    rewriteOf eng block pRule.MatchingList = some (replist, pmatches) →
      replist.foldl (appendPart block pmatches) (some []) = some tgdata →
        tgdata.length ≤ block.length

theorem convertDenyAll_of_rewriteOf {eng : RegexEngine} (beyond : Nat → UInt8) {data : Bytes}
    {ptns : List K2hFtMatchPtn} {replist : List K2hFtRepPtn} {pmatches : Nat → RegMatch}
    (h : rewriteOf eng data ptns = some (replist, pmatches)) :
    convertDenyAll eng beyond data ptns = buildReplaceResultData beyond replist data pmatches := by
  induction ptns with
  | nil =>
      cases h
  | cons ptn rest ih =>
      rw [rewriteOf] at h
      rw [convertDenyAll]
      split at h
      · rename_i hregex
        rw [if_pos hregex]
        cases hmatch : eng.regexec ptn.BaseString (lineOf data) with
        | some found =>
            rw [hmatch] at h
            cases h
            rfl
        | none =>
            rw [hmatch] at h
            exact ih h
      · rename_i hregex
        rw [if_neg hregex]
        split at h
        · cases h
        · rename_i hmiss
          rw [if_neg hmiss]
          exact ih h

/-- Without a replacement nothing is looked at but the block. -/
theorem convertDenyAll_of_not_rewriteOf {eng : RegexEngine} (beyond beyond' : Nat → UInt8)
    {data : Bytes} {ptns : List K2hFtMatchPtn} (h : rewriteOf eng data ptns = none) :
    convertDenyAll eng beyond data ptns = convertDenyAll eng beyond' data ptns := by
  induction ptns with
  | nil =>
      rfl
  | cons ptn rest ih =>
      rw [rewriteOf] at h
      rw [convertDenyAll, convertDenyAll]
      split at h
      · rename_i hregex
        rw [if_pos hregex, if_pos hregex]
        cases hmatch : eng.regexec ptn.BaseString (lineOf data) with
        | some found =>
            rw [hmatch] at h
            cases h
        | none =>
            rw [hmatch] at h
            exact ih h
      · rename_i hregex
        rw [if_neg hregex, if_neg hregex]
        split at h
        · rename_i hhit
          rw [if_pos hhit, if_pos hhit]
        · rename_i hmiss
          rw [if_neg hmiss, if_neg hmiss]
          exact ih h

theorem buildReplaceResultData_settled_iff {replist : List K2hFtRepPtn} {data : Bytes}
    {pmatches : Nat → RegMatch} :
    (∀ beyond beyond', buildReplaceResultData beyond replist data pmatches =
        buildReplaceResultData beyond' replist data pmatches) ↔
      ∀ tgdata, replist.foldl (appendPart data pmatches) (some []) = some tgdata →
        tgdata.length ≤ data.length := by
  simp only [buildReplaceResultData_eq]
  cases replist.foldl (appendPart data pmatches) (some []) with
  | none =>
      simp
  | some tgdata =>
      simp only [Option.map_some, Option.some.injEq, appendLastword_settled_iff, forall_eq']

/-- What the filter makes of a block is sure exactly when a replacement of it fits. -/
theorem cvtPushData_settled_iff {eng : RegexEngine} {pRule : K2hFtRule} {block : Bytes}
    (hne : block ≠ []) :
    (∀ beyond beyond',
        cvtPushData eng beyond pRule block = cvtPushData eng beyond' pRule block) ↔
      FitsBlock eng pRule block := by
  unfold cvtPushData convertToOutput FitsBlock
  simp only [if_neg hne]
  cases pRule.DefaultDenyAll with
  | false =>
      simp
  | true =>
      simp only [if_true, true_implies]
      rcases hrewrite : rewriteOf eng block pRule.MatchingList with _ | ⟨replist, pmatches⟩
      · refine iff_of_true (fun beyond beyond' => ?_) (by simp)
        exact convertDenyAll_of_not_rewriteOf beyond beyond' hrewrite
      · simp only [convertDenyAll_of_rewriteOf _ hrewrite, buildReplaceResultData_settled_iff,
          Option.some.injEq, Prod.mk.injEq]
        constructor
        · rintro h _ _ tgdata ⟨rfl, rfl⟩ hjoined
          exact h tgdata hjoined
        · intro h tgdata hjoined
          exact h replist pmatches tgdata ⟨rfl, rfl⟩ hjoined

/-! ## The lines of blocks -/

/-- Where the rule's answer is sure, it does not depend on the clock, the host name and the memory of
the call whether a block becomes a line, and with which data. -/
theorem stackLine_body_irrel {sink : LineSink} (env env' : StackEnv) {block : Bytes} (pid : Pid)
    (hsettled : block ≠ [] → ∀ beyond beyond',
      sink.cvtPushData beyond block = sink.cvtPushData beyond' block) :
    (stackLine sink env block pid).map K2hFtLine.body =
      (stackLine sink env' block pid).map K2hFtLine.body := by
  unfold stackLine
  split
  · rfl
  · rename_i hne
    rw [hsettled hne env.beyond env'.beyond]
    split
    · rfl
    · split
      · rfl
      · unfold buildK2hFtLine
        split
        · split <;> rfl
        · rfl

theorem pid_of_stackLine {sink : LineSink} {env : StackEnv} {block : Bytes} {pid : Pid}
    {l : K2hFtLine} (h : stackLine sink env block pid = some l) : l.head.pid = pid := by
  unfold stackLine at h
  split at h
  · simp at h
  · split at h
    · simp at h
    · split at h
      · simp at h
      · unfold buildK2hFtLine at h
        split at h
        · split at h
          · rw [← Option.some.inj h]
          · simp at h
        · simp at h

theorem body_stackLines_irrel {sink : LineSink} (env env' : Nat → StackEnv)
    {blocks : List (Pid × Bytes)}
    (hsettled : ∀ b ∈ blocks, b.2 ≠ [] → ∀ beyond beyond',
      sink.cvtPushData beyond b.2 = sink.cvtPushData beyond' b.2) :
    (stackLines sink env blocks).map K2hFtLine.body =
      (stackLines sink env' blocks).map K2hFtLine.body := by
  induction blocks generalizing env env' with
  | nil =>
      rfl
  | cons b blocks ih =>
      rcases b with ⟨pid, block⟩
      have hhead := congrArg Option.toList
        (stackLine_body_irrel (env 0) (env' 0) pid (hsettled (pid, block) (by simp)))
      simp only [Option.toList_map] at hhead
      rw [stackLines, stackLines, List.map_append, List.map_append, hhead,
        ih (fun n => env (n + 1)) (fun n => env' (n + 1)) fun b hb => hsettled b (by simp [hb])]

theorem pid_of_mem_stackLines {sink : LineSink} {env : Nat → StackEnv} {pid : Pid}
    {blocks : List (Pid × Bytes)} (hblocks : ∀ b ∈ blocks, b.1 = pid) {l : K2hFtLine}
    (h : l ∈ stackLines sink env blocks) : l.head.pid = pid := by
  induction blocks generalizing env with
  | nil =>
      simp [stackLines] at h
  | cons b blocks ih =>
      rcases b with ⟨pid', block⟩
      rw [stackLines, List.mem_append] at h
      rcases h with h | h
      · rw [pid_of_stackLine (Option.mem_toList.1 h)]
        exact hblocks (pid', block) (by simp)
      · exact ih (fun b hb => hblocks b (by simp [hb])) h

/-! ## Two runs -/

/-- One call of `Push` on a write buffer; no data is a forced push. -/
structure PushCall where
  env : PushEnv
  data : Bytes
  pid : Pid

/-- The same call, which meets the same failures of memory. -/
structure PushCall.Same (c c' : PushCall) : Prop where
  data_eq : c.data = c'.data
  pid_eq : c.pid = c'.pid
  answers : SameAnswers (c.env.realloc c.pid) (c'.env.realloc c.pid)

/-- No line that the call finishes is replaced by a longer text; in binary mode the rule has no
patterns, as `CheckBinaryMode` leaves it. -/
def PushCall.Fits (eng : RegexEngine) (pRule : K2hFtRule) (is_binary_mode : Bool)
    (w : K2hFtWriteBuff) (c : PushCall) : Prop :=
  if is_binary_mode then pRule.MatchingList = []
  else
    ∀ line ∈ (textPush (getBinBuff w.InputBuffMap c.pid).content c.data).1,
      FitsBlock eng pRule line

section Runs

variable {limits : BuffLimits} {eng : RegexEngine} {pRule : K2hFtRule} {is_binary_mode : Bool}
  {p : Pid}

def pushStep (limits : BuffLimits) (eng : RegexEngine) (pRule : K2hFtRule) (is_binary_mode : Bool)
    (w : K2hFtWriteBuff) (c : PushCall) : Option K2hFtWriteBuff :=
  (w.push (ruleSink limits eng pRule) is_binary_mode c.env c.data c.pid).map Prod.snd

/-- The records of a process, as data. -/
def recordsOf (w : K2hFtWriteBuff) (p : Pid) : List Bytes :=
  (w.Stack.filter fun l => l.head.pid = p).map K2hFtLine.body

/-- What a run and the run of `p` alone have in common: the buffer of `p` and the records of `p`. -/
structure AlikeFor (p : Pid) (w w' : K2hFtWriteBuff) : Prop where
  buff : K2hFtBinBuff.Alike (getBinBuff w.InputBuffMap p) (getBinBuff w'.InputBuffMap p)
  records : recordsOf w p = w'.Stack.map K2hFtLine.body

theorem filter_stackLines_self {sink : LineSink} {env : Nat → StackEnv} {blocks : List Bytes} :
    (stackLines sink env (blocks.map fun block => (p, block))).filter (fun l => l.head.pid = p) =
      stackLines sink env (blocks.map fun block => (p, block)) := by
  rw [List.filter_eq_self]
  intro l hl
  have hpid : l.head.pid = p := by
    refine pid_of_mem_stackLines ?_ hl
    intro b hb
    rcases List.mem_map.1 hb with ⟨block, -, rfl⟩
    rfl
  simpa using hpid

theorem filter_stackLines_other {sink : LineSink} {env : Nat → StackEnv} {q : Pid} (hne : q ≠ p)
    {blocks : List Bytes} :
    (stackLines sink env (blocks.map fun block => (q, block))).filter (fun l => l.head.pid = p) =
      [] := by
  rw [List.filter_eq_nil_iff]
  intro l hl
  have hpid : l.head.pid = q := by
    refine pid_of_mem_stackLines ?_ hl
    intro b hb
    rcases List.mem_map.1 hb with ⟨block, -, rfl⟩
    rfl
  simpa [hpid] using hne

/-- A call of another process leaves what `p` has. -/
theorem pushStep_other {w w₁ w' : K2hFtWriteBuff} {c : PushCall}
    (hvalid : c.pid ≠ K2HFT_INVALID_PID) (hne : c.pid ≠ p) (h : AlikeFor p w w')
    (hstep : pushStep limits eng pRule is_binary_mode w c = some w₁) : AlikeFor p w₁ w' := by
  rcases Option.map_eq_some_iff.1 hstep with ⟨r, hpush, rfl⟩
  simp only [K2hFtWriteBuff.push, pushBlocks, if_neg hvalid, Option.bind_eq_bind,
    Option.bind_eq_some_iff, pure, Option.some.injEq] at hpush
  rcases hpush with ⟨-, ⟨i, hinput, rfl⟩, rfl⟩
  constructor
  · simpa [getBinBuff, OrdMap.find?_insert, hne.symm] using h.buff
  · simp only [recordsOf, List.filter_append, filter_stackLines_other hne, List.append_nil]
    exact h.records

/-- The rule's answer is sure for all that the call hands over. -/
theorem PushCall.Fits.settled {w : K2hFtWriteBuff} {c : PushCall} {r : InputPush}
    (hfits : c.Fits eng pRule is_binary_mode w)
    (h : K2hFtBinBuff.Alike (getBinBuff w.InputBuffMap c.pid) (getBinBuff w.InputBuffMap c.pid))
    (hpush : inputPush limits is_binary_mode (c.env.realloc c.pid) (getBinBuff w.InputBuffMap c.pid)
      c.data = some r) :
    ∀ block ∈ r.blocks, block ≠ [] → ∀ beyond beyond',
      cvtPushData eng beyond pRule block = cvtPushData eng beyond' pRule block := by
  intro block hblock hne
  rw [cvtPushData_settled_iff hne]
  cases is_binary_mode with
  | true =>
      have hnone : pRule.MatchingList = [] := by simpa [PushCall.Fits] using hfits
      intro _ replist pmatches tgdata hrewrite
      rw [hnone] at hrewrite
      cases hrewrite
  | false =>
      have hlines : ∀ line ∈ (textPush (getBinBuff w.InputBuffMap c.pid).content c.data).1,
          FitsBlock eng pRule line := by simpa [PushCall.Fits] using hfits
      exact hlines block (stringPush_blocks h hpush block hblock)

/-- A call of `p` in both runs. -/
theorem pushStep_self {w w₁ w' : K2hFtWriteBuff} {c c' : PushCall}
    (hvalid : c.pid ≠ K2HFT_INVALID_PID) (hpid : c.pid = p) (hsame : PushCall.Same c c')
    (hfits : c.Fits eng pRule is_binary_mode w) (h : AlikeFor p w w')
    (hstep : pushStep limits eng pRule is_binary_mode w c = some w₁) :
    ∃ w₁', pushStep limits eng pRule is_binary_mode w' c' = some w₁' ∧ AlikeFor p w₁ w₁' := by
  rcases c with ⟨env, data, pid⟩
  rcases c' with ⟨env', data', pid'⟩
  obtain rfl : data = data' := hsame.data_eq
  obtain rfl : pid = pid' := hsame.pid_eq
  obtain rfl : pid = p := hpid
  simp only at hvalid
  rcases Option.map_eq_some_iff.1 hstep with ⟨r, hpush, rfl⟩
  simp only [K2hFtWriteBuff.push, pushBlocks, if_neg hvalid, Option.bind_eq_bind,
    Option.bind_eq_some_iff, pure, Option.some.injEq] at hpush
  rcases hpush with ⟨-, ⟨i, hinput, rfl⟩, rfl⟩
  have hsettled := hfits.settled h.buff.refl_left hinput
  have halike := inputPush_alike limits is_binary_mode hsame.answers h.buff data
  simp only [ruleSink] at halike hinput
  rw [hinput] at halike
  rcases hinput' : inputPush limits is_binary_mode (env'.realloc pid)
    (getBinBuff w'.InputBuffMap pid) data with _ | i'
  · rw [hinput'] at halike
    cases halike
  · rw [hinput'] at halike
    cases halike with
    | some hi =>
        let w₁' : K2hFtWriteBuff :=
          { InputBuffMap := w'.InputBuffMap.insert pid i'.buff
            Stack := w'.Stack ++ stackLines (ruleSink limits eng pRule) env'.line
              (i'.blocks.map fun block => (pid, block)) }
        refine ⟨w₁', ?_, ?_, ?_⟩
        · simp [pushStep, K2hFtWriteBuff.push, pushBlocks, hvalid, ruleSink, hinput', w₁']
        · simpa [getBinBuff, w₁'] using hi.buff
        · have hrecords := h.records
          have hlines : ∀ b ∈ i'.blocks.map fun block => (pid, block), b.2 ≠ [] →
              ∀ beyond beyond', (ruleSink limits eng pRule).cvtPushData beyond b.2 =
                (ruleSink limits eng pRule).cvtPushData beyond' b.2 := by
            intro b hb
            rcases List.mem_map.1 hb with ⟨block, hblock, rfl⟩
            exact hsettled block (hi.blocks_eq ▸ hblock)
          simp only [recordsOf] at hrecords
          simp only [recordsOf, List.filter_append, filter_stackLines_self, List.map_append,
            hrecords, hi.blocks_eq, w₁']
          rw [body_stackLines_irrel env.line env'.line hlines]

/-- The calls of `p` in a run. -/
def callsOf (p : Pid) (calls : List PushCall) : List PushCall :=
  calls.filter fun c => c.pid = p

theorem isolation_from {calls alone : List PushCall}
    (hvalid : ∀ c ∈ calls, c.pid ≠ K2HFT_INVALID_PID)
    (hsame : List.Forall₂ PushCall.Same (callsOf p calls) alone) {w w' w₁ : K2hFtWriteBuff}
    (hfits : Transition.Guarded (pushStep limits eng pRule is_binary_mode)
      (fun w c => c.pid = p → c.Fits eng pRule is_binary_mode w) w calls)
    (h : AlikeFor p w w')
    (hrun : Transition.run (pushStep limits eng pRule is_binary_mode) w calls = some w₁) :
    ∃ w₁', Transition.run (pushStep limits eng pRule is_binary_mode) w' alone = some w₁' ∧
      AlikeFor p w₁ w₁' := by
  induction calls generalizing alone w w' with
  | nil =>
      obtain rfl : alone = [] := by simpa [callsOf] using hsame
      exact ⟨w', rfl, by simpa [← Option.some.inj hrun] using h⟩
  | cons c calls ih =>
      have hvalid' : ∀ d ∈ calls, d.pid ≠ K2HFT_INVALID_PID := fun d hd => hvalid d (by simp [hd])
      rw [Transition.run_cons] at hrun
      rcases Option.bind_eq_some_iff.1 hrun with ⟨w₂, hstep, hrest⟩
      have hlater := hfits.2 w₂ hstep
      by_cases hpid : c.pid = p
      · have hcalls : callsOf p (c :: calls) = c :: callsOf p calls := by
          simp [callsOf, hpid]
        rw [hcalls] at hsame
        cases hsame with
        | cons hc htail =>
            rcases pushStep_self (hvalid c (by simp)) hpid hc (hfits.1 hpid) h hstep with
              ⟨w₂', hstep', h₂⟩
            rcases ih hvalid' htail hlater h₂ hrest with ⟨w₁', hrun', h₁⟩
            exact ⟨w₁', by simp [Transition.run_cons, hstep', hrun'], h₁⟩
      · have hcalls : callsOf p (c :: calls) = callsOf p calls := by
          simp [callsOf, hpid]
        rw [hcalls] at hsame
        exact ih hvalid' hsame hlater (pushStep_other (hvalid c (by simp)) hpid h hstep) hrest

end Runs

/-- A run with the calls of valid processes in any order, and the run of the calls of `p` alone, with
any contents of memory in both. If no line of `p` is replaced by a longer text, and in binary mode the
rule has no patterns, the second one succeeds too, and the records of `p` are the same. -/
theorem isolation (limits : BuffLimits) (eng : RegexEngine) (pRule : K2hFtRule)
    (is_binary_mode : Bool) (p : Pid) (calls alone : List PushCall)
    (hvalid : ∀ c ∈ calls, c.pid ≠ K2HFT_INVALID_PID)
    (hsame : List.Forall₂ PushCall.Same (callsOf p calls) alone)
    (hfits : Transition.Guarded (pushStep limits eng pRule is_binary_mode)
      (fun w c => c.pid = p → c.Fits eng pRule is_binary_mode w) K2hFtWriteBuff.fresh calls)
    (w : K2hFtWriteBuff)
    (hrun : Transition.run (pushStep limits eng pRule is_binary_mode) K2hFtWriteBuff.fresh calls =
      some w) :
    ∃ w', Transition.run (pushStep limits eng pRule is_binary_mode) K2hFtWriteBuff.fresh alone =
        some w' ∧ recordsOf w p = w'.Stack.map K2hFtLine.body := by
  have hfresh : AlikeFor p K2hFtWriteBuff.fresh K2hFtWriteBuff.fresh := by
    refine ⟨?_, rfl⟩
    simpa [K2hFtWriteBuff.fresh, getBinBuff] using alike_empty
  rcases isolation_from hvalid hsame hfits hfresh hrun with ⟨w', hrun', h⟩
  exact ⟨w', hrun', h.records⟩

/-! ### A text that fits, and one that does not -/

/-- Lines that begin with `a` pass as `text`. -/
def replacingRule (text : Bytes) : K2hFtRule :=
  { K2hFtRule.fresh with
    MatchingList :=
      [{ IsRegex := true
         BaseString := ascii "a"
         ReplaceList := [⟨-1, text⟩] }] }

theorem fitsBlock_replacingRule {text block : Bytes} (h : text.length ≤ block.length) :
    FitsBlock RegexEngine.leadingA (replacingRule text) block := by
  intro _ replist pmatches tgdata hrewrite hjoined
  have hlist : replist = [⟨-1, text⟩] := by
    simp only [replacingRule, rewriteOf, if_true] at hrewrite
    split at hrewrite
    · exact (Prod.mk.inj (Option.some.inj hrewrite)).1.symm
    · cases hrewrite
  subst hlist
  have hlimit : ¬ K2HTFT_MAX_REG_MATCH ≤ -1 := by decide
  have hwhole : ((text.length : Nat) : Int) ≠ -1 := by omega
  simp only [List.foldl_cons, List.foldl_nil, appendPart, Option.bind_eq_bind, Option.bind_some,
    if_neg hlimit, appendSubstring, if_neg hwhole] at hjoined
  simp at hjoined
  rw [← hjoined]
  exact h

/-- Process 1 writes a line in two parts, process 2 a line between them. -/
def interleavedCalls : List PushCall :=
  [{ env := PushEnv.zeroed, data := ascii "a", pid := 1 },
   { env := PushEnv.zeroed, data := ascii "axx\n", pid := 2 },
   { env := PushEnv.zeroed, data := ascii "b\n", pid := 1 }]

/-- The calls of process 1, which find other bytes in memory. -/
def aloneCalls : List PushCall :=
  [{ env := PushEnv.behind fun _ => 7, data := ascii "a", pid := 1 },
   { env := PushEnv.behind fun _ => 7, data := ascii "b\n", pid := 1 }]

theorem isolation_interleaved :
    ∃ w w', Transition.run
          (pushStep BuffLimits.default RegexEngine.leadingA (replacingRule (ascii "E")) false)
          K2hFtWriteBuff.fresh interleavedCalls = some w ∧
        Transition.run
          (pushStep BuffLimits.default RegexEngine.leadingA (replacingRule (ascii "E")) false)
          K2hFtWriteBuff.fresh aloneCalls = some w' ∧
        w.Stack.length = 2 ∧ recordsOf w 1 = w'.Stack.map K2hFtLine.body := by
  have hlen : (Transition.run
      (pushStep BuffLimits.default RegexEngine.leadingA (replacingRule (ascii "E")) false)
      K2hFtWriteBuff.fresh interleavedCalls).map (fun w => w.Stack.length) = some 2 := by
    decide +kernel
  rcases Option.map_eq_some_iff.1 hlen with ⟨w, hrun, hcount⟩
  have hsame : List.Forall₂ PushCall.Same (callsOf 1 interleavedCalls) aloneCalls :=
    .cons ⟨rfl, rfl, fun _ => rfl⟩ (.cons ⟨rfl, rfl, fun _ => rfl⟩ .nil)
  -- no line is empty, so one byte fits into each
  have hfits : ∀ (w : K2hFtWriteBuff) (c : PushCall),
      c.Fits RegexEngine.leadingA (replacingRule (ascii "E")) false w := by
    intro w c line hline
    exact fitsBlock_replacingRule (List.length_pos_iff.2 (ne_nil_of_mem_textPush hline))
  rcases isolation BuffLimits.default RegexEngine.leadingA (replacingRule (ascii "E")) false 1
    interleavedCalls aloneCalls (by decide) hsame
    ⟨fun _ => hfits _ _, fun _ _ => ⟨fun _ => hfits _ _, fun _ _ => ⟨fun _ => hfits _ _,
      fun _ _ => trivial⟩⟩⟩ w hrun with ⟨w', hrun', hrecords⟩
  exact ⟨w, w', hrun, hrun', hcount, hrecords⟩

/-- The line of process 2. -/
def longLine : Bytes := ascii "bbbbbbbbbbbbbbbbbbbb\n"

/-- Process 1 writes `a` and LF, where memory holds what a line of process 2 has left. -/
def leftoverCalls : List PushCall :=
  [{ env := PushEnv.zeroed, data := longLine, pid := 2 },
   { env := PushEnv.behind fun i => longLine.getD i 0, data := ascii "a\n", pid := 1 }]

/-- The same line of process 1, where memory is zeroed. -/
def cleanCalls : List PushCall :=
  [{ env := PushEnv.zeroed, data := ascii "a\n", pid := 1 }]

/-- The text for the line is longer than the line: behind the bytes of process 2 it is whole, without them
it is cut. -/
theorem leftover_changes_record :
    (∀ c ∈ leftoverCalls, c.pid ≠ K2HFT_INVALID_PID) ∧
      List.Forall₂ PushCall.Same (callsOf 1 leftoverCalls) cleanCalls ∧
      ∃ w w',
        Transition.run
            (pushStep BuffLimits.default RegexEngine.leadingA
              (replacingRule (ascii "a-long-suffix")) false)
            K2hFtWriteBuff.fresh leftoverCalls = some w ∧
          Transition.run
            (pushStep BuffLimits.default RegexEngine.leadingA
              (replacingRule (ascii "a-long-suffix")) false)
            K2hFtWriteBuff.fresh cleanCalls = some w' ∧
          recordsOf w 1 = [ascii "a-long-suffix\n" ++ [0]] ∧
          w'.Stack.map K2hFtLine.body = [ascii "a-\n" ++ [0]] ∧
          recordsOf w 1 ≠ w'.Stack.map K2hFtLine.body := by
  refine ⟨by decide, .cons ⟨rfl, rfl, fun _ => rfl⟩ .nil, ?_⟩
  have hrun : (Transition.run
      (pushStep BuffLimits.default RegexEngine.leadingA
        (replacingRule (ascii "a-long-suffix")) false)
      K2hFtWriteBuff.fresh leftoverCalls).map (fun w => recordsOf w 1) =
        some [ascii "a-long-suffix\n" ++ [0]] := by
    decide +kernel
  have hrun' : (Transition.run
      (pushStep BuffLimits.default RegexEngine.leadingA
        (replacingRule (ascii "a-long-suffix")) false)
      K2hFtWriteBuff.fresh cleanCalls).map (fun w => w.Stack.map K2hFtLine.body) =
        some [ascii "a-\n" ++ [0]] := by
    decide +kernel
  rcases Option.map_eq_some_iff.1 hrun with ⟨w, hw, hrecords⟩
  rcases Option.map_eq_some_iff.1 hrun' with ⟨w', hw', hbodies⟩
  refine ⟨w, w', hw, hw', hrecords, hbodies, ?_⟩
  rw [hrecords, hbodies]
  decide

end K2hFtFuse

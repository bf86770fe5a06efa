import K2hFtFuse.WriteBuff

/-!
# Chunking — how the records depend on the cutting into writes

A process writes a stream in chunks and closes. The records that reach `StackPush` are the lines of
the kept bytes of all chunks (`handedRecords_eq`). Two cuttings of one stream give the same records
exactly when they separate the same carriage returns from their line feeds
(`handedRecords_eq_iff`).
-/

namespace K2hFtFuse

open ByteSeq Segmenter K2hFtBinBuff

/-! ## A run of writes -/

/-- Writes of one process on the input buffers of a handle, in text mode: the buffers after them and
what was handed to `StackPush`. -/
def writeRun (limits : BuffLimits) (pid : Pid) :
    OrdMap Pid K2hFtBinBuff → List (PushEnv × Bytes) →
      Option (OrdMap Pid K2hFtBinBuff × List (Pid × Bytes))
  | bufs, [] => some (bufs, [])
  | bufs, (env, data) :: rest => do
      let r ← pushBlocks limits false env bufs data pid
      let t ← writeRun limits pid r.2.1 rest
      return (t.1, r.2.2 ++ t.2)

/-- The records of the writes and of the forced push that follows them, on a fresh buffer. -/
def handedRecords (limits : BuffLimits) (pid : Pid) (writes : List (PushEnv × Bytes))
    (last : PushEnv) : Option (List (Pid × Bytes)) :=
  (writeRun limits pid ∅ (writes ++ [(last, [])])).map Prod.snd

/-- `textPush` of one chunk after the other. -/
def textRun : Bytes → List Bytes → List Bytes × Bytes
  | carry, [] => ([], carry)
  | carry, data :: rest =>
      ((textPush carry data).1 ++ (textRun (textPush carry data).2 rest).1,
        (textRun (textPush carry data).2 rest).2)

/-- The writes of a process compute `textRun` of what its buffer holds. -/
theorem writeRun_good (limits : BuffLimits) {pid : Pid} (hpid : pid ≠ K2HFT_INVALID_PID)
    {writes : List (PushEnv × Bytes)} (hok : ∀ w ∈ writes, w.1.AllocOk)
    {bufs : OrdMap Pid K2hFtBinBuff} (hbufs : SoundBuffs bufs) :
    ∃ bufs', writeRun limits pid bufs writes =
        some (bufs', (textRun (getBinBuff bufs pid).content (writes.map Prod.snd)).1.map
          fun block => (pid, block)) ∧ SoundBuffs bufs' := by
  induction writes generalizing bufs with
  | nil =>
      exact ⟨bufs, rfl, hbufs⟩
  | cons w writes ih =>
      rcases w with ⟨env, data⟩
      have henv : env.AllocOk := hok (env, data) (by simp)
      rcases stringPush_good (henv pid) (hbufs.getBinBuff pid) data with ⟨b', hpush, hgood, hcont⟩
      rcases ih (fun w hw => hok w (by simp [hw])) (hbufs.insert pid hgood) with
        ⟨bufs', hrun, hsound⟩
      have hget : getBinBuff (bufs.insert pid b') pid = b' := by simp [getBinBuff]
      rw [hget, hcont] at hrun
      refine ⟨bufs', ?_, hsound⟩
      simp [writeRun, pushBlocks, hpid, inputPush, hpush, hrun, textRun]

/-- The lines of a byte stream, each with its NUL. -/
def linesOf (carry stream : Bytes) : List Bytes :=
  (cut isEol carry stream).1.map terminate ++
    if (cut isEol carry stream).2 = [] then [] else [terminate (cut isEol carry stream).2]

/-- Non-empty chunks and the forced push give the lines of the kept bytes. -/
theorem textRun_force {chunks : List Bytes} (hne : ∀ c ∈ chunks, c ≠ []) (carry : Bytes) :
    (textRun carry (chunks ++ [[]])).1 = linesOf carry (chunks.flatMap (keptBytes false)) := by
  induction chunks generalizing carry with
  | nil =>
      simp [textRun, textPush, linesOf]
  | cons c chunks ih =>
      have hc : c ≠ [] := hne c (by simp)
      have hrest := ih fun d hd => hne d (by simp [hd])
      -- a chunk is cut with what the chunks before it have left
      simp [textRun, textPush, hc, hrest, linesOf, cut_append]

/-- The records are the lines of the kept bytes. -/
theorem handedRecords_eq {limits : BuffLimits} {pid : Pid} (hpid : pid ≠ K2HFT_INVALID_PID)
    {writes : List (PushEnv × Bytes)} (hok : ∀ w ∈ writes, w.1.AllocOk)
    (hne : ∀ w ∈ writes, w.2 ≠ []) {last : PushEnv} (hlast : last.AllocOk) :
    handedRecords limits pid writes last =
      some ((linesOf [] ((writes.map Prod.snd).flatMap (keptBytes false))).map
        fun block => (pid, block)) := by
  have hok' : ∀ w ∈ writes ++ [(last, [])], w.1.AllocOk := by
    intro w hw
    rcases List.mem_append.1 hw with hw | hw
    · exact hok w hw
    · simpa [List.mem_singleton.1 hw] using hlast
  have hchunks : ∀ c ∈ writes.map Prod.snd, c ≠ [] := by
    intro c hc
    rcases List.mem_map.1 hc with ⟨w, hw, rfl⟩
    exact hne w hw
  rcases writeRun_good limits hpid hok' soundBuffs_empty with ⟨bufs', hrun, -⟩
  have hforce := textRun_force hchunks []
  simp only [getBinBuff, OrdMap.find?_empty, Option.getD_none, content_empty, List.map_append,
    List.map_cons, List.map_nil, hforce] at hrun
  simp [handedRecords, hrun]

/-- The invalid process has no buffer on a fresh handle, so its writes go nowhere. -/
theorem handedRecords_invalid (limits : BuffLimits) (writes : List (PushEnv × Bytes))
    (last : PushEnv) : handedRecords limits K2HFT_INVALID_PID writes last = some [] := by
  have hrun : ∀ ws : List (PushEnv × Bytes),
      writeRun limits K2HFT_INVALID_PID ∅ ws = some (∅, []) := by
    intro ws
    -- there is no buffer, so a push visits none
    induction ws with
    | nil =>
        rfl
    | cons w ws ih =>
        simp [writeRun, pushBlocks, pushAllBlocks, ih]
  simp [handedRecords, hrun]

/-! ## Lines determine their stream

up to a NUL that only the forced push adds. -/

theorem terminate_injOn {s₁ s₂ : Bytes} (h₁ : IsSegment isEol s₁) (h₂ : IsSegment isEol s₂)
    (h : terminate s₁ = terminate s₂) : s₁ = s₂ := by
  rcases h₁ with ⟨t₁, x₁, rfl, hx₁, ht₁⟩
  rcases h₂ with ⟨t₂, x₂, rfl, hx₂, ht₂⟩
  simp only [terminate, List.getLast?_concat, Option.some.injEq] at h
  by_cases hz₁ : x₁ = 0 <;> by_cases hz₂ : x₂ = 0
  · simpa [hz₁, hz₂] using h
  · -- a line feed or carriage return would stand before the end of the other line
    simp only [if_pos hz₁, if_neg hz₂] at h
    have hmem : x₂ ∈ t₁ := by
      have := (List.append_inj' h rfl).1
      simp [this]
    simp [ht₁ x₂ hmem] at hx₂
  · -- the same the other way round
    simp only [if_neg hz₁, if_pos hz₂] at h
    have hmem : x₁ ∈ t₂ := by
      have := (List.append_inj' h rfl).1
      simp [← this]
    simp [ht₂ x₁ hmem] at hx₁
  · simp only [if_neg hz₁, if_neg hz₂] at h
    exact (List.append_inj' h rfl).1

/-- The stream with the NUL that the forced push adds. -/
def forcedStream (stream : Bytes) : Bytes :=
  if (cut isEol [] stream).2 = [] then stream else stream ++ [0]

theorem linesOf_eq_forcedStream (stream : Bytes) :
    linesOf [] stream = (cut isEol [] (forcedStream stream)).1.map terminate ∧
      (cut isEol [] (forcedStream stream)).2 = [] := by
  have hrest := notEnd_of_mem_rest isEol [] (by simp) stream
  by_cases hnil : (cut isEol [] stream).2 = []
  · simp [linesOf, forcedStream, hnil]
  · -- the unfinished line has no line end, so the push adds a NUL
    have hlast : (cut isEol [] stream).2.getLast? ≠ some 0 := by
      intro h
      have := hrest 0 (List.mem_of_getLast? h)
      simp [isEol] at this
    have hend : cut isEol (cut isEol [] stream).2 [0] = ([(cut isEol [] stream).2 ++ [0]], []) := by
      rw [cut_cons_end isEol _ _ (by simp [isEol])]
      rfl
    simp only [linesOf, forcedStream, if_neg hnil, cut_append, hend]
    simp [terminate, hlast]

theorem map_terminate_injOn {xs ys : List Bytes} (hx : ∀ s ∈ xs, IsSegment isEol s)
    (hy : ∀ s ∈ ys, IsSegment isEol s) (h : xs.map terminate = ys.map terminate) : xs = ys := by
  induction xs generalizing ys with
  | nil =>
      simpa [eq_comm] using h
  | cons x xs ih =>
      cases ys with
      | nil =>
          simp at h
      | cons y ys =>
          simp only [List.map_cons, List.cons.injEq] at h
          rw [terminate_injOn (hx x (by simp)) (hy y (by simp)) h.1,
            ih (fun s hs => hx s (by simp [hs])) (fun s hs => hy s (by simp [hs])) h.2]

theorem forcedStream_inj {e₁ e₂ : Bytes} (h : linesOf [] e₁ = linesOf [] e₂) :
    forcedStream e₁ = forcedStream e₂ := by
  have h₁ := linesOf_eq_forcedStream e₁
  have h₂ := linesOf_eq_forcedStream e₂
  rw [h₁.1, h₂.1] at h
  -- equal lines come from equal cuts, and a stream is its cuts
  have hcut := map_terminate_injOn (segment_of_mem_cut isEol (by simp) _)
    (segment_of_mem_cut isEol (by simp) _) h
  calc forcedStream e₁
      = (cut isEol [] (forcedStream e₁)).1.flatten ++ (cut isEol [] (forcedStream e₁)).2 := by
        rw [flatten_cut]
        rfl
    _ = (cut isEol [] (forcedStream e₂)).1.flatten ++ (cut isEol [] (forcedStream e₂)).2 := by
        rw [hcut, h₁.2, h₂.2]
    _ = forcedStream e₂ := by
        rw [flatten_cut]
        rfl

/-- An unfinished line is the end of the stream, so the stream does not end with a NUL. -/
theorem getLast?_ne_of_rest {e : Bytes} (h : (cut isEol [] e).2 ≠ []) : e.getLast? ≠ some 0 := by
  intro hlast
  have hflat : (cut isEol [] e).1.flatten ++ (cut isEol [] e).2 = e := by
    rw [flatten_cut]
    rfl
  rw [← hflat, List.getLast?_append_of_ne_nil _ h] at hlast
  have := notEnd_of_mem_rest isEol [] (by simp) e 0 (List.mem_of_getLast? hlast)
  simp [isEol] at this

theorem linesOf_inj {e₁ e₂ : Bytes} (hlast : e₁.getLast? = some 0 ↔ e₂.getLast? = some 0)
    (h : linesOf [] e₁ = linesOf [] e₂) : e₁ = e₂ := by
  have hforced := forcedStream_inj h
  unfold forcedStream at hforced
  by_cases hr₁ : (cut isEol [] e₁).2 = [] <;> by_cases hr₂ : (cut isEol [] e₂).2 = []
  · simpa [hr₁, hr₂] using hforced
  · -- the NUL was added to one stream only, so the other one has its own
    rw [if_pos hr₁, if_neg hr₂] at hforced
    exact absurd (hlast.1 (by simp [hforced])) (getLast?_ne_of_rest hr₂)
  · rw [if_neg hr₁, if_pos hr₂] at hforced
    exact absurd (hlast.2 (by simp [← hforced])) (getLast?_ne_of_rest hr₁)
  · simpa [hr₁, hr₂] using hforced

/-! ## Where a cutting separates CRLF pairs -/

/-- The bytes of a chunk, the last one marked: a write ends behind it. -/
def markChunk : Bytes → List (UInt8 × Bool)
  | [] => []
  | c :: rest => (c, rest.isEmpty) :: markChunk rest

def markWrites (chunks : List Bytes) : List (UInt8 × Bool) :=
  chunks.flatMap markChunk

/-- For each CRLF pair of a marked stream, in order: does a write end between its two bytes? -/
def crlfMarks : List (UInt8 × Bool) → List Bool
  | [] => []
  | (c, ends) :: rest =>
      if c = CR ∧ (rest.head?.map Prod.fst) = some LF then ends :: crlfMarks rest
      else crlfMarks rest

/-- For each CRLF pair of the stream, in order: do the writes separate it? -/
def crlfCuts (chunks : List Bytes) : List Bool :=
  crlfMarks (markWrites chunks)

/-- `keptBytes` of all chunks, read off the marked stream. -/
def keptMarked (skip : Bool) : List (UInt8 × Bool) → Bytes
  | [] => []
  | (c, ends) :: rest =>
      if skip then keptMarked false rest
      else c :: keptMarked (c == CR && !ends && (rest.head?.map Prod.fst) == some LF) rest

theorem map_fst_markChunk (c : Bytes) : (markChunk c).map Prod.fst = c := by
  induction c with
  | nil =>
      rfl
  | cons b c ih =>
      simp [markChunk, ih]

theorem map_fst_markWrites (chunks : List Bytes) :
    (markWrites chunks).map Prod.fst = chunks.flatten := by
  induction chunks with
  | nil =>
      rfl
  | cons c chunks ih =>
      simp [markWrites, map_fst_markChunk] at ih ⊢
      exact ih

/-- A chunk only skips a line feed that it holds itself. -/
theorem keptMarked_markChunk (skip : Bool) {c : Bytes} (hskip : skip = true → c ≠ [])
    (m : List (UInt8 × Bool)) :
    keptMarked skip (markChunk c ++ m) = keptBytes skip c ++ keptMarked false m := by
  induction c generalizing skip with
  | nil =>
      have : skip = false := by
        rcases skip with _ | _
        · rfl
        · exact absurd rfl (hskip rfl)
      simp [markChunk, keptBytes, this]
  | cons b c ih =>
      cases skip with
      | true =>
          have := ih false (by simp)
          simpa [markChunk, keptMarked, keptBytes] using this
      | false =>
          cases c with
          | nil =>
              simp [markChunk, keptMarked, keptBytes]
          | cons d c =>
              have := ih (b == CR && some d == some LF) (by simp)
              simpa [markChunk, keptMarked, keptBytes] using this

theorem keptMarked_markWrites (chunks : List Bytes) :
    keptMarked false (markWrites chunks) = chunks.flatMap (keptBytes false) := by
  induction chunks with
  | nil =>
      rfl
  | cons c chunks ih =>
      simp only [markWrites, List.flatMap_cons]
      rw [keptMarked_markChunk false (by simp)]
      simp only [markWrites] at ih
      rw [ih]

/-- A stream cannot be read with one line feed more: the first bytes would all be line feeds. -/
theorem keptMarked_ne_cons_lf {m₁ m₂ : List (UInt8 × Bool)}
    (h : m₁.map Prod.fst = m₂.map Prod.fst) :
    LF :: keptMarked false m₁ ≠ keptMarked false m₂ := by
  induction m₁ generalizing m₂ with
  | nil =>
      rw [List.map_nil, eq_comm, List.map_eq_nil_iff] at h
      simp [h, keptMarked]
  | cons x m₁ ih =>
      cases m₂ with
      | nil =>
          simp at h
      | cons y m₂ =>
          rcases x with ⟨c, ends₁⟩
          rcases y with ⟨d, ends₂⟩
          simp only [List.map_cons, List.cons.injEq] at h
          rcases h with ⟨rfl, hrest⟩
          intro heq
          simp only [keptMarked, Bool.false_eq_true, if_false, List.cons.injEq] at heq
          rcases heq with ⟨rfl, heq⟩
          have hcr : (LF == CR) = false := by decide
          simp only [hcr, Bool.false_and] at heq
          exact ih hrest heq

/-- Two cuttings of one stream keep the same bytes when they cut the same CRLF pairs. -/
theorem keptMarked_inj {m₁ m₂ : List (UInt8 × Bool)} (h : m₁.map Prod.fst = m₂.map Prod.fst) :
    keptMarked false m₁ = keptMarked false m₂ ↔ crlfMarks m₁ = crlfMarks m₂ := by
  induction hn : m₁.length using Nat.strongRecOn generalizing m₁ m₂ with
  | ind n ih =>
      cases m₁ with
      | nil =>
          rw [List.map_nil, eq_comm, List.map_eq_nil_iff] at h
          simp [h]
      | cons x m₁ =>
          cases m₂ with
          | nil =>
              simp at h
          | cons y m₂ =>
              rcases x with ⟨c, ends₁⟩
              rcases y with ⟨d, ends₂⟩
              simp only [List.map_cons, List.cons.injEq] at h
              rcases h with ⟨rfl, hrest⟩
              have hhead : m₂.head?.map Prod.fst = m₁.head?.map Prod.fst := by
                rw [← List.head?_map, ← List.head?_map, hrest]
              have hlt : m₁.length < n := by
                rw [← hn]
                simp
              by_cases hpair : c = CR ∧ m₁.head?.map Prod.fst = some LF
              · -- a CRLF pair: both sides keep or skip its line feed
                rcases hpair with ⟨rfl, hlf⟩
                cases m₁ with
                | nil =>
                    simp at hlf
                | cons p m₁ =>
                    cases m₂ with
                    | nil =>
                        simp at hrest
                    | cons q m₂ =>
                        rcases p with ⟨e, ends₃⟩
                        rcases q with ⟨f, ends₄⟩
                        simp only [List.map_cons, List.cons.injEq] at hrest
                        rcases hrest with ⟨rfl, hrest⟩
                        have he : e = LF := by simpa using hlf
                        subst he
                        have hrec := ih m₁.length (by simp at hlt; omega) hrest rfl
                        have hne₁ := keptMarked_ne_cons_lf hrest
                        have hne₂ := keptMarked_ne_cons_lf hrest.symm
                        have hcr : (LF == CR) = false := by decide
                        have hlfcr : ¬ (LF = CR) := by decide
                        cases ends₁ <;> cases ends₂ <;>
                          simp [keptMarked, crlfMarks, hcr, hlfcr, hrec, hne₁, Ne.symm hne₂]
              · have hpair₂ : ¬ (c = CR ∧ m₂.head?.map Prod.fst = some LF) := by
                  rw [hhead]
                  exact hpair
                have hskip : ∀ (ends : Bool) (m : List (UInt8 × Bool)),
                    ¬ (c = CR ∧ m.head?.map Prod.fst = some LF) →
                    (c == CR && !ends && m.head?.map Prod.fst == some LF) = false := by
                  intro ends m hno
                  by_cases hcr : c = CR
                  · have : ¬ m.head?.map Prod.fst = some LF := fun hlf => hno ⟨hcr, hlf⟩
                    have hf : (m.head?.map Prod.fst == some LF) = false := by simpa using this
                    simp [hf]
                  · have hf : (c == CR) = false := by simpa using hcr
                    simp [hf]
                have hrec := ih m₁.length hlt hrest rfl
                simp only [keptMarked, crlfMarks, Bool.false_eq_true, if_false, if_neg hpair,
                  if_neg hpair₂, hskip _ _ hpair, hskip _ _ hpair₂, List.cons.injEq, true_and]
                exact hrec

/-- Skipping line feeds of CRLF pairs does not change whether the stream ends with a NUL. -/
theorem getLast?_keptMarked (m : List (UInt8 × Bool)) :
    (keptMarked false m).getLast? = some 0 ↔ (m.map Prod.fst).getLast? = some 0 := by
  induction hn : m.length using Nat.strongRecOn generalizing m with
  | ind n ih =>
      cases m with
      | nil =>
          simp [keptMarked]
      | cons x m =>
          rcases x with ⟨c, ends⟩
          have hlt : m.length < n := by
            rw [← hn]
            simp
          rcases hskip : (c == CR && !ends && m.head?.map Prod.fst == some LF) with _ | _
          · have hrec := ih m.length hlt m rfl
            simp only [keptMarked, Bool.false_eq_true, if_false, hskip, List.map_cons]
            cases m with
            | nil =>
                simp [keptMarked]
            | cons y m =>
                rw [List.getLast?_cons_of_ne_nil (by simp [keptMarked]),
                  List.getLast?_cons_of_ne_nil (by simp)]
                exact hrec
          · cases m with
            | nil =>
                simp at hskip
            | cons y m =>
                rcases y with ⟨d, ends'⟩
                have hc : c = CR := by
                  simp only [Bool.and_eq_true, beq_iff_eq] at hskip
                  exact hskip.1.1
                have hd : d = LF := by
                  simp only [Bool.and_eq_true, beq_iff_eq] at hskip
                  exact Option.some.inj hskip.2
                have hrec := ih m.length (by simp at hlt; omega) m rfl
                subst hc hd
                simp only [keptMarked, Bool.false_eq_true, if_false, hskip, if_true, List.map_cons]
                cases m with
                | nil =>
                    simp [keptMarked, CR, LF]
                | cons z m =>
                    rw [List.getLast?_cons_of_ne_nil (by simp [keptMarked]),
                      List.getLast?_cons_of_ne_nil (by simp),
                      List.getLast?_cons_of_ne_nil (by simp)]
                    exact hrec

/-! ## Two cuttings of one stream -/

/-- Two cuttings of one stream hand over the same records exactly when they separate the same
CRLF pairs. -/
theorem handedRecords_eq_iff (limits : BuffLimits) (pid : Pid)
    (writes₁ writes₂ : List (PushEnv × Bytes)) (last₁ last₂ : PushEnv)
    (hok₁ : ∀ w ∈ writes₁, w.1.AllocOk) (hok₂ : ∀ w ∈ writes₂, w.1.AllocOk)
    (hlast₁ : last₁.AllocOk) (hlast₂ : last₂.AllocOk)
    (hne₁ : ∀ w ∈ writes₁, w.2 ≠ []) (hne₂ : ∀ w ∈ writes₂, w.2 ≠ [])
    (hstream : (writes₁.map Prod.snd).flatten = (writes₂.map Prod.snd).flatten) :
    ∃ records₁ records₂, handedRecords limits pid writes₁ last₁ = some records₁ ∧
      handedRecords limits pid writes₂ last₂ = some records₂ ∧
      (records₁ = records₂ ↔ pid = K2HFT_INVALID_PID ∨
        crlfCuts (writes₁.map Prod.snd) = crlfCuts (writes₂.map Prod.snd)) := by
  by_cases hpid : pid = K2HFT_INVALID_PID
  · subst hpid
    exact ⟨[], [], handedRecords_invalid _ _ _, handedRecords_invalid _ _ _, by simp⟩
  · refine ⟨_, _, handedRecords_eq hpid hok₁ hne₁ hlast₁, handedRecords_eq hpid hok₂ hne₂ hlast₂, ?_⟩
    have hfst : (markWrites (writes₁.map Prod.snd)).map Prod.fst =
        (markWrites (writes₂.map Prod.snd)).map Prod.fst := by
      rw [map_fst_markWrites, map_fst_markWrites, hstream]
    have hpair : Function.Injective fun block : Bytes => (pid, block) :=
      fun a b hab => (Prod.mk.inj hab).2
    rw [(List.map_injective_iff.2 hpair).eq_iff, ← keptMarked_markWrites, ← keptMarked_markWrites]
    simp only [hpid, false_or, crlfCuts]
    rw [← keptMarked_inj hfst]
    constructor
    · refine linesOf_inj ?_
      rw [getLast?_keptMarked, getLast?_keptMarked, hfst]
    · intro h
      rw [h]

theorem handedRecords_eq_iff_cut_line :
    ∃ records₁ records₂,
      handedRecords BuffLimits.default 1 [(PushEnv.zeroed, ascii "ab\n")] PushEnv.zeroed =
        some records₁ ∧
      handedRecords BuffLimits.default 1
        [(PushEnv.zeroed, ascii "a"), (PushEnv.zeroed, ascii "b\n")] PushEnv.zeroed =
        some records₂ ∧
      (records₁ = records₂ ↔ (1 : Pid) = K2HFT_INVALID_PID ∨
        crlfCuts [ascii "ab\n"] = crlfCuts [ascii "a", ascii "b\n"]) :=
  handedRecords_eq_iff BuffLimits.default 1 [(PushEnv.zeroed, ascii "ab\n")]
    [(PushEnv.zeroed, ascii "a"), (PushEnv.zeroed, ascii "b\n")] PushEnv.zeroed PushEnv.zeroed
    (by simp [zeroed_allocOk]) (by simp [zeroed_allocOk]) zeroed_allocOk zeroed_allocOk
    (by simp; decide) (by simp; decide) (by decide)

/-- A CRLF pair in one write is the record `a\r`; cut in two it is the records `a\r` and `\n`. -/
theorem crlf_cut_changes_records :
    (ascii "a\r\n" = ascii "a\r" ++ ascii "\n") ∧
      handedRecords BuffLimits.default 1 [(PushEnv.zeroed, ascii "a\r\n")] PushEnv.zeroed ≠
        handedRecords BuffLimits.default 1
          [(PushEnv.zeroed, ascii "a\r"), (PushEnv.zeroed, ascii "\n")] PushEnv.zeroed := by
  refine ⟨by decide, ?_⟩
  rw [handedRecords_eq (by decide) (by simp [zeroed_allocOk]) (by simp; decide) zeroed_allocOk,
    handedRecords_eq (by decide) (by simp [zeroed_allocOk]) (by simp; decide) zeroed_allocOk]
  decide

end K2hFtFuse

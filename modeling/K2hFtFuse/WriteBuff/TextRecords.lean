import K2hFtFuse.Lib.Transition
import K2hFtFuse.WriteBuff

/-!
# TextRecords — what text mode stacks is a C string

A block that text mode hands to `StackPush` has a NUL at its end and nowhere else. The line filter
keeps that form: a line that passes is stacked as it is, and a line that a regular expression
rewrites is trimmed and ended anew by `append_lastword`. So every record on a stack has it, in every
state of every run of pushes (`stacked_text_records`).
-/

namespace K2hFtFuse

open ByteSeq Segmenter K2hFtBinBuff

/-- The sink of a handle that is the rule. -/
def ruleSink (limits : BuffLimits) (eng : RegexEngine) (pRule : K2hFtRule) : LineSink :=
  { limits := limits
    cvtPushData := fun beyond block => cvtPushData eng beyond pRule block }

/-! ## The blocks

Without their last byte, a NUL, the blocks of a push are the kept bytes other than NUL. -/

/-- A record as text mode makes it: a NUL at its end and nowhere else. -/
def IsTextRecord (b : Bytes) : Prop :=
  ∃ s, b = s ++ [0] ∧ (0 : UInt8) ∉ s

theorem filter_of_nul_notMem {s : Bytes} (h : (0 : UInt8) ∉ s) :
    (s.filter fun c => c ≠ 0) = s := by
  rw [List.filter_eq_self]
  intro c hc
  have : c ≠ 0 := fun hzero => h (hzero ▸ hc)
  simpa using this

theorem nul_notMem_of_notEol {s : Bytes} (h : ∀ c ∈ s, isEol c = false) : (0 : UInt8) ∉ s := by
  intro hmem
  simpa [isEol] using h 0 hmem

theorem terminate_carry {s : Bytes} (h : ∀ c ∈ s, isEol c = false) :
    IsTextRecord (terminate s) ∧ (terminate s).dropLast = s.filter fun c => c ≠ 0 := by
  have hnul := nul_notMem_of_notEol h
  have hlast : s.getLast? ≠ some 0 := fun hl => hnul (List.mem_of_getLast? hl)
  rw [terminate, if_neg hlast, filter_of_nul_notMem hnul]
  exact ⟨⟨s, rfl, hnul⟩, List.dropLast_concat⟩

theorem terminate_segment {s : Bytes} (h : IsSegment isEol s) :
    IsTextRecord (terminate s) ∧ (terminate s).dropLast = s.filter fun c => c ≠ 0 := by
  rcases h with ⟨t, x, rfl, -, ht⟩
  have hnul := nul_notMem_of_notEol ht
  by_cases hx : x = 0
  · subst hx
    simp only [terminate, List.getLast?_concat, if_true]
    refine ⟨⟨t, rfl, hnul⟩, ?_⟩
    rw [List.dropLast_concat, List.filter_append, filter_of_nul_notMem hnul]
    simp
  · have hx' : ¬ (0 : UInt8) = x := fun h => hx h.symm
    have hnul' : (0 : UInt8) ∉ t ++ [x] := by simp [hnul, hx']
    simp only [terminate, List.getLast?_concat, Option.some.injEq, if_neg hx]
    refine ⟨⟨t ++ [x], rfl, hnul'⟩, ?_⟩
    rw [List.dropLast_concat, filter_of_nul_notMem hnul']

theorem textPush_bytes {carry : Bytes} (hcarry : ∀ c ∈ carry, isEol c = false) (data : Bytes) :
    (∀ b ∈ (textPush carry data).1, IsTextRecord b) ∧
      (∀ c ∈ (textPush carry data).2, isEol c = false) ∧
      (textPush carry data).1.flatMap List.dropLast ++ (textPush carry data).2 =
        carry ++ (keptBytes false data).filter fun c => c ≠ 0 := by
  have hpass := filter_of_nul_notMem (nul_notMem_of_notEol hcarry)
  by_cases hnil : data = []
  · subst hnil
    have hterm := terminate_carry hcarry
    by_cases hc : carry = []
    · simp [textPush, hc, keptBytes]
    · simp only [textPush, if_true, if_neg hc]
      refine ⟨by simpa using hterm.1, by simp, ?_⟩
      simp only [List.flatMap_cons, List.flatMap_nil, List.append_nil, hterm.2, hpass, keptBytes,
        List.filter_nil]
  · have hsegs := segment_of_mem_cut isEol hcarry (keptBytes false data)
    have hrest := notEnd_of_mem_rest isEol carry hcarry (keptBytes false data)
    have hflat := congrArg (List.filter fun c => decide (c ≠ 0))
      (flatten_cut isEol carry (keptBytes false data))
    rw [List.filter_append, List.filter_append, hpass,
      filter_of_nul_notMem (nul_notMem_of_notEol hrest)] at hflat
    simp only [textPush, if_neg hnil]
    refine ⟨?_, hrest, ?_⟩
    · intro b hb
      rcases List.mem_map.1 hb with ⟨s, hs, rfl⟩
      exact (terminate_segment (hsegs s hs)).1
    · rw [← hflat, List.flatMap_map, List.filter_flatten, ← List.flatMap_def]
      congr 1
      refine List.flatMap_congr ?_
      intro s hs
      exact (terminate_segment (hsegs s hs)).2

/-! ## The filter -/

/-- A group of a match: not set, or a slice of the line. -/
def RegMatch.Inside (m : RegMatch) (line : Bytes) : Prop :=
  m.rm_eo = -1 ∨ (0 ≤ m.rm_so ∧ m.rm_so ≤ m.rm_eo ∧ m.rm_eo ≤ line.length)

/-- What `regexec` promises of the groups that it fills. -/
def RegexEngine.MatchesInside (eng : RegexEngine) : Prop :=
  ∀ ptn line pmatches, eng.regexec ptn line = some pmatches →
    ∀ n : Nat, (n : Int) < K2HTFT_MAX_REG_MATCH → (pmatches n).Inside line

/-- The static parts of the replacements are C strings, as the parser of the patterns makes them. -/
def K2hFtRule.ReplacesByCString (pRule : K2hFtRule) : Prop :=
  ∀ ptn ∈ pRule.MatchingList, ∀ rep ∈ ptn.ReplaceList, (0 : UInt8) ∉ rep.substring

theorem lineOf_textRecord {s : Bytes} (hs : (0 : UInt8) ∉ s) : lineOf (s ++ [0]) = s := by
  simp [lineOf, cString?_of_notMem hs]

theorem nul_notMem_appendSubstring {tgdata data result : Bytes} {m : RegMatch}
    (htg : (0 : UInt8) ∉ tgdata) (hslice : m.rm_eo ≠ -1 →
      (0 : UInt8) ∉ (data.drop m.rm_so.toNat).take (m.rm_eo - m.rm_so).toNat)
    (h : appendSubstring tgdata data m = some result) : (0 : UInt8) ∉ result := by
  unfold appendSubstring at h
  split at h
  · simpa [← Option.some.inj h] using htg
  · rename_i hset
    split at h
    · simp at h
    · rw [← Option.some.inj h, List.mem_append, not_or]
      exact ⟨htg, hslice hset⟩

/-- A slice of a line ends before the NUL behind the line. -/
theorem nul_notMem_slice {s : Bytes} (hs : (0 : UInt8) ∉ s) {m : RegMatch} (hm : m.Inside s)
    (hset : m.rm_eo ≠ -1) :
    (0 : UInt8) ∉ ((s ++ [0]).drop m.rm_so.toNat).take (m.rm_eo - m.rm_so).toNat := by
  rcases hm with hm | ⟨hlow, hle, hhigh⟩
  · exact absurd hm hset
  · have hdrop : (s ++ [0]).drop m.rm_so.toNat = s.drop m.rm_so.toNat ++ [0] :=
      List.drop_append_of_le_length (by omega)
    have htake : (s.drop m.rm_so.toNat ++ [0]).take (m.rm_eo - m.rm_so).toNat =
        (s.drop m.rm_so.toNat).take (m.rm_eo - m.rm_so).toNat :=
      List.take_append_of_le_length (by rw [List.length_drop]; omega)
    rw [hdrop, htake]
    exact fun hmem => hs (List.mem_of_mem_drop (List.mem_of_mem_take hmem))

theorem appendLastword_isTextRecord (beyond : Nat → UInt8) {tgdata : Bytes}
    (h : (0 : UInt8) ∉ tgdata) (data : Bytes) : IsTextRecord (appendLastword beyond tgdata data) := by
  have htake : ∀ n, (0 : UInt8) ∉ tgdata.take n := fun n hmem => h (List.mem_of_mem_take hmem)
  unfold appendLastword
  refine ⟨_, rfl, ?_⟩
  rw [List.mem_append, not_or]
  refine ⟨htake _, ?_⟩
  -- the last word is LF, CR or CRLF
  split
  · decide
  · split
    · decide
    · split
      · split <;> decide
      · decide

theorem buildReplaceResultData_isTextRecord (beyond : Nat → UInt8) {replist : List K2hFtRepPtn}
    (hreps : ∀ rep ∈ replist, (0 : UInt8) ∉ rep.substring) {s : Bytes} (hs : (0 : UInt8) ∉ s)
    {pmatches : Nat → RegMatch}
    (hpm : ∀ n : Nat, (n : Int) < K2HTFT_MAX_REG_MATCH → (pmatches n).Inside s) {result : Bytes}
    (h : buildReplaceResultData beyond replist (s ++ [0]) pmatches = some result) :
    IsTextRecord result := by
  unfold buildReplaceResultData at h
  rcases Option.map_eq_some_iff.1 h with ⟨tgdata, hfold, rfl⟩
  refine appendLastword_isTextRecord beyond ?_ _
  clear h
  -- each part of the replacement list adds bytes other than NUL
  suffices hgen : ∀ presult : Option Bytes, (∀ t, presult = some t → (0 : UInt8) ∉ t) →
      ∀ t, replist.foldl (fun (presult : Option Bytes) ptn => do
        let tgdata ← presult
        if K2HTFT_MAX_REG_MATCH ≤ ptn.matchno then
          none
        else if ptn.matchno < 0 then
          appendSubstring tgdata ptn.substring ⟨0, ptn.substring.length⟩
        else
          appendSubstring tgdata (s ++ [0]) (pmatches ptn.matchno.toNat)) presult = some t →
        (0 : UInt8) ∉ t by
    exact hgen (some []) (by simp) tgdata hfold
  clear hfold
  induction replist with
  | nil =>
      intro presult hp t ht
      exact hp t ht
  | cons rep replist ih =>
      intro presult hp t ht
      rw [List.foldl_cons] at ht
      refine ih (fun r hr => hreps r (by simp [hr])) _ ?_ t ht
      intro t' ht'
      rcases presult with _ | tg
      · simp at ht'
      · have htg : (0 : UInt8) ∉ tg := hp tg rfl
        simp only [Option.bind_eq_bind, Option.bind_some] at ht'
        split at ht'
        · simp at ht'
        · rename_i hmax
          split at ht'
          · have hsub : (0 : UInt8) ∉ rep.substring := hreps rep (by simp)
            refine nul_notMem_appendSubstring htg ?_ ht'
            intro _ hmem
            exact hsub (List.mem_of_mem_drop (List.mem_of_mem_take hmem))
          · rename_i hneg
            have hn : ((rep.matchno.toNat : Nat) : Int) < K2HTFT_MAX_REG_MATCH := by omega
            refine nul_notMem_appendSubstring htg ?_ ht'
            exact nul_notMem_slice hs (hpm _ hn)

theorem convertDenyAll_isTextRecord {eng : RegexEngine} (heng : eng.MatchesInside)
    (beyond : Nat → UInt8) {s : Bytes} (hs : (0 : UInt8) ∉ s) {ptns : List K2hFtMatchPtn}
    (hptns : ∀ ptn ∈ ptns, ∀ rep ∈ ptn.ReplaceList, (0 : UInt8) ∉ rep.substring) {result : Bytes}
    (h : convertDenyAll eng beyond (s ++ [0]) ptns = some result) : IsTextRecord result := by
  induction ptns with
  | nil =>
      simp [convertDenyAll] at h
  | cons ptn rest ih =>
      have hrest := ih fun p hp => hptns p (by simp [hp])
      simp only [convertDenyAll, lineOf_textRecord hs] at h
      split at h
      · split at h
        · rename_i pmatches hmatch
          exact buildReplaceResultData_isTextRecord beyond (hptns ptn (by simp)) hs
            (heng _ _ _ hmatch) h
        · exact hrest h
      · split at h
        · rw [← Option.some.inj h]
          exact ⟨s, rfl, hs⟩
        · exact hrest h

theorem convertAllowAll_eq_self {eng : RegexEngine} {data : Bytes} {ptns : List K2hFtMatchPtn}
    {result : Bytes} (h : convertAllowAll eng data ptns = some result) : result = data := by
  induction ptns with
  | nil =>
      exact (Option.some.inj h).symm
  | cons ptn rest ih =>
      rw [convertAllowAll] at h
      split at h
      · simp at h
      · exact ih h

/-- What the filter makes of a C string is a C string. -/
theorem cvtPushData_isTextRecord {eng : RegexEngine} (heng : eng.MatchesInside)
    (beyond : Nat → UInt8) {pRule : K2hFtRule} (hrule : pRule.ReplacesByCString) {block : Bytes}
    (hblock : IsTextRecord block) {result : Bytes}
    (h : cvtPushData eng beyond pRule block = some result) : IsTextRecord result := by
  rcases hblock with ⟨s, rfl, hs⟩
  unfold cvtPushData at h
  split at h
  · simp at h
  · unfold convertToOutput at h
    split at h
    · exact convertDenyAll_isTextRecord heng beyond hs hrule h
    · rw [convertAllowAll_eq_self h]
      exact ⟨s, rfl, hs⟩

/-! ## Pushes -/

/-- What text mode keeps of the input buffers of a handle: they are sound, and no unfinished line
holds the end of a line. -/
structure TextBuffs (bufs : OrdMap Pid K2hFtBinBuff) : Prop where
  sound : SoundBuffs bufs
  unfinished : ∀ pid b, bufs.find? pid = some b → ∀ c ∈ b.content, isEol c = false

theorem textBuffs_empty : TextBuffs ∅ := by
  refine ⟨soundBuffs_empty, ?_⟩
  intro pid b h
  simp at h

theorem TextBuffs.getBinBuff {bufs : OrdMap Pid K2hFtBinBuff} (h : TextBuffs bufs) (pid : Pid) :
    (getBinBuff bufs pid).Good ∧ ∀ c ∈ (getBinBuff bufs pid).content, isEol c = false := by
  refine ⟨h.sound.getBinBuff pid, ?_⟩
  rcases hfind : bufs.find? pid with _ | b
  · simp [K2hFtFuse.getBinBuff, hfind]
  · simpa [K2hFtFuse.getBinBuff, hfind] using h.unfinished pid b hfind

theorem TextBuffs.insert {bufs : OrdMap Pid K2hFtBinBuff} (h : TextBuffs bufs) (pid : Pid)
    {b : K2hFtBinBuff} (hb : b.Good) (hcont : ∀ c ∈ b.content, isEol c = false) :
    TextBuffs (bufs.insert pid b) := by
  refine ⟨h.sound.insert pid hb, ?_⟩
  intro pid' b' hfind
  rw [OrdMap.find?_insert] at hfind
  split at hfind
  · simpa [← Option.some.inj hfind] using hcont
  · exact h.unfinished pid' b' hfind

theorem stringPush_isTextRecord {realloc : Nat → ReallocAnswer} (hok : ∀ n, (realloc n).isSome)
    {b : K2hFtBinBuff} (hb : b.Good) (hcont : ∀ c ∈ b.content, isEol c = false) {data : Bytes}
    {p : InputPush} (h : stringPush realloc b data = some p) :
    (∀ block ∈ p.blocks, IsTextRecord block) ∧ p.buff.Good ∧
      ∀ c ∈ p.buff.content, isEol c = false := by
  rcases stringPush_good hok hb data with ⟨b', hpush, hgood, hnext⟩
  rcases textPush_bytes hcont data with ⟨hrecords, hcarry, -⟩
  rw [hpush] at h
  rw [← Option.some.inj h]
  exact ⟨hrecords, hgood, by simpa [hnext] using hcarry⟩

theorem pushAllBlocks_isTextRecord {limits : BuffLimits} {env : PushEnv} (henv : env.AllocOk)
    {data : Bytes} {entries : List (Pid × K2hFtBinBuff)}
    (hgood : ∀ e ∈ entries, e.2.Good ∧ ∀ c ∈ e.2.content, isEol c = false) {result : Bool}
    {blocks : List (Pid × Bytes)}
    (h : pushAllBlocks limits false env data entries = some (result, blocks)) :
    ∀ b ∈ blocks, IsTextRecord b.2 := by
  induction entries generalizing result blocks with
  | nil =>
      simp only [pushAllBlocks, Option.some.injEq, Prod.mk.injEq] at h
      simp [← h.2]
  | cons e entries ih =>
      rcases e with ⟨pid, buff⟩
      simp only [pushAllBlocks, Option.bind_eq_bind, Option.bind_eq_some_iff, pure,
        Option.some.injEq, Prod.mk.injEq] at h
      rcases h with ⟨p, hpush, r, hrest, -, hblocks⟩
      have hthis := hgood (pid, buff) (by simp)
      have hrecords := (stringPush_isTextRecord (henv pid) hthis.1 hthis.2 hpush).1
      intro b hb
      rw [← hblocks, List.mem_append, List.mem_map] at hb
      rcases hb with ⟨block, hblock, rfl⟩ | hb
      · exact hrecords block hblock
      · exact ih (fun e he => hgood e (by simp [he])) hrest b hb

/-- Every block of a push is a C string, and the buffers stay what text mode keeps. -/
theorem pushBlocks_isTextRecord {limits : BuffLimits} {env : PushEnv} (henv : env.AllocOk)
    {bufs bufs' : OrdMap Pid K2hFtBinBuff} (hbufs : TextBuffs bufs) {data : Bytes} {pid : Pid}
    {result : Bool} {blocks : List (Pid × Bytes)}
    (h : pushBlocks limits false env bufs data pid = some (result, bufs', blocks)) :
    (∀ b ∈ blocks, IsTextRecord b.2) ∧ TextBuffs bufs' := by
  unfold pushBlocks at h
  split at h
  · simp only [Option.bind_eq_bind, Option.bind_eq_some_iff, pure, Option.some.injEq,
      Prod.mk.injEq] at h
    rcases h with ⟨r, hall, -, hbufs', hblocks⟩
    have hentries : ∀ e ∈ bufs.entries, e.2.Good ∧ ∀ c ∈ e.2.content, isEol c = false := by
      rintro ⟨pid', b⟩ he
      have hfind := OrdMap.mem_entries_iff.1 he
      exact ⟨hbufs.sound pid' b hfind, hbufs.unfinished pid' b hfind⟩
    refine ⟨?_, by rw [← hbufs']; exact textBuffs_empty⟩
    rw [← hblocks]
    exact pushAllBlocks_isTextRecord henv hentries hall
  · simp only [Option.bind_eq_bind, Option.bind_eq_some_iff, pure, Option.some.injEq,
      Prod.mk.injEq] at h
    rcases h with ⟨p, hpush, -, hbufs', hblocks⟩
    have hget := hbufs.getBinBuff pid
    rcases stringPush_isTextRecord (henv pid) hget.1 hget.2 hpush with ⟨hrecords, hgood, hcont⟩
    refine ⟨?_, by rw [← hbufs']; exact hbufs.insert pid hgood hcont⟩
    intro b hb
    rw [← hblocks, List.mem_map] at hb
    rcases hb with ⟨block, hblock, rfl⟩
    exact hrecords block hblock

theorem body_of_stackLine {sink : LineSink} {env : StackEnv} {block : Bytes} {pid : Pid}
    {l : K2hFtLine} (h : stackLine sink env block pid = some l) :
    sink.cvtPushData env.beyond block = some l.body := by
  unfold stackLine at h
  split at h
  · simp at h
  · split at h
    · simp at h
    · rename_i pOutput hcvt
      split at h
      · simp at h
      · unfold buildK2hFtLine at h
        split at h
        · split at h
          · rw [hcvt, ← Option.some.inj h]
          · simp at h
        · simp at h

theorem mem_stackLines {sink : LineSink} {env : Nat → StackEnv} {blocks : List (Pid × Bytes)}
    {l : K2hFtLine} (h : l ∈ stackLines sink env blocks) :
    ∃ b ∈ blocks, ∃ beyond, sink.cvtPushData beyond b.2 = some l.body := by
  induction blocks generalizing env with
  | nil =>
      simp [stackLines] at h
  | cons b blocks ih =>
      rcases b with ⟨pid, block⟩
      rw [stackLines, List.mem_append] at h
      rcases h with h | h
      · exact ⟨(pid, block), by simp, _, body_of_stackLine (Option.mem_toList.1 h)⟩
      · rcases ih h with ⟨b, hb, beyond, hbody⟩
        exact ⟨b, by simp [hb], beyond, hbody⟩

/-! ## Runs -/

/-- One thing that happens to a write buffer: a push, where no data forces the unfinished line out
and the invalid process stands for all, or a pop. -/
inductive BuffEvent
  | push (env : PushEnv) (data : Bytes) (pid : Pid)
  | pop

def BuffEvent.AllocOk : BuffEvent → Prop
  | .push env _ _ => env.AllocOk
  | .pop => True

/-- A step of a write buffer in text mode. -/
def textStep (limits : BuffLimits) (eng : RegexEngine) (pRule : K2hFtRule) (w : K2hFtWriteBuff) :
    BuffEvent → Option K2hFtWriteBuff
  | .push env data pid =>
      (w.push (ruleSink limits eng pRule) false env data pid).map Prod.snd
  | .pop => some w.pop.2

structure TextInv (w : K2hFtWriteBuff) : Prop where
  buffs : TextBuffs w.InputBuffMap
  records : ∀ l ∈ w.Stack, IsTextRecord l.body

theorem textStep_inv {limits : BuffLimits} {eng : RegexEngine} (heng : eng.MatchesInside)
    {pRule : K2hFtRule} (hrule : pRule.ReplacesByCString) {w w' : K2hFtWriteBuff} {e : BuffEvent}
    (hinv : TextInv w) (he : e.AllocOk) (h : textStep limits eng pRule w e = some w') :
    TextInv w' := by
  cases e with
  | push env data pid =>
      rcases Option.map_eq_some_iff.1 h with ⟨r, hpush, rfl⟩
      simp only [K2hFtWriteBuff.push, Option.bind_eq_bind, Option.bind_eq_some_iff, pure,
        Option.some.injEq] at hpush
      rcases hpush with ⟨⟨result, bufs', blocks⟩, hblocks, rfl⟩
      rcases pushBlocks_isTextRecord he hinv.buffs hblocks with ⟨hrecords, hbufs⟩
      refine ⟨hbufs, ?_⟩
      intro l hl
      rcases List.mem_append.1 hl with hl | hl
      · exact hinv.records l hl
      · rcases mem_stackLines hl with ⟨b, hb, beyond, hbody⟩
        exact cvtPushData_isTextRecord heng beyond hrule (hrecords b hb) hbody
  | pop =>
      rw [textStep, Option.some.injEq] at h
      rw [← h]
      exact ⟨hinv.buffs, by simp [K2hFtWriteBuff.pop]⟩

/-- In text mode every record on the stack of a handle has at least one byte, a NUL at its end and
no other NUL, in every state of every run. -/
theorem stacked_text_records (limits : BuffLimits) (eng : RegexEngine) (heng : eng.MatchesInside)
    (pRule : K2hFtRule) (hrule : pRule.ReplacesByCString) (events : List BuffEvent)
    (hok : ∀ e ∈ events, e.AllocOk) (w : K2hFtWriteBuff)
    (hrun : Transition.run (textStep limits eng pRule) K2hFtWriteBuff.fresh events = some w) :
    ∀ l ∈ w.Stack, 1 ≤ l.body.length ∧ l.body.getLast? = some 0 ∧ (0 : UInt8) ∉ l.body.dropLast := by
  have hfresh : TextInv K2hFtWriteBuff.fresh := ⟨textBuffs_empty, by simp [K2hFtWriteBuff.fresh]⟩
  have hpres : ∀ w e w', TextInv w → BuffEvent.AllocOk e →
      textStep limits eng pRule w e = some w' → TextInv w' := by
    intro w e w' hinv he hstep
    exact textStep_inv heng hrule hinv he hstep
  have hinv : TextInv w := Transition.invariant_run_of_guarded hpres
    (Transition.guarded_of_forall_mem _ K2hFtWriteBuff.fresh hok) hrun hfresh
  intro l hl
  rcases hinv.records l hl with ⟨s, hs, hnul⟩
  rw [hs]
  exact ⟨by simp, by simp, by simpa using hnul⟩

/-- An engine for the expression `a` on lines that begin with it. -/
def RegexEngine.leadingA : RegexEngine :=
  { regcomp := fun _ => true
    regexec := fun _ line =>
      if line.head? = some 97 then some fun n => if n = 0 then ⟨0, 1⟩ else ⟨-1, -1⟩ else none }

/-- Lines that begin with `a` pass as `a` twice and a colon. -/
def doublingRule : K2hFtRule :=
  { K2hFtRule.fresh with
    MatchingList :=
      [{ IsRegex := true
         BaseString := ascii "a"
         ReplaceList := [⟨0, []⟩, ⟨0, []⟩, ⟨-1, ascii ":"⟩] }] }

theorem leadingA_matchesInside : RegexEngine.leadingA.MatchesInside := by
  intro ptn line pmatches h n _
  simp only [RegexEngine.leadingA, Option.ite_none_right_eq_some, Option.some.injEq] at h
  rcases h with ⟨hhead, rfl⟩
  rcases line with _ | ⟨c, line⟩
  · simp at hhead
  · by_cases hn : n = 0 <;> simp [RegMatch.Inside, hn]

/-- Memory comes zeroed, and behind every block it holds other bytes. -/
def PushEnv.behind (beyond : Nat → UInt8) : PushEnv :=
  { PushEnv.zeroed with line := fun n => { PushEnv.zeroed.line n with beyond := beyond } }

theorem behind_allocOk (beyond : Nat → UInt8) : (PushEnv.behind beyond).AllocOk := zeroed_allocOk

/-- Process 1 writes `ab`, LF, `a` and is forced. -/
def doublingEvents : List BuffEvent :=
  [.push (PushEnv.behind fun _ => 7) (ascii "ab\na") 1, .push (PushEnv.behind fun _ => 7) [] 1]

theorem stacked_text_records_doubling :
    ∃ w, Transition.run (textStep BuffLimits.default RegexEngine.leadingA doublingRule)
        K2hFtWriteBuff.fresh doublingEvents = some w ∧ w.Stack.length = 2 ∧
      ∀ l ∈ w.Stack,
        1 ≤ l.body.length ∧ l.body.getLast? = some 0 ∧ (0 : UInt8) ∉ l.body.dropLast := by
  have hlen : (Transition.run (textStep BuffLimits.default RegexEngine.leadingA doublingRule)
      K2hFtWriteBuff.fresh doublingEvents).map (fun w => w.Stack.length) = some 2 := by
    decide +kernel
  rcases Option.map_eq_some_iff.1 hlen with ⟨w, hrun, hcount⟩
  refine ⟨w, hrun, hcount, ?_⟩
  refine stacked_text_records BuffLimits.default RegexEngine.leadingA leadingA_matchesInside
    doublingRule ?_ doublingEvents ?_ w hrun
  · intro ptn hptn rep hrep
    simp only [doublingRule, List.mem_singleton] at hptn
    subst hptn
    revert rep
    decide
  · intro e he
    simp only [doublingEvents, List.mem_cons, List.not_mem_nil, or_false] at he
    rcases he with rfl | rfl <;> exact behind_allocOk _

end K2hFtFuse

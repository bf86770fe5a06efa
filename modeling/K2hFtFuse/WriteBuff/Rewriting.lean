import K2hFtFuse.WriteBuff.TextRecords

/-!
# Rewriting — the line that a replacement makes

`build_replace_result_data` joins the parts of a replacement and ends the result like the line. The
end of the result is looked for in the line, at the length of the result: this is right as long as
the result is not longer than the text of the line.
-/

namespace K2hFtFuse

open ByteSeq Segmenter K2hFtBinBuff

/-! ## Lines -/

/-- A line as `StringPush` makes it: a NUL at its end and nowhere else, CR or LF at most right before
it. -/
structure IsTextLine (text data : Bytes) : Prop where
  data_eq : data = text ++ [0]
  noNul : (0 : UInt8) ∉ text
  noEol : ∀ c ∈ text.dropLast, c ≠ CR ∧ c ≠ LF

theorem notCrLf_of_notEol {c : UInt8} (h : isEol c = false) : c ≠ CR ∧ c ≠ LF := by
  simp only [isEol, Bool.or_eq_false_iff, beq_eq_false_iff_ne] at h
  exact ⟨h.1.2, h.1.1⟩

theorem isTextLine_of_notEol {t : Bytes} (ht : ∀ c ∈ t, isEol c = false) :
    IsTextLine t (t ++ [0]) := by
  refine ⟨rfl, nul_notMem_of_notEol ht, ?_⟩
  intro c hc
  exact notCrLf_of_notEol (ht c (List.dropLast_subset t hc))

theorem isTextLine_segment {s : Bytes} (h : IsSegment isEol s) :
    ∃ text, IsTextLine text (terminate s) := by
  rcases h with ⟨t, x, rfl, -, ht⟩
  by_cases hx : x = 0
  · subst hx
    refine ⟨t, ?_⟩
    simpa [terminate] using isTextLine_of_notEol ht
  · have hx' : ¬ (0 : UInt8) = x := fun h => hx h.symm
    refine ⟨t ++ [x], ?_, ?_, ?_⟩
    · simp [terminate, hx]
    · simp [nul_notMem_of_notEol ht, hx']
    · intro c hc
      rw [List.dropLast_concat] at hc
      exact notCrLf_of_notEol (ht c hc)

/-- The blocks of a text push are such lines. -/
theorem isTextLine_of_mem_textPush {carry : Bytes} (hcarry : ∀ c ∈ carry, isEol c = false)
    (data : Bytes) : ∀ b ∈ (textPush carry data).1, ∃ text, IsTextLine text b := by
  intro b hb
  by_cases hnil : data = []
  · simp only [textPush, if_pos hnil] at hb
    split at hb
    · simp at hb
    · rw [List.mem_singleton] at hb
      have hlast : carry.getLast? ≠ some 0 := fun hl =>
        nul_notMem_of_notEol hcarry (List.mem_of_getLast? hl)
      refine ⟨carry, ?_⟩
      rw [hb, terminate, if_neg hlast]
      exact isTextLine_of_notEol hcarry
  · simp only [textPush, if_neg hnil] at hb
    rcases List.mem_map.1 hb with ⟨s, hs, rfl⟩
    exact isTextLine_segment (segment_of_mem_cut isEol hcarry _ s hs)

/-! ## What a replacement says -/

/-- The slice of a match; nothing for a group that is not set. -/
def matchedSlice (data : Bytes) (m : RegMatch) : Bytes :=
  if m.rm_eo = -1 then [] else (data.drop m.rm_so.toNat).take (m.rm_eo - m.rm_so).toNat

def K2hFtRepPtn.expand (data : Bytes) (pmatches : Nat → RegMatch) (ptn : K2hFtRepPtn) : Bytes :=
  if ptn.matchno < 0 then ptn.substring else matchedSlice data (pmatches ptn.matchno.toNat)

/-- The parts of a replacement in their order. -/
def expandedText (replist : List K2hFtRepPtn) (data : Bytes) (pmatches : Nat → RegMatch) : Bytes :=
  replist.flatMap (K2hFtRepPtn.expand data pmatches)

/-- The line end of a text: CR when it has one, else LF. -/
def lineEnd (text : Bytes) : UInt8 := if text.getLast? = some CR then CR else LF

/-! ## What is read -/

/-- The offsets that a scan from `len` back over the NULs reads. -/
def scanReads (byteAt : Nat → UInt8) : Nat → List Int
  | 0 => []
  | len + 1 => (len : Int) :: if byteAt len = 0 then scanReads byteAt len else []

/-- The offsets of `data` that `append_lastword` reads. -/
def appendLastwordReads (beyond : Nat → UInt8) (tgdata data : Bytes) : List Int :=
  let byteAt := fun i => data.getD i (beyond i)
  let lastpos := data.length - trailingNuls byteAt data.length
  scanReads byteAt data.length ++
    (if lastpos = 0 then []
      else if byteAt (lastpos - 1) = CR ∧ 2 < data.length then [(lastpos : Int) - 1, (lastpos : Int) - 2]
      else [(lastpos : Int) - 1]) ++
    scanReads byteAt tgdata.length

/-- The offsets of the line that `append_substring` copies for a group. -/
def matchReads (m : RegMatch) : List Int :=
  if m.rm_eo = -1 then []
  else (List.range (m.rm_eo - m.rm_so).toNat).map fun i : Nat => m.rm_so + i

/-- The offsets of the line that `build_replace_result_data` reads. -/
def replaceReads (beyond : Nat → UInt8) (replist : List K2hFtRepPtn) (data : Bytes)
    (pmatches : Nat → RegMatch) : List Int :=
  (replist.filter fun ptn => decide (0 ≤ ptn.matchno)).flatMap
      (fun ptn => matchReads (pmatches ptn.matchno.toNat)) ++
    appendLastwordReads beyond (expandedText replist data pmatches) data

/-! ## The parts -/

/-- The body of the loop over the replacement. -/
def appendPart (data : Bytes) (pmatches : Nat → RegMatch) (presult : Option Bytes)
    (ptn : K2hFtRepPtn) : Option Bytes := do
  let tgdata ← presult
  if K2HTFT_MAX_REG_MATCH ≤ ptn.matchno then
    none
  else if ptn.matchno < 0 then
    appendSubstring tgdata ptn.substring ⟨0, ptn.substring.length⟩
  else
    appendSubstring tgdata data (pmatches ptn.matchno.toNat)

theorem buildReplaceResultData_eq (beyond : Nat → UInt8) (replist : List K2hFtRepPtn)
    (data : Bytes) (pmatches : Nat → RegMatch) :
    buildReplaceResultData beyond replist data pmatches =
      (replist.foldl (appendPart data pmatches) (some [])).map
        fun tgdata => appendLastword beyond tgdata data := rfl

theorem appendSubstring_inside {data : Bytes} {m : RegMatch} (hm : m.Inside data)
    (tgdata : Bytes) : appendSubstring tgdata data m = some (tgdata ++ matchedSlice data m) := by
  unfold appendSubstring matchedSlice
  rcases hm with hunset | ⟨hlow, hle, hhigh⟩
  · simp [hunset]
  · rw [if_neg (by omega), if_neg (by omega), if_neg (by omega)]

theorem RegMatch.Inside.append {m : RegMatch} {text : Bytes} (hm : m.Inside text) (more : Bytes) :
    m.Inside (text ++ more) := by
  rcases hm with hunset | ⟨hlow, hle, hhigh⟩
  · exact .inl hunset
  · refine .inr ⟨hlow, hle, ?_⟩
    rw [List.length_append]
    omega

variable {text data : Bytes} {replist : List K2hFtRepPtn} {pmatches : Nat → RegMatch}

theorem foldl_appendPart (hlist : ∀ ptn ∈ replist, ptn.matchno < K2HTFT_MAX_REG_MATCH)
    (hpm : ∀ n : Nat, (n : Int) < K2HTFT_MAX_REG_MATCH → (pmatches n).Inside data)
    (tgdata : Bytes) :
    replist.foldl (appendPart data pmatches) (some tgdata) =
      some (tgdata ++ expandedText replist data pmatches) := by
  induction replist generalizing tgdata with
  | nil =>
      simp [expandedText]
  | cons ptn replist ih =>
      have hno : ptn.matchno < K2HTFT_MAX_REG_MATCH := hlist ptn (by simp)
      have hstep : appendPart data pmatches (some tgdata) ptn =
          some (tgdata ++ ptn.expand data pmatches) := by
        by_cases hstatic : ptn.matchno < 0
        · -- static text is appended as a match of its whole length
          have hwhole : RegMatch.Inside ⟨0, ptn.substring.length⟩ ptn.substring :=
            .inr ⟨le_rfl, by simp, le_rfl⟩
          have hslice : matchedSlice ptn.substring ⟨0, ptn.substring.length⟩ = ptn.substring := by
            have hset : ((ptn.substring.length : Nat) : Int) ≠ -1 := by omega
            simp [matchedSlice, hset]
          simp only [appendPart, Option.bind_eq_bind, Option.bind_some, if_neg (not_le.2 hno),
            if_pos hstatic, appendSubstring_inside hwhole, hslice, K2hFtRepPtn.expand]
        · have hn : ((ptn.matchno.toNat : Nat) : Int) < K2HTFT_MAX_REG_MATCH := by omega
          simp only [appendPart, Option.bind_eq_bind, Option.bind_some, if_neg (not_le.2 hno),
            if_neg hstatic, appendSubstring_inside (hpm _ hn), K2hFtRepPtn.expand]
      rw [List.foldl_cons, hstep, ih fun p hp => hlist p (by simp [hp])]
      simp [expandedText]

/-! ## The end of the result -/

theorem trailingNuls_succ_of_ne {byteAt : Nat → UInt8} {len : Nat} (h : byteAt len ≠ 0) :
    trailingNuls byteAt (len + 1) = 0 := by
  simp [trailingNuls, h]

/-- The bytes of a line at the offsets of its text, whatever stands behind the line. -/
theorem getD_text (hline : IsTextLine text data) (beyond : Nat → UInt8) {i : Nat}
    (hi : i < text.length) : data.getD i (beyond i) = text[i] := by
  rw [hline.data_eq, List.getD_eq_getElem?_getD, List.getElem?_append_left hi,
    List.getElem?_eq_getElem hi]
  rfl

theorem getD_text_ne_nul (hline : IsTextLine text data) (beyond : Nat → UInt8) {i : Nat}
    (hi : i < text.length) : data.getD i (beyond i) ≠ 0 := by
  rw [getD_text hline beyond hi]
  exact fun h => hline.noNul (h ▸ List.getElem_mem hi)

theorem getD_nul (hline : IsTextLine text data) (beyond : Nat → UInt8) :
    data.getD text.length (beyond text.length) = 0 := by
  rw [hline.data_eq]
  simp [List.getD_eq_getElem?_getD]

/-- A scan from inside the text stops at once. -/
theorem trailingNuls_text (hline : IsTextLine text data) (beyond : Nat → UInt8) {len : Nat}
    (hlen : len ≤ text.length) : trailingNuls (fun i => data.getD i (beyond i)) len = 0 := by
  rcases len with _ | len
  · rfl
  · exact trailingNuls_succ_of_ne (getD_text_ne_nul hline beyond hlen)

theorem trailingNuls_line (hline : IsTextLine text data) (beyond : Nat → UInt8) :
    trailingNuls (fun i => data.getD i (beyond i)) data.length = 1 := by
  have hlen : data.length = text.length + 1 := by simp [hline.data_eq]
  rw [hlen, trailingNuls, if_pos (getD_nul hline beyond), trailingNuls_text hline beyond le_rfl]

theorem scanReads_inside (data : Bytes) (beyond : Nat → UInt8) {len : Nat}
    (hlen : len ≤ data.length) :
    ∀ i ∈ scanReads (fun i => data.getD i (beyond i)) len, 0 ≤ i ∧ i < (data.length : Int) := by
  induction len with
  | zero =>
      simp [scanReads]
  | succ len ih =>
      intro i hi
      rcases List.mem_cons.1 hi with rfl | hi
      · omega
      · split at hi
        · exact ih (by omega) i hi
        · simp at hi

/-- The last character of a text, at its offset. -/
theorem getD_last (hline : IsTextLine text data) (beyond : Nat → UInt8) (hne : text ≠ []) :
    text.getLast? = some (data.getD (text.length - 1) (beyond (text.length - 1))) := by
  have hpos : 0 < text.length := List.length_pos_iff.2 hne
  have hlast : text.length - 1 < text.length := by omega
  rw [getD_text hline beyond hlast, List.getLast?_eq_getElem?, List.getElem?_eq_getElem hlast]

/-- A line has no LF before its last character. -/
theorem getD_before_last (hline : IsTextLine text data) (beyond : Nat → UInt8)
    (hlen : 2 ≤ text.length) : data.getD (text.length - 2) (beyond (text.length - 2)) ≠ LF := by
  have hlast : text.length - 2 < text.length := by omega
  have hdrop : text.length - 2 < text.dropLast.length := by
    rw [List.length_dropLast]
    omega
  have hget : text.dropLast[text.length - 2] = text[text.length - 2] :=
    List.getElem_dropLast hdrop
  rw [getD_text hline beyond hlast, ← hget]
  exact (hline.noEol _ (List.getElem_mem hdrop)).2

/-- `append_lastword` on a line: what is left of the target, the line end, NUL. -/
theorem appendLastword_line (hline : IsTextLine text data) (beyond : Nat → UInt8)
    (tgdata : Bytes) :
    appendLastword beyond tgdata data =
      tgdata.take (tgdata.length -
          trailingNuls (fun i => data.getD i (beyond i)) tgdata.length) ++
        [lineEnd text, 0] := by
  have hlen : data.length = text.length + 1 := by simp [hline.data_eq]
  have hword : (if text.length = 0 then [LF]
      else if data.getD (text.length - 1) (beyond (text.length - 1)) = LF then [LF]
      else if data.getD (text.length - 1) (beyond (text.length - 1)) = CR then
        if 2 < data.length ∧ data.getD (text.length - 2) (beyond (text.length - 2)) = LF then
          [CR, LF]
        else [CR]
      else [LF]) = [lineEnd text] := by
    by_cases hnil : text = []
    · simp [hnil, lineEnd]
    · have hpos : text.length ≠ 0 := fun h => hnil (List.length_eq_zero_iff.1 h)
      -- before a CR the code looks for an LF, which no line has there
      have hcrlf : ¬ (2 < data.length ∧
          data.getD (text.length - 2) (beyond (text.length - 2)) = LF) := by
        rintro ⟨htwo, hlf⟩
        exact getD_before_last hline beyond (by omega) hlf
      rw [if_neg hpos, if_neg hcrlf, lineEnd, getD_last hline beyond hnil]
      by_cases hcr : data.getD (text.length - 1) (beyond (text.length - 1)) = CR
      · rw [hcr]
        rfl
      · simp only [Option.some.injEq, if_neg hcr, ite_self]
  have hpos : data.length - trailingNuls (fun i => data.getD i (beyond i)) data.length =
      text.length := by
    rw [trailingNuls_line hline beyond, hlen, Nat.add_sub_cancel]
  unfold appendLastword
  simp only [hpos]
  rw [hword, List.append_assoc, List.singleton_append]

theorem appendLastwordReads_inside (hline : IsTextLine text data) (beyond : Nat → UInt8)
    {tgdata : Bytes} (htarget : tgdata.length ≤ data.length) :
    ∀ i ∈ appendLastwordReads beyond tgdata data, 0 ≤ i ∧ i < (data.length : Int) := by
  have hlen : data.length = text.length + 1 := by simp [hline.data_eq]
  intro i hi
  simp only [appendLastwordReads, trailingNuls_line hline beyond] at hi
  rcases List.mem_append.1 hi with hi | hi
  · rcases List.mem_append.1 hi with hi | hi
    · exact scanReads_inside data beyond le_rfl i hi
    · split at hi
      · simp at hi
      · split at hi
        · rename_i htwo
          simp only [List.mem_cons, List.not_mem_nil, or_false] at hi
          omega
        · simp only [List.mem_cons, List.not_mem_nil, or_false] at hi
          omega
  · exact scanReads_inside data beyond htarget i hi

theorem matchReads_inside {m : RegMatch} (hm : m.Inside text) :
    ∀ i ∈ matchReads m, 0 ≤ i ∧ i < (text.length : Int) := by
  intro i hi
  unfold matchReads at hi
  rcases hm with hunset | ⟨hlow, hle, hhigh⟩
  · simp [hunset] at hi
  · rw [if_neg (by omega)] at hi
    rcases List.mem_map.1 hi with ⟨k, hk, rfl⟩
    rw [List.mem_range] at hk
    omega

/-! ## The whole replacement -/

/-- The result as it should be, with nothing read outside the line. -/
def Rewritten (replist : List K2hFtRepPtn) (text data : Bytes) (pmatches : Nat → RegMatch)
    (beyond : Nat → UInt8) : Prop :=
  buildReplaceResultData beyond replist data pmatches =
      some (expandedText replist data pmatches ++ [lineEnd text, 0]) ∧
    ∀ i ∈ replaceReads beyond replist data pmatches, 0 ≤ i ∧ i < (data.length : Int)

/-- The expanded text with the line end, as `append_lastword` leaves it. -/
theorem buildReplaceResultData_expanded (hline : IsTextLine text data)
    (hlist : ∀ ptn ∈ replist, ptn.matchno < K2HTFT_MAX_REG_MATCH)
    (hpm : ∀ n : Nat, (n : Int) < K2HTFT_MAX_REG_MATCH → (pmatches n).Inside text)
    (beyond : Nat → UInt8) :
    buildReplaceResultData beyond replist data pmatches =
      some (appendLastword beyond (expandedText replist data pmatches) data) := by
  have hpm' : ∀ n : Nat, (n : Int) < K2HTFT_MAX_REG_MATCH → (pmatches n).Inside data := by
    intro n hn
    rw [hline.data_eq]
    exact (hpm n hn).append [0]
  rw [buildReplaceResultData_eq, foldl_appendPart hlist hpm' [], List.nil_append]
  rfl

/-- With a short expanded text nothing is read outside the line. -/
theorem replaceReads_inside (hline : IsTextLine text data)
    (hlist : ∀ ptn ∈ replist, ptn.matchno < K2HTFT_MAX_REG_MATCH)
    (hpm : ∀ n : Nat, (n : Int) < K2HTFT_MAX_REG_MATCH → (pmatches n).Inside text)
    (hshort : (expandedText replist data pmatches).length ≤ text.length) (beyond : Nat → UInt8) :
    ∀ i ∈ replaceReads beyond replist data pmatches, 0 ≤ i ∧ i < (data.length : Int) := by
  have hlen : data.length = text.length + 1 := by simp [hline.data_eq]
  intro i hi
  rcases List.mem_append.1 hi with hi | hi
  · -- a read of a match
    rcases List.mem_flatMap.1 hi with ⟨ptn, hptn, hi⟩
    rcases List.mem_filter.1 hptn with ⟨hmem, hgroup⟩
    have hno := hlist ptn hmem
    have hgroup' : 0 ≤ ptn.matchno := of_decide_eq_true hgroup
    have hn : ((ptn.matchno.toNat : Nat) : Int) < K2HTFT_MAX_REG_MATCH := by omega
    have hin := matchReads_inside (hpm _ hn) i hi
    omega
  · exact appendLastwordReads_inside hline beyond (by omega) i hi

/-- The replacement is right, whatever stands behind the line in memory, exactly when the expanded
text is not longer than the text of the line. -/
theorem rewritten_iff (hline : IsTextLine text data)
    (hlist : ∀ ptn ∈ replist, ptn.matchno < K2HTFT_MAX_REG_MATCH)
    (hpm : ∀ n : Nat, (n : Int) < K2HTFT_MAX_REG_MATCH → (pmatches n).Inside text) :
    (∀ beyond, Rewritten replist text data pmatches beyond) ↔
      (expandedText replist data pmatches).length ≤ text.length := by
  have hlen : data.length = text.length + 1 := by simp [hline.data_eq]
  constructor
  · intro h
    by_contra hlong
    rcases h fun _ => 0 with ⟨hresult, hreads⟩
    rw [buildReplaceResultData_expanded hline hlist hpm] at hresult
    generalize hexp : expandedText replist data pmatches = expanded at hresult hlong
    -- the scan for the end of the target starts with the byte before its length
    have hread : ((expanded.length - 1 : Nat) : Int) < (data.length : Int) := by
      refine (hreads _ ?_).2
      rw [replaceReads, hexp, appendLastwordReads]
      refine List.mem_append_right _ (List.mem_append_right _ ?_)
      rcases hcase : expanded.length with _ | m
      · omega
      · simp [scanReads]
    have hfull : expanded.length = text.length + 1 := by omega
    -- that byte is the NUL of the line, and the last character of the target goes
    rw [appendLastword_line hline, hfull, trailingNuls,
      if_pos (getD_nul hline fun _ => 0)] at hresult
    have hlength := congrArg List.length (Option.some.inj hresult)
    simp only [List.length_append, List.length_take] at hlength
    omega
  · intro hshort beyond
    refine ⟨?_, replaceReads_inside hline hlist hpm hshort beyond⟩
    rw [buildReplaceResultData_expanded hline hlist hpm, appendLastword_line hline,
      trailingNuls_text hline beyond hshort]
    simp

/-- The line `ERROR` with the replacement of its first group by `E:$1`. -/
theorem rewritten_iff_error :
    (∀ beyond, Rewritten [⟨-1, ascii "E:"⟩, ⟨1, []⟩] (ascii "ERROR x") (ascii "ERROR x" ++ [0])
        (fun n => if n = 1 then ⟨0, 5⟩ else ⟨-1, -1⟩) beyond) ↔
      (expandedText [⟨-1, ascii "E:"⟩, ⟨1, []⟩] (ascii "ERROR x" ++ [0])
        (fun n => if n = 1 then ⟨0, 5⟩ else ⟨-1, -1⟩)).length ≤ (ascii "ERROR x").length := by
  refine rewritten_iff ⟨rfl, by decide +kernel, by decide +kernel⟩ (by decide) ?_
  intro n _
  by_cases h : n = 1
  · rw [if_pos h]
    exact .inr ⟨by decide, by decide, by decide +kernel⟩
  · rw [if_neg h]
    exact .inl rfl

/-- An expanded text of the length of the line loses its last character: `ab` becomes `xyz`, and the
result is `xy`. -/
theorem expanded_loses_last :
    buildReplaceResultData (fun _ => 0) [⟨-1, ascii "xyz"⟩] (ascii "ab" ++ [0])
        (fun _ => ⟨-1, -1⟩) = some (ascii "xy" ++ [LF, 0]) ∧
      expandedText [⟨-1, ascii "xyz"⟩] (ascii "ab" ++ [0]) (fun _ => ⟨-1, -1⟩) ++
          [lineEnd (ascii "ab"), 0] = ascii "xyz" ++ [LF, 0] := by
  decide +kernel

end K2hFtFuse

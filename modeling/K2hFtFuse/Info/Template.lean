import K2hFtFuse.Info.Text
import Mathlib.Data.List.TakeWhile
import Mathlib.Dynamics.PeriodicPts.Defs

/-!
# Info.Template — the replacement templates

What a replacement between double quotes may be is the relation `Template`; the loop of
`build_k2hft_match_pattern` is compared with it. The loop reads the digits behind `$` as `runNumber`,
which adds for each digit the value of all digits from there on.
-/

namespace K2hFtFuse

open ByteSeq

/-! ## Templates -/

/-- A part of a template. The digits of a group are the whole run behind its `$`. -/
inductive TemplatePart where
  | literal (c : UInt8)
  | whole
  | group (digits : Bytes)
  deriving DecidableEq

/-- The characters that stand for something else in a template: backslash, double quote, ampersand
and dollar. -/
def isTemplateSign (c : UInt8) : Bool := c == 92 || c == 34 || c == 38 || c == 36

/-- A text is not continued by a digit. -/
def NoDigit (rest : Bytes) : Prop := ∀ c, rest.head? = some c → isdigit c = false

/-- The text behind the opening quote of a template, and its parts. -/
inductive Template : Bytes → List TemplatePart → Prop where
  | close : Template [34] []
  | plain {c : UInt8} {rest : Bytes} {parts : List TemplatePart} :
      isTemplateSign c = false → Template rest parts → Template (c :: rest) (.literal c :: parts)
  | escape {c : UInt8} {rest : Bytes} {parts : List TemplatePart} :
      Template rest parts → Template (92 :: c :: rest) (.literal c :: parts)
  | whole {rest : Bytes} {parts : List TemplatePart} :
      Template rest parts → Template (38 :: rest) (.whole :: parts)
  | group {digits rest : Bytes} {parts : List TemplatePart} :
      digits ≠ [] → (∀ c ∈ digits, isdigit c = true) → NoDigit rest → Template rest parts →
        Template (36 :: (digits ++ rest)) (.group digits :: parts)

/-- The digit runs of a template. -/
def groupRuns : List TemplatePart → List Bytes
  | [] => []
  | .literal _ :: parts => groupRuns parts
  | .whole :: parts => groupRuns parts
  | .group digits :: parts => digits :: groupRuns parts

/-- The replacement list of a template: its references, with the literal text between them as static
parts; `text` is the literal text since the last reference. -/
def replaceParts (number : Bytes → Int) : Bytes → List TemplatePart → List K2hFtRepPtn
  | text, [] => flushStatic text []
  | text, .literal c :: parts => replaceParts number (text ++ [c]) parts
  | text, .whole :: parts =>
      flushStatic text [] ++ { matchno := 0, substring := [] } :: replaceParts number [] parts
  | text, .group digits :: parts =>
      flushStatic text [] ++
        { matchno := number digits, substring := [] } :: replaceParts number [] parts

theorem flushStatic_eq_append (text : Bytes) (list : List K2hFtRepPtn) :
    flushStatic text list = list ++ flushStatic text [] := by
  unfold flushStatic
  split <;> simp

/-- The replacement list tells the number of every group. -/
theorem replaceParts_inj {f g : Bytes → Int} {parts : List TemplatePart} {text : Bytes}
    (h : replaceParts f text parts = replaceParts g text parts) :
    ∀ run ∈ groupRuns parts, f run = g run := by
  induction parts generalizing text with
  | nil =>
      simp [groupRuns]
  | cons part parts ih =>
      cases part with
      | literal c =>
          exact ih h
      | whole =>
          have hrest := List.append_cancel_left h
          exact ih (List.cons.inj hrest).2
      | group digits =>
          have hrest := List.cons.inj (List.append_cancel_left h)
          have hnumber : f digits = g digits := congrArg K2hFtRepPtn.matchno hrest.1
          intro run hrun
          rcases List.mem_cons.1 hrun with rfl | hrun
          · exact hnumber
          · exact ih hrest.2 run hrun

theorem replaceParts_congr {f g : Bytes → Int} {parts : List TemplatePart} {text : Bytes}
    (h : ∀ run ∈ groupRuns parts, f run = g run) :
    replaceParts f text parts = replaceParts g text parts := by
  induction parts generalizing text with
  | nil => rfl
  | cons part parts ih =>
      cases part with
      | literal c =>
          exact ih h
      | whole =>
          rw [replaceParts, replaceParts, ih h]
      | group digits =>
          have hrest : ∀ run ∈ groupRuns parts, f run = g run := fun run hrun =>
            h run (List.mem_cons_of_mem _ hrun)
          rw [replaceParts, replaceParts, ih hrest, h digits List.mem_cons_self]

/-! ### A text has one reading -/

theorem append_digits_inj {d₁ d₂ r₁ r₂ : Bytes} (h₁ : ∀ c ∈ d₁, isdigit c = true)
    (h₂ : ∀ c ∈ d₂, isdigit c = true) (hr₁ : NoDigit r₁) (hr₂ : NoDigit r₂)
    (h : d₁ ++ r₁ = d₂ ++ r₂) : d₁ = d₂ ∧ r₁ = r₂ := by
  induction d₁ generalizing d₂ with
  | nil =>
      rcases d₂ with _ | ⟨c, d₂⟩
      · exact ⟨rfl, h⟩
      · have hc := hr₁ c (by rw [← List.nil_append r₁, h]; rfl)
        exact absurd (h₂ c (by simp)) (by simp [hc])
  | cons c d₁ ih =>
      rcases d₂ with _ | ⟨c', d₂⟩
      · have hc := hr₂ c (by rw [← List.nil_append r₂, ← h]; rfl)
        exact absurd (h₁ c (by simp)) (by simp [hc])
      · simp only [List.cons_append, List.cons.injEq] at h
        have hrest := ih (fun x hx => h₁ x (by simp [hx])) (fun x hx => h₂ x (by simp [hx])) h.2
        exact ⟨by rw [h.1, hrest.1], hrest.2⟩

theorem Template.unique {s : Bytes} {p₁ p₂ : List TemplatePart} (h₁ : Template s p₁)
    (h₂ : Template s p₂) : p₁ = p₂ := by
  induction h₁ generalizing p₂ with
  | close =>
      cases h₂ with
      | close => rfl
      | plain hsign _ => simp [isTemplateSign] at hsign
  | plain hsign _ ih =>
      cases h₂ with
      | close => simp [isTemplateSign] at hsign
      | plain _ h => rw [ih h]
      | escape _ => simp [isTemplateSign] at hsign
      | whole _ => simp [isTemplateSign] at hsign
      | group _ _ _ _ => simp [isTemplateSign] at hsign
  | escape _ ih =>
      cases h₂ with
      | plain hsign _ => simp [isTemplateSign] at hsign
      | escape h => rw [ih h]
  | whole _ ih =>
      cases h₂ with
      | plain hsign _ => simp [isTemplateSign] at hsign
      | whole h => rw [ih h]
  | @group digits rest parts _ hdigits hrest _ ih =>
      -- `cases` needs the text as a variable: `digits ++ rest` is no constructor
      generalize hs : 36 :: (digits ++ rest) = s at h₂
      cases h₂ with
      | close => cases hs
      | plain hsign _ =>
          rw [← (List.cons.inj hs).1] at hsign
          simp [isTemplateSign] at hsign
      | escape _ => simp at hs
      | whole _ => simp at hs
      | group _ hdigits' hrest' h =>
          have hsame := append_digits_inj hdigits hdigits' hrest hrest' (List.cons.inj hs).2
          rw [hsame.1]
          rw [← hsame.2] at h
          rw [ih h]

/-! ## The numbers that are read -/

/-- The value that the digits add up to in 32 bits. -/
def runNumber (number : Int32) : Bytes → Int32
  | [] => number
  | c :: rest =>
      runNumber ((if number = -1 then 0 else number) * 10 +
        Int32.ofInt (min (digitsValue (c :: rest) : Int) (2 ^ 63 - 1))) rest

theorem takeWhile_digits {digits rest : Bytes} (hdigits : ∀ c ∈ digits, isdigit c = true)
    (hrest : NoDigit rest) : (digits ++ rest).takeWhile isdigit = digits := by
  rw [List.takeWhile_append_of_pos hdigits]
  rcases rest with _ | ⟨c, rest⟩
  · simp
  · simp [hrest c rfl]

theorem atoi_digits {c : UInt8} {digits rest : Bytes} (hc : isdigit c = true)
    (hdigits : ∀ d ∈ digits, isdigit d = true) (hrest : NoDigit rest) :
    atoi (c :: (digits ++ rest)) =
      Int32.ofInt (min (digitsValue (c :: digits) : Int) (2 ^ 63 - 1)) := by
  have hrange : 48 ≤ c.toNat ∧ c.toNat ≤ 57 := by
    simpa [isdigit, UInt8.le_iff_toNat_le] using hc
  -- a digit is no blank and no sign, so `strtol` starts to read at it
  have hspace : isspace c = false := by
    rw [isspace, Bool.or_eq_false_iff, Bool.and_eq_false_iff, beq_eq_false_iff_ne]
    refine ⟨?_, .inr ?_⟩
    · rintro rfl
      simp at hrange
    · rw [decide_eq_false_iff_not, UInt8.le_iff_toNat_le]
      simp only [UInt8.reduceToNat]
      omega
  have hneg : c ≠ 45 := by
    rintro rfl
    simp at hrange
  have hpos : c ≠ 43 := by
    rintro rfl
    simp at hrange
  have htake : (c :: (digits ++ rest)).takeWhile isdigit = c :: digits := by
    rw [List.takeWhile_cons, hc, takeWhile_digits hdigits hrest]
    rfl
  simp [atoi, strtol, hspace, hneg, hpos, htake]

theorem dollarNumber_digits {digits rest : Bytes} (hdigits : ∀ c ∈ digits, isdigit c = true)
    (hrest : NoDigit rest) (number : Int32) (count : Nat) :
    dollarNumber number count (digits ++ rest) =
      (runNumber number digits, count + digits.length) := by
  induction digits generalizing number count with
  | nil =>
      rcases rest with _ | ⟨c, rest⟩
      · rfl
      · simp [dollarNumber, hrest c rfl, runNumber]
  | cons c digits ih =>
      have hc : isdigit c = true := hdigits c (by simp)
      have hdigits' : ∀ d ∈ digits, isdigit d = true := fun d hd => hdigits d (by simp [hd])
      rw [List.cons_append, dollarNumber, if_pos hc, ih hdigits', atoi_digits hc hdigits' hrest]
      simp only [runNumber, List.length_cons]
      congr 1
      omega

/-! ## The loop -/

theorem parseReplace_skip (digits rest text : Bytes) (list : List K2hFtRepPtn) :
    parseReplace digits.length false text list (digits ++ rest) =
      parseReplace 0 false text list rest := by
  induction digits with
  | nil => rfl
  | cons c digits ih =>
      simpa [parseReplace] using ih

/-- The loop takes a number that is not over the maximum, and a negative one too. -/
def RunAccepted (run : Bytes) : Prop :=
  runNumber (-1) run ≠ -1 ∧ (runNumber (-1) run).toInt ≤ INI_K2HFT_MAX_REPLACE_NUMBER

instance instDecidableRunAccepted (run : Bytes) : Decidable (RunAccepted run) := by
  unfold RunAccepted
  infer_instance

theorem parseReplace_group {digits rest : Bytes} (hdigits : ∀ c ∈ digits, isdigit c = true)
    (hrest : NoDigit rest) (text : Bytes) (list : List K2hFtRepPtn) :
    parseReplace 0 false text list (36 :: (digits ++ rest)) =
      if RunAccepted digits then
        parseReplace 0 false []
          (flushStatic text list ++
            [{ matchno := (runNumber (-1) digits).toInt, substring := [] }]) rest
      else
        none := by
  have hnumber := dollarNumber_digits hdigits hrest (-1) 0
  rw [Nat.zero_add] at hnumber
  rw [← parseReplace_skip digits rest]
  -- the two checks of the loop: no digit was read, or the number is over the maximum
  by_cases hnone : runNumber (-1) digits = -1
  · simp [parseReplace, hnumber, hnone, RunAccepted]
  · by_cases hmax : INI_K2HFT_MAX_REPLACE_NUMBER < (runNumber (-1) digits).toInt
    · simp [parseReplace, hnumber, hnone, RunAccepted, hmax]
    · simp [parseReplace, hnumber, hnone, RunAccepted, hmax, not_lt.1 hmax]

/-- The loop on a template: it takes the template if it takes the number of every group, and then
the parts follow with these numbers. -/
theorem parseReplace_template {s : Bytes} {parts : List TemplatePart} (h : Template s parts)
    (text : Bytes) (list : List K2hFtRepPtn) :
    parseReplace 0 false text list s =
      if ∀ run ∈ groupRuns parts, RunAccepted run then
        some (list ++ replaceParts (fun run => (runNumber (-1) run).toInt) text parts)
      else
        none := by
  induction h generalizing text list with
  | close =>
      simpa [parseReplace, groupRuns, replaceParts] using flushStatic_eq_append text list
  | @plain c rest parts hsign _ ih =>
      simp only [isTemplateSign, Bool.or_eq_false_iff, beq_eq_false_iff_ne] at hsign
      -- one round of the loop, as in the cases below
      have hloop : parseReplace 0 false text list (c :: rest) =
          parseReplace 0 false (text ++ [c]) list rest := by
        simp [parseReplace, hsign.1.1.1, hsign.1.1.2, hsign.1.2, hsign.2]
      rw [hloop, ih]
      rfl
  | @escape c rest parts _ ih =>
      have hloop : parseReplace 0 false text list (92 :: c :: rest) =
          parseReplace 0 false (text ++ [c]) list rest := by
        simp [parseReplace]
      rw [hloop, ih]
      rfl
  | @whole rest parts _ ih =>
      -- the literal text before `&` goes into a part of its own
      have hloop : parseReplace 0 false text list (38 :: rest) =
          parseReplace 0 false [] (flushStatic text list ++ [{ matchno := 0, substring := [] }])
            rest := by
        simp [parseReplace]
      have hrepl : list ++ replaceParts (fun run => (runNumber (-1) run).toInt) text
            (.whole :: parts) =
          flushStatic text list ++ [{ matchno := 0, substring := [] }] ++
            replaceParts (fun run => (runNumber (-1) run).toInt) [] parts := by
        rw [flushStatic_eq_append text list, replaceParts]
        simp
      rw [hloop, ih, hrepl]
      rfl
  | @group digits rest parts _ hdigits hrest _ ih =>
      rw [parseReplace_group hdigits hrest]
      by_cases haccept : RunAccepted digits
      · rw [if_pos haccept, ih, flushStatic_eq_append]
        simp [groupRuns, replaceParts, haccept]
      · simp [groupRuns, haccept]

/-- What the loop takes is a template. -/
theorem template_of_parseReplace {s : Bytes} {text : Bytes} {list result : List K2hFtRepPtn}
    (h : parseReplace 0 false text list s = some result) : ∃ parts, Template s parts := by
  induction hn : s.length using Nat.strong_induction_on generalizing s text list with
  | _ n ih =>
      subst hn
      rcases s with _ | ⟨c, rest⟩
      · simp [parseReplace] at h
      · by_cases hescape : c = 92
        · subst hescape
          rcases rest with _ | ⟨d, rest⟩
          · simp [parseReplace] at h
          · simp [parseReplace] at h
            rcases ih rest.length (by simp only [List.length_cons]; omega) h rfl with
              ⟨parts, hparts⟩
            exact ⟨_, .escape hparts⟩
        · by_cases hquote : c = 34
          · subst hquote
            simp [parseReplace] at h
            rw [h.1]
            exact ⟨_, .close⟩
          · by_cases hwhole : c = 38
            · subst hwhole
              simp [parseReplace] at h
              rcases ih rest.length (by simp) h rfl with ⟨parts, hparts⟩
              exact ⟨_, .whole hparts⟩
            · by_cases hdollar : c = 36
              · subst hdollar
                -- the run behind the dollar and what follows it
                have hsplit := List.takeWhile_append_dropWhile (p := isdigit) (l := rest)
                have hdigits : ∀ c ∈ rest.takeWhile isdigit, isdigit c = true := fun c hc =>
                  List.mem_takeWhile_imp hc
                have hrest : NoDigit (rest.dropWhile isdigit) := by
                  intro c hc
                  have hnot := List.head?_dropWhile_not isdigit rest
                  rw [hc] at hnot
                  exact hnot
                rw [← hsplit, parseReplace_group hdigits hrest] at h
                split at h
                · rename_i haccept
                  have hne : rest.takeWhile isdigit ≠ [] := by
                    intro hnil
                    rw [hnil] at haccept
                    exact haccept.1 rfl
                  have hlen : (rest.dropWhile isdigit).length < (36 :: rest).length :=
                    Nat.lt_succ_of_le (List.dropWhile_suffix isdigit).length_le
                  rcases ih _ hlen h rfl with ⟨parts, hparts⟩
                  rw [← hsplit]
                  exact ⟨_, .group hne hdigits hrest hparts⟩
                · cases h
              · have hloop : parseReplace 0 false text list (c :: rest) =
                    parseReplace 0 false (text ++ [c]) list rest := by
                  simp [parseReplace, hescape, hquote, hwhole, hdollar]
                rw [hloop] at h
                rcases ih rest.length (by simp) h rfl with ⟨parts, hparts⟩
                exact ⟨_, .plain (by simp [isTemplateSign, hescape, hquote, hwhole, hdollar])
                  hparts⟩

/-! ## Which numbers are read right

A run of value at most 9 is one digit behind zeros. Every digit then adds the value of the last one:
after `n` digits the number is `v`, `11 v`, `111 v` and so on, in 32 bits. -/

/-- What a digit of a run of value `v` does to the number. -/
def runStep (v number : Int32) : Int32 := (if number = -1 then 0 else number) * 10 + v

/-- The runs of value at most 9 that are read right: a single digit, zeros, and the 9 behind 32 zeros
or a multiple of that many, where the number has come round to -1. -/
def RunRead (run : Bytes) : Prop :=
  run.length = 1 ∨ digitsValue run = 0 ∨ (digitsValue run = 9 ∧ run.length % 32 = 1)

theorem digitsValue_concat (front : Bytes) (c : UInt8) :
    digitsValue (front ++ [c]) = 10 * digitsValue front + (c.toNat - 48) := by
  simp [digitsValue]

theorem digitsValue_cons_zero (run : Bytes) : digitsValue (48 :: run) = digitsValue run := by
  simp [digitsValue]

/-- A run of value 0 is a run of zeros. -/
theorem eq_zeros_of_digitsValue {run : Bytes} (hdigits : ∀ c ∈ run, isdigit c = true)
    (h : digitsValue run = 0) : run = List.replicate run.length 48 := by
  induction run using List.reverseRecOn with
  | nil => rfl
  | append_singleton front c ih =>
      rw [digitsValue_concat] at h
      have hc : isdigit c = true := hdigits c (by simp)
      have hzero : c = 48 := by
        simp only [isdigit, Bool.and_eq_true, decide_eq_true_eq, UInt8.le_iff_toNat_le] at hc
        have hlow : 48 ≤ c.toNat := hc.1
        rw [← UInt8.toNat_inj]
        change c.toNat = 48
        omega
      have hfront := ih (fun d hd => hdigits d (by simp [hd])) (by omega)
      rw [hzero, List.length_append, List.length_singleton, List.replicate_succ', ← hfront]

/-- A run of value at most 9 is a digit behind zeros. -/
theorem eq_zeros_digit {run : Bytes} (hdigits : ∀ c ∈ run, isdigit c = true) (hne : run ≠ [])
    (h : digitsValue run ≤ 9) :
    ∃ k c, run = List.replicate k 48 ++ [c] ∧ digitsValue run = c.toNat - 48 ∧
      isdigit c = true := by
  rcases List.eq_nil_or_concat run with rfl | ⟨front, c, rfl⟩
  · exact absurd rfl hne
  · rw [List.concat_eq_append] at hdigits h ⊢
    rw [digitsValue_concat] at h
    have hfront : digitsValue front = 0 := by omega
    have hzeros := eq_zeros_of_digitsValue (fun d hd => hdigits d (by simp [hd])) hfront
    refine ⟨front.length, c, by rw [← hzeros], ?_, hdigits c (by simp)⟩
    rw [digitsValue_concat, hfront, Nat.mul_zero, Nat.zero_add]

theorem digitsValue_singleton (c : UInt8) : digitsValue [c] = c.toNat - 48 := by
  simp [digitsValue]

theorem digitsValue_zeros (k : Nat) (run : Bytes) :
    digitsValue (List.replicate k 48 ++ run) = digitsValue run := by
  induction k with
  | zero => rfl
  | succ k ih => rw [List.replicate_succ, List.cons_append, digitsValue_cons_zero, ih]

/-- Such a run takes as many equal steps as it has digits. -/
theorem runNumber_zeros (k : Nat) (c : UInt8) (number : Int32) :
    runNumber number (List.replicate k 48 ++ [c]) =
      (runStep (Int32.ofInt ((c.toNat - 48 : Nat) : Int)))^[k + 1] number := by
  have hmin : min ((c.toNat - 48 : Nat) : Int) (2 ^ 63 - 1) = ((c.toNat - 48 : Nat) : Int) := by
    have hc := c.toNat_lt
    omega
  induction k generalizing number with
  | zero =>
      rw [List.replicate_zero, List.nil_append, runNumber, digitsValue_singleton, hmin]
      rfl
  | succ k ih =>
      rw [Function.iterate_succ_apply, ← ih, List.replicate_succ, List.cons_append, runNumber,
        digitsValue_cons_zero, digitsValue_zeros, digitsValue_singleton, hmin]
      rfl

/-- From the second step on, the digits 1 to 8 never come back to their value. -/
theorem runStep_ne {v : Nat} (hlow : 1 ≤ v) (hhigh : v ≤ 8) {n : Nat} (hn : 2 ≤ n) :
    ((runStep (Int32.ofInt v))^[n] (-1)).toInt ≠ (v : Int) := by
  have hfirst : ∀ v ∈ [1, 2, 3, 4, 5, 6, 7, 8], ∀ n ∈ List.range 34, 2 ≤ n →
      ((runStep (Int32.ofInt ((v : Nat) : Int)))^[n] (-1)).toInt ≠ (v : Int) := by
    decide +kernel
  have hfixed : ∀ v ∈ [1, 2, 3, 4, 5, 6, 7, 8],
      runStep (Int32.ofInt ((v : Nat) : Int)) ((runStep (Int32.ofInt (v : Int)))^[33] (-1)) =
        (runStep (Int32.ofInt (v : Int)))^[33] (-1) := by
    decide +kernel
  have hv : v ∈ [1, 2, 3, 4, 5, 6, 7, 8] := by
    simp only [List.mem_cons, List.not_mem_nil, or_false]
    omega
  rcases Nat.lt_or_ge n 34 with h | h
  · exact hfirst v hv n (List.mem_range.2 h) hn
  · -- all further steps repeat the 33rd
    have hsplit : n = (n - 33) + 33 := by omega
    rw [hsplit, Function.iterate_add_apply, Function.iterate_fixed (hfixed v hv)]
    exact hfirst v hv 33 (by decide) (by decide)

theorem runStep_nine (n : Nat) :
    ((runStep (Int32.ofInt ((9 : Nat) : Int)))^[n] (-1)).toInt = 9 ↔ n % 32 = 1 := by
  have hperiod : Function.IsPeriodicPt (runStep (Int32.ofInt ((9 : Nat) : Int))) 32 (-1) := by
    change (runStep (Int32.ofInt ((9 : Nat) : Int)))^[32] (-1) = -1
    decide +kernel
  have hround : ∀ r ∈ List.range 32,
      ((runStep (Int32.ofInt ((9 : Nat) : Int)))^[r] (-1)).toInt = 9 ↔ r = 1 := by
    decide +kernel
  rw [← hperiod.iterate_mod_apply n]
  exact hround _ (List.mem_range.2 (Nat.mod_lt _ (by decide)))

theorem runStep_zero (n : Nat) :
    ((runStep (Int32.ofInt ((0 : Nat) : Int)))^[n + 1] (-1)).toInt = 0 := by
  have hfirst : runStep (Int32.ofInt ((0 : Nat) : Int)) (-1) = 0 := by decide
  have hfixed : runStep (Int32.ofInt ((0 : Nat) : Int)) 0 = 0 := by decide
  rw [Function.iterate_succ_apply, hfirst, Function.iterate_fixed hfixed]
  rfl

/-- The number of a run of value at most 9 is its value exactly for the runs that are read right. -/
theorem runNumber_eq_iff {run : Bytes} (hdigits : ∀ c ∈ run, isdigit c = true) (hne : run ≠ [])
    (h : digitsValue run ≤ 9) :
    (runNumber (-1) run).toInt = digitsValue run ↔ RunRead run := by
  rcases eq_zeros_digit hdigits hne h with ⟨k, c, rfl, hvalue, -⟩
  rw [hvalue] at h
  generalize hv : c.toNat - 48 = v at h hvalue
  have hlen : (List.replicate k 48 ++ [c]).length = k + 1 := by simp
  rw [RunRead, runNumber_zeros, hlen, hvalue, hv]
  rcases Nat.lt_or_ge v 9 with hlt | hge
  · rcases Nat.eq_zero_or_pos v with rfl | hpos
    · have hzero := runStep_zero k
      simpa using hzero
    · rcases k with _ | k
      · -- a single digit is its own value
        have hone : ∀ v ∈ [1, 2, 3, 4, 5, 6, 7, 8],
            (runStep (Int32.ofInt ((v : Nat) : Int)) (-1)).toInt = (v : Int) := by
          decide
        have hmem : v ∈ [1, 2, 3, 4, 5, 6, 7, 8] := by
          simp only [List.mem_cons, List.not_mem_nil, or_false]
          omega
        exact iff_of_true (hone v hmem) (.inl rfl)
      · refine iff_of_false (runStep_ne hpos (by omega) (by omega)) ?_
        omega
  · -- with 9 the number comes round to -1, where the run starts again
    have hnine : v = 9 := by omega
    subst hnine
    rw [Nat.cast_ofNat, ← Nat.cast_ofNat (n := 9)]
    have hiff := runStep_nine (k + 1)
    constructor
    · intro heq
      exact .inr (.inr ⟨rfl, hiff.1 heq⟩)
    · rintro (hone | hzero | ⟨-, hmod⟩)
      · exact hiff.2 (by omega)
      · omega
      · exact hiff.2 hmod

/-! ## The pattern of a template -/

/-- The numbers of a template are in range. -/
def InRange (parts : List TemplatePart) : Prop :=
  ∀ run ∈ groupRuns parts, (digitsValue run : Int) ≤ INI_K2HFT_MAX_REPLACE_NUMBER

/-- The replacement list that a template means. -/
def templateList (parts : List TemplatePart) : List K2hFtRepPtn :=
  replaceParts (fun run => digitsValue run) [] parts

/-- `build_k2hft_match_pattern` takes the text behind an opening quote exactly when it is a template
with its numbers in range, and then its replacement list is that of the template. -/
def ReadsTemplate (regcomp : Bytes → Bool) (compptn text : Bytes) : Prop :=
  ∀ ptn, buildMatchPattern regcomp compptn (34 :: text) = some ptn ↔
    ∃ parts, Template text parts ∧ InRange parts ∧
      ptn =
        { IsRegex := true
          BaseString := compptn.tail.dropLast
          ReplaceList := templateList parts }

/-- A template whose numbers are in range has them read right; in any other, a number is refused. -/
structure NumbersRead (parts : List TemplatePart) : Prop where
  inRange : InRange parts → ∀ run ∈ groupRuns parts, RunRead run
  overRange : ¬ InRange parts → ∃ run ∈ groupRuns parts, ¬ RunAccepted run

/-- A regular expression between double quotes that compiles. -/
structure Compiles (regcomp : Bytes → Bool) (compptn : Bytes) : Prop where
  head : compptn.head? = some INI_VALUE_AREA_CHAR
  last : compptn.getLast? = some INI_VALUE_AREA_CHAR
  length_ge : 3 ≤ compptn.length
  compiles : regcomp compptn.tail.dropLast = true

theorem Template.digits {s : Bytes} {parts : List TemplatePart} (h : Template s parts) :
    ∀ run ∈ groupRuns parts, run ≠ [] ∧ ∀ c ∈ run, isdigit c = true := by
  induction h with
  | close => simp [groupRuns]
  | plain _ _ ih => exact ih
  | escape _ ih => exact ih
  | whole _ ih => exact ih
  | group hne hdigits _ _ ih =>
      intro run hrun
      rcases List.mem_cons.1 hrun with rfl | hrun
      · exact ⟨hne, hdigits⟩
      · exact ih run hrun

theorem buildMatchPattern_compiles {regcomp : Bytes → Bool} {compptn : Bytes}
    (h : Compiles regcomp compptn) (text : Bytes) :
    buildMatchPattern regcomp compptn (34 :: text) =
      (parseReplace 0 false [] [] text).map fun list =>
        { IsRegex := true
          BaseString := compptn.tail.dropLast
          ReplaceList := list } := by
  have hne : compptn ≠ [] := by
    intro hnil
    have hlen := h.length_ge
    simp [hnil] at hlen
  have hlen : ¬ compptn.length < 3 := Nat.not_lt.2 h.length_ge
  have hhead : ((34 : UInt8) :: text).head? = some INI_VALUE_AREA_CHAR := rfl
  simp [buildMatchPattern, hne, h.head, h.last, hlen, h.compiles, hhead]

/-- The pattern of a template, with the numbers that the loop reads. -/
theorem buildMatchPattern_template {regcomp : Bytes → Bool} {compptn text : Bytes}
    {parts : List TemplatePart} (h : Compiles regcomp compptn) (hparts : Template text parts) :
    buildMatchPattern regcomp compptn (34 :: text) =
      if ∀ run ∈ groupRuns parts, RunAccepted run then
        some
          { IsRegex := true
            BaseString := compptn.tail.dropLast
            ReplaceList := replaceParts (fun run => (runNumber (-1) run).toInt) [] parts }
      else
        none := by
  rw [buildMatchPattern_compiles h, parseReplace_template hparts, List.nil_append]
  split
  · rfl
  · rfl

/-- Only templates give a pattern. -/
theorem template_of_buildMatchPattern {regcomp : Bytes → Bool} {compptn text : Bytes}
    {ptn : K2hFtMatchPtn} (h : Compiles regcomp compptn)
    (hsome : buildMatchPattern regcomp compptn (34 :: text) = some ptn) :
    ∃ parts, Template text parts := by
  rw [buildMatchPattern_compiles h] at hsome
  rcases Option.map_eq_some_iff.1 hsome with ⟨list, hlist, -⟩
  exact template_of_parseReplace hlist

theorem InRange.digitsValue_le {parts : List TemplatePart} (h : InRange parts) {run : Bytes}
    (hrun : run ∈ groupRuns parts) : digitsValue run ≤ 9 := by
  have hmax := h run hrun
  change ((digitsValue run : Nat) : Int) ≤ 9 at hmax
  omega

/-- In range, a number that is read right is the value of its run, and the loop takes it. -/
theorem NumbersRead.runs {text : Bytes} {parts : List TemplatePart} (h : NumbersRead parts)
    (hparts : Template text parts) (hrange : InRange parts) :
    ∀ run ∈ groupRuns parts,
      RunAccepted run ∧ (runNumber (-1) run).toInt = digitsValue run := by
  intro run hrun
  have hdigits := hparts.digits run hrun
  have hnumber : (runNumber (-1) run).toInt = digitsValue run :=
    (runNumber_eq_iff hdigits.2 hdigits.1 (hrange.digitsValue_le hrun)).2 (h.inRange hrange run hrun)
  refine ⟨⟨?_, by rw [hnumber]; exact hrange run hrun⟩, hnumber⟩
  intro hnone
  rw [hnone] at hnumber
  change (-1 : Int) = digitsValue run at hnumber
  omega

/-- A template that is read right has its numbers read. -/
theorem ReadsTemplate.numbersRead {regcomp : Bytes → Bool} {compptn text : Bytes}
    (h : Compiles regcomp compptn) (hreads : ReadsTemplate regcomp compptn text)
    {parts : List TemplatePart} (hparts : Template text parts) : NumbersRead parts := by
  have hbuild := buildMatchPattern_template h hparts
  refine ⟨?_, ?_⟩
  · -- the list that was built tells the number of every group
    intro hrange run hrun
    have hsome := (hreads _).2 ⟨parts, hparts, hrange, rfl⟩
    rw [hbuild] at hsome
    split at hsome
    · have hlist := congrArg K2hFtMatchPtn.ReplaceList (Option.some.inj hsome)
      have hdigits := hparts.digits run hrun
      exact (runNumber_eq_iff hdigits.2 hdigits.1 (hrange.digitsValue_le hrun)).1
        (replaceParts_inj hlist run hrun)
    · cases hsome
  · -- were all numbers accepted, a template out of range would be taken
    intro hrange
    by_contra hall
    have haccept : ∀ run ∈ groupRuns parts, RunAccepted run := by
      intro run hrun
      by_contra hrefused
      exact hall ⟨run, hrun, hrefused⟩
    rw [if_pos haccept] at hbuild
    rcases (hreads _).1 hbuild with ⟨parts', hparts', hrange', -⟩
    rw [hparts.unique hparts'] at hrange
    exact hrange hrange'

/-- The text behind the opening quote is read right exactly when it is no template, or its numbers
are read. -/
theorem readsTemplate_iff {regcomp : Bytes → Bool} {compptn : Bytes}
    (h : Compiles regcomp compptn) (text : Bytes) :
    ReadsTemplate regcomp compptn text ↔ ∀ parts, Template text parts → NumbersRead parts := by
  constructor
  · intro hreads parts hparts
    exact hreads.numbersRead h hparts
  · intro hnumbers ptn
    constructor
    · intro hsome
      rcases template_of_buildMatchPattern h hsome with ⟨parts, hparts⟩
      rw [buildMatchPattern_template h hparts] at hsome
      split at hsome
      · rename_i haccept
        have hrange : InRange parts := by
          by_contra hover
          rcases (hnumbers parts hparts).overRange hover with ⟨run, hrun, hrefused⟩
          exact hrefused (haccept run hrun)
        have hruns := (hnumbers parts hparts).runs hparts hrange
        refine ⟨parts, hparts, hrange, ?_⟩
        rw [← Option.some.inj hsome, templateList,
          replaceParts_congr fun run hrun => (hruns run hrun).2]
      · cases hsome
    · rintro ⟨parts, hparts, hrange, rfl⟩
      have hruns := (hnumbers parts hparts).runs hparts hrange
      rw [buildMatchPattern_template h hparts, if_pos fun run hrun => (hruns run hrun).1,
        templateList, replaceParts_congr fun run hrun => (hruns run hrun).2]

/-- The template `E:$1` for the expression `(.*)`. -/
theorem readsTemplate_iff_one :
    ReadsTemplate (fun _ => true) (ascii "\"(.*)\"") (ascii "E:$1\"") ↔
      ∀ parts, Template (ascii "E:$1\"") parts → NumbersRead parts :=
  readsTemplate_iff ⟨by decide +kernel, by decide +kernel, by decide +kernel, rfl⟩ _

/-- `$01` is a template with the reference 1, and it is refused: its number is read as 11. -/
theorem leadingZero_refused :
    buildMatchPattern (fun _ => true) (ascii "\"(.*)\"") (34 :: ascii "$01\"") = none ∧
      Template (ascii "$01\"") [.group (ascii "01")] ∧
        ¬ ReadsTemplate (fun _ => true) (ascii "\"(.*)\"") (ascii "$01\"") := by
  have hnone : buildMatchPattern (fun _ => true) (ascii "\"(.*)\"") (34 :: ascii "$01\"") = none := by
    decide +kernel
  have htemplate : Template (36 :: (ascii "01" ++ [34])) [.group (ascii "01")] := by
    refine .group (by decide +kernel) (by decide +kernel) ?_ .close
    intro c hc
    rw [← Option.some.inj hc]
    decide
  have hrange : InRange [.group (ascii "01")] := by
    unfold InRange
    decide +kernel
  refine ⟨hnone, htemplate, ?_⟩
  intro hreads
  have hsome := (hreads _).2 ⟨_, htemplate, hrange, rfl⟩
  rw [hnone] at hsome
  cases hsome

end K2hFtFuse

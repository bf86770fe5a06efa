import Mathlib.Data.List.Chain
import K2hFtFuse.Svr.Loading

/-!
# Svr.Format — output formats and the texts that write them

`Format` is what a `FORMAT` value stands for: directives and texts in order.  This file defines:

* how a format is written as a value (`Format.print`);
* what it makes of a line (`Format.render`);

and shows that `build_form_part_list` reads the written value back, so that
`make_form_output_string` renders the format.
-/

namespace K2hFtFuse

open ByteSeq

/-! ## Formats -/

/-- The part types other than `K2HFTSVR_FPT_STRING`. -/
inductive Directive
  | contents
  | trimContents
  | time
  | fileName
  | filePath
  | pid
  | hostName
  deriving DecidableEq

namespace Directive

/-- The letter after `%`. -/
def letter : Directive → UInt8
  | contents => 76
  | trimContents => 108
  | time => 84
  | fileName => 102
  | filePath => 70
  | pid => 80
  | hostName => 72

def type : Directive → K2hFtSvrFpt
  | contents => .CONTENTS
  | trimContents => .TRIM_CONTENTS
  | time => .TIME
  | fileName => .FILENAME
  | filePath => .FILEPATH
  | pid => .PID
  | hostName => .HOSTNAME

end Directive

inductive FormatPart
  | directive (d : Directive)
  | text (s : Bytes)
  deriving DecidableEq

namespace FormatPart

def isText : FormatPart → Bool
  | directive _ => false
  | text _ => true

/-- A text is neither empty nor does it hold a NUL. -/
def IsPrintable : FormatPart → Prop
  | directive _ => True
  | text s => s ≠ [] ∧ (0 : UInt8) ∉ s

/-- The part as the code stores it. -/
def formPart : FormatPart → K2hFtSvrFormPart
  | directive d => { type := d.type, form := [] }
  | text s => { type := .STRING, form := s }

/-- A character of a text, with `%` doubled and `\` and `"` behind a `\`. -/
def escapeChar (c : UInt8) : Bytes :=
  if c = 37 then [37, 37]
  else if c = 92 ∨ c = 34 then [92, c]
  else [c]

def print : FormatPart → Bytes
  | directive d => [37, d.letter]
  | text s => s.flatMap escapeChar

/-- What a part stands for in the output of a line. -/
def meaning (lib : TextLib) (timeform : List K2hFtSvrTimePart) (src : LineSource) :
    FormatPart → Option Bytes
  | directive .contents => src.content
  | directive .trimContents => src.content.map lib.trim
  | directive .time => some (makeTimeOutputString lib timeform src.ts)
  | directive .fileName => some ((getFileName src.filepath).getD [])
  | directive .filePath => some src.filepath
  | directive .pid => some (decimal src.pid.toInt)
  | directive .hostName => src.hostname
  | text s => some s

end FormatPart

/-- A format: two texts in a row would be one text. -/
structure Format where
  parts : List FormatPart
  printable : ∀ part ∈ parts, part.IsPrintable
  apart : parts.IsChain fun part next => ¬ (part.isText ∧ next.isText)

namespace Format

def formParts (format : Format) : List K2hFtSvrFormPart := format.parts.map FormatPart.formPart

def print (format : Format) : Bytes := format.parts.flatMap FormatPart.print

/-- The meanings of the parts in order; `none` when a part reads outside of its memory area. -/
def render (format : Format) (lib : TextLib) (timeform : List K2hFtSvrTimePart)
    (src : LineSource) : Option Bytes :=
  (format.parts.mapM (FormatPart.meaning lib timeform src)).map List.flatten

end Format

/-! ## One part -/

theorem formParts_directive (d : Directive) (form rest : Bytes) :
    formParts form ((FormatPart.directive d).print ++ rest) =
      formText form ++ (FormatPart.directive d).formPart :: formParts [] rest := by
  cases d <;>
    simp [FormatPart.print, FormatPart.formPart, Directive.letter, Directive.type,
      formParts.eq_def form, formPartType]

/-- A character that stands for itself goes to the pending text. -/
theorem formParts_plain {c : UInt8} (hpercent : c ≠ 37) (hback : c ≠ 92) (form rest : Bytes) :
    formParts form (c :: rest) = formParts (form ++ [c]) rest := by
  simp [formParts.eq_def form, hpercent, hback]

theorem formParts_percent (form rest : Bytes) :
    formParts form (37 :: 37 :: rest) = formParts (form ++ [37]) rest := by
  simp [formParts.eq_def form]

theorem formParts_backslash {c : UInt8} (hc : c = 92 ∨ c = 34) (form rest : Bytes) :
    formParts form (92 :: c :: rest) = formParts (form ++ [c]) rest := by
  rcases hc with rfl | rfl <;> simp [formParts.eq_def form, escapedChar]

theorem formParts_escapeChar (c : UInt8) (form rest : Bytes) :
    formParts form (FormatPart.escapeChar c ++ rest) = formParts (form ++ [c]) rest := by
  by_cases hpercent : c = 37
  · subst hpercent
    simpa [FormatPart.escapeChar] using formParts_percent form rest
  · by_cases hback : c = 92 ∨ c = 34
    · simpa [FormatPart.escapeChar, hpercent, hback] using formParts_backslash hback form rest
    · -- any other character is written as it is
      have hplain : c ≠ 92 := fun h => hback (Or.inl h)
      simpa [FormatPart.escapeChar, hpercent, hback] using formParts_plain hpercent hplain form rest

/-- A written text goes to the pending text. -/
theorem formParts_text (s form rest : Bytes) :
    formParts form ((FormatPart.text s).print ++ rest) = formParts (form ++ s) rest := by
  induction s generalizing form with
  | nil =>
      simp [FormatPart.print]
  | cons c s ih =>
      calc formParts form ((FormatPart.text (c :: s)).print ++ rest)
          = formParts form
              (FormatPart.escapeChar c ++ ((FormatPart.text s).print ++ rest)) := by
            simp [FormatPart.print]
        _ = formParts (form ++ [c]) ((FormatPart.text s).print ++ rest) :=
            formParts_escapeChar c form _
        _ = formParts (form ++ [c] ++ s) rest := ih (form ++ [c])
        _ = formParts (form ++ c :: s) rest := by
            simp

/-! ## The whole value -/

/-- The loop over the written parts. Only a directive or the end may come while a text is pending,
for a text would be joined to it. -/
theorem formParts_flatMap_print (parts : List FormatPart) (form : Bytes)
    (hprint : ∀ part ∈ parts, part.IsPrintable)
    (hapart : parts.IsChain fun part next => ¬ (part.isText ∧ next.isText))
    (hform : form ≠ [] → ∀ part ∈ parts.head?, part.isText = false) :
    formParts form (parts.flatMap FormatPart.print) =
      formText form ++ parts.map FormatPart.formPart := by
  induction parts generalizing form with
  | nil =>
      simp [formParts]
  | cons part parts ih =>
      have hprint' : ∀ next ∈ parts, next.IsPrintable := fun next hnext =>
        hprint next (List.mem_cons_of_mem _ hnext)
      have hapart' := hapart.tail
      rw [List.flatMap_cons]
      cases part with
      | directive d =>
          -- the pending text ends here and none is pending after it
          rw [formParts_directive, ih [] hprint' hapart' (fun hne => absurd rfl hne)]
          simp [formText]
      | text s =>
          -- nothing is pending before a text
          have hempty : form = [] := by
            by_contra hne
            simpa [FormatPart.isText] using hform hne (.text s) rfl
          obtain ⟨hs, -⟩ : s ≠ [] ∧ (0 : UInt8) ∉ s := hprint (.text s) (by simp)
          -- and what follows it is not joined to it
          have hnext : ∀ next ∈ parts.head?, next.isText = false := by
            intro next hnext
            have hpair := (List.isChain_cons.1 hapart).1 next hnext
            simpa [FormatPart.isText] using hpair
          subst hempty
          rw [formParts_text, List.nil_append, ih s hprint' hapart' (fun _ => hnext)]
          simp [formText, hs, FormatPart.formPart]

theorem FormatPart.IsPrintable.nul_notMem_print {part : FormatPart} (hpart : part.IsPrintable) :
    (0 : UInt8) ∉ part.print := by
  cases part with
  | directive d =>
      cases d <;> decide
  | text s =>
      intro hmem
      obtain ⟨c, hc, h0⟩ := List.mem_flatMap.1 hmem
      have hne : c ≠ 0 := fun h => hpart.2 (h ▸ hc)
      -- what is written for a character has `%`, `\` or the character
      simp only [FormatPart.escapeChar] at h0
      split at h0
      · simp at h0
      · split at h0
        · simp [hne.symm] at h0
        · simp [hne.symm] at h0

namespace Format

theorem nul_notMem_print (format : Format) : (0 : UInt8) ∉ format.print := by
  intro hmem
  obtain ⟨part, hpart, h0⟩ := List.mem_flatMap.1 hmem
  exact (format.printable part hpart).nul_notMem_print h0

end Format

/-- No written part starts with the quote that `get_string_content` strips. -/
theorem FormatPart.head?_print (part : FormatPart) : part.print.head? ≠ some INI_VALUE_AREA_CHAR := by
  cases part with
  | directive d =>
      simp [FormatPart.print, INI_VALUE_AREA_CHAR]
  | text s =>
      cases s with
      | nil =>
          simp [FormatPart.print]
      | cons c s =>
          -- a quote at the start of a text is behind its `\`
          simp only [FormatPart.print, List.flatMap_cons, FormatPart.escapeChar]
          split
          · simp [INI_VALUE_AREA_CHAR]
          · split
            · simp [INI_VALUE_AREA_CHAR]
            · rename_i hquote
              have hne : c ≠ 34 := fun h => hquote (Or.inr h)
              simpa [INI_VALUE_AREA_CHAR] using hne

theorem getStringContent_of_head? {value : Bytes} (hhead : value.head? ≠ some INI_VALUE_AREA_CHAR) :
    getStringContent value = value := by
  cases value with
  | nil =>
      rfl
  | cons c value =>
      have hc : c ≠ INI_VALUE_AREA_CHAR := fun h => hhead (congrArg some h)
      simp [getStringContent, hc]

theorem head?_flatMap_print (parts : List FormatPart) :
    (parts.flatMap FormatPart.print).head? ≠ some INI_VALUE_AREA_CHAR := by
  induction parts with
  | nil =>
      simp
  | cons part parts ih =>
      rw [List.flatMap_cons, List.head?_append]
      cases hhead : part.print.head? with
      | none =>
          -- a part may be written as nothing
          simpa [hhead] using ih
      | some c =>
          simpa [hhead] using part.head?_print

theorem FormatPart.formPartText_formPart (lib : TextLib) (timeform : List K2hFtSvrTimePart)
    (src : LineSource) (part : FormatPart) :
    formPartText lib (makeTimeOutputString lib timeform src.ts) src part.formPart =
      part.meaning lib timeform src := by
  cases part with
  | directive d =>
      cases d <;> rfl
  | text s =>
      rfl

namespace Format

/-- `build_form_part_list` reads a written format back. -/
theorem buildFormPartList_cStr_print (format : Format) :
    buildFormPartList (cStr format.print) = format.formParts := by
  have hcStr : cStr format.print = format.print := cStr_eq_self format.nul_notMem_print
  have hcontent : getStringContent format.print = format.print :=
    getStringContent_of_head? (head?_flatMap_print format.parts)
  calc buildFormPartList (cStr format.print)
      = K2hFtFuse.formParts [] (format.parts.flatMap FormatPart.print) := by
        rw [hcStr, buildFormPartList, hcontent, print]
    _ = formText [] ++ format.formParts :=
        formParts_flatMap_print format.parts [] format.printable format.apart
          (fun hne => absurd rfl hne)
    _ = format.formParts := by
        simp [formText]

/-- `make_form_output_string` renders a format from its parts. -/
theorem makeFormOutputString_formParts (format : Format) (lib : TextLib)
    (timeform : List K2hFtSvrTimePart) (src : LineSource) :
    makeFormOutputString lib format.formParts timeform src = format.render lib timeform src := by
  have hparts : (formPartText lib (makeTimeOutputString lib timeform src.ts) src) ∘
      FormatPart.formPart = FormatPart.meaning lib timeform src :=
    funext fun part => part.formPartText_formPart lib timeform src
  rw [makeFormOutputString, formParts, List.mapM_map, hparts, render]

/-- A format survives being written and read, and what a line becomes through the read format is
what the format means. -/
theorem format_roundtrip (format : Format) :
    buildFormPartList (cStr format.print) = format.formParts ∧
    ∀ (lib : TextLib) (timeform : List K2hFtSvrTimePart) (src : LineSource),
      makeFormOutputString lib (buildFormPartList (cStr format.print)) timeform src =
        format.render lib timeform src := by
  refine ⟨format.buildFormPartList_cStr_print, ?_⟩
  intro lib timeform src
  rw [format.buildFormPartList_cStr_print]
  exact format.makeFormOutputString_formParts lib timeform src

/-- `"%l" at %T`: the quotes, the text between two directives, and a directive at the end. -/
example :
    let parts : List FormatPart :=
      [.text [34], .directive .trimContents, .text (ascii "\" at "), .directive .time]
    parts.flatMap FormatPart.print = ascii "\\\"%l\\\" at %T" ∧
      buildFormPartList (ascii "\\\"%l\\\" at %T") = parts.map FormatPart.formPart := by
  decide +kernel

end Format

end K2hFtFuse

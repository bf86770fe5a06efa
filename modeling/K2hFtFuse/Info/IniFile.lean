import K2hFtFuse.Info.Loaded

/-!
# Info.IniFile — the lines of an INI file

`read_ini_file_contents` reads a file line by line and would read an included file in the place of
the line that names it. It looks for the keyword where a key should end, and finds no include line.
-/

namespace K2hFtFuse

open ByteSeq

/-- `INI_INCLUDE_STR`. -/
def INI_INCLUDE_STR : Bytes := ascii "INCLUDE"

/-- `INI_COMMENT_CHAR`. -/
def INI_COMMENT_CHAR : UInt8 := 35

/-- The files as they are met: `realpath`, and what an opened file holds. -/
structure IniFiles where
  realpath : Bytes → Option Bytes
  contents : Bytes → Option Bytes

/-- `check_path_real_path`. -/
def IniFiles.checkPathRealPath (files : IniFiles) (path : Bytes) : Option Bytes :=
  if path = [] then none else files.realpath path

/-- `getline` until it fails; `line` is what was read of the current line. -/
def getlines (line : Bytes) : Bytes → List Bytes
  | [] => if line = [] then [] else [line]
  | c :: rest => if c = LF then line :: getlines [] rest else getlines (line ++ [c]) rest

/-- `string::find`: the first position of a text. -/
def findText (text : Bytes) : Bytes → Option Nat
  | [] => if text = [] then some 0 else none
  | c :: rest =>
      if text.isPrefixOf (c :: rest) then some 0 else (findText text rest).map fun pos => pos + 1

/-- The result of `read_ini_file_contents`, with the lines and the files it leaves. -/
structure IniRead where
  result : Bool
  lines : List Bytes
  files : List Bytes
  deriving DecidableEq

/-- The loop over the lines of a file; `reenter` is the call for an included file. -/
def readIniLines (lib : ConfLib) (reenter : Bytes → List Bytes → List Bytes → Option IniRead) :
    List Bytes → List Bytes → List Bytes → Option IniRead
  | [], lines, files => some ⟨true, lines, files⟩
  | text :: rest, lines, files =>
      let line := lib.trim text
      if line = [] then
        readIniLines lib reenter rest lines files
      else if line.head? = some INI_COMMENT_CHAR then
        readIniLines lib reenter rest lines files
      else
        match findText INI_INCLUDE_STR line with
        | none => readIniLines lib reenter rest (lines ++ [line]) files
        | some pos =>
            let value := lib.trim (line.drop (pos + 1))
            let key := lib.trim (line.take pos)
            if key = INI_INCLUDE_STR then
              match reenter (cStr value) lines files with
              | none => none
              | some r =>
                  if r.result then readIniLines lib reenter rest r.lines r.files
                  else some ⟨false, r.lines, r.files⟩
            else
              readIniLines lib reenter rest (lines ++ [line]) files

/-- `read_ini_file_contents` with the nesting that is left; no result where it does not suffice. -/
def readIniFileContents (lib : ConfLib) (env : IniFiles) :
    Nat → Bytes → List Bytes → List Bytes → Option IniRead
  | 0, _, _, _ => none
  | depth + 1, path, lines, files =>
      if path = [] then
        some ⟨false, lines, files⟩
      else
        match env.checkPathRealPath path with
        | none => some ⟨false, lines, files⟩
        | some realpath =>
            if files.any fun file => realpath == file then
              some ⟨false, lines, files⟩
            else
              match env.contents realpath with
              | none => some ⟨false, lines, files ++ [realpath]⟩
              | some contents =>
                  readIniLines lib (readIniFileContents lib env depth) (getlines [] contents) lines
                    (files ++ [realpath])

/-! ## What an include says -/

/-- The lines of a file that count: trimmed, without blank lines and comments. -/
def countedLines (lib : ConfLib) (texts : List Bytes) : List Bytes :=
  (texts.map lib.trim).filter fun line =>
    decide (line ≠ []) && decide (line.head? ≠ some INI_COMMENT_CHAR)

/-- The path of an include line. -/
def includePath (lib : ConfLib) (line : Bytes) : Option Bytes :=
  if !line.contains INI_KV_SEP_CHAR then
    none
  else if lib.trim (splitFirst INI_KV_SEP_CHAR line).1 = INI_INCLUDE_STR then
    some (lib.trim (splitFirst INI_KV_SEP_CHAR line).2)
  else
    none

/-- A file that can be opened, with its lines. -/
def Opens (lib : ConfLib) (env : IniFiles) (path realpath : Bytes) (lines : List Bytes) : Prop :=
  env.checkPathRealPath path = some realpath ∧
    ∃ contents, env.contents realpath = some contents ∧
      lines = countedLines lib (getlines [] contents)

/-- Lines, what they become when every include line is replaced, and the files that are reached on
the way, in their order. -/
inductive Expands (lib : ConfLib) (env : IniFiles) :
    List Bytes → List Bytes → List Bytes → Prop where
  | nil : Expands lib env [] [] []
  | text {line : Bytes} {rest lines reached : List Bytes} :
      includePath lib line = none → Expands lib env rest lines reached →
        Expands lib env (line :: rest) (line :: lines) reached
  | file {line path realpath : Bytes}
      {inner rest innerLines lines innerReached reached : List Bytes} :
      includePath lib line = some path → Opens lib env path realpath inner →
        Expands lib env inner innerLines innerReached → Expands lib env rest lines reached →
          Expands lib env (line :: rest) (innerLines ++ lines)
            (realpath :: (innerReached ++ reached))

/-- The expansion of a file: all files on the way can be opened, and none is reached twice. -/
def ExpandsOnce (lib : ConfLib) (env : IniFiles) (path : Bytes) (lines : List Bytes) : Prop :=
  ∃ realpath own reached, Opens lib env path realpath own ∧ Expands lib env own lines reached ∧
    (realpath :: reached).Nodup

/-- The call for a file ends with this result, however much nesting is left from some depth on. -/
def Reads (lib : ConfLib) (env : IniFiles) (path : Bytes) (r : IniRead) : Prop :=
  ∃ least, ∀ depth, least ≤ depth → readIniFileContents lib env depth path [] [] = some r

/-- Reading a file ends; it gives the expansion of the file, and it fails when there is none: a file
on the way cannot be opened or is reached a second time. -/
structure ReadsIncludes (lib : ConfLib) (env : IniFiles) (path : Bytes) : Prop where
  ends : ∃ r, Reads lib env path r
  expands : ∀ lines, ExpandsOnce lib env path lines → ∃ files, Reads lib env path ⟨true, lines, files⟩
  fails : (¬ ∃ lines, ExpandsOnce lib env path lines) →
    ∃ lines files, Reads lib env path ⟨false, lines, files⟩

/-! ## What the loop finds -/

variable {lib : ConfLib} {blank : UInt8 → Bool} {env : IniFiles}

theorem findText_first {text s : Bytes} {pos : Nat} (h : findText text s = some pos) :
    ∀ k < pos, ¬ text <+: s.drop k := by
  induction s generalizing pos with
  | nil =>
      intro k hk
      simp only [findText, Option.ite_none_right_eq_some, Option.some.injEq] at h
      omega
  | cons c rest ih =>
      intro k hk hprefix
      rw [findText] at h
      split at h
      · rw [← Option.some.inj h] at hk
        exact absurd hk (Nat.not_lt_zero k)
      · rename_i hhead
        rcases Option.map_eq_some_iff.1 h with ⟨pos', hfind, rfl⟩
        rcases k with _ | k
        · exact hhead (List.isPrefixOf_iff_prefix.2 hprefix)
        · exact ih hfind k (by omega) hprefix

/-- Trimming leaves a part of the text. -/
theorem trim_infix (h : lib.TrimsBlanks blank) (s : Bytes) : lib.trim s <:+: s := by
  rw [h.trim]
  exact (List.rdropWhile_prefix blank _).isInfix.trans (List.dropWhile_suffix blank).isInfix

/-- Before its first occurrence the keyword is not a key. -/
theorem key_ne_include (h : lib.TrimsBlanks blank) {line : Bytes} {pos : Nat}
    (hfind : findText INI_INCLUDE_STR line = some pos) :
    lib.trim (line.take pos) ≠ INI_INCLUDE_STR := by
  intro hkey
  have hin := trim_infix h (line.take pos)
  rw [hkey] at hin
  rcases hin with ⟨before, after, hsplit⟩
  have hline : line = before ++ (INI_INCLUDE_STR ++ (after ++ line.drop pos)) := by
    calc line = line.take pos ++ line.drop pos := (List.take_append_drop pos line).symm
      _ = _ := by
        rw [← hsplit]
        simp
  have hlen : before.length < pos := by
    have hcong := congrArg List.length hsplit
    have hword : INI_INCLUDE_STR.length = 7 := by decide
    simp only [List.length_append, List.length_take, hword] at hcong
    omega
  -- in a key that is the keyword it would occur earlier in the line
  apply findText_first hfind before.length hlen
  rw [hline, List.drop_left]
  exact List.prefix_append _ _

/-- The loop adds every line that counts, include lines too, and never calls itself. -/
theorem readIniLines_eq (h : lib.TrimsBlanks blank)
    (reenter : Bytes → List Bytes → List Bytes → Option IniRead) (texts lines files : List Bytes) :
    readIniLines lib reenter texts lines files =
      some ⟨true, lines ++ countedLines lib texts, files⟩ := by
  induction texts generalizing lines with
  | nil =>
      simp [readIniLines, countedLines]
  | cons text rest ih =>
      by_cases hblank : lib.trim text = []
      · simp [readIniLines, hblank, ih, countedLines]
      · by_cases hcomment : (lib.trim text).head? = some INI_COMMENT_CHAR
        · simp [readIniLines, hblank, hcomment, ih, countedLines]
        · have hcounted : countedLines lib (text :: rest) =
              lib.trim text :: countedLines lib rest := by
            simp [countedLines, hblank, hcomment]
          rw [readIniLines, hcounted]
          simp only [if_neg hblank, if_neg hcomment]
          rcases hfind : findText INI_INCLUDE_STR (lib.trim text) with _ | pos
          · simp [ih]
          · -- the key is taken from the text before the keyword, so it is never the keyword
            simp [key_ne_include h hfind, ih]

/-- A file that is opened gives the lines that count as they are. -/
theorem reads_of_opens (h : lib.TrimsBlanks blank) {path realpath : Bytes} {own : List Bytes}
    (hopens : Opens lib env path realpath own) : Reads lib env path ⟨true, own, [realpath]⟩ := by
  rcases hopens with ⟨hreal, contents, hcontents, rfl⟩
  have hpath : path ≠ [] := by
    rintro rfl
    simp [IniFiles.checkPathRealPath] at hreal
  refine ⟨1, ?_⟩
  intro depth hdepth
  rcases depth with _ | depth
  · exact absurd hdepth (by decide)
  · simp [readIniFileContents, hpath, hreal, hcontents, readIniLines_eq h]

theorem reads_of_not_opens {path : Bytes}
    (hno : ¬ ∃ realpath own, Opens lib env path realpath own) :
    ∃ files, Reads lib env path ⟨false, [], files⟩ := by
  have hsucc : ∃ files, ∀ depth, readIniFileContents lib env (depth + 1) path [] [] =
      some ⟨false, [], files⟩ := by
    by_cases hpath : path = []
    · exact ⟨[], fun depth => by simp [readIniFileContents, hpath]⟩
    · rcases hreal : env.checkPathRealPath path with _ | realpath
      · exact ⟨[], fun depth => by simp [readIniFileContents, hpath, hreal]⟩
      · rcases hcontents : env.contents realpath with _ | contents
        · exact ⟨[realpath], fun depth => by simp [readIniFileContents, hpath, hreal, hcontents]⟩
        · exact absurd ⟨realpath, _, hreal, contents, hcontents, rfl⟩ hno
  rcases hsucc with ⟨files, hsucc⟩
  refine ⟨files, 1, ?_⟩
  intro depth hdepth
  rcases depth with _ | depth
  · exact absurd hdepth (by decide)
  · exact hsucc depth

theorem Opens.unique {path realpath₁ realpath₂ : Bytes} {own₁ own₂ : List Bytes}
    (h₁ : Opens lib env path realpath₁ own₁) (h₂ : Opens lib env path realpath₂ own₂) :
    own₁ = own₂ := by
  rcases h₁ with ⟨hreal₁, contents₁, hcontents₁, rfl⟩
  rcases h₂ with ⟨hreal₂, contents₂, hcontents₂, rfl⟩
  rw [hreal₁, Option.some.injEq] at hreal₂
  rw [← hreal₂, hcontents₁, Option.some.injEq] at hcontents₂
  rw [hcontents₂]

/-- A call has one result. -/
theorem Reads.unique {path : Bytes} {r₁ r₂ : IniRead} (h₁ : Reads lib env path r₁)
    (h₂ : Reads lib env path r₂) : r₁ = r₂ := by
  rcases h₁ with ⟨least₁, h₁⟩
  rcases h₂ with ⟨least₂, h₂⟩
  have hsame := (h₁ (max least₁ least₂) (le_max_left _ _)).symm.trans
    (h₂ (max least₁ least₂) (le_max_right _ _))
  exact Option.some.inj hsame

/-- No include line is left in an expansion. -/
theorem Expands.no_include {own lines reached : List Bytes} (h : Expands lib env own lines reached) :
    ∀ line ∈ lines, includePath lib line = none := by
  induction h with
  | nil => simp
  | text hno _ ih =>
      intro line hline
      rcases List.mem_cons.1 hline with rfl | hline
      · exact hno
      · exact ih line hline
  | file _ _ _ _ ihInner ih =>
      intro line hline
      rcases List.mem_append.1 hline with hline | hline
      · exact ihInner line hline
      · exact ih line hline

/-- Lines without an include line expand to themselves, and to nothing else. -/
theorem expands_of_no_include {own : List Bytes} (h : ∀ line ∈ own, includePath lib line = none)
    {lines reached : List Bytes} :
    Expands lib env own lines reached ↔ lines = own ∧ reached = [] := by
  induction own generalizing lines reached with
  | nil =>
      constructor
      · intro hexp
        cases hexp
        exact ⟨rfl, rfl⟩
      · rintro ⟨rfl, rfl⟩
        exact .nil
  | cons line rest ih =>
      have hline : includePath lib line = none := h line (by simp)
      have hrest : ∀ l ∈ rest, includePath lib l = none := fun l hl => h l (by simp [hl])
      constructor
      · intro hexp
        cases hexp with
        | text _ hexp =>
            obtain ⟨rfl, rfl⟩ := (ih hrest).1 hexp
            exact ⟨rfl, rfl⟩
        | file hpath _ _ _ =>
            rw [hline] at hpath
            cases hpath
      · rintro ⟨rfl, rfl⟩
        exact .text hline ((ih hrest).2 ⟨rfl, rfl⟩)

/-- The file cannot be opened, or none of its lines is an include line. -/
def NoInclude (lib : ConfLib) (env : IniFiles) (path : Bytes) : Prop :=
  ∀ realpath own, Opens lib env path realpath own → ∀ line ∈ own, includePath lib line = none

/-- Reading a file expands its includes exactly when it has none. -/
theorem readsIncludes_iff (h : lib.TrimsBlanks blank) (env : IniFiles) (path : Bytes) :
    ReadsIncludes lib env path ↔ NoInclude lib env path := by
  constructor
  · intro hreads realpath own hopens
    -- the lines come back as they are, so they have to be an expansion
    have hrun := reads_of_opens h hopens
    by_cases hexp : ∃ lines, ExpandsOnce lib env path lines
    · rcases hexp with ⟨lines, hlines⟩
      rcases hreads.expands lines hlines with ⟨files, hread⟩
      rcases hlines with ⟨_, _, _, -, hexpands, -⟩
      have hsame : lines = own := congrArg IniRead.lines (hread.unique hrun)
      rw [← hsame]
      exact hexpands.no_include
    · rcases hreads.fails hexp with ⟨lines, files, hread⟩
      exact absurd (congrArg IniRead.result (hread.unique hrun)) (by simp)
  · intro hno
    by_cases hopen : ∃ realpath own, Opens lib env path realpath own
    · rcases hopen with ⟨realpath, own, hopens⟩
      have hrun := reads_of_opens h hopens
      have hself : Expands lib env own own [] :=
        (expands_of_no_include (hno realpath own hopens)).2 ⟨rfl, rfl⟩
      refine ⟨⟨_, hrun⟩, ?_, ?_⟩
      · rintro lines ⟨realpath', own', reached, hopens', hexpands, -⟩
        have hlines := ((expands_of_no_include (hno realpath' own' hopens')).1 hexpands).1
        rw [hlines, hopens'.unique hopens]
        exact ⟨_, hrun⟩
      · intro hnone
        exact absurd ⟨own, realpath, own, [], hopens, hself, by simp⟩ hnone
    · rcases reads_of_not_opens hopen with ⟨files, hrun⟩
      refine ⟨⟨_, hrun⟩, ?_, fun _ => ⟨_, _, hrun⟩⟩
      rintro lines ⟨realpath, own, -, hopens, -⟩
      exact absurd ⟨realpath, own, hopens⟩ hopen

/-- One file, which includes a second one. -/
def twoFiles : IniFiles :=
  { realpath := some
    contents := fun path =>
      if path = ascii "/a.ini" then some (ascii "INCLUDE = /b.ini" ++ [LF])
      else if path = ascii "/b.ini" then some (ascii "[K2HFTFUSE]" ++ [LF])
      else none }

theorem readsIncludes_iff_second :
    ReadsIncludes plainLib twoFiles (ascii "/b.ini") ↔
      NoInclude plainLib twoFiles (ascii "/b.ini") :=
  readsIncludes_iff plainLib_trimsBlanks twoFiles (ascii "/b.ini")

/-- The include line is kept as a line of the configuration. -/
theorem include_line_kept :
    Reads plainLib twoFiles (ascii "/a.ini") ⟨true, [ascii "INCLUDE = /b.ini"], [ascii "/a.ini"]⟩ ∧
      ExpandsOnce plainLib twoFiles (ascii "/a.ini") [ascii "[K2HFTFUSE]"] ∧
        ¬ ReadsIncludes plainLib twoFiles (ascii "/a.ini") := by
  have hopens : Opens plainLib twoFiles (ascii "/a.ini") (ascii "/a.ini")
      [ascii "INCLUDE = /b.ini"] :=
    ⟨by decide +kernel, ascii "INCLUDE = /b.ini" ++ [LF], by decide +kernel, by decide +kernel⟩
  have hinner : Opens plainLib twoFiles (ascii "/b.ini") (ascii "/b.ini") [ascii "[K2HFTFUSE]"] :=
    ⟨by decide +kernel, ascii "[K2HFTFUSE]" ++ [LF], by decide +kernel, by decide +kernel⟩
  have hexpands : ExpandsOnce plainLib twoFiles (ascii "/a.ini") [ascii "[K2HFTFUSE]"] := by
    refine ⟨_, _, [ascii "/b.ini"], hopens, ?_, by decide +kernel⟩
    have hpath : includePath plainLib (ascii "INCLUDE = /b.ini") = some (ascii "/b.ini") := by
      decide +kernel
    exact .file hpath hinner (.text (by decide +kernel) .nil) .nil
  have hrun := reads_of_opens plainLib_trimsBlanks hopens
  refine ⟨hrun, hexpands, ?_⟩
  intro hreads
  rcases hreads.expands _ hexpands with ⟨files, hread⟩
  have hsame : [ascii "[K2HFTFUSE]"] = [ascii "INCLUDE = /b.ini"] :=
    congrArg IniRead.lines (hread.unique hrun)
  exact absurd hsame (by decide +kernel)

end K2hFtFuse

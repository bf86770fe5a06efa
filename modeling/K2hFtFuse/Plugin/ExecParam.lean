import K2hFtFuse.Lib.Tokens
import K2hFtFuse.Util

/-!
# Plugin.ExecParam — the command line of a plugin

`ParseExecParam` splits the parameter of a plugin at blanks: variables for the environment, the file
to execute, its arguments. `AddPluginInfo` calls it as a check, and the child calls it again for what it
gives to `execvpe`.

This file defines `Command`, a command line by its parts, and shows that a plugin is executed as the one
command that its parameter spells (`execArgs_eq_some_iff`).
-/

namespace K2hFtFuse

open ByteSeq Tokens

/-! ## The functions -/

/-- `SPACE_CAHRS_FOR_PARSER`. -/
def SPACE_CAHRS_FOR_PARSER : Bytes := ascii " \t\r\n"

def isSpaceChar (c : UInt8) : Bool := SPACE_CAHRS_FOR_PARSER.contains c

/-- `'='`. -/
def EQUAL : UInt8 := 61

/-- `convert_string_to_strlst`: the tokens of `strtok_r`. -/
def convertStringToStrlst (base : Bytes) : List Bytes :=
  if base = [] then [] else tokens isSpaceChar [] base

/-- `convert_strlst_to_chararray`, with the memory that it needs. -/
def convertStrlstToChararray (list : List Bytes) : List Bytes := list.filter fun s => s ≠ []

/-- What `ParseExecParam` sets. -/
structure ExecParam where
  filename : Bytes
  argvs : List Bytes
  envs : List Bytes
  deriving DecidableEq

/-- The loop of `ParseExecParam`. -/
def execTokens : List Bytes → ExecParam → ExecParam
  | [], p => p
  | token :: rest, p =>
      if token.contains EQUAL then
        execTokens rest { p with envs := p.envs ++ [token] }
      else
        -- all that follows the file are its arguments
        { p with
          filename := token
          argvs := p.argvs ++ token :: rest }

/-- `ParseExecParam` for strings that are empty before. -/
def parseExecParam (base : Bytes) : Option ExecParam :=
  if base = [] then
    none
  else
    let baselist := convertStringToStrlst base
    if baselist.length = 0 then
      none
    else
      let p := execTokens baselist
        { filename := []
          argvs := []
          envs := [] }
      if p.filename = [] then none else some p

/-- What the child gives to `execvpe`: the file, the arguments and the environment. -/
def execArgs (base : Bytes) : Option (Bytes × List Bytes × List Bytes) :=
  (parseExecParam base).map fun p =>
    (p.filename, convertStrlstToChararray p.argvs, convertStrlstToChararray p.envs)

/-! ## Commands -/

/-- A command line: what is before the file are variables, and the file is none. -/
structure Command where
  envs : List Bytes
  filename : Bytes
  args : List Bytes
  isWord : ∀ w ∈ envs ++ filename :: args, IsWord isSpaceChar w
  assigns : ∀ e ∈ envs, EQUAL ∈ e
  isFile : EQUAL ∉ filename

def Command.words (c : Command) : List Bytes := c.envs ++ c.filename :: c.args

/-- Variables go to the environment until the first word that is none. -/
theorem execTokens_append {envs : List Bytes} (henvs : ∀ e ∈ envs, EQUAL ∈ e) (rest : List Bytes)
    (p : ExecParam) :
    execTokens (envs ++ rest) p = execTokens rest { p with envs := p.envs ++ envs } := by
  induction envs generalizing p with
  | nil => simp
  | cons e envs ih =>
      have he : e.contains EQUAL = true := by simpa using henvs e List.mem_cons_self
      rw [List.cons_append, execTokens, if_pos he, ih fun e' he' => henvs e' (List.mem_cons_of_mem _ he')]
      simp

theorem execTokens_words (c : Command) :
    execTokens c.words { filename := [], argvs := [], envs := [] } =
      { filename := c.filename
        argvs := c.filename :: c.args
        envs := c.envs } := by
  have hfile : c.filename.contains EQUAL = false := by simpa using c.isFile
  rw [Command.words, execTokens_append c.assigns, execTokens, hfile, if_neg Bool.false_ne_true]
  simp

/-- Words among which there is a file are those of a command. -/
theorem exists_command {words : List Bytes} (hwords : ∀ w ∈ words, IsWord isSpaceChar w)
    (hfile : ∃ w ∈ words, EQUAL ∉ w) : ∃ c : Command, c.words = words := by
  induction words with
  | nil =>
      rcases hfile with ⟨w, hw, -⟩
      cases hw
  | cons w words ih =>
      by_cases hvariable : EQUAL ∈ w
      · have hrest : ∃ w' ∈ words, EQUAL ∉ w' := by
          rcases hfile with ⟨w', hw', hfile⟩
          rcases List.mem_cons.1 hw' with rfl | hw'
          · exact absurd hvariable hfile
          · exact ⟨w', hw', hfile⟩
        rcases ih (fun w' hw' => hwords w' (List.mem_cons_of_mem _ hw')) hrest with ⟨c, rfl⟩
        refine ⟨{ c with
          envs := w :: c.envs
          isWord := hwords
          assigns := ?_ }, rfl⟩
        intro e he
        rcases List.mem_cons.1 he with rfl | he
        · exact hvariable
        · exact c.assigns e he
      · -- the file is the first word without `=`
        exact ⟨{ envs := []
                 filename := w
                 args := words
                 isWord := hwords
                 assigns := by simp
                 isFile := hvariable }, rfl⟩

/-- Without a file there are only variables. -/
theorem execTokens_of_no_file {words : List Bytes} (h : ∀ w ∈ words, EQUAL ∈ w) (p : ExecParam) :
    (execTokens words p).filename = p.filename := by
  have hall := execTokens_append h [] p
  rw [List.append_nil] at hall
  rw [hall]
  rfl

theorem parseExecParam_eq_some_iff {base : Bytes} {p : ExecParam} :
    parseExecParam base = some p ↔
      ∃ c : Command, Spaced isSpaceChar base c.words ∧
        p = { filename := c.filename, argvs := c.filename :: c.args, envs := c.envs } := by
  constructor
  · intro h
    unfold parseExecParam at h
    split at h
    · cases h
    · rename_i hbase
      dsimp only at h
      split at h
      · cases h
      · split at h
        · cases h
        · rename_i hfilename
          have htokens : convertStringToStrlst base = tokens isSpaceChar [] base := if_neg hbase
          rw [htokens] at h hfilename
          have hfile : ∃ w ∈ tokens isSpaceChar [] base, EQUAL ∉ w := by
            by_contra hnone
            refine hfilename (execTokens_of_no_file ?_ _)
            intro w hw
            by_contra hw'
            exact hnone ⟨w, hw, hw'⟩
          rcases exists_command isWord_of_mem_tokens hfile with ⟨c, hc⟩
          refine ⟨c, tokens_eq_iff.1 hc.symm, ?_⟩
          rw [← Option.some.inj h, ← hc, execTokens_words]
  · rintro ⟨c, hspaced, rfl⟩
    have htokens := tokens_of_spaced hspaced
    have hbase : base ≠ [] := by
      rintro rfl
      rw [Command.words] at htokens
      simp [tokens] at htokens
    have hlist : convertStringToStrlst base = c.words := (if_neg hbase).trans htokens
    have hlength : c.words.length ≠ 0 := by simp [Command.words]
    have hfile : c.filename ≠ [] := (c.isWord c.filename (by simp)).1
    unfold parseExecParam
    rw [if_neg hbase]
    simp only [hlist, if_neg hlength, execTokens_words, if_neg hfile]

/-- A plugin is executed exactly where its parameter spells a command, whatever blanks are around the
words: as this command's file with its arguments, the file among them, and its variables and no others in
the environment. -/
theorem execArgs_eq_some_iff (base filename : Bytes) (argv envp : List Bytes) :
    execArgs base = some (filename, argv, envp) ↔
      ∃ c : Command, Spaced isSpaceChar base c.words ∧ filename = c.filename ∧
        argv = c.filename :: c.args ∧ envp = c.envs := by
  -- no word is empty, so the arrays are the lists
  have hkeep : ∀ {c : Command} {list : List Bytes}, (∀ w ∈ list, w ∈ c.words) →
      convertStrlstToChararray list = list := by
    intro c list hlist
    refine List.filter_eq_self.2 fun w hw => ?_
    simpa using (c.isWord w (hlist w hw)).1
  have hargs : ∀ c : Command, convertStrlstToChararray (c.filename :: c.args) = c.filename :: c.args :=
    fun c => hkeep fun w hw => List.mem_append_right _ hw
  have henvs : ∀ c : Command, convertStrlstToChararray c.envs = c.envs :=
    fun c => hkeep fun w hw => List.mem_append_left _ hw
  unfold execArgs
  rw [Option.map_eq_some_iff]
  constructor
  · rintro ⟨p, hparse, hresult⟩
    rcases parseExecParam_eq_some_iff.1 hparse with ⟨c, hspaced, rfl⟩
    rw [hargs, henvs] at hresult
    cases hresult
    exact ⟨c, hspaced, rfl, rfl, rfl⟩
  · rintro ⟨c, hspaced, rfl, rfl, rfl⟩
    refine ⟨_, parseExecParam_eq_some_iff.2 ⟨c, hspaced, rfl⟩, ?_⟩
    rw [hargs, henvs]

example : execArgs (ascii " LANG=C  /bin/tee -a\tk=v") =
    some (ascii "/bin/tee", [ascii "/bin/tee", ascii "-a", ascii "k=v"], [ascii "LANG=C"]) := by
  decide

end K2hFtFuse

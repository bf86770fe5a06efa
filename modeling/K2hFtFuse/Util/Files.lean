import K2hFtFuse.Util.Directories

/-!
# Util.Files — making files

`make_file_by_abs_path` looks whether there is a file, tries to make it, and where it may make the path
too, makes the directory with `mkdir_by_abs_path` and tries again. `k2hftfuse` makes output files with it,
and `k2hftfusesvr` the one that all goes to.

This file defines:
* `FilePath`: an absolute path by its names,
* `CanMake`: there is a directory for the file, or one can be made.

and shows when the function returns true, what is in the tree then, and what stays in every case
(`makeFileByAbsPath_spec`).
-/

namespace K2hFtFuse

open ByteSeq

/-! ## The functions -/

/-- `open` with `O_CREAT | O_RDWR`, by what it does to the tree. -/
def openCreate (tree : FileTree Bytes) (path : Bytes) : Option (FileTree Bytes) :=
  if path.getLast? = some SLASH then
    none
  else
    match (pathComponents path).getLast? with
    | none => none
    | some last =>
        match tree.walk [] ((pathComponents path).dropLast.map hopOf), hopOf last with
        | some parent, .into name =>
            if hnew : tree.kind (parent ++ [name]) = none then
              if hdir : tree.kind parent = some .dir then
                some (tree.create parent name hdir hnew)
              else
                none
            else if tree.kind (parent ++ [name]) = some .other then
              some tree
            else
              none
        | _, _ => none

/-- The end of `make_file_by_abs_path`. -/
def finishFile (tree : FileTree Bytes) (path abspath : Bytes) : MkdirResult :=
  match checkPathRealPath tree path with
  | none => { result := false, abspath := abspath, tree := tree }
  | some abspath => { result := true, abspath := abspath, tree := tree }

/-- `make_file_by_abs_path` for an absolute path; `isFile` tells that an entry that is no directory is a
regular file or a character device. -/
def makeFileByAbsPath (tree : FileTree Bytes) (isFile : List Bytes → Bool) (path abspath : Bytes)
    (is_make_path : Bool) : MkdirResult :=
  if path = [] then
    { result := false, abspath := abspath, tree := tree }
  else
    match lookupPath tree path with
    | some names =>
        if tree.kind names = some .other ∧ isFile names = true then
          finishFile tree path abspath
        else
          { result := false, abspath := abspath, tree := tree }
    | none =>
        match openCreate tree path with
        | some tree => finishFile tree path abspath
        | none =>
            if !is_make_path then
              { result := false, abspath := abspath, tree := tree }
            else
              -- try to make the directory
              match splitLast SLASH path with
              | none => { result := false, abspath := abspath, tree := tree }
              | some (strtmp, _) =>
                  if strtmp = [] then
                    { result := false, abspath := abspath, tree := tree }
                  else
                    let dir := mkdirByAbsPath tree strtmp abspath
                    if !dir.result then
                      dir
                    else
                      match openCreate dir.tree path with
                      | none => { dir with result := false }
                      | some tree => finishFile tree path dir.abspath

/-! ## Paths -/

/-- A file by the names that lead to it; none of them is `.` or `..`. -/
structure FilePath where
  dir : List Bytes
  name : Bytes
  valid : ∀ c ∈ dir ++ [name], c ≠ [] ∧ SLASH ∉ c ∧ (0 : UInt8) ∉ c ∧ c ≠ ascii "." ∧ c ≠ ascii ".."

namespace FilePath

variable (path : FilePath)

def names : List Bytes := path.dir ++ [path.name]

def text : Bytes := textOf path.names false

theorem names_valid : ∀ c ∈ path.names, c ≠ [] ∧ SLASH ∉ c :=
  fun c hc => ⟨(path.valid c hc).1, (path.valid c hc).2.1⟩

theorem names_into : ∀ c ∈ path.names, hopOf c = .into c :=
  fun c hc => hopOf_eq_into_iff.2 (path.valid c hc).2.2.2

theorem dir_valid : ∀ c ∈ path.dir, c ≠ [] ∧ SLASH ∉ c :=
  fun c hc => path.names_valid c (List.mem_append_left _ hc)

theorem dir_into : ∀ c ∈ path.dir, hopOf c = .into c :=
  fun c hc => path.names_into c (List.mem_append_left _ hc)

theorem text_ne_nil : path.text ≠ [] := textOf_append_ne_nil _ _ _

theorem names_not_prefix : ¬ path.names <+: path.dir := fun h => by
  simpa [names] using h.length_le

end FilePath

/-- The directory is there, or what is missing of it can be made: no file stands in the way, and its first
component is there. -/
def CanMake (tree : FileTree Bytes) (dir : List Bytes) (is_make_path : Bool) : Prop :=
  tree.kind dir = some .dir ∨
    (is_make_path = true ∧ PrefixesAreDirs tree dir ∧ ∃ c ∈ dir.head?, tree.kind [c] = some .dir)

/-! ## The calls for such a path -/

section Calls

variable {tree : FileTree Bytes} {path : FilePath} {abspath : Bytes}

theorem lookupPath_text :
    lookupPath tree path.text = if tree.kind path.names = none then none else some path.names := by
  rw [FilePath.text, lookupPath_textOf path.names_valid, walkPath_names path.names_into]
  split
  · rfl
  · simp

theorem finishFile_text (hentry : tree.kind path.names ≠ none) :
    finishFile tree path.text abspath =
      { result := true, abspath := namesPath path.names, tree := tree } := by
  have hreal : checkPathRealPath tree path.text = some (namesPath path.names) := by
    rw [checkPathRealPath, if_neg path.text_ne_nil, realpath, lookupPath_text, if_neg hentry]
    rfl
  rw [finishFile, hreal]

/-- A file that is not there can be made in a directory only. -/
theorem openCreate_text (hnew : tree.kind (path.dir ++ [path.name]) = none) :
    openCreate tree path.text =
      if hdir : tree.kind path.dir = some .dir then some (tree.create path.dir path.name hdir hnew)
      else none := by
  have hlast : path.text.getLast? ≠ some SLASH := by
    rw [FilePath.text, Ne, getLast?_textOf path.names_valid]
    exact Bool.false_ne_true
  have hcomponents : pathComponents path.text = path.dir ++ [path.name] :=
    pathComponents_textOf path.names_valid false
  have hname : hopOf path.name = .into path.name := path.names_into _ (by simp [FilePath.names])
  have hwalk : tree.walk [] (path.dir.map hopOf) =
      if tree.kind path.dir = none then none else some path.dir := walkPath_names path.dir_into
  simp only [openCreate, if_neg hlast, hcomponents, List.getLast?_append, List.getLast?_singleton,
    Option.some_or, List.dropLast_concat, hwalk, hname]
  by_cases hnone : tree.kind path.dir = none
  · simp [hnone]
  · simp [hnone, hnew]

theorem splitLast_text : splitLast SLASH path.text = some (textOf path.dir false, path.name) :=
  splitLast_textOf_false (path.names_valid path.name (by simp [FilePath.names])).2

end Calls

/-! ## What making a directory changes -/

/-- Directories come on the way to `names`, and nothing else changes. -/
def OnlyDirs (names : List Bytes) (tree tree' : FileTree Bytes) : Prop :=
  ∀ p, tree'.kind p = tree.kind p ∨
    (tree.kind p = none ∧ p <+: names ∧ tree'.kind p = some .dir)

/-- A longer path. -/
theorem OnlyDirs.concat {tree tree' : FileTree Bytes} {cs : List Bytes} (c : Bytes)
    (h : OnlyDirs cs tree tree') : OnlyDirs (cs ++ [c]) tree tree' := by
  intro p
  rcases h p with hsame | ⟨hnone, hbegins, hdir⟩
  · exact .inl hsame
  · exact .inr ⟨hnone, hbegins.trans (List.prefix_append cs [c]), hdir⟩

theorem onlyDirs_mkdir {tree tree' made : FileTree Bytes} {cs : List Bytes} {c : Bytes} {slash : Bool}
    (hvalid : ∀ d ∈ cs ++ [c], d ≠ [] ∧ SLASH ∉ d) (hnames : ∀ d ∈ cs ++ [c], hopOf d = .into d)
    (h : OnlyDirs cs tree tree') (hmade : mkdir tree' (textOf (cs ++ [c]) slash) = some made) :
    OnlyDirs (cs ++ [c]) tree made := by
  have hwalk : tree'.walk [] (cs.map hopOf) = if tree'.kind cs = none then none else some cs :=
    walkPath_names fun d hd => hnames d (List.mem_append_left _ hd)
  have hinto : hopOf c = .into c := hnames c (by simp)
  simp only [mkdir, pathComponents_textOf hvalid, List.getLast?_append, List.getLast?_singleton,
    Option.some_or, List.dropLast_concat, hwalk, hinto] at hmade
  split at hmade
  · cases hmade
  · rename_i parent hparent
    obtain ⟨-, rfl⟩ : tree'.kind cs ≠ none ∧ cs = parent := by
      simpa [Option.ite_none_left_eq_some] using hparent
    split at hmade
    · rename_i hdir
      split at hmade
      · rename_i hnew
        obtain rfl := Option.some.inj hmade
        intro p
        rw [FileTree.kind_mkdir]
        by_cases hp : p = cs ++ [c]
        · -- the new directory was not there before
          right
          rw [if_pos hp]
          subst hp
          rcases h (cs ++ [c]) with hsame | ⟨hnone, -⟩
          · exact ⟨hsame ▸ hnew, List.prefix_refl _, rfl⟩
          · exact ⟨hnone, List.prefix_refl _, rfl⟩
        · rw [if_neg hp]
          exact h.concat c p
      · cases hmade
    · cases hmade

/-- Whether it succeeds or not. -/
theorem onlyDirs_mkdirByAbsPath {components : List Bytes}
    (hvalid : ∀ c ∈ components, c ≠ [] ∧ SLASH ∉ c) (hnames : ∀ c ∈ components, hopOf c = .into c)
    (tree : FileTree Bytes) (abspath : Bytes) :
    OnlyDirs components tree (mkdirByAbsPath tree (textOf components false) abspath).tree := by
  induction components using List.reverseRecOn with
  | nil =>
      rw [mkdirByAbsPath_nil]
      exact fun p => .inl rfl
  | append_singleton cs c ih =>
      have hne := textOf_append_ne_nil cs c false
      cases hlookup : lookupPath tree (textOf (cs ++ [c]) false) with
      | some names =>
          rw [mkdirByAbsPath_of_lookup hvalid hne hlookup]
          exact fun p => .inl rfl
      | none =>
          have habove := ih (fun d hd => hvalid d (List.mem_append_left _ hd))
            fun d hd => hnames d (List.mem_append_left _ hd)
          have hlonger : OnlyDirs (cs ++ [c]) tree
              (mkdirByAbsPath tree (textOf cs false) abspath).tree := habove.concat c
          rw [mkdirByAbsPath_of_not_lookup (head?_textOf hne) (textOf_false_ne_root hvalid)
            (splitLast_textOf_false (hvalid c (by simp)).2) hlookup]
          dsimp only
          split
          · cases hmade : mkdir (mkdirByAbsPath tree (textOf cs false) abspath).tree
                (textOf (cs ++ [c]) false) with
            | none => exact hlonger
            | some made =>
                have honly := onlyDirs_mkdir hvalid hnames habove hmade
                dsimp only
                split
                · exact honly
                · exact honly
          · exact hlonger

/-- Directories were made only where the first component was there. -/
theorem first_of_result {tree : FileTree Bytes} {components : List Bytes} {abspath : Bytes}
    (hvalid : ∀ c ∈ components, c ≠ [] ∧ SLASH ∉ c) (hnames : ∀ c ∈ components, hopOf c = .into c)
    (h : (mkdirByAbsPath tree (textOf components false) abspath).result = true) :
    PrefixesAreDirs tree components ∧ ∃ c ∈ components.head?, tree.kind [c] = some .dir := by
  have hdirs := prefixesAreDirs_of_result_plain hvalid h
  refine ⟨hdirs, ?_⟩
  by_contra hfirst
  have hnone : ∀ c ∈ components.head?, tree.kind [c] = none := by
    intro c hc
    by_contra hentry
    obtain ⟨rest, hrest⟩ := List.head?_eq_some_iff.1 hc
    have hbegins : [c] <+: components := ⟨rest, hrest.symm⟩
    have hwalk : walkPath tree [c] = some [c] := by
      rw [walkPath_names fun d hd => hnames d (hbegins.subset hd), if_neg hentry]
    exact hfirst ⟨c, hc, hdirs [c] hbegins [c] hwalk⟩
  rw [result_of_first_none hvalid hnames hnone] at h
  cases h

/-! ## What the function does -/

/-- Making a file: it returns true where the file is there, or where there is nothing and it can be made.
Then the file is there, and the directories on the way to it; else there are no files that were not there
before. -/
structure MakeFileCorrect (tree : FileTree Bytes) (isFile : List Bytes → Bool) (path : FilePath)
    (is_make_path : Bool) (out : MkdirResult) : Prop where
  returns : out.result = true ↔
    (tree.kind path.names = some .other ∧ isFile path.names = true) ∨
      (tree.kind path.names = none ∧ CanMake tree path.dir is_make_path)
  abspath : out.result = true → out.abspath = path.text
  made : out.result = true → ∀ p, out.tree.kind p =
    if p = path.names then some .other else if p <+: path.dir then some .dir else tree.kind p
  frame : out.result = false → OnlyDirs path.dir tree out.tree

section Spec

variable {tree : FileTree Bytes} {isFile : List Bytes → Bool} {path : FilePath} {abspath : Bytes}
  {is_make_path : Bool}

theorem namesPath_names (path : FilePath) : namesPath path.names = path.text := by
  have hempty : path.names.isEmpty = false := by simp [FilePath.names]
  rw [namesPath_eq, hempty, FilePath.text]

/-- Everything on the way to an entry is a directory. -/
theorem kind_of_prefix_dir (hentry : tree.kind path.dir = some .dir) {p : List Bytes}
    (hp : p <+: path.dir) : tree.kind p = some .dir := by
  rcases tree.kind_of_prefix hp (by rw [hentry]; simp) with rfl | hdir
  · exact hentry
  · exact hdir

theorem makeFile_of_entry {kind : FileTree.Kind} (hentry : tree.kind path.names = some kind) :
    MakeFileCorrect tree isFile path is_make_path
      (makeFileByAbsPath tree isFile path.text abspath is_make_path) := by
  have hsome : tree.kind path.names ≠ none := by rw [hentry]; simp
  have hlookup : lookupPath tree path.text = some path.names := by
    rw [lookupPath_text, if_neg hsome]
  have hcall : makeFileByAbsPath tree isFile path.text abspath is_make_path =
      if tree.kind path.names = some .other ∧ isFile path.names = true then
        { result := true, abspath := path.text, tree := tree }
      else { result := false, abspath := abspath, tree := tree } := by
    rw [makeFileByAbsPath, if_neg path.text_ne_nil, hlookup, finishFile_text hsome, namesPath_names]
  rw [hcall]
  split
  · rename_i hfile
    refine ⟨iff_of_true rfl (.inl hfile), fun _ => rfl, fun _ p => ?_, nofun⟩
    split
    · rename_i hp
      rw [hp, hfile.1]
    · split
      · rename_i hp
        exact kind_of_prefix_dir (tree.closed _ _ hsome) hp
      · rfl
  · rename_i hfile
    refine ⟨iff_of_false Bool.false_ne_true ?_, nofun, nofun, fun _ p => .inl rfl⟩
    rintro (hthere | ⟨hnone, -⟩)
    · exact hfile hthere
    · exact hsome hnone

/-- The file is made in a directory that is there, or that was made with the ones above it. -/
theorem makeFile_of_create (hnone : tree.kind path.names = none)
    (hcan : CanMake tree path.dir is_make_path) {tree' : FileTree Bytes}
    (hkinds : ∀ p, tree'.kind p = if p <+: path.dir then some .dir else tree.kind p)
    (hdir : tree'.kind path.dir = some .dir) (hnew : tree'.kind (path.dir ++ [path.name]) = none) :
    MakeFileCorrect tree isFile path is_make_path
      (finishFile (tree'.create path.dir path.name hdir hnew) path.text abspath) := by
  have hsome : (tree'.create path.dir path.name hdir hnew).kind path.names ≠ none := by
    have hlast : path.names = path.dir ++ [path.name] := rfl
    rw [FileTree.kind_create, if_pos hlast]
    simp
  rw [finishFile_text hsome, namesPath_names]
  refine ⟨iff_of_true rfl (.inr ⟨hnone, hcan⟩), fun _ => rfl, fun _ p => ?_, nofun⟩
  dsimp only
  rw [FileTree.kind_create, hkinds]
  rfl

theorem makeFile_of_none (hnone : tree.kind path.names = none) :
    MakeFileCorrect tree isFile path is_make_path
      (makeFileByAbsPath tree isFile path.text abspath is_make_path) := by
  have hlookup : lookupPath tree path.text = none := by rw [lookupPath_text, if_pos hnone]
  rw [makeFileByAbsPath, if_neg path.text_ne_nil, hlookup]
  dsimp only
  rw [openCreate_text hnone]
  by_cases hdir : tree.kind path.dir = some .dir
  · rw [dif_pos hdir]
    refine makeFile_of_create hnone (.inl hdir) (fun p => ?_) hdir hnone
    split
    · rename_i hp
      exact kind_of_prefix_dir hdir hp
    · rfl
  · rw [dif_neg hdir]
    dsimp only
    have hfails : ∀ {out : MkdirResult}, out.result = false → ¬ CanMake tree path.dir is_make_path →
        OnlyDirs path.dir tree out.tree → MakeFileCorrect tree isFile path is_make_path out := by
      intro out hresult hcannot honly
      have hno : ¬ out.result = true := by simp [hresult]
      refine ⟨iff_of_false hno ?_, fun h => absurd h hno, fun h => absurd h hno, fun _ => honly⟩
      rintro (⟨hother, -⟩ | ⟨-, hcan⟩)
      · rw [hnone] at hother
        cases hother
      · exact hcannot hcan
    cases his : is_make_path with
    | false =>
        subst his
        refine hfails rfl ?_ fun p => .inl rfl
        rintro (hthere | ⟨hmake, -⟩)
        · exact hdir hthere
        · cases hmake
    | true =>
        subst his
        have hne : textOf path.dir false ≠ [] := by
          intro hnil
          have hroot : path.dir = [] := by
            cases hcs : path.dir with
            | nil => rfl
            | cons c cs => simp [hcs, textOf, plainPath] at hnil
          exact hdir (hroot ▸ tree.root)
        rw [Bool.not_true, if_neg Bool.false_ne_true, splitLast_text]
        dsimp only
        rw [if_neg hne]
        cases hresult : (mkdirByAbsPath tree (textOf path.dir false) abspath).result with
        | false =>
            rw [Bool.not_false, if_pos rfl]
            refine hfails hresult ?_ (onlyDirs_mkdirByAbsPath path.dir_valid path.dir_into tree abspath)
            rintro (hthere | ⟨-, hdirs, hfirst⟩)
            · exact hdir hthere
            · have hmade := @mkdirByAbsPath_of_first_dir _ _ abspath path.dir_valid path.dir_into hfirst
                hdirs _ rfl
              rw [hmade.1] at hresult
              cases hresult
        | true =>
            rw [Bool.not_true, if_neg Bool.false_ne_true]
            rcases first_of_result path.dir_valid path.dir_into hresult with ⟨hdirs, hfirst⟩
            rcases mkdirByAbsPath_of_first_dir path.dir_valid path.dir_into hfirst hdirs rfl with
              ⟨-, -, hkinds⟩
            have hdir' : (mkdirByAbsPath tree (textOf path.dir false) abspath).tree.kind path.dir =
                some .dir := by
              rw [hkinds, if_pos (List.prefix_refl _)]
            have hnew : (mkdirByAbsPath tree (textOf path.dir false) abspath).tree.kind path.names =
                none := by
              rw [hkinds, if_neg path.names_not_prefix, hnone]
            rw [openCreate_text hnew, dif_pos hdir']
            exact makeFile_of_create hnone (.inr ⟨rfl, hdirs, hfirst⟩) hkinds hdir' hnew

end Spec

/-- Where there is no directory for the file, its path is made only below a first component that is there,
as `mkdir_by_abs_path` does not make that one. -/
theorem makeFileByAbsPath_spec (tree : FileTree Bytes) (isFile : List Bytes → Bool) (path : FilePath)
    (abspath : Bytes) (is_make_path : Bool) :
    MakeFileCorrect tree isFile path is_make_path
      (makeFileByAbsPath tree isFile path.text abspath is_make_path) := by
  cases hentry : tree.kind path.names with
  | some kind => exact makeFile_of_entry hentry
  | none => exact makeFile_of_none hentry

end K2hFtFuse

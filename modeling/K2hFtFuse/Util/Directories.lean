import K2hFtFuse.Lib.FileTree
import K2hFtFuse.Util

/-!
# Util.Directories — making directories

`mkdir_by_abs_path` and the checks that it makes, on a file tree without symbolic links in which
everything may be read and made.  What the function should do for a path is `MkdirCorrect`; the path
is given by its components (`AbsPath`), with or without a `/` at the end.
-/

namespace K2hFtFuse

open ByteSeq

/-! ## System calls -/

/-- A component of a path as the kernel takes it. -/
def hopOf (component : Bytes) : FileTree.Hop Bytes :=
  if component = ascii "." then .here
  else if component = ascii ".." then .up
  else .into component

/-- The components of a path. Empty ones do not count. -/
def pathComponents (path : Bytes) : List Bytes := (path.splitOn SLASH).filter fun c => c ≠ []

/-- The absolute path of the names. -/
def namesPath (names : List Bytes) : Bytes :=
  if names = [] then [SLASH] else names.flatMap fun name => SLASH :: name

/-- The entry that an absolute path leads to. A path with a `/` at its end leads to directories
only. -/
def lookupPath (tree : FileTree Bytes) (path : Bytes) : Option (List Bytes) :=
  match tree.walk [] ((pathComponents path).map hopOf) with
  | none => none
  | some names =>
      if path.getLast? = some SLASH ∧ tree.kind names ≠ some .dir then none else some names

/-- `realpath`. -/
def realpath (tree : FileTree Bytes) (path : Bytes) : Option Bytes :=
  (lookupPath tree path).map namesPath

/-- `mkdir`. It fails where there is something already, and for a last component `.` or `..`. -/
def mkdir (tree : FileTree Bytes) (path : Bytes) : Option (FileTree Bytes) :=
  match (pathComponents path).getLast? with
  | none => none
  | some last =>
      match tree.walk [] ((pathComponents path).dropLast.map hopOf) with
      | none => none
      | some parent =>
          if hdir : tree.kind parent = some .dir then
            match hopOf last with
            | .into name =>
                if tree.kind (parent ++ [name]) = none then some (tree.mkdir parent name hdir)
                else none
            | _ => none
          else
            none

/-! ## The functions -/

/-- `check_path_real_path`. -/
def checkPathRealPath (tree : FileTree Bytes) (path : Bytes) : Option Bytes :=
  if path = [] then none else realpath tree path

/-- `check_path_directory_type`. -/
def checkPathDirectoryType (tree : FileTree Bytes) (path : Bytes) : Bool :=
  if path = [] then
    false
  else if path.head? ≠ some SLASH then
    false
  else
    match lookupPath tree path with
    | none => false
    | some names => decide (tree.kind names = some .dir)

/-- The result of `mkdir_by_abs_path`, the string that it sets and what it made of the tree. -/
structure MkdirResult where
  result : Bool
  abspath : Bytes
  tree : FileTree Bytes

theorem length_splitLast {c : UInt8} {s front tail : Bytes} (h : splitLast c s = some (front, tail)) :
    front.length < s.length := by
  simp only [splitLast, Option.ite_none_right_eq_some, Option.some.injEq, Prod.mk.injEq] at h
  obtain ⟨hlt, rfl, -⟩ := h
  rw [List.length_take]
  omega

/-- `mkdir_by_abs_path`. -/
def mkdirByAbsPath (tree : FileTree Bytes) (path abspath : Bytes) : MkdirResult :=
  if path = [] then
    { result := false, abspath := abspath, tree := tree }
  else if path.head? ≠ some SLASH then
    { result := false, abspath := abspath, tree := tree }
  else
    match checkPathRealPath tree path with
    | some abspath =>
        { result := checkPathDirectoryType tree abspath, abspath := abspath, tree := tree }
    | none =>
        if path = ascii "/" then
          { result := false, abspath := abspath, tree := tree }
        else
          match _h : splitLast SLASH path with
          | none => { result := false, abspath := abspath, tree := tree }
          | some (tmppath, _) =>
              let upper := mkdirByAbsPath tree tmppath abspath
              if upper.result then
                match mkdir upper.tree path with
                | none => { result := false, abspath := [], tree := upper.tree }
                | some tree =>
                    -- the directory is there now
                    match checkPathRealPath tree path with
                    | none => { result := false, abspath := [], tree := tree }
                    | some abspath =>
                        { result := checkPathDirectoryType tree abspath
                          abspath := abspath
                          tree := tree }
              else
                upper
termination_by path.length
decreasing_by exact length_splitLast _h

/-! ## Paths and their components -/

/-- An absolute path: components that are not empty, and maybe a `/` behind them. -/
structure AbsPath where
  components : List Bytes
  trailing : Bool
  valid : ∀ c ∈ components, c ≠ [] ∧ SLASH ∉ c ∧ (0 : UInt8) ∉ c

/-- The components, each behind its `/`. -/
def plainPath (components : List Bytes) : Bytes := components.flatMap fun c => SLASH :: c

/-- The text of components, with or without a `/` behind them. -/
def textOf (components : List Bytes) (slash : Bool) : Bytes :=
  plainPath components ++ if slash then [SLASH] else []

/-- The root has one text only. -/
def AbsPath.text (path : AbsPath) : Bytes :=
  textOf path.components (path.trailing || path.components.isEmpty)

@[simp] theorem plainPath_nil : plainPath [] = [] := rfl

@[simp] theorem plainPath_append (cs cs' : List Bytes) :
    plainPath (cs ++ cs') = plainPath cs ++ plainPath cs' :=
  List.flatMap_append

@[simp] theorem plainPath_singleton (c : Bytes) : plainPath [c] = SLASH :: c := by
  simp [plainPath]

theorem intercalate_cons_eq (c : Bytes) (cs : List Bytes) :
    [SLASH].intercalate (c :: cs) = c ++ plainPath cs := by
  induction cs generalizing c with
  | nil =>
      simp
  | cons d cs ih =>
      rw [List.intercalate_cons_cons, ih d]
      simp [plainPath]

theorem splitOn_plainPath {cs : List Bytes} (hcs : ∀ c ∈ cs, SLASH ∉ c) :
    (plainPath cs).splitOn SLASH = [] :: cs := by
  have hjoin : plainPath cs = [SLASH].intercalate ([] :: cs) := by
    cases cs with
    | nil =>
        rfl
    | cons c cs =>
        rw [List.intercalate_cons_cons, List.nil_append, intercalate_cons_eq]
        simp [plainPath]
  rw [hjoin]
  refine List.splitOn_intercalate SLASH ?_ (by simp)
  intro c hc
  rcases List.mem_cons.1 hc with rfl | hmem
  · simp
  · exact hcs c hmem

theorem pathComponents_textOf {cs : List Bytes} (hcs : ∀ c ∈ cs, c ≠ [] ∧ SLASH ∉ c)
    (slash : Bool) : pathComponents (textOf cs slash) = cs := by
  have hfilter : cs.filter (fun c => c ≠ []) = cs :=
    List.filter_eq_self.2 fun c hc => by simpa using (hcs c hc).1
  cases slash with
  | false =>
      -- the split gives one empty component, before the first `/`
      have hplain : textOf cs false = plainPath cs := by simp [textOf]
      rw [pathComponents, hplain, splitOn_plainPath fun c hc => (hcs c hc).2]
      simpa using hfilter
  | true =>
      -- a `/` at the end starts an empty component
      have hlast : textOf cs true = plainPath (cs ++ [[]]) := by simp [textOf]
      have hall : ∀ c ∈ cs ++ [[]], SLASH ∉ c := by
        intro c hc
        rcases List.mem_append.1 hc with hmem | hnil
        · exact (hcs c hmem).2
        · rw [List.mem_singleton.1 hnil]
          simp
      rw [pathComponents, hlast, splitOn_plainPath hall]
      simpa using hfilter

/-! ## What the function should do -/

/-- A walk along components. -/
def walkPath (tree : FileTree Bytes) (components : List Bytes) : Option (List Bytes) :=
  tree.walk [] (components.map hopOf)

/-- Where a part of the path from its start leads to something, that is a directory. -/
def PrefixesAreDirs (tree : FileTree Bytes) (components : List Bytes) : Prop :=
  ∀ q, q <+: components → ∀ p, walkPath tree q = some p → tree.kind p = some .dir

/-- Recursive creation of the directories of a path. -/
structure MkdirCorrect (tree : FileTree Bytes) (path : AbsPath) (out : MkdirResult) : Prop where
  returns : out.result = true ↔ PrefixesAreDirs tree path.components
  dirs : out.result = true → ∀ q, q <+: path.components →
    ∃ p, walkPath out.tree q = some p ∧ out.tree.kind p = some .dir
  abspath : out.result = true → out.abspath = namesPath path.components
  frame : out.result = true → ∀ p, out.tree.kind p = tree.kind p ∨
    (tree.kind p = none ∧ ∃ q, q <+: path.components ∧ walkPath out.tree q = some p)

/-! ## One call -/

/-- The components of a path lead to names that are among them. -/
theorem names_of_walkPath {tree : FileTree Bytes} {components names : List Bytes}
    (h : walkPath tree components = some names) :
    ∀ name ∈ names, name ∈ components ∧ hopOf name = .into name := by
  intro name hname
  rcases tree.into_mem_of_walk h hname with hnil | hmem
  · cases hnil
  · obtain ⟨c, hc, hhop⟩ := List.mem_map.1 hmem
    have hsame : c = name := by
      simp only [hopOf] at hhop
      -- `.` and `..` are no names
      split at hhop
      · cases hhop
      · split at hhop
        · cases hhop
        · exact FileTree.Hop.into.inj hhop
    subst hsame
    exact ⟨hc, hhop⟩

theorem walkPath_names {tree : FileTree Bytes} {names : List Bytes}
    (hnames : ∀ name ∈ names, hopOf name = .into name) :
    walkPath tree names = if tree.kind names = none then none else some names := by
  have hmap : names.map hopOf = names.map FileTree.Hop.into := List.map_congr_left hnames
  rw [walkPath, hmap, tree.walk_names]

section Call

variable {tree : FileTree Bytes} {components : List Bytes} {slash : Bool}

theorem getLast?_textOf (hvalid : ∀ c ∈ components, c ≠ [] ∧ SLASH ∉ c) :
    (textOf components slash).getLast? = some SLASH ↔ slash = true := by
  cases slash with
  | true =>
      simp [textOf]
  | false =>
      simp only [textOf, Bool.false_eq_true, if_false, List.append_nil, iff_false]
      rcases List.eq_nil_or_concat' components with rfl | ⟨cs, c, rfl⟩
      · simp
      · obtain ⟨hne, hslash⟩ := hvalid c (by simp)
        -- the last byte is one of the last component
        obtain ⟨last, hlast⟩ := Option.isSome_iff_exists.1 (List.getLast?_isSome.2 hne)
        have hmem : last ∈ c := List.mem_of_getLast? hlast
        intro h
        have hend : last = SLASH := by
          simpa [plainPath, List.getLast?_append, List.getLast?_cons, hlast] using h
        exact hslash (hend ▸ hmem)

theorem lookupPath_textOf (hvalid : ∀ c ∈ components, c ≠ [] ∧ SLASH ∉ c) :
    lookupPath tree (textOf components slash) =
      (walkPath tree components).bind fun names =>
        if slash = true ∧ tree.kind names ≠ some .dir then none else some names := by
  rw [lookupPath, pathComponents_textOf hvalid]
  simp only [getLast?_textOf hvalid]
  rw [walkPath]
  rcases tree.walk [] (components.map hopOf) with _ | names <;> rfl

theorem lookupPath_eq_some (hvalid : ∀ c ∈ components, c ≠ [] ∧ SLASH ∉ c) {names : List Bytes}
    (h : lookupPath tree (textOf components slash) = some names) :
    walkPath tree components = some names := by
  rw [lookupPath_textOf hvalid] at h
  obtain ⟨found, hfound, hnames⟩ := Option.bind_eq_some_iff.1 h
  split at hnames
  · cases hnames
  · rwa [← Option.some.inj hnames]

theorem namesPath_eq (names : List Bytes) : namesPath names = textOf names names.isEmpty := by
  cases names with
  | nil => rfl
  | cons name names => simp [namesPath, textOf, plainPath]

/-- The path of an entry by its names leads to it. -/
theorem checkPathDirectoryType_namesPath {names : List Bytes}
    (hvalid : ∀ name ∈ names, name ≠ [] ∧ SLASH ∉ name) (hhops : ∀ name ∈ names, hopOf name = .into name)
    (hentry : tree.kind names ≠ none) :
    checkPathDirectoryType tree (namesPath names) = decide (tree.kind names = some .dir) := by
  have hhead : (namesPath names).head? = some SLASH := by
    cases names with
    | nil => rfl
    | cons name names => simp [namesPath]
  have hne : namesPath names ≠ [] := by
    intro h
    rw [h] at hhead
    cases hhead
  have hlookup : lookupPath tree (namesPath names) = some names := by
    rw [namesPath_eq, lookupPath_textOf hvalid, walkPath_names hhops, if_neg hentry,
      Option.bind_some]
    cases names with
    | nil => simp [tree.root]
    | cons name names => simp
  simp [checkPathDirectoryType, hne, hhead, hlookup]

theorem head?_textOf (hne : textOf components slash ≠ []) :
    (textOf components slash).head? = some SLASH := by
  cases components with
  | nil =>
      cases slash with
      | true => rfl
      | false => exact absurd rfl hne
  | cons c cs =>
      simp [textOf, plainPath]

/-- A path that leads to an entry is not made. -/
theorem mkdirByAbsPath_of_lookup (hvalid : ∀ c ∈ components, c ≠ [] ∧ SLASH ∉ c)
    (hne : textOf components slash ≠ []) {names : List Bytes}
    (hlookup : lookupPath tree (textOf components slash) = some names) (abspath : Bytes) :
    mkdirByAbsPath tree (textOf components slash) abspath =
      { result := decide (tree.kind names = some .dir)
        abspath := namesPath names
        tree := tree } := by
  have hwalk := lookupPath_eq_some hvalid hlookup
  have hnames := names_of_walkPath hwalk
  have hentry : tree.kind names ≠ none :=
    tree.kind_of_walk (by simp [tree.root]) hwalk
  have hreal : checkPathRealPath tree (textOf components slash) = some (namesPath names) := by
    simp [checkPathRealPath, realpath, hne, hlookup]
  have htype := checkPathDirectoryType_namesPath (fun name hname => hvalid name (hnames name hname).1)
    (fun name hname => (hnames name hname).2) hentry
  rw [mkdirByAbsPath, if_neg hne, if_neg (by simp [head?_textOf hne]), hreal]
  simp only [htype]

/-- Otherwise the path above it is made first. -/
theorem mkdirByAbsPath_of_not_lookup {path tmppath tail : Bytes} (hhead : path.head? = some SLASH)
    (hroot : path ≠ ascii "/") (hsplit : splitLast SLASH path = some (tmppath, tail))
    (hlookup : lookupPath tree path = none) (abspath : Bytes) :
    mkdirByAbsPath tree path abspath =
      let upper := mkdirByAbsPath tree tmppath abspath
      if upper.result then
        match mkdir upper.tree path with
        | none => { result := false, abspath := [], tree := upper.tree }
        | some tree =>
            match checkPathRealPath tree path with
            | none => { result := false, abspath := [], tree := tree }
            | some abspath =>
                { result := checkPathDirectoryType tree abspath
                  abspath := abspath
                  tree := tree }
      else
        upper := by
  have hne : path ≠ [] := by
    rintro rfl
    cases hhead
  have hreal : checkPathRealPath tree path = none := by
    simp [checkPathRealPath, realpath, hne, hlookup]
  rw [mkdirByAbsPath, if_neg hne, if_neg (by simp [hhead]), hreal]
  simp only [if_neg hroot]
  split
  · -- the split of the definition is the one that is given
    rename_i hnone
    rw [hsplit] at hnone
    cases hnone
  · rename_i tmppath' tail' hsome
    rw [hsplit] at hsome
    obtain ⟨rfl, rfl⟩ : tmppath = tmppath' ∧ tail = tail' := by simpa using hsome
    rfl

/-- A path that led to nothing and was made: the path above it was made, and then the path. -/
theorem result_of_not_lookup {path tmppath tail : Bytes} (hhead : path.head? = some SLASH)
    (hroot : path ≠ ascii "/") (hsplit : splitLast SLASH path = some (tmppath, tail))
    (hlookup : lookupPath tree path = none) {abspath : Bytes}
    (h : (mkdirByAbsPath tree path abspath).result = true) :
    (mkdirByAbsPath tree tmppath abspath).result = true ∧
      ∃ made real, mkdir (mkdirByAbsPath tree tmppath abspath).tree path = some made ∧
        checkPathRealPath made path = some real ∧ checkPathDirectoryType made real = true ∧
        mkdirByAbsPath tree path abspath = { result := true, abspath := real, tree := made } := by
  have hcall := mkdirByAbsPath_of_not_lookup hhead hroot hsplit hlookup abspath
  rw [hcall] at h ⊢
  by_cases hupper : (mkdirByAbsPath tree tmppath abspath).result = true
  · simp only [hupper, if_true] at h ⊢
    cases hmade : mkdir (mkdirByAbsPath tree tmppath abspath).tree path with
    | none =>
        rw [hmade] at h
        cases h
    | some made =>
        rw [hmade] at h
        cases hreal : checkPathRealPath made path with
        | none =>
            simp only [hreal] at h
            cases h
        | some real =>
            simp only [hreal] at h
            exact ⟨trivial, made, real, rfl, hreal, h, by simp only [hreal, h]⟩
  · simp only [hupper] at h
    exact absurd h hupper

end Call

/-! ## What a success tells -/

/-- Splitting off the last component, or the `/` at the end. -/
theorem splitLast_textOf_false {cs : List Bytes} {c : Bytes} (hc : SLASH ∉ c) :
    splitLast SLASH (textOf (cs ++ [c]) false) = some (textOf cs false, c) := by
  have htext : textOf (cs ++ [c]) false = textOf cs false ++ SLASH :: c := by simp [textOf]
  rw [htext, splitLast_append hc]

theorem splitLast_textOf_true (cs : List Bytes) :
    splitLast SLASH (textOf cs true) = some (textOf cs false, []) := by
  have htext : textOf cs true = textOf cs false ++ SLASH :: [] := by simp [textOf]
  rw [htext, splitLast_append (by simp)]

theorem textOf_false_ne_root {cs : List Bytes} (hvalid : ∀ c ∈ cs, c ≠ [] ∧ SLASH ∉ c) :
    textOf cs false ≠ ascii "/" := by
  intro h
  have hlast := (@getLast?_textOf cs false hvalid).1 (by rw [h]; decide +kernel)
  cases hlast

theorem textOf_true_ne_root {cs : List Bytes} (hcs : cs ≠ []) : textOf cs true ≠ ascii "/" := by
  intro h
  cases cs with
  | nil =>
      exact hcs rfl
  | cons c cs =>
      have hlength := congrArg List.length h
      simp [textOf, plainPath, ascii] at hlength

theorem textOf_append_ne_nil (cs : List Bytes) (c : Bytes) (slash : Bool) :
    textOf (cs ++ [c]) slash ≠ [] := by
  simp [textOf]

theorem textOf_true_ne_nil (cs : List Bytes) : textOf cs true ≠ [] := by
  simp [textOf]

theorem mkdirByAbsPath_nil (tree : FileTree Bytes) (abspath : Bytes) :
    mkdirByAbsPath tree (textOf [] false) abspath =
      { result := false, abspath := abspath, tree := tree } := by
  rw [show textOf [] false = [] from rfl, mkdirByAbsPath, if_pos rfl]

section Success

variable {tree : FileTree Bytes} {components : List Bytes} {slash : Bool} {abspath : Bytes}

/-- The two checks at the end of a call. -/
theorem walkPath_of_checks (hvalid : ∀ c ∈ components, c ≠ [] ∧ SLASH ∉ c) {real : Bytes}
    (hreal : checkPathRealPath tree (textOf components slash) = some real)
    (htype : checkPathDirectoryType tree real = true) :
    ∃ names, walkPath tree components = some names ∧ tree.kind names = some .dir ∧
      real = namesPath names := by
  simp only [checkPathRealPath, realpath, Option.ite_none_left_eq_some] at hreal
  obtain ⟨names, hlookup, rfl⟩ := Option.map_eq_some_iff.1 hreal.2
  have hwalk := lookupPath_eq_some hvalid hlookup
  have hnames := names_of_walkPath hwalk
  have hentry : tree.kind names ≠ none := tree.kind_of_walk (by simp [tree.root]) hwalk
  rw [checkPathDirectoryType_namesPath (fun name hname => hvalid name (hnames name hname).1)
    (fun name hname => (hnames name hname).2) hentry] at htype
  exact ⟨names, hwalk, by simpa using htype, rfl⟩

theorem components_ne_nil (hvalid : ∀ c ∈ components, c ≠ [] ∧ SLASH ∉ c)
    (hlookup : lookupPath tree (textOf components true) = none) : components ≠ [] := by
  rintro rfl
  rw [lookupPath_textOf hvalid] at hlookup
  simp [walkPath, FileTree.walk, tree.root] at hlookup

/-- A path that led to nothing and was made: both checks have succeeded. -/
theorem checks_of_result (hvalid : ∀ c ∈ components, c ≠ [] ∧ SLASH ∉ c)
    (hne : textOf components slash ≠ [])
    (hlookup : lookupPath tree (textOf components slash) = none)
    (h : (mkdirByAbsPath tree (textOf components slash) abspath).result = true) :
    ∃ made real, checkPathRealPath made (textOf components slash) = some real ∧
      checkPathDirectoryType made real = true ∧
      mkdirByAbsPath tree (textOf components slash) abspath =
        { result := true, abspath := real, tree := made } := by
  cases slash with
  | false =>
      -- the split takes the last component away
      rcases List.eq_nil_or_concat' components with rfl | ⟨cs, c, rfl⟩
      · exact absurd rfl hne
      · obtain ⟨-, made, real, -, hreal, htype, hout⟩ := result_of_not_lookup (head?_textOf hne)
          (textOf_false_ne_root hvalid) (splitLast_textOf_false (hvalid c (by simp)).2) hlookup h
        exact ⟨made, real, hreal, htype, hout⟩
  | true =>
      -- the split takes the last `/` away only
      obtain ⟨-, made, real, -, hreal, htype, hout⟩ := result_of_not_lookup (head?_textOf hne)
        (textOf_true_ne_root (components_ne_nil hvalid hlookup)) (splitLast_textOf_true components)
        hlookup h
      exact ⟨made, real, hreal, htype, hout⟩

/-- What a path leads to after it was made, and the name that it gets. -/
theorem walkPath_of_result (hvalid : ∀ c ∈ components, c ≠ [] ∧ SLASH ∉ c) {out : MkdirResult}
    (hout : mkdirByAbsPath tree (textOf components slash) abspath = out) (h : out.result = true) :
    ∃ names, walkPath out.tree components = some names ∧ out.tree.kind names = some .dir ∧
      out.abspath = namesPath names := by
  subst hout
  have hne : textOf components slash ≠ [] := by
    intro hnil
    rw [hnil, mkdirByAbsPath, if_pos rfl] at h
    cases h
  cases hlookup : lookupPath tree (textOf components slash) with
  -- the path was there, and the call has checked that it is a directory
  | some names =>
      have hcall := mkdirByAbsPath_of_lookup hvalid hne hlookup abspath
      rw [hcall] at h ⊢
      exact ⟨names, lookupPath_eq_some hvalid hlookup, of_decide_eq_true h, rfl⟩
  | none =>
      obtain ⟨made, real, hreal, htype, hcall⟩ := checks_of_result hvalid hne hlookup h
      rw [hcall]
      exact walkPath_of_checks hvalid hreal htype

/-- Everything on the way to a directory is a directory. -/
theorem prefixesAreDirs_of_walkPath {names : List Bytes} (hwalk : walkPath tree components = some names)
    (hdir : tree.kind names = some .dir) : PrefixesAreDirs tree components := by
  rintro q ⟨rest, rfl⟩ p hp
  by_cases hrest : rest = []
  · subst hrest
    rw [List.append_nil] at hwalk
    obtain rfl : names = p := Option.some.inj (hwalk.symm.trans hp)
    exact hdir
  · rw [walkPath, List.map_append] at hwalk
    exact tree.kind_of_walk_append hwalk hp (by simpa using hrest)

/-- A call that succeeds has found no file in its way. -/
theorem prefixesAreDirs_of_result_plain (hvalid : ∀ c ∈ components, c ≠ [] ∧ SLASH ∉ c)
    (h : (mkdirByAbsPath tree (textOf components false) abspath).result = true) :
    PrefixesAreDirs tree components := by
  induction components using List.reverseRecOn with
  | nil =>
      rw [mkdirByAbsPath_nil] at h
      cases h
  | append_singleton cs c ih =>
      have hne := textOf_append_ne_nil cs c false
      cases hlookup : lookupPath tree (textOf (cs ++ [c]) false) with
      | some names =>
          rw [mkdirByAbsPath_of_lookup hvalid hne hlookup] at h
          exact prefixesAreDirs_of_walkPath (lookupPath_eq_some hvalid hlookup) (by simpa using h)
      | none =>
          -- the path above was made by the same function, so nothing was in its way
          obtain ⟨hupper, -⟩ := result_of_not_lookup (head?_textOf hne)
            (textOf_false_ne_root hvalid) (splitLast_textOf_false (hvalid c (by simp)).2) hlookup h
          have habove := ih (fun d hd => hvalid d (by simp [hd])) hupper
          intro q hq p hp
          rcases List.prefix_concat_iff.1 hq with rfl | hq
          · -- the path itself led to nothing
            rw [lookupPath_textOf hvalid, hp] at hlookup
            simp at hlookup
          · exact habove q hq p hp

theorem prefixesAreDirs_of_result (hvalid : ∀ c ∈ components, c ≠ [] ∧ SLASH ∉ c)
    (h : (mkdirByAbsPath tree (textOf components slash) abspath).result = true) :
    PrefixesAreDirs tree components := by
  cases slash with
  | false =>
      exact prefixesAreDirs_of_result_plain hvalid h
  | true =>
      cases hlookup : lookupPath tree (textOf components true) with
      | some names =>
          rw [mkdirByAbsPath_of_lookup hvalid (textOf_true_ne_nil components) hlookup] at h
          exact prefixesAreDirs_of_walkPath (lookupPath_eq_some hvalid hlookup) (by simpa using h)
      | none =>
          obtain ⟨hupper, -⟩ := result_of_not_lookup (head?_textOf (textOf_true_ne_nil components))
            (textOf_true_ne_root (components_ne_nil hvalid hlookup))
            (splitLast_textOf_true components) hlookup h
          exact prefixesAreDirs_of_result_plain hvalid hupper

end Success

/-! ## Paths of names

From here on no component is `.` or `..`, so that a path leads to the entry of its components. -/

section Names

variable {tree : FileTree Bytes} {components : List Bytes} {abspath : Bytes}

theorem lookupPath_of_dir (hvalid : ∀ c ∈ components, c ≠ [] ∧ SLASH ∉ c)
    (hnames : ∀ c ∈ components, hopOf c = .into c) (slash : Bool)
    (hdir : tree.kind components = some .dir) :
    lookupPath tree (textOf components slash) = some components := by
  rw [lookupPath_textOf hvalid, walkPath_names hnames, if_neg (by simp [hdir]), Option.bind_some,
    if_neg (by simp [hdir])]

/-- A path of which a directory is there already. -/
theorem mkdirByAbsPath_of_dir (hvalid : ∀ c ∈ components, c ≠ [] ∧ SLASH ∉ c)
    (hnames : ∀ c ∈ components, hopOf c = .into c) {slash : Bool}
    (hne : textOf components slash ≠ []) (hdir : tree.kind components = some .dir) :
    mkdirByAbsPath tree (textOf components slash) abspath =
      { result := true
        abspath := namesPath components
        tree := tree } := by
  rw [mkdirByAbsPath_of_lookup hvalid hne (lookupPath_of_dir hvalid hnames slash hdir)]
  simp [hdir]

theorem lookupPath_of_none (hvalid : ∀ c ∈ components, c ≠ [] ∧ SLASH ∉ c)
    (hnames : ∀ c ∈ components, hopOf c = .into c) (slash : Bool)
    (hnone : tree.kind components = none) :
    lookupPath tree (textOf components slash) = none := by
  rw [lookupPath_textOf hvalid, walkPath_names hnames, if_pos hnone, Option.bind_none]

/-- `mkdir` of a name in a directory. -/
theorem mkdir_textOf {cs : List Bytes} {c : Bytes} {slash : Bool}
    (hvalid : ∀ d ∈ cs ++ [c], d ≠ [] ∧ SLASH ∉ d) (hnames : ∀ d ∈ cs ++ [c], hopOf d = .into d)
    (hdir : tree.kind cs = some .dir) :
    mkdir tree (textOf (cs ++ [c]) slash) =
      if tree.kind (cs ++ [c]) = none then some (tree.mkdir cs c hdir) else none := by
  have hlast : (cs ++ [c]).getLast? = some c := by simp
  -- the walk to the directory in which the name is to be made
  have hwalk : tree.walk [] ((cs ++ [c]).dropLast.map hopOf) = some cs := by
    have habove : walkPath tree cs = if tree.kind cs = none then none else some cs :=
      walkPath_names fun d hd => hnames d (by simp [hd])
    rw [if_neg (by simp [hdir])] at habove
    rw [List.dropLast_concat]
    exact habove
  have hinto : hopOf c = .into c := hnames c (by simp)
  simp only [mkdir, pathComponents_textOf hvalid, hlast, hwalk, dif_pos hdir, hinto]

/-- Nothing is made when the first component is not there: the path above it is empty. -/
theorem result_of_first_none (hvalid : ∀ c ∈ components, c ≠ [] ∧ SLASH ∉ c)
    (hnames : ∀ c ∈ components, hopOf c = .into c)
    (hfirst : ∀ c ∈ components.head?, tree.kind [c] = none) :
    (mkdirByAbsPath tree (textOf components false) abspath).result = false := by
  induction components using List.reverseRecOn with
  | nil =>
      rw [mkdirByAbsPath_nil]
  | append_singleton cs c ih =>
      -- nothing lies below a first component that is not there
      have hnone : tree.kind (cs ++ [c]) = none := by
        by_contra hentry
        obtain ⟨first, hhead⟩ : ∃ first, (cs ++ [c]).head? = some first :=
          Option.isSome_iff_exists.1 (by cases cs <;> rfl)
        have hbegins : [first] <+: cs ++ [c] := by
          obtain ⟨rest, hrest⟩ := List.head?_eq_some_iff.1 hhead
          exact ⟨rest, hrest.symm⟩
        exact tree.kind_ne_none_of_prefix hbegins hentry (hfirst first hhead)
      by_contra hresult
      have hresult' : (mkdirByAbsPath tree (textOf (cs ++ [c]) false) abspath).result = true := by
        simpa using hresult
      -- so the path above would have to be made, up to the empty path
      obtain ⟨hupper, -⟩ := result_of_not_lookup (head?_textOf (textOf_append_ne_nil cs c false))
        (textOf_false_ne_root hvalid) (splitLast_textOf_false (hvalid c (by simp)).2)
        (lookupPath_of_none hvalid hnames false hnone) hresult'
      have habove := ih (fun d hd => hvalid d (by simp [hd])) (fun d hd => hnames d (by simp [hd]))
        fun d hd => hfirst d (by simp [List.head?_append, Option.mem_def.1 hd])
      rw [habove] at hupper
      cases hupper

/-- The last step: the path above was made, and the path is not there. -/
theorem mkdirByAbsPath_step {cs : List Bytes} {c : Bytes}
    (hvalid : ∀ d ∈ cs ++ [c], d ≠ [] ∧ SLASH ∉ d) (hnames : ∀ d ∈ cs ++ [c], hopOf d = .into d)
    (hnone : tree.kind (cs ++ [c]) = none) {upper : MkdirResult}
    (hupper : mkdirByAbsPath tree (textOf cs false) abspath = upper) (hresult : upper.result = true)
    (hdir : upper.tree.kind cs = some .dir) (hnew : upper.tree.kind (cs ++ [c]) = none) :
    mkdirByAbsPath tree (textOf (cs ++ [c]) false) abspath =
      { result := true
        abspath := namesPath (cs ++ [c])
        tree := upper.tree.mkdir cs c hdir } := by
  subst hupper
  have hne := textOf_append_ne_nil cs c false
  have hmade := @mkdir_textOf _ cs c false hvalid hnames hdir
  rw [if_pos hnew] at hmade
  have hkind : ((mkdirByAbsPath tree (textOf cs false) abspath).tree.mkdir cs c hdir).kind
      (cs ++ [c]) = some .dir := by
    simp
  have hreal : checkPathRealPath ((mkdirByAbsPath tree (textOf cs false) abspath).tree.mkdir cs c hdir)
      (textOf (cs ++ [c]) false) = some (namesPath (cs ++ [c])) := by
    rw [checkPathRealPath, if_neg hne, realpath, lookupPath_of_dir hvalid hnames false hkind]
    rfl
  have htype := checkPathDirectoryType_namesPath hvalid hnames (by rw [hkind]; simp)
  rw [mkdirByAbsPath_of_not_lookup (head?_textOf hne) (textOf_false_ne_root hvalid)
    (splitLast_textOf_false (hvalid c (by simp)).2) (lookupPath_of_none hvalid hnames false hnone)]
  simp only [hresult, if_true, hmade, hreal, htype, hkind, decide_true]

/-- Everything is made that is missing behind a first component that is there. -/
theorem mkdirByAbsPath_of_first_dir (hvalid : ∀ c ∈ components, c ≠ [] ∧ SLASH ∉ c)
    (hnames : ∀ c ∈ components, hopOf c = .into c)
    (hfirst : ∃ c ∈ components.head?, tree.kind [c] = some .dir)
    (hdirs : PrefixesAreDirs tree components) {out : MkdirResult}
    (hout : mkdirByAbsPath tree (textOf components false) abspath = out) :
    out.result = true ∧ out.abspath = namesPath components ∧
      ∀ p, out.tree.kind p = if p <+: components then some .dir else tree.kind p := by
  induction components using List.reverseRecOn generalizing out with
  | nil =>
      obtain ⟨c, hc, -⟩ := hfirst
      cases hc
  | append_singleton cs c ih =>
      cases hentry : tree.kind (cs ++ [c]) with
      | some kind =>
          -- the path is there, and so is all that lies above it
          have hwalk : walkPath tree (cs ++ [c]) = some (cs ++ [c]) := by
            rw [walkPath_names hnames, if_neg (by simp [hentry])]
          have hdir := hdirs _ (List.prefix_refl _) _ hwalk
          rw [mkdirByAbsPath_of_dir hvalid hnames (textOf_append_ne_nil cs c false) hdir] at hout
          subst hout
          refine ⟨rfl, rfl, fun p => ?_⟩
          split
          · rename_i hp
            rcases tree.kind_of_prefix hp (by rw [hdir]; simp) with rfl | habove
            · exact hdir
            · exact habove
          · rfl
      | none =>
          -- the first component is there, so there is a path above
          have hcs : cs ≠ [] := by
            rintro rfl
            obtain ⟨d, hd, hdir⟩ := hfirst
            obtain rfl : c = d := by simpa using hd
            rw [List.nil_append, hdir] at hentry
            cases hentry
          have hfirst' : ∃ d ∈ cs.head?, tree.kind [d] = some .dir := by
            obtain ⟨d, hd, hdir⟩ := hfirst
            refine ⟨d, ?_, hdir⟩
            cases cs with
            | nil => exact absurd rfl hcs
            | cons e cs => exact hd
          obtain ⟨hresult, -, hkinds⟩ := ih (fun d hd => hvalid d (by simp [hd]))
            (fun d hd => hnames d (by simp [hd])) hfirst'
            (fun q hq => hdirs q (hq.trans (List.prefix_append cs [c]))) rfl
          have hlonger : ¬ cs ++ [c] <+: cs := fun h => by
            simpa using h.length_le
          have hdir : (mkdirByAbsPath tree (textOf cs false) abspath).tree.kind cs = some .dir := by
            rw [hkinds, if_pos (List.prefix_refl cs)]
          have hnew : (mkdirByAbsPath tree (textOf cs false) abspath).tree.kind (cs ++ [c]) = none := by
            rw [hkinds, if_neg hlonger, hentry]
          rw [mkdirByAbsPath_step hvalid hnames hentry rfl hresult hdir hnew] at hout
          subst hout
          refine ⟨rfl, rfl, fun p => ?_⟩
          -- the new directory is the longest prefix of the path
          rw [FileTree.kind_mkdir, hkinds]
          by_cases hp : p = cs ++ [c]
          · rw [if_pos hp, if_pos (hp ▸ List.prefix_refl p)]
          · have hbegins : p <+: cs ++ [c] ↔ p <+: cs := by
              rw [List.prefix_concat_iff]
              exact or_iff_right hp
            rw [if_neg hp]
            simp only [hbegins]

/-- A `/` behind a path that is not there: the path above it is the path, so that it is there when
it is to be made. -/
theorem result_of_trailing (hvalid : ∀ c ∈ components, c ≠ [] ∧ SLASH ∉ c)
    (hnames : ∀ c ∈ components, hopOf c = .into c) (hcs : components ≠ [])
    (hdir : tree.kind components ≠ some .dir) :
    (mkdirByAbsPath tree (textOf components true) abspath).result = false := by
  have hlookup : lookupPath tree (textOf components true) = none := by
    rw [lookupPath_textOf hvalid, walkPath_names hnames]
    split
    · rfl
    · rw [Option.bind_some, if_pos ⟨rfl, hdir⟩]
  by_contra hresult
  obtain ⟨hupper, made, -, hmade, -⟩ := result_of_not_lookup
    (head?_textOf (textOf_true_ne_nil components)) (textOf_true_ne_root hcs)
    (splitLast_textOf_true components) hlookup (by simpa using hresult)
  -- the path above is there, and it has the same components
  obtain ⟨names, hwalk, hkind, -⟩ := walkPath_of_result hvalid rfl hupper
  rw [walkPath_names hnames] at hwalk
  obtain ⟨cs, c, rfl⟩ := (List.eq_nil_or_concat' components).resolve_left hcs
  split at hwalk
  · cases hwalk
  · rename_i hentry
    have habove := (FileTree.closed _ cs c hentry)
    rw [mkdir_textOf hvalid hnames habove, if_neg hentry] at hmade
    cases hmade

end Names

/-! ## When the function does what it should -/

/-- A file stands in the way; or no component is `.` or `..`, and either the whole path is there or
its first component is there and no `/` is behind the path. -/
def MkdirWorks (tree : FileTree Bytes) (path : AbsPath) : Prop :=
  ¬ PrefixesAreDirs tree path.components ∨
  ((∀ c ∈ path.components, c ≠ ascii "." ∧ c ≠ ascii "..") ∧
    (tree.kind path.components = some .dir ∨
      (path.trailing = false ∧ ∃ c ∈ path.components.head?, tree.kind [c] = some .dir)))

theorem hopOf_eq_into_iff {c : Bytes} : hopOf c = .into c ↔ c ≠ ascii "." ∧ c ≠ ascii ".." := by
  unfold hopOf
  by_cases hhere : c = ascii "."
  · simp [hhere]
  · by_cases hup : c = ascii ".."
    · rw [if_neg hhere, if_pos hup]
      simp [hup]
    · simp [hhere, hup]

section Paths

variable {tree : FileTree Bytes} {path : AbsPath} {abspath : Bytes}

theorem AbsPath.components_valid (path : AbsPath) :
    ∀ c ∈ path.components, c ≠ [] ∧ SLASH ∉ c :=
  fun c hc => ⟨(path.valid c hc).1, (path.valid c hc).2.1⟩

theorem AbsPath.text_ne_nil (path : AbsPath) : path.text ≠ [] := by
  unfold AbsPath.text
  cases path.components with
  | nil => simp [textOf]
  | cons c cs => simp [textOf, plainPath]

/-- The name that a success gives is free of `.` and `..`. -/
theorem names_of_result (h : (mkdirByAbsPath tree path.text abspath).result = true)
    (habspath : (mkdirByAbsPath tree path.text abspath).abspath = namesPath path.components) :
    ∀ c ∈ path.components, hopOf c = .into c := by
  obtain ⟨names, hwalk, -, hname⟩ := walkPath_of_result path.components_valid rfl h
  have hnames := names_of_walkPath hwalk
  have hsame : names = path.components := by
    have htext := congrArg pathComponents (hname.symm.trans habspath)
    rwa [namesPath_eq, namesPath_eq,
      pathComponents_textOf fun name hname => path.components_valid name (hnames name hname).1,
      pathComponents_textOf path.components_valid] at htext
  intro c hc
  exact (hnames c (hsame ▸ hc)).2

/-- Paths of names whose directory is there. -/
theorem mkdirCorrect_of_dir (hnames : ∀ c ∈ path.components, hopOf c = .into c)
    (hdir : tree.kind path.components = some .dir) :
    MkdirCorrect tree path (mkdirByAbsPath tree path.text abspath) := by
  have hwalk : walkPath tree path.components = some path.components := by
    rw [walkPath_names hnames, if_neg (by simp [hdir])]
  have hprefixes := prefixesAreDirs_of_walkPath hwalk hdir
  rw [AbsPath.text, mkdirByAbsPath_of_dir path.components_valid hnames path.text_ne_nil hdir]
  refine ⟨iff_of_true rfl hprefixes, fun _ q hq => ?_, fun _ => rfl, fun _ p => Or.inl rfl⟩
  have hq' : ∀ c ∈ q, hopOf c = .into c := fun c hc => hnames c (hq.subset hc)
  have hentry := tree.kind_ne_none_of_prefix hq (by rw [hdir]; simp)
  have hwalk' : walkPath tree q = some q := by
    rw [walkPath_names hq', if_neg hentry]
  exact ⟨q, hwalk', hprefixes q hq q hwalk'⟩

/-- Paths of names with a first component that is there, and without a `/` behind them. -/
theorem mkdirCorrect_of_first (hnames : ∀ c ∈ path.components, hopOf c = .into c)
    (htrailing : path.trailing = false)
    (hfirst : ∃ c ∈ path.components.head?, tree.kind [c] = some .dir)
    (hdirs : PrefixesAreDirs tree path.components) :
    MkdirCorrect tree path (mkdirByAbsPath tree path.text abspath) := by
  have hcs : path.components.isEmpty = false := by
    obtain ⟨c, hc, -⟩ := hfirst
    cases hcs : path.components with
    | nil =>
        rw [hcs] at hc
        cases hc
    | cons c cs => rfl
  rw [AbsPath.text, htrailing, hcs, Bool.or_false]
  obtain ⟨hresult, habspath, hkinds⟩ :=
    mkdirByAbsPath_of_first_dir path.components_valid hnames hfirst hdirs rfl
  refine ⟨iff_of_true hresult hdirs, fun _ q hq => ?_, fun _ => habspath, fun _ p => ?_⟩
  · have hkind := hkinds q
    rw [if_pos hq] at hkind
    refine ⟨q, ?_, hkind⟩
    rw [walkPath_names fun c hc => hnames c (hq.subset hc), if_neg (by rw [hkind]; simp)]
  · by_cases hp : p <+: path.components
    · have hkind := hkinds p
      rw [if_pos hp] at hkind
      have hp' : ∀ c ∈ p, hopOf c = .into c := fun c hc => hnames c (hp.subset hc)
      cases hold : tree.kind p with
      | none =>
          refine Or.inr ⟨rfl, p, hp, ?_⟩
          rw [walkPath_names hp', if_neg (by rw [hkind]; simp)]
      | some kind =>
          -- what was there already is a directory
          have hwalk : walkPath tree p = some p := by
            rw [walkPath_names hp', if_neg (by simp [hold])]
          rw [hkind, ← hold, hdirs p hp p hwalk]
          exact Or.inl rfl
    · rw [hkinds, if_neg hp]
      exact Or.inl rfl

/-- Paths with a file in the way. -/
theorem mkdirCorrect_of_file (hfile : ¬ PrefixesAreDirs tree path.components) :
    MkdirCorrect tree path (mkdirByAbsPath tree path.text abspath) := by
  have hnever : ¬ (mkdirByAbsPath tree path.text abspath).result = true := fun hresult =>
    hfile (prefixesAreDirs_of_result path.components_valid hresult)
  exact ⟨iff_of_false hnever hfile, fun h => absurd h hnever, fun h => absurd h hnever,
    fun h => absurd h hnever⟩

/-- `mkdir_by_abs_path` makes the directories of a path as it should, exactly for the paths of
`MkdirWorks`. -/
theorem mkdirByAbsPath_correct_iff (tree : FileTree Bytes) (path : AbsPath) (abspath : Bytes) :
    MkdirCorrect tree path (mkdirByAbsPath tree path.text abspath) ↔ MkdirWorks tree path := by
  have hvalid := path.components_valid
  constructor
  · intro h
    by_cases hdirs : PrefixesAreDirs tree path.components
    · have hresult := h.returns.2 hdirs
      have hnames := names_of_result hresult (h.abspath hresult)
      refine Or.inr ⟨fun c hc => hopOf_eq_into_iff.1 (hnames c hc), ?_⟩
      by_contra hnot
      obtain ⟨hdir, hfirst⟩ := not_or.1 hnot
      have hcs : path.components ≠ [] := by
        intro hnil
        rw [hnil, tree.root] at hdir
        exact hdir rfl
      have hempty : path.components.isEmpty = false := by simpa using hcs
      cases htrailing : path.trailing with
      | true =>
          -- `mkdir` finds what the call for the path above has made
          rw [AbsPath.text, htrailing, Bool.true_or, result_of_trailing hvalid hnames hcs hdir]
            at hresult
          cases hresult
      | false =>
          -- no directory is the first component, and no file either
          have hnone : ∀ c ∈ path.components.head?, tree.kind [c] = none := by
            intro c hc
            have hbegins : [c] <+: path.components := by
              obtain ⟨rest, hrest⟩ := List.head?_eq_some_iff.1 hc
              exact ⟨rest, hrest.symm⟩
            by_contra hentry
            have hwalk : walkPath tree [c] = some [c] := by
              rw [walkPath_names fun d hd => hnames d (hbegins.subset hd), if_neg hentry]
            exact hfirst ⟨htrailing, c, hc, hdirs [c] hbegins [c] hwalk⟩
          rw [AbsPath.text, htrailing, hempty, Bool.or_false,
            result_of_first_none hvalid hnames hnone] at hresult
          cases hresult
    · exact Or.inl hdirs
  · rintro (hfile | ⟨hdots, hworks⟩)
    · exact mkdirCorrect_of_file hfile
    · have hnames : ∀ c ∈ path.components, hopOf c = .into c := fun c hc =>
        hopOf_eq_into_iff.2 (hdots c hc)
      rcases hworks with hdir | ⟨htrailing, hfirst⟩
      · exact mkdirCorrect_of_dir hnames hdir
      · by_cases hdirs : PrefixesAreDirs tree path.components
        · exact mkdirCorrect_of_first hnames htrailing hfirst hdirs
        · exact mkdirCorrect_of_file hdirs

end Paths

/-- `/x` in a tree with nothing but the root. -/
theorem mkdirByAbsPath_not_correct :
    ¬ ∀ (tree : FileTree Bytes) (path : AbsPath) (abspath : Bytes),
      MkdirCorrect tree path (mkdirByAbsPath tree path.text abspath) := by
  intro h
  let path : AbsPath :=
    { components := [[120]]
      trailing := false
      valid := by decide }
  have hnames : ∀ c ∈ path.components, hopOf c = .into c := by decide +kernel
  have hdirs : PrefixesAreDirs FileTree.empty path.components := by
    intro q hq p hp
    rw [walkPath_names fun c hc => hnames c (hq.subset hc)] at hp
    split at hp
    · cases hp
    · rename_i hentry
      have hroot : q = [] := by
        by_contra hne
        exact hentry (FileTree.kind_empty hne)
      obtain rfl : q = p := Option.some.inj hp
      rw [hroot]
      rfl
  have hresult := (h FileTree.empty path []).returns.2 hdirs
  have hfirst : ∀ c ∈ path.components.head?, (FileTree.empty : FileTree Bytes).kind [c] = none :=
    fun c _ => FileTree.kind_empty (by simp)
  have hnever := @result_of_first_none _ _ [] path.components_valid hnames hfirst
  exact absurd (hnever.symm.trans hresult) (by decide)

end K2hFtFuse

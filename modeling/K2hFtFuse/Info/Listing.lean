import K2hFtFuse.Info.Ops

/-!
# Info.Listing — a listed name is a path that is found

`ReadDir` cuts base names out of the keys and keeps the first key of each name; `FindPath` searches
for the path or for something below it. For a name in a directory both look for the same thing: the
first entry that is the path of the name, or lies below it (`IsAt`).
-/

namespace K2hFtFuse

open ByteSeq SpinLock

/-! ## Paths -/

/-- A normalised path of FUSE: `/`, or a `/` before each component. -/
def fusePath (components : List Bytes) : Bytes :=
  if components = [] then ascii "/" else components.flatMap fun c => SLASH :: c

/-- The key that the path of the components is looked up by. -/
def pathKey (components : List Bytes) : Bytes := stripSlash (fusePath components)

theorem pathKey_nil : pathKey [] = [] := by decide

theorem fusePath_ne_nil (components : List Bytes) : fusePath components ≠ [] := by
  rcases components with _ | ⟨c, cs⟩
  · decide
  · simp [fusePath]

theorem pathKey_cons (c : Bytes) (cs : List Bytes) :
    pathKey (c :: cs) = c ++ cs.flatMap fun c => SLASH :: c := by
  simp [pathKey, fusePath, stripSlash]

/-- The key of a name in a directory. -/
theorem pathKey_append {cs : List Bytes} (n : Bytes) :
    pathKey (cs ++ [n]) = if cs = [] then n else pathKey cs ++ SLASH :: n := by
  rcases cs with _ | ⟨c, cs⟩
  · simp [pathKey, fusePath, stripSlash]
  · simp [pathKey_cons]

theorem pathKey_ne_nil {cs : List Bytes} (hcs : ∀ c ∈ cs, c ≠ []) (hne : cs ≠ []) :
    pathKey cs ≠ [] := by
  rcases cs with _ | ⟨c, cs⟩
  · exact absurd rfl hne
  · rw [pathKey_cons]
    simp [hcs c (by simp)]

/-! ## The search -/

/-- The key is the path, or lies below it. -/
def IsAt (path key : Bytes) : Prop := key = path ∨ path ++ [SLASH] <+: key

/-- What `FindPath` finds at such a key. -/
def foundAt (path key : Bytes) (rule : K2hFtRule) : Found :=
  if key = path then .entry key rule else .below

theorem isAt_iff {path key : Bytes} :
    IsAt path key ↔ path.isPrefixOf key = true ∧
      (key.length = path.length ∨ key[path.length]? = some SLASH) := by
  rw [List.isPrefixOf_iff_prefix]
  constructor
  · rintro (rfl | ⟨rest, rfl⟩)
    · exact ⟨List.prefix_refl _, Or.inl rfl⟩
    · exact ⟨⟨SLASH :: rest, by simp⟩, Or.inr (by simp)⟩
  · rintro ⟨⟨rest, rfl⟩, hlen | hslash⟩
    · left
      have : rest = [] := by simpa using hlen
      simp [this]
    · right
      rcases rest with _ | ⟨c, rest⟩
      · simp at hslash
      · simp only [List.getElem?_append_right (Nat.le_refl _), Nat.sub_self,
          List.getElem?_cons_zero, Option.some.injEq] at hslash
        exact ⟨rest, by simp [hslash]⟩

instance instDecidableIsAt (path key : Bytes) : Decidable (IsAt path key) :=
  decidable_of_iff _ isAt_iff.symm

/-- `FindPath` finds the first entry that is the path or lies below it. -/
theorem findEntry_eq (path : Bytes) (entries : List (Bytes × K2hFtRule)) :
    findEntry path entries =
      (entries.find? fun e => IsAt path e.1).map fun e => foundAt path e.1 e.2 := by
  induction entries with
  | nil =>
      rfl
  | cons e rest ih =>
      rcases e with ⟨key, rule⟩
      by_cases hat : IsAt path key
      · rcases isAt_iff.1 hat with ⟨hstarts, hend⟩
        simp only [findEntry, hstarts, Bool.not_true, Bool.false_eq_true, if_false, List.find?_cons,
          hat, decide_true, Option.map_some, foundAt]
        by_cases hlen : key.length = path.length
        · have hkey : key = path :=
            ((List.isPrefixOf_iff_prefix.1 hstarts).eq_of_length hlen.symm).symm
          rw [if_pos hlen, if_pos hkey]
        · have hkey : key ≠ path := fun h => hlen (by rw [h])
          rw [if_neg hlen, if_neg hkey, if_pos (hend.resolve_left hlen)]
      · have hno := hat
        rw [isAt_iff, not_and_or, not_or] at hno
        have hskip : findEntry path ((key, rule) :: rest) = findEntry path rest := by
          by_cases hstarts : path.isPrefixOf key = true
          · have hend := hno.resolve_left (fun h => h hstarts)
            simp [findEntry, hstarts, hend.1, hend.2]
          · simp [findEntry, hstarts]
        rw [hskip, ih, List.find?_cons]
        simp [hat]

theorem lt_append_cons (path : Bytes) (c : UInt8) (rest : Bytes) : path < path ++ c :: rest := by
  induction path with
  | nil =>
      exact List.nil_lt_cons c rest
  | cons b path ih =>
      exact List.cons_lt_cons_self.2 ih

/-- The rule of the path stands before all rules below the path. -/
theorem findEntry_of_lookup {entries : List (Bytes × K2hFtRule)} (hs : AssocList.Sorted entries)
    {path : Bytes} {rule : K2hFtRule} (h : AssocList.lookup entries path = some rule) :
    findEntry path entries = some (.entry path rule) := by
  induction entries with
  | nil =>
      cases h
  | cons e rest ih =>
      rcases e with ⟨key, rule'⟩
      obtain ⟨hlt, hrest⟩ := List.pairwise_cons.1 hs
      by_cases hkey : path = key
      · subst hkey
        simp only [AssocList.lookup, if_true, Option.some.injEq] at h
        simp [findEntry, h]
      · simp only [AssocList.lookup, if_neg hkey] at h
        have hbefore : key < path := hlt _ (AssocList.mem_of_lookup h)
        -- a longer path that starts with this one would stand behind it
        have hskip : findEntry path ((key, rule') :: rest) = findEntry path rest := by
          by_cases hstarts : path.isPrefixOf key = true
          · rcases List.isPrefixOf_iff_prefix.1 hstarts with ⟨more, rfl⟩
            rcases more with _ | ⟨c, more⟩
            · exact absurd (List.append_nil path).symm hkey
            · exact absurd (lt_append_cons path c more) hbefore.asymm
          · simp [findEntry, hstarts]
        rw [hskip, ih hrest h]

/-! ## The listing -/

theorem cutSlash_append {a : Bytes} (ha : SLASH ∉ a) (b : Bytes) :
    cutSlash (a ++ SLASH :: b) = (a, true) := by
  have hall : ∀ c ∈ a, decide (c ≠ SLASH) = true := by
    intro c hc
    simpa using fun h : c = SLASH => ha (h ▸ hc)
  have htake : (a ++ SLASH :: b).takeWhile (fun c => decide (c ≠ SLASH)) = a := by
    rw [List.takeWhile_append_of_pos hall]
    simp
  rw [cutSlash, if_pos (by simp), htake]

theorem cutSlash_of_notMem {name : Bytes} (h : SLASH ∉ name) : cutSlash name = (name, false) := by
  rw [cutSlash, if_neg (by simpa using h)]

/-- The part of a name that is cut out is `n` exactly when the name is `n` or lies below it; the
flag tells which. -/
theorem cutSlash_eq_iff {name n : Bytes} (hn : SLASH ∉ n) :
    (cutSlash name).1 = n ↔ IsAt n name := by
  by_cases hslash : SLASH ∈ name
  · rcases List.eq_append_cons_of_mem hslash with ⟨a, b, rfl, ha⟩
    rw [cutSlash_append ha]
    constructor
    · rintro rfl
      exact Or.inr ⟨b, by simp⟩
    · rintro (h | ⟨rest, h⟩)
      · exact absurd (h ▸ hslash) hn
      · have hcut := congrArg (fun l => (cutSlash l).1) h
        rw [List.append_assoc, List.singleton_append] at hcut
        simp only [cutSlash_append hn, cutSlash_append ha] at hcut
        exact hcut.symm
  · rw [cutSlash_of_notMem hslash]
    constructor
    · exact Or.inl
    · rintro (h | ⟨rest, rfl⟩)
      · exact h
      · simp at hslash

theorem cutSlash_snd {name n : Bytes} (hn : SLASH ∉ n) (h : IsAt n name) :
    (cutSlash name).2 = decide (name ≠ n) := by
  rcases h with rfl | ⟨rest, rfl⟩
  · simp [cutSlash_of_notMem hn]
  · rw [List.append_assoc, List.singleton_append, cutSlash_append hn]
    simp

section BaseName

variable {path : Bytes} (hpath : path ≠ [])

include hpath

theorem baseName_below (rest : Bytes) :
    baseName path (path ++ SLASH :: rest) = some (cutSlash rest) := by
  simp [baseName, hpath]

theorem baseName_not_below {key : Bytes} (h : ¬ path ++ [SLASH] <+: key) : baseName path key = none := by
  by_cases hstarts : path.isPrefixOf key = true
  · rcases List.isPrefixOf_iff_prefix.1 hstarts with ⟨rest, rfl⟩
    rcases rest with _ | ⟨c, rest⟩
    · simp [baseName, hpath]
    · have hc : c ≠ SLASH := by
        rintro rfl
        exact h ⟨rest, by simp⟩
      simp [baseName, hpath, hc]
  · simp [baseName, hpath, hstarts]

end BaseName

/-- An entry at the path of a name has this base name in the directory. -/
theorem baseName_of_isAt {cs : List Bytes} (hcs : ∀ c ∈ cs, c ≠ []) {n : Bytes} (hn : SLASH ∉ n)
    {key : Bytes} (h : IsAt (pathKey (cs ++ [n])) key) :
    baseName (pathKey cs) key = some (n, decide (key ≠ pathKey (cs ++ [n]))) := by
  rw [pathKey_append] at h ⊢
  by_cases hroot : cs = []
  · rw [if_pos hroot] at h ⊢
    rw [hroot, pathKey_nil, baseName, if_pos rfl]
    exact congrArg some (Prod.ext ((cutSlash_eq_iff hn).2 h) (cutSlash_snd hn h))
  · rw [if_neg hroot] at h ⊢
    have hdir := pathKey_ne_nil hcs hroot
    have hbelow : ∃ rest, key = pathKey cs ++ SLASH :: rest ∧ IsAt n rest := by
      rcases h with rfl | ⟨rest, rfl⟩
      · exact ⟨n, rfl, Or.inl rfl⟩
      · exact ⟨n ++ SLASH :: rest, by simp, Or.inr ⟨rest, by simp⟩⟩
    rcases hbelow with ⟨rest, rfl, hrest⟩
    rw [baseName_below hdir]
    refine congrArg some (Prod.ext ((cutSlash_eq_iff hn).2 hrest) ?_)
    rw [cutSlash_snd hn hrest]
    simp

/-- No other entry has it. -/
theorem baseName_of_not_isAt {cs : List Bytes} (hcs : ∀ c ∈ cs, c ≠ []) {n : Bytes} (hn : SLASH ∉ n)
    {key : Bytes} (h : ¬ IsAt (pathKey (cs ++ [n])) key) {basename : Bytes} {middle : Bool}
    (hbase : baseName (pathKey cs) key = some (basename, middle)) : basename ≠ n := by
  rintro rfl
  apply h
  rw [pathKey_append]
  by_cases hroot : cs = []
  · rw [if_pos hroot]
    rw [hroot, pathKey_nil, baseName, if_pos rfl] at hbase
    exact (cutSlash_eq_iff hn).1 (congrArg Prod.fst (Option.some.inj hbase))
  · rw [if_neg hroot]
    have hdir := pathKey_ne_nil hcs hroot
    by_cases hbelow : pathKey cs ++ [SLASH] <+: key
    · rcases hbelow with ⟨rest, rfl⟩
      rw [List.append_assoc, List.singleton_append, baseName_below hdir] at hbase
      have hrest : IsAt basename rest :=
        (cutSlash_eq_iff hn).1 (congrArg Prod.fst (Option.some.inj hbase))
      rcases hrest with rfl | ⟨more, rfl⟩
      · exact Or.inl (by simp)
      · exact Or.inr ⟨more, by simp⟩
    · rw [baseName_not_below hdir hbelow] at hbase
      cases hbase

/-! ## The two operations -/

namespace K2hFtInfo

/-- The attributes for what is found. -/
def statAt (info : K2hFtInfo) (pagesize : Nat) (path : Bytes) (e : Bytes × K2hFtRule) : Stat :=
  if e.1 = path then e.2.stat pagesize else info.dirStat pagesize

section Live

variable {info : K2hFtInfo} (hlive : info.freedRules = []) (pagesize : Nat)

include hlive

theorem deref_of_live (key : Bytes) (rule : K2hFtRule) : info.deref key rule = .ok rule := by
  simp [deref, hlive]

/-- One entry of the loop adds nothing, or a record under the base name of the entry. -/
theorem listEntry_cases (path : Bytes) (list : List K2hFtListDir) (key : Bytes) (rule : K2hFtRule) :
    info.listEntry pagesize path list key rule =
      .ok (match baseName path key with
        | none => list
        | some (basename, middle) =>
            if basename = [] ∨ (list.any fun ld => ld.strname == basename) = true then list
            else list ++ [{ strname := basename
                            pstat := some (if middle then info.dirStat pagesize
                              else rule.stat pagesize) }]) := by
  unfold listEntry
  rcases baseName path key with _ | ⟨basename, middle⟩
  · rfl
  · by_cases hnil : basename = []
    · simp [hnil]
    · by_cases hany : (list.any fun ld => ld.strname == basename) = true
      · simp [hnil, hany]
      · cases middle <;> simp [hnil, hany, deref_of_live hlive, Bind.bind, Except.bind, pure, Except.pure]

/-- What the loop lists under a name: what was there before it, else the first entry at the path of
the name. -/
theorem listEntries_filter {cs : List Bytes} (hcs : ∀ c ∈ cs, c ≠ []) {n : Bytes} (hn : SLASH ∉ n)
    (hne : n ≠ []) (entries : List (Bytes × K2hFtRule)) (list : List K2hFtListDir) :
    ∃ list', info.listEntries pagesize (pathKey cs) entries list = .ok list' ∧
      (list'.filter fun ld => ld.strname == n) =
        if (list.any fun ld => ld.strname == n) = true then
          list.filter fun ld => ld.strname == n
        else
          ((entries.find? fun e => IsAt (pathKey (cs ++ [n])) e.1).map fun e =>
            ({ strname := n
               pstat := some (info.statAt pagesize (pathKey (cs ++ [n])) e) } : K2hFtListDir)).toList := by
  induction entries generalizing list with
  | nil =>
      refine ⟨list, rfl, ?_⟩
      split
      · rfl
      · rename_i hany
        simpa using hany
  | cons e rest ih =>
      rcases e with ⟨key, rule⟩
      have hstep : ∀ list₁, info.listEntry pagesize (pathKey cs) list key rule = .ok list₁ →
          info.listEntries pagesize (pathKey cs) ((key, rule) :: rest) list =
            info.listEntries pagesize (pathKey cs) rest list₁ := by
        intro list₁ h
        simp [listEntries, h, Bind.bind, Except.bind]
      have hentry := listEntry_cases hlive pagesize (pathKey cs) list key rule
      by_cases hat : IsAt (pathKey (cs ++ [n])) key
      · rw [baseName_of_isAt hcs hn hat] at hentry
        by_cases hany : (list.any fun ld => ld.strname == n) = true
        · -- an earlier entry has the name
          simp only [hne, false_or, if_pos hany] at hentry
          rcases ih list with ⟨list', hlist', hfilter⟩
          refine ⟨list', by rw [hstep _ hentry, hlist'], ?_⟩
          rw [hfilter, if_pos hany, if_pos hany]
        · simp only [hne, false_or, if_neg hany] at hentry
          rcases ih _ with ⟨list', hlist', hfilter⟩
          refine ⟨list', by rw [hstep _ hentry, hlist'], ?_⟩
          have hnone : (list.filter fun ld => ld.strname == n) = [] := by simpa using hany
          rw [hfilter, if_neg hany]
          simp only [List.any_append, List.any_cons, beq_self_eq_true, Bool.true_or, Bool.or_true,
            if_true, List.filter_append, hnone, List.nil_append, List.find?_cons, hat, decide_true,
            Option.map_some, Option.toList_some, statAt]
          by_cases hkey : key = pathKey (cs ++ [n]) <;> simp [hkey]
      · -- the entry is listed under another name, if at all
        have hother : ∃ list₁, info.listEntry pagesize (pathKey cs) list key rule = .ok list₁ ∧
            (list₁.filter fun ld => ld.strname == n) = (list.filter fun ld => ld.strname == n) ∧
            (list₁.any fun ld => ld.strname == n) = (list.any fun ld => ld.strname == n) := by
          rcases hbase : baseName (pathKey cs) key with _ | ⟨basename, middle⟩
          · exact ⟨list, by rw [hentry, hbase], rfl, rfl⟩
          · have hdiff := baseName_of_not_isAt hcs hn hat hbase
            rw [hbase] at hentry
            simp only at hentry
            split at hentry
            · exact ⟨list, hentry, rfl, rfl⟩
            · exact ⟨_, hentry, by simp [hdiff], by simp [hdiff]⟩
        rcases hother with ⟨list₁, h₁, hfilter₁, hany₁⟩
        rcases ih list₁ with ⟨list', hlist', hfilter⟩
        refine ⟨list', by rw [hstep _ h₁, hlist'], ?_⟩
        rw [hfilter, hfilter₁, hany₁, List.find?_cons]
        simp [hat]

end Live

/-- `FindPath` on the path of a name. -/
theorem findPath_eq {info : K2hFtInfo} (pagesize : Nat) (hload : info.isLoad = true)
    (hfree : info.prule_lockval = false) (hlive : info.freedRules = []) {cs : List Bytes}
    {n : Bytes} (hn : n ≠ []) :
    findPath pagesize (fusePath (cs ++ [n])) info =
      .ok ((info.RuleMap.entries.find? fun e => IsAt (pathKey (cs ++ [n])) e.1).map
        (info.statAt pagesize (pathKey (cs ++ [n]))), info) := by
  have hroot : fusePath (cs ++ [n]) ≠ ascii "/" := by
    intro h
    have hkey := @pathKey_append cs n
    have hnil : pathKey (cs ++ [n]) = [] := by
      rw [pathKey, h]
      decide
    rw [hnil] at hkey
    split at hkey
    · exact hn hkey.symm
    · simp at hkey
  unfold findPath
  simp only [if_neg (fusePath_ne_nil _), if_neg hroot, hload, Bool.not_true, Bool.false_eq_true,
    if_false, lock_of_free hfree, Bind.bind, Except.bind, pure, Except.pure, locked_RuleMap,
    locked_deref, locked_unlock]
  rw [show stripSlash (fusePath (cs ++ [n])) = pathKey (cs ++ [n]) from rfl, findEntry_eq]
  generalize List.find? _ info.RuleMap.entries = first
  rcases first with _ | ⟨key, rule⟩
  · simp [unlock_of_free hfree]
  · by_cases hkey : key = pathKey (cs ++ [n])
    · simp [foundAt, hkey, deref_of_live hlive, statAt, unlock_of_free hfree]
    · simp [foundAt, hkey, statAt, dirStat, locked, unlock_of_free hfree]

/-- In a directory of a loaded configuration, `ReadDir` lists a name once if `FindPath` finds the
path of the name, with the attributes that `FindPath` returns, and not at all otherwise. -/
theorem readDir_agrees (info : K2hFtInfo) (pagesize : Nat) (hload : info.isLoad = true)
    (hfree : info.prule_lockval = false) (hlive : info.freedRules = []) (cs : List Bytes)
    (hcs : ∀ c ∈ cs, c ≠ []) (n : Bytes) (hn : n ≠ []) (hslash : SLASH ∉ n)
    (hdots : n ≠ ascii "." ∧ n ≠ ascii "..") :
    ∃ found list,
      findPath pagesize (fusePath (cs ++ [n])) info = .ok (found, info) ∧
        readDir pagesize (fusePath cs) info = .ok (some list, info) ∧
        (list.filter fun ld => ld.strname == n) =
          (found.map fun st => ({ strname := n, pstat := some st } : K2hFtListDir)).toList := by
  have hlive' : info.locked.freedRules = [] := hlive
  have hdot : (ascii "." == n) = false := by simpa using fun h => hdots.1 h.symm
  have hdotdot : (ascii ".." == n) = false := by simpa using fun h => hdots.2 h.symm
  rcases listEntries_filter hlive' pagesize hcs hslash hn info.RuleMap.entries
    [{ strname := ascii ".", pstat := none }, { strname := ascii "..", pstat := none }] with
    ⟨list, hlist, hfilter⟩
  have hread : readDir pagesize (fusePath cs) info = .ok (some list, info) := by
    unfold readDir
    simp only [if_neg (fusePath_ne_nil _), lock_of_free hfree, Bind.bind, Except.bind, pure,
      Except.pure]
    rw [← pathKey, locked_RuleMap, hlist, locked_unlock, unlock_of_free hfree]
  refine ⟨_, list, findPath_eq pagesize hload hfree hlive hn, hread, ?_⟩
  rw [hfilter]
  simp only [List.any_cons, hdot, hdotdot, List.any_nil, Bool.or_self, Bool.false_eq_true, if_false]
  generalize List.find? _ info.RuleMap.entries = first
  rcases first with _ | e
  · rfl
  · rfl

/-- Rules for `log`, `log/a` and `log-b`. -/
def sampleRules : K2hFtInfo :=
  { start none with
    Config := ascii "/etc/k2hftfuse.ini"
    RuleMap :=
      ((∅ : OrdMap Bytes K2hFtRule).insert (ascii "log/a") { K2hFtRule.fresh with Mode := S_IFREG }
        |>.insert (ascii "log-b") { K2hFtRule.fresh with Mode := S_IFREG }
        |>.insert (ascii "log") { K2hFtRule.fresh with Mode := S_IFDIR }) }

theorem readDir_agrees_log :
    ∃ found list,
      findPath 4096 (fusePath [ascii "log"]) sampleRules = .ok (found, sampleRules) ∧
        readDir 4096 (fusePath []) sampleRules = .ok (some list, sampleRules) ∧
        (list.filter fun ld => ld.strname == ascii "log") =
          (found.map fun st =>
            ({ strname := ascii "log", pstat := some st } : K2hFtListDir)).toList :=
  readDir_agrees sampleRules 4096 (by decide) rfl rfl [] (by simp) (ascii "log") (by decide)
    (by decide) (by decide)

end K2hFtInfo

end K2hFtFuse

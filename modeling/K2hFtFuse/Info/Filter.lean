import K2hFtFuse.Info.Loaded

/-!
# Info.Filter — from `ALLOW` and `DENY` to the line filter

A section says which lines it means to pass (`Meant`). The INI loader makes a filter of it that passes
just these. The YAML loader puts all patterns into `DenyMatchs`, so that its filter does so for some
lines only (`YamlAgrees`).
-/

namespace K2hFtFuse

open ByteSeq

/-! ## The filter -/

section Convert

variable {eng : RegexEngine} {beyond : Nat → UInt8} {data : Bytes}

/-- The replacement of every regular expression of the list that matches the line succeeds. -/
def ReplacesMatched (eng : RegexEngine) (beyond : Nat → UInt8) (ptns : List K2hFtMatchPtn)
    (data : Bytes) : Prop :=
  ∀ ptn ∈ ptns, ptn.IsRegex = true → ∀ pmatches,
    eng.regexec ptn.BaseString (lineOf data) = some pmatches →
      (buildReplaceResultData beyond ptn.ReplaceList data pmatches).isSome = true

theorem convertDenyAll_isSome_iff {ptns : List K2hFtMatchPtn}
    (hreplace : ReplacesMatched eng beyond ptns data) :
    (convertDenyAll eng beyond data ptns).isSome = true ↔
      ∃ ptn ∈ ptns, ptn.hits eng (lineOf data) = true := by
  induction ptns with
  | nil =>
      simp [convertDenyAll]
  | cons ptn rest ih =>
      have hrest := ih fun q hq => hreplace q (List.mem_cons_of_mem _ hq)
      rw [List.exists_mem_cons_iff, ← hrest]
      cases hregex : ptn.IsRegex with
      | true =>
          rcases hexec : eng.regexec ptn.BaseString (lineOf data) with _ | pmatches
          · simp [convertDenyAll, K2hFtMatchPtn.hits, hregex, hexec]
          · have hsome := hreplace ptn List.mem_cons_self hregex pmatches hexec
            simp [convertDenyAll, K2hFtMatchPtn.hits, hregex, hexec, hsome]
      | false =>
          by_cases hhits : ptn.hits eng (lineOf data) = true
          · simp [convertDenyAll, hregex, hhits]
          · simp [convertDenyAll, hregex, hhits]

theorem convertAllowAll_isSome_iff {ptns : List K2hFtMatchPtn} :
    (convertAllowAll eng data ptns).isSome = true ↔
      ¬ ∃ ptn ∈ ptns, ptn.hits eng (lineOf data) = true := by
  induction ptns with
  | nil =>
      simp [convertAllowAll]
  | cons ptn rest ih =>
      rw [List.exists_mem_cons_iff, not_or, ← ih]
      by_cases hhits : ptn.hits eng (lineOf data) = true
      · simp [convertAllowAll, hhits]
      · simp [convertAllowAll, hhits]

end Convert

/-! ## What a section means -/

theorem mem_allPatterns_iff {acl : List AclEntry} {ptn : K2hFtMatchPtn} :
    ptn ∈ allPatterns acl ↔ ptn ∈ allowPatterns acl ∨ ptn ∈ denyPatterns acl := by
  induction acl with
  | nil =>
      simp [allPatterns, allowPatterns, denyPatterns]
  | cons entry acl ih =>
      simp only [allPatterns, allowPatterns, denyPatterns, List.filterMap_cons] at ih ⊢
      rcases entry with _ | ⟨_ | _, _⟩
      · exact ih
      · simp only [List.mem_cons, ih]
        tauto
      · simp only [List.mem_cons, ih]
        tauto

/-- Some pattern of the list matches the line. -/
def Hits (eng : RegexEngine) (ptns : List K2hFtMatchPtn) (line : Bytes) : Prop :=
  ∃ ptn ∈ ptns, ptn.hits eng line = true

/-- The lines that a section means to pass. -/
def Meant (eng : RegexEngine) (acl : List AclEntry) (line : Bytes) : Prop :=
  (defaultDeny acl = true ∧ Hits eng (allowPatterns acl) line) ∨
    (defaultDeny acl = false ∧ ¬ Hits eng (denyPatterns acl) line)

/-- The lines that the YAML loader treats as the section means: in a section that denies by default,
those that no `ALLOW` pattern matches; else those that a `DENY` pattern matches wherever an `ALLOW`
pattern does or, when the patterns were `emptied`, those that no `DENY` pattern matches. -/
def YamlAgrees (eng : RegexEngine) (acl : List AclEntry) (emptied : Bool) (line : Bytes) : Prop :=
  if defaultDeny acl then ¬ Hits eng (allowPatterns acl) line
  else if emptied then ¬ Hits eng (denyPatterns acl) line
  else Hits eng (allowPatterns acl) line → Hits eng (denyPatterns acl) line

section Sections

variable {eng : RegexEngine} {beyond : Nat → UInt8} {data line : Bytes} {acl : List AclEntry}
  {rule : K2hFtRule}

theorem lineOf_eq (hline : cString? data = some line) : lineOf data = line := by
  simp [lineOf, hline]

/-- The filter that the INI loader makes passes the lines that are meant. -/
theorem IniRuleOf.passes_iff (h : IniRuleOf acl rule) (hline : cString? data = some line)
    (hreplace : ReplacesMatched eng beyond (allowPatterns acl) data) :
    (convertToOutput eng beyond rule data).isSome = true ↔ Meant eng acl line := by
  unfold convertToOutput Meant Hits
  rw [h.DefaultDenyAll, h.MatchingList, ← lineOf_eq hline]
  cases defaultDeny acl with
  | true => simpa using convertDenyAll_isSome_iff hreplace
  | false => simpa using convertAllowAll_isSome_iff

/-- The filter that the YAML loader makes passes nothing in a section that denies by default, and in
another one the lines that no pattern at all matches. -/
theorem YamlRuleOf.passes_iff {rule' : K2hFtRule} {emptied : Bool} (h : YamlRuleOf acl rule')
    (hdefault : rule.DefaultDenyAll = rule'.DefaultDenyAll)
    (hlist : rule.MatchingList = if emptied then [] else rule'.MatchingList)
    (hline : cString? data = some line) :
    (convertToOutput eng beyond rule data).isSome = true ↔
      defaultDeny acl = false ∧ (emptied = true ∨ ¬ Hits eng (allPatterns acl) line) := by
  unfold convertToOutput Hits
  rw [hdefault, hlist, h.DefaultDenyAll, h.MatchingList, ← lineOf_eq hline]
  cases defaultDeny acl with
  | true => simp [convertDenyAll]
  | false =>
      cases emptied with
      | true => simp [convertAllowAll]
      | false => simpa using convertAllowAll_isSome_iff

theorem hits_allPatterns_iff :
    Hits eng (allPatterns acl) line ↔
      Hits eng (allowPatterns acl) line ∨ Hits eng (denyPatterns acl) line := by
  simp only [Hits, mem_allPatterns_iff, or_and_right, exists_or]

/-- What the YAML loader makes of a section is what the section means exactly on some lines. -/
theorem yamlAgrees_iff {emptied : Bool} :
    ((defaultDeny acl = false ∧ (emptied = true ∨ ¬ Hits eng (allPatterns acl) line)) ↔
      Meant eng acl line) ↔ YamlAgrees eng acl emptied line := by
  rw [hits_allPatterns_iff]
  unfold Meant YamlAgrees
  cases defaultDeny acl with
  | true => simp
  | false =>
      cases emptied with
      | true => simp
      | false =>
          simp only [true_and, Bool.false_eq_true, false_or, if_false]
          tauto

end Sections

/-! ## The section that counts -/

/-- `acl` is what the section of `target` says that is read last, without losing its rule later;
`emptied` tells whether a check in binary mode follows it. -/
def ConfSource.SectionOf (lib : ConfLib) (stack : YamlDataStack) (args : LoadArgs) (info : K2hFtInfo)
    (target : Bytes) (acl : List AclEntry) (emptied : Bool) : ConfSource → Prop
  | .ini (some lines) _ =>
      emptied = false ∧ ∃ pre post,
        K2hFtInfo.iniRules lib (iniSections lines) = pre ++ (target, acl) :: post ∧
          ∀ sec ∈ post, sec.1 ≠ target
  | .yaml events env =>
      ∃ pre p post rule,
        (ConfSource.yaml events env).trace lib stack args info = pre ++ p :: post ∧
          p.ruleSection args = some (acl, rule) ∧ rule.TargetPath = target ∧
          (∀ q ∈ post, q.refuses args = false ∧ ∀ acl' rule',
            q.ruleSection args = some (acl', rule') → rule'.TargetPath ≠ target) ∧
          emptied = post.any (YamlAt.checksBinary args)
  | _ => False

def ConfSource.isYaml : ConfSource → Bool
  | .yaml _ _ => true
  | _ => false

namespace K2hFtInfo

/-- A rule of the map has the filter of the last rule that was registered for its target. -/
theorem Tracks.exists_register {info : K2hFtInfo} (h : Tracks info) {target : Bytes}
    {rule : K2hFtRule} (hrule : info.RuleMap.find? target = some rule) :
    ∃ pre acl rule' post, info.acts = pre ++ .register acl rule' :: post ∧
      rule'.TargetPath = target ∧ Stays target post ∧ rule.DefaultDenyAll = rule'.DefaultDenyAll ∧
      rule.MatchingList = if .binary true ∈ post then [] else rule'.MatchingList := by
  have hsame := h target
  rw [hrule] at hsame
  rcases Option.map_eq_some_iff.1 hsame.symm with ⟨replayed, hreplayed, hfilter⟩
  obtain ⟨hdefault, hlist⟩ := Prod.mk.inj hfilter
  rcases replay_find?_eq_some_iff.1 hreplayed with ⟨pre, acl, rule', post, hacts, htarget, hstays, rfl⟩
  refine ⟨pre, acl, rule', post, hacts, htarget, hstays, ?_, ?_⟩
  · rw [← hdefault]
    split <;> rfl
  · rw [← hlist]
    split <;> rfl

/-- A registration in the history of an INI file is one of its rules. -/
theorem registrations_append_eq_split {rules : List (List AclEntry × K2hFtRule)}
    {tail before after : List LoadAct} {acl : List AclEntry} {rule : K2hFtRule}
    (htail : ∀ acl rule, .register acl rule ∉ tail)
    (h : registrations rules ++ tail = before ++ .register acl rule :: after) :
    ∃ pre post, rules = pre ++ (acl, rule) :: post ∧ after = registrations post ++ tail := by
  induction rules generalizing before with
  | nil =>
      exact absurd (h ▸ by simp : .register acl rule ∈ registrations [] ++ tail)
        (by simpa [registrations] using htail acl rule)
  | cons r rules ih =>
      rcases before with _ | ⟨a, before⟩
      · obtain ⟨hhead, hrest⟩ := List.cons.inj h
        obtain ⟨rfl, rfl⟩ := LoadAct.register.inj hhead
        exact ⟨[], rules, rfl, hrest.symm⟩
      · rcases ih (List.cons.inj h).2 with ⟨pre, post, rfl, rfl⟩
        exact ⟨r :: pre, post, rfl, rfl⟩

/-- The section that counts for a rule of the map, and the filter that was made of it. -/
theorem load_sectionOf {lib : ConfLib} {stack : YamlDataStack} {args : LoadArgs} {config : Bytes}
    {source : ConfSource} {info info' : K2hFtInfo} (hfresh : Unloaded info)
    (h : info.load lib stack args config source = .ok (true, info'))
    (hmode : info'.IsBinaryMode = false) {target : Bytes} {rule : K2hFtRule}
    (hrule : info'.RuleMap.find? target = some rule) :
    ∃ acl emptied rule', source.SectionOf lib stack args info target acl emptied ∧
      .register acl rule' ∈ info'.acts ∧ rule.DefaultDenyAll = rule'.DefaultDenyAll ∧
      rule.MatchingList = (if emptied then [] else rule'.MatchingList) ∧
      if source.isYaml then YamlRuleOf acl rule' else IniRuleOf acl rule' := by
  cases source with
  | unknown =>
      cases h
  | ini lines env =>
      rcases loadIni_eq_true hfresh.tracks h with ⟨htracks, rules, hacts, hof, read, rfl, hrules⟩
      rw [hfresh.acts, List.nil_append, hmode] at hacts
      rcases htracks.exists_register hrule with
        ⟨before, acl, rule', after, hsplit, rfl, hstays, hdefault, hlist⟩
      rcases registrations_append_eq_split (by simp) (hacts.symm.trans hsplit) with
        ⟨pre, post, rfl, rfl⟩
      refine ⟨acl, false, rule', ⟨rfl, pre.map fun r => (r.2.TargetPath, r.1),
        post.map fun r => (r.2.TargetPath, r.1), ?_, ?_⟩, by simp [hsplit], hdefault, ?_,
        hof (acl, rule') (by simp)⟩
      · rw [← hrules, List.map_append, List.map_cons]
      · intro sec hsec
        rcases List.mem_map.1 hsec with ⟨r, hr, rfl⟩
        refine hstays.register r.1 r.2 (List.mem_append_left _ ?_)
        exact List.mem_map.2 ⟨r, hr, rfl⟩
      · simpa [registrations] using hlist
  | yaml events env =>
      rcases loadYaml_eq_true hfresh h with ⟨read, phase, rfl, hinv, -, hacts⟩
      rcases hinv.tracks.exists_register hrule with
        ⟨before, acl, rule', after, hsplit, rfl, hstays, hdefault, hlist⟩
      rcases flatMap_acts_eq_split.1 (hacts.symm.trans hsplit) with
        ⟨pre, p, post, htrace, hsec, rfl, rfl⟩
      have hmem : .register acl rule' ∈ info'.acts := by simp [hsplit]
      have hemptied : .binary true ∈ post.flatMap (YamlAt.acts args) ↔
          post.any (YamlAt.checksBinary args) = true := by
        simp only [List.mem_flatMap, YamlAt.binary_mem_acts_iff, List.any_eq_true]
      refine ⟨acl, post.any (YamlAt.checksBinary args), rule',
        ⟨pre, p, post, rule', htrace, hsec, rfl, ?_, rfl⟩, hmem, hdefault, ?_,
        hinv.registered acl rule' hmem⟩
      · intro q hq
        constructor
        · by_contra hrefuses
          exact hstays.clean (List.mem_flatMap.2
            ⟨q, hq, YamlAt.clean_mem_acts_iff.2 (by simpa using hrefuses)⟩)
        · intro acl' rule'' hsec'
          exact hstays.register acl' rule'' (List.mem_flatMap.2
            ⟨q, hq, YamlAt.register_mem_acts_iff.2 hsec'⟩)
      · simpa only [hemptied] using hlist

/-- In text mode, a rule passes just the lines that the section of its target means to pass exactly
when, in a YAML stream, the line is one that `YamlAgrees` tells. An INI file does it for all lines. -/
theorem load_filter_iff {lib : ConfLib} {stack : YamlDataStack} {args : LoadArgs} {config : Bytes}
    {source : ConfSource} {info info' : K2hFtInfo} (hfresh : Unloaded info)
    (h : info.load lib stack args config source = .ok (true, info'))
    (hmode : info'.IsBinaryMode = false) {target : Bytes} {rule : K2hFtRule}
    (hrule : info'.RuleMap.find? target = some rule) :
    ∃ acl emptied, source.SectionOf lib stack args info target acl emptied ∧
      ∀ eng beyond data line, cString? data = some line →
        ReplacesMatched eng beyond (allowPatterns acl) data →
          (((convertToOutput eng beyond rule data).isSome = true ↔ Meant eng acl line) ↔
            (source.isYaml = true → YamlAgrees eng acl emptied line)) := by
  rcases load_sectionOf hfresh h hmode hrule with
    ⟨acl, emptied, rule', hsection, -, hdefault, hlist, hof⟩
  refine ⟨acl, emptied, hsection, ?_⟩
  intro eng beyond data line hline hreplace
  cases hyaml : source.isYaml with
  | false =>
      rw [hyaml] at hof
      have hemptied : emptied = false := by
        cases source with
        | unknown => cases h
        | ini lines env =>
            rcases lines with _ | lines
            · cases hsection
            · exact hsection.1
        | yaml events env => cases hyaml
      have hini : IniRuleOf acl rule := by
        refine ⟨hdefault.trans hof.DefaultDenyAll, ?_⟩
        rw [hlist, hemptied]
        exact hof.MatchingList
      simpa using hini.passes_iff hline hreplace
  | true =>
      rw [hyaml] at hof
      have hpasses : (convertToOutput eng beyond rule data).isSome = true ↔
          defaultDeny acl = false ∧ (emptied = true ∨ ¬ Hits eng (allPatterns acl) line) :=
        YamlRuleOf.passes_iff hof hdefault hlist hline
      rw [hpasses, yamlAgrees_iff]
      exact ⟨fun hagrees _ => hagrees, fun hagrees => hagrees rfl⟩

end K2hFtInfo

/-! ## Two configurations -/

/-- An engine without regular expressions. -/
def plainEngine : RegexEngine :=
  { regcomp := fun _ => false
    regexec := fun _ _ => none }

/-- Text mode, and one rule that passes what holds `INFO`. -/
def allowIni : ConfSource :=
  iniOf ["[K2HFTFUSE]", "[K2HFTFUSE_RULE]", "TARGET = log/a", "DEFAULTALL = DENY", "ALLOW = INFO"]

/-- The same as a YAML stream. -/
def allowYaml : ConfSource :=
  yamlOf plainEnv (yamlRules ["TARGET", "log/a", "DEFAULTALL", "DENY", "ALLOW", "INFO"])

/-- What the section of a registration says. -/
def LoadAct.acl? : LoadAct → Option (List AclEntry)
  | .register acl _ => some acl
  | _ => none

/-- What the section of `allowYaml` says. -/
def allowYamlAcl : List AclEntry :=
  [.defaultAll true,
    .pattern true
      { IsRegex := false
        BaseString := ascii "INFO"
        ReplaceList := [] }]

namespace K2hFtInfo

theorem load_allowIni : ∃ info' rule,
    (start none).load plainLib plainStack plainArgs (ascii "/etc/k2hftfuse.ini") allowIni =
      .ok (true, info') ∧ info'.IsBinaryMode = false ∧
        info'.RuleMap.find? (ascii "log/a") = some rule := by
  have hrun : ∃ info', (start none).load plainLib plainStack plainArgs (ascii "/etc/k2hftfuse.ini")
      allowIni = .ok (true, info') ∧
        (info'.IsBinaryMode, (info'.RuleMap.find? (ascii "log/a")).isSome) = (false, true) :=
    exists_of_toOption (by decide +kernel)
  rcases hrun with ⟨info', hload, hresult⟩
  obtain ⟨hmode, hsome⟩ := Prod.mk.inj hresult
  rcases Option.isSome_iff_exists.1 hsome with ⟨rule, hrule⟩
  exact ⟨info', rule, hload, hmode, hrule⟩

theorem load_filter_iff_allowIni : ∃ info' rule acl emptied,
    (start none).load plainLib plainStack plainArgs (ascii "/etc/k2hftfuse.ini") allowIni =
      .ok (true, info') ∧ info'.RuleMap.find? (ascii "log/a") = some rule ∧
        allowIni.SectionOf plainLib plainStack plainArgs (start none) (ascii "log/a") acl emptied ∧
        ((convertToOutput plainEngine (fun _ => 0) rule (ascii "INFO start" ++ [0])).isSome = true ↔
          Meant plainEngine acl (ascii "INFO start")) := by
  rcases load_allowIni with ⟨info', rule, hload, hmode, hrule⟩
  rcases load_filter_iff ⟨rfl, rfl⟩ hload hmode hrule with ⟨acl, emptied, hsection, hfilter⟩
  refine ⟨info', rule, acl, emptied, hload, hrule, hsection, ?_⟩
  refine (hfilter plainEngine (fun _ => 0) (ascii "INFO start" ++ [0]) (ascii "INFO start")
    (by decide) ?_).2 ?_
  · intro ptn _ _ pmatches hexec
    cases hexec
  · intro hyaml
    cases hyaml

/-- The rule passes no line, also not one that the section allows. -/
theorem allowYaml_drops_allowed_line : ∃ info' rule acl emptied,
    (start none).load plainLib plainStack plainArgs (ascii "/etc/k2hftfuse.yaml") allowYaml =
      .ok (true, info') ∧ info'.IsBinaryMode = false ∧
        info'.RuleMap.find? (ascii "log/a") = some rule ∧
        allowYaml.SectionOf plainLib plainStack plainArgs (start none) (ascii "log/a") acl emptied ∧
        Meant plainEngine acl (ascii "INFO start") ∧
        convertToOutput plainEngine (fun _ => 0) rule (ascii "INFO start" ++ [0]) = none := by
  have hrun : ∃ info', (start none).load plainLib plainStack plainArgs (ascii "/etc/k2hftfuse.yaml")
      allowYaml = .ok (true, info') ∧
        (info'.IsBinaryMode,
          (info'.RuleMap.find? (ascii "log/a")).map (fun rule =>
            (convertToOutput plainEngine (fun _ => 0) rule (ascii "INFO start" ++ [0])).isSome),
          info'.acts.filterMap LoadAct.acl?) = (false, some false, [allowYamlAcl]) :=
    exists_of_toOption (by decide +kernel)
  rcases hrun with ⟨info', hload, hresult⟩
  obtain ⟨hmode, hresult⟩ := Prod.mk.inj hresult
  obtain ⟨hdropped, hacls⟩ := Prod.mk.inj hresult
  rcases Option.map_eq_some_iff.1 hdropped with ⟨rule, hrule, hnone⟩
  rcases load_sectionOf ⟨rfl, rfl⟩ hload hmode hrule with ⟨acl, emptied, rule', hsection, hmem, -⟩
  -- there is one section, and it allows `INFO`
  have hacl : acl ∈ info'.acts.filterMap LoadAct.acl? := List.mem_filterMap.2 ⟨_, hmem, rfl⟩
  rw [hacls, List.mem_singleton] at hacl
  refine ⟨info', rule, acl, emptied, hload, hmode, hrule, hsection, ?_,
    Option.not_isSome_iff_eq_none.1 (by simp [hnone])⟩
  rw [hacl]
  exact .inl ⟨rfl, _, List.mem_singleton_self _, by decide⟩

end K2hFtInfo

end K2hFtFuse

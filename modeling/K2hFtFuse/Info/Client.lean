import K2hFtFuse.Info.Loaded

/-!
# Info.Client — a client configuration in both formats

A client configuration is a list of main settings and a list of rule sections, which come in groups of
one kind. It is written as INI lines or as YAML events:

- a setting is a line `KEY = value`, or a key and a value in a mapping;
- a group is a section for each of its rules, or one sequence of mappings;
- values of `ALLOW` and `DENY` are lines of their own, or the items of a sequence; a regular expression
  is quoted in both, but the quotes of a YAML scalar are not part of its value.

What each loader reads of a section is told entry by entry (`iniSection`, `yamlSection`), and the lines
of an INI file are split into its sections again.
-/

namespace K2hFtFuse

open ByteSeq SpinLock

/-! ## Client configurations -/

/-- A text that lines are searched for, or a regular expression. -/
inductive AclText
  | plain (text : Bytes)
  | regex (expression : Bytes)
  deriving DecidableEq

/-- A value of `ALLOW` or `DENY`, alone or with a replacement of what it matches. -/
inductive AclValue
  | text (a : AclText)
  | replace (expression replacement : Bytes)
  deriving DecidableEq

/-- An entry of a rule section: any key other than `ALLOW` and `DENY`, or one of these with a value or
with a list of values. -/
inductive RuleEntry
  | setting (key value : Bytes)
  | acl (allow : Bool) (value : AclText)
  | aclList (allow : Bool) (values : List AclValue)
  deriving DecidableEq

/-- Rule sections of one kind. -/
structure RuleGroup where
  is_dir : Bool
  rules : List (List RuleEntry)

structure ClientConf where
  main : List (Bytes × Bytes)
  groups : List RuleGroup

/-- The rule sections in their order, with their kind. -/
def ClientConf.sections (conf : ClientConf) : List (Bool × List RuleEntry) :=
  conf.groups.flatMap fun g => g.rules.map fun entries => (g.is_dir, entries)

def aclKey (allow : Bool) : Bytes := if allow then ascii "ALLOW" else ascii "DENY"

/-- The values that an entry gives for `ALLOW` and `DENY`. -/
def RuleEntry.values : RuleEntry → List (Bool × AclValue)
  | .setting _ _ => []
  | .acl allow value => [(allow, .text value)]
  | .aclList allow values => values.map fun value => (allow, value)

/-! ## INI lines -/

def AclText.ini : AclText → Bytes
  | .plain text => text
  | .regex expression => quoted expression

def AclValue.ini : AclValue → Bytes
  | .text a => a.ini
  | .replace expression replacement => quoted expression ++ ascii ", " ++ quoted replacement

def iniText (key value : Bytes) : Bytes := key ++ ascii " = " ++ value

def RuleEntry.iniTexts : RuleEntry → List Bytes
  | .setting key value => [iniText key value]
  | entry => entry.values.map fun v => iniText (aclKey v.1) v.2.ini

def ruleHeader (is_dir : Bool) : Bytes :=
  if is_dir then INI_K2HFT_RULEDIR_SEC_STR else INI_K2HFT_RULE_SEC_STR

def ClientConf.iniTexts (conf : ClientConf) : List Bytes :=
  INI_K2HFT_MAIN_SEC_STR :: conf.main.map (fun p => iniText p.1 p.2) ++
    conf.sections.flatMap fun sec => ruleHeader sec.1 :: sec.2.flatMap RuleEntry.iniTexts

/-- The configuration as an INI file, with the answers that are met while it is read. -/
def ClientConf.ini (conf : ClientConf) (env : LoadEnv) : ConfSource :=
  .ini (some (conf.iniTexts.map fun text => { text := text, env := env })) env

/-! ## YAML events -/

def AclText.yaml : AclText → Bytes
  | .plain text => text
  | .regex expression => expression

def AclValue.events : AclValue → List YamlEvent
  | .text a => [.scalar a.yaml]
  | .replace expression replacement =>
      [.sequenceStart, .scalar expression, .scalar replacement, .sequenceEnd]

def RuleEntry.events : RuleEntry → List YamlEvent
  | .setting key value => [.scalar key, .scalar value]
  | .acl allow value => [.scalar (aclKey allow), .scalar value.yaml]
  | .aclList allow values =>
      .scalar (aclKey allow) :: .sequenceStart :: values.flatMap AclValue.events ++ [.sequenceEnd]

def ruleEvents (entries : List RuleEntry) : List YamlEvent :=
  .mappingStart :: entries.flatMap RuleEntry.events ++ [.mappingEnd]

def groupKey (is_dir : Bool) : Bytes :=
  if is_dir then ascii "K2HFTFUSE_RULE_DIR" else ascii "K2HFTFUSE_RULE"

def RuleGroup.events (g : RuleGroup) : List YamlEvent :=
  .scalar (groupKey g.is_dir) :: .sequenceStart :: g.rules.flatMap ruleEvents ++ [.sequenceEnd]

/-- The mapping under `K2HFTFUSE`, without its start and end. -/
def ClientConf.mainEvents (conf : ClientConf) : List YamlEvent :=
  conf.main.flatMap (fun p => [.scalar p.1, .scalar p.2]) ++ conf.groups.flatMap RuleGroup.events

/-- The configuration as a YAML stream. -/
def ClientConf.yaml (conf : ClientConf) (env : LoadEnv) : ConfSource := yamlOf env conf.mainEvents

/-! ## What can be written -/

/-- A key of the main mapping that starts rule sections in YAML. -/
def isRuleKey (key : Bytes) : Bool :=
  strcasecmp (ascii "K2HFTFUSE_RULE_DIR") key || strcasecmp (ascii "K2HFTFUSE_RULE") key

/-- Keys are not empty, and those of settings in a rule section are not `ALLOW` or `DENY`. -/
structure ClientConf.WellFormed (conf : ClientConf) : Prop where
  main : ∀ p ∈ conf.main, p.1 ≠ []
  setting : ∀ sec ∈ conf.sections, ∀ key value, .setting key value ∈ sec.2 →
    key ≠ [] ∧ strcasecmp (ascii "ALLOW") key = false ∧ strcasecmp (ascii "DENY") key = false

/-- A line of a section from which its key and value are read. -/
structure ReadsAs (lib : ConfLib) (key value : Bytes) : Prop where
  inSection : isSectionLine (iniText key value) = false
  parsed : parseIniLine lib (iniText key value) = (lib.upper key, value)

/-- The INI lines of the configuration are read as they are meant: `libchmpx` gives the texts back
unchanged. -/
structure ClientConf.ReadsBack (conf : ClientConf) (lib : ConfLib) : Prop where
  upper : ∀ s, lib.upper s = s.map toUpper
  main : ∀ p ∈ conf.main, ReadsAs lib p.1 p.2
  setting : ∀ sec ∈ conf.sections, ∀ key value, .setting key value ∈ sec.2 → ReadsAs lib key value
  acl : ∀ sec ∈ conf.sections, ∀ entry ∈ sec.2, ∀ v ∈ entry.values, ReadsAs lib (aclKey v.1) v.2.ini

/-! ## Names of keys

The INI loader compares the key in upper case, the YAML loader without case. -/

theorem toNat_toLower (c : UInt8) :
    (toLower c).toNat = if 65 ≤ c.toNat ∧ c.toNat ≤ 90 then c.toNat + 32 else c.toNat := by
  have hcond : (65 ≤ c ∧ c ≤ 90) ↔ (65 ≤ c.toNat ∧ c.toNat ≤ 90) := Iff.rfl
  unfold toLower
  simp only [hcond]
  split
  · rw [UInt8.toNat_add]
    simp
    omega
  · rfl

theorem toNat_toUpper (c : UInt8) :
    (toUpper c).toNat = if 97 ≤ c.toNat ∧ c.toNat ≤ 122 then c.toNat - 32 else c.toNat := by
  have hcond : (97 ≤ c ∧ c ≤ 122) ↔ (97 ≤ c.toNat ∧ c.toNat ≤ 122) := Iff.rfl
  unfold toUpper
  simp only [hcond]
  split
  · rw [UInt8.toNat_sub_of_le]
    · rfl
    · have hle : 32 ≤ c.toNat := by omega
      exact hle
  · rfl

theorem toLower_eq_iff {n c : UInt8} (hn : n.toNat < 97 ∨ 122 < n.toNat) :
    toLower n = toLower c ↔ n = toUpper c := by
  rw [← UInt8.toNat_inj, ← UInt8.toNat_inj, toNat_toLower, toNat_toLower, toNat_toUpper]
  split <;> split <;> split <;> omega

/-- A text without lower case letters. -/
def NoLower (name : Bytes) : Prop := ∀ c ∈ name, c.toNat < 97 ∨ 122 < c.toNat

instance instDecidableNoLower (name : Bytes) : Decidable (NoLower name) :=
  inferInstanceAs (Decidable (∀ c ∈ name, c.toNat < 97 ∨ 122 < c.toNat))

theorem beq_map_toUpper {name : Bytes} (h : NoLower name) (key : Bytes) :
    (name == key.map toUpper) = strcasecmp name key := by
  rw [Bool.eq_iff_iff]
  simp only [strcasecmp, beq_iff_eq]
  induction name generalizing key with
  | nil =>
      cases key <;> simp
  | cons n name ih =>
      have hn := h n List.mem_cons_self
      have hname : NoLower name := fun c hc => h c (List.mem_cons_of_mem _ hc)
      cases key with
      | nil => simp
      | cons c key =>
          simp only [List.map_cons, List.cons.injEq, toLower_eq_iff hn, ih hname key]

/-- The loaders compare a key with names without lower case letters only. -/
theorem loadMainKey_congr {is is' : Bytes → Bool} (h : ∀ name, NoLower name → is name = is' name)
    (lib : ConfLib) (env : LoadEnv) (value : Bytes) (info : K2hFtInfo) :
    info.loadMainKey lib env is value = info.loadMainKey lib env is' value := by
  unfold K2hFtInfo.loadMainKey
  rw [h (ascii "K2HTYPE") (by decide +kernel), h (ascii "K2HFILE") (by decide +kernel),
    h (ascii "K2HFULLMAP") (by decide +kernel), h (ascii "K2HINIT") (by decide +kernel),
    h (ascii "K2HMASKBIT") (by decide +kernel), h (ascii "K2HCMASKBIT") (by decide +kernel),
    h (ascii "K2HMAXELE") (by decide +kernel), h (ascii "K2HPAGESIZE") (by decide +kernel),
    h (ascii "DTORTHREADCNT") (by decide +kernel), h (ascii "DTORCTP") (by decide +kernel),
    h (ascii "BINTRANS") (by decide +kernel), h (ascii "EXPIRE") (by decide +kernel),
    h (ascii "TRANSLINECNT") (by decide +kernel), h (ascii "TRANSTIMEUP") (by decide +kernel),
    h (ascii "BYTELIMIT") (by decide +kernel)]

theorem loadRuleKey_congr {is is' : Bytes → Bool} (h : ∀ name, NoLower name → is name = is' name)
    (lib : ConfLib) (env : LoadEnv) (value : Bytes) (pTmpRule : K2hFtRule) :
    loadRuleKey lib env is value pTmpRule = loadRuleKey lib env is' value pTmpRule := by
  unfold loadRuleKey
  rw [h (ascii "TARGET") (by decide +kernel), h (ascii "TRUNS") (by decide +kernel),
    h (ascii "OUTPUTFILE") (by decide +kernel), h (ascii "PLUGIN") (by decide +kernel),
    h (ascii "DEFAULTALL") (by decide +kernel)]

section Names

variable {lib : ConfLib} (hupper : ∀ s, lib.upper s = s.map toUpper)

include hupper

theorem beq_upper {name : Bytes} (h : NoLower name) (key : Bytes) :
    (name == lib.upper key) = strcasecmp name key := by
  rw [hupper]
  exact beq_map_toUpper h key

theorem loadMainKey_upper (env : LoadEnv) (key value : Bytes) (info : K2hFtInfo) :
    info.loadMainKey lib env (fun name => name == lib.upper key) value =
      info.loadMainKey lib env (fun name => strcasecmp name key) value :=
  loadMainKey_congr (fun _ hname => beq_upper hupper hname key) lib env value info

theorem loadRuleKey_upper (env : LoadEnv) (key value : Bytes) (pTmpRule : K2hFtRule) :
    loadRuleKey lib env (fun name => name == lib.upper key) value pTmpRule =
      loadRuleKey lib env (fun name => strcasecmp name key) value pTmpRule :=
  loadRuleKey_congr (fun _ hname => beq_upper hupper hname key) lib env value pTmpRule

theorem upper_ne {name key : Bytes} (h : NoLower name) (hne : strcasecmp name key = false) :
    lib.upper key ≠ name := by
  intro heq
  have hbeq := beq_upper hupper h key
  rw [hne, heq] at hbeq
  simp at hbeq

end Names

/-! ## What the loaders make of a section -/

/-- The pattern that the YAML loader builds of a value. -/
def AclValue.yamlPattern (env : LoadEnv) : AclValue → Option K2hFtMatchPtn
  | .text a => K2hFtInfo.yamlPattern env a.yaml []
  | .replace expression replacement => K2hFtInfo.yamlPattern env expression replacement

namespace IniRule

/-- A key other than `ALLOW` and `DENY`. -/
def setting (lib : ConfLib) (env : LoadEnv) (key value : Bytes) (s : IniRule) : IniRule :=
  let (pTmpRule, said) := loadRuleKey lib env (fun name => strcasecmp name key) value s.pTmpRule
  { s with
    pTmpRule := pTmpRule
    acl := s.acl ++ said }

/-- The INI loader puts a pattern into the list of its key. -/
def iniValue (lib : ConfLib) (env : LoadEnv) (s : IniRule) (v : Bool × AclValue) : IniRule :=
  match iniPattern lib env v.2.ini with
  | none => s
  | some pMatchPtn =>
      { s with
        AllowMatchs := if v.1 then s.AllowMatchs ++ [pMatchPtn] else s.AllowMatchs
        DenyMatchs := if v.1 then s.DenyMatchs else s.DenyMatchs ++ [pMatchPtn]
        acl := s.acl ++ [.pattern v.1 pMatchPtn] }

/-- The YAML loader puts every pattern into `DenyMatchs`. -/
def yamlValue (env : LoadEnv) (s : IniRule) (v : Bool × AclValue) : IniRule :=
  match v.2.yamlPattern env with
  | none => s
  | some pMatchPtn =>
      { s with
        DenyMatchs := s.DenyMatchs ++ [pMatchPtn]
        acl := s.acl ++ [.pattern v.1 pMatchPtn] }

/-- An entry, by what a value of `ALLOW` or `DENY` does. -/
def entry (lib : ConfLib) (env : LoadEnv) (value : IniRule → Bool × AclValue → IniRule)
    (s : IniRule) : RuleEntry → IniRule
  | .setting key text => s.setting lib env key text
  | entry => entry.values.foldl value s

end IniRule

def iniSection (lib : ConfLib) (env : LoadEnv) (entries : List RuleEntry) : IniRule :=
  entries.foldl (IniRule.entry lib env (IniRule.iniValue lib env)) IniRule.fresh

def yamlSection (lib : ConfLib) (env : LoadEnv) (entries : List RuleEntry) : IniRule :=
  entries.foldl (IniRule.entry lib env (IniRule.yamlValue env)) IniRule.fresh

/-! ## Reading the INI lines -/

def readIni (env : LoadEnv) (texts : List Bytes) : List IniLine :=
  texts.map fun text => { text := text, env := env }

section ReadIni

variable {lib : ConfLib} {env : LoadEnv}

theorem loadIniRuleLine_setting (hupper : ∀ s, lib.upper s = s.map toUpper) {key value : Bytes}
    (hread : ReadsAs lib key value) (hallow : strcasecmp (ascii "ALLOW") key = false)
    (hdeny : strcasecmp (ascii "DENY") key = false) (s : IniRule) :
    loadIniRuleLine lib s { text := iniText key value, env := env } = s.setting lib env key value := by
  have hneAllow : lib.upper key ≠ ascii "ALLOW" := upper_ne hupper (by decide +kernel) hallow
  have hneDeny : lib.upper key ≠ ascii "DENY" := upper_ne hupper (by decide +kernel) hdeny
  simp only [loadIniRuleLine, hread.parsed, hneAllow, hneDeny, or_self, if_false,
    loadRuleKey_upper hupper, IniRule.setting]

theorem loadIniRuleLine_value (hupper : ∀ s, lib.upper s = s.map toUpper) {v : Bool × AclValue}
    (hread : ReadsAs lib (aclKey v.1) v.2.ini) (s : IniRule) :
    loadIniRuleLine lib s { text := iniText (aclKey v.1) v.2.ini, env := env } =
      s.iniValue lib env v := by
  rcases v with ⟨allow, value⟩
  have hkey : lib.upper (aclKey allow) = aclKey allow := by
    rw [hupper]
    cases allow <;> decide
  have hor : aclKey allow = ascii "ALLOW" ∨ aclKey allow = ascii "DENY" := by
    cases allow
    · exact .inr rfl
    · exact .inl rfl
  have hallow : decide (aclKey allow = ascii "ALLOW") = allow := by
    cases allow <;> decide
  cases hpattern : iniPattern lib env value.ini with
  | none =>
      simp only [loadIniRuleLine, hread.parsed, hkey, if_pos hor, IniRule.iniValue, hpattern]
  | some pMatchPtn =>
      simp only [loadIniRuleLine, hread.parsed, hkey, if_pos hor, hallow, IniRule.iniValue, hpattern]

theorem loadIniRuleLine_values (hupper : ∀ s, lib.upper s = s.map toUpper)
    {values : List (Bool × AclValue)}
    (hread : ∀ v ∈ values, ReadsAs lib (aclKey v.1) v.2.ini) (s : IniRule) :
    (readIni env (values.map fun v => iniText (aclKey v.1) v.2.ini)).foldl (loadIniRuleLine lib) s =
      values.foldl (IniRule.iniValue lib env) s := by
  induction values generalizing s with
  | nil => rfl
  | cons v values ih =>
      have hv := hread v List.mem_cons_self
      have hrest := ih fun w hw => hread w (List.mem_cons_of_mem _ hw)
      calc (readIni env ((v :: values).map fun v => iniText (aclKey v.1) v.2.ini)).foldl
              (loadIniRuleLine lib) s
          = (readIni env (values.map fun v => iniText (aclKey v.1) v.2.ini)).foldl
              (loadIniRuleLine lib)
              (loadIniRuleLine lib s { text := iniText (aclKey v.1) v.2.ini, env := env }) := rfl
        _ = values.foldl (IniRule.iniValue lib env) (s.iniValue lib env v) := by
              rw [loadIniRuleLine_value hupper hv, hrest]

/-- The lines of a section are read entry by entry. -/
theorem loadIniRuleLines_section {conf : ClientConf} (hconf : conf.WellFormed)
    (hback : conf.ReadsBack lib) {sec : Bool × List RuleEntry} (hsec : sec ∈ conf.sections) :
    loadIniRuleLines lib (readIni env (sec.2.flatMap RuleEntry.iniTexts)) =
      iniSection lib env sec.2 := by
  have hfold : ∀ (entries : List RuleEntry), (∀ entry ∈ entries, entry ∈ sec.2) → ∀ s,
      (readIni env (entries.flatMap RuleEntry.iniTexts)).foldl (loadIniRuleLine lib) s =
        entries.foldl (IniRule.entry lib env (IniRule.iniValue lib env)) s := by
    intro entries hentries
    induction entries with
    | nil => exact fun s => rfl
    | cons entry entries ih =>
        intro s
        have hentry := hentries entry List.mem_cons_self
        have hhead : (readIni env entry.iniTexts).foldl (loadIniRuleLine lib) s =
            IniRule.entry lib env (IniRule.iniValue lib env) s entry := by
          cases entry with
          | setting key value =>
              rcases hconf.setting sec hsec key value hentry with ⟨-, hallow, hdeny⟩
              exact loadIniRuleLine_setting hback.upper (hback.setting sec hsec key value hentry)
                hallow hdeny s
          | acl allow value => exact loadIniRuleLine_values hback.upper (hback.acl sec hsec _ hentry) s
          | aclList allow values =>
              exact loadIniRuleLine_values hback.upper (hback.acl sec hsec _ hentry) s
        rw [List.flatMap_cons, readIni, List.map_append, List.foldl_append, List.foldl_cons, ← hhead]
        exact ih (fun e he => hentries e (List.mem_cons_of_mem _ he)) _
  exact hfold sec.2 (fun _ h => h) _

end ReadIni

/-! ## The INI file as sections -/

theorem splitSections_append {body : List IniLine}
    (hbody : ∀ line ∈ body, isSectionLine line.text = false) (rest : List IniLine) :
    splitSections (body ++ rest) = (body ++ (splitSections rest).1, (splitSections rest).2) := by
  induction body with
  | nil => rfl
  | cons line body ih =>
      have hline := hbody line List.mem_cons_self
      have hrest := ih fun l hl => hbody l (List.mem_cons_of_mem _ hl)
      simp [splitSections, hline, hrest]

theorem splitSections_header {line : IniLine} (hline : isSectionLine line.text = true)
    (rest : List IniLine) :
    splitSections (line :: rest) =
      ([], { header := line, body := (splitSections rest).1 } :: (splitSections rest).2) := by
  simp [splitSections, hline]

/-- A rule section as it is read. -/
def iniSectionOf (env : LoadEnv) (sec : Bool × List RuleEntry) : IniSection :=
  { header := { text := ruleHeader sec.1, env := env }
    body := readIni env (sec.2.flatMap RuleEntry.iniTexts) }

theorem isSectionLine_ruleHeader (is_dir : Bool) : isSectionLine (ruleHeader is_dir) = true := by
  cases is_dir <;> decide

theorem splitSections_rules {lib : ConfLib} {conf : ClientConf} (hback : conf.ReadsBack lib)
    (env : LoadEnv) {secs : List (Bool × List RuleEntry)} (hsecs : ∀ sec ∈ secs, sec ∈ conf.sections) :
    splitSections (readIni env
        (secs.flatMap fun sec => ruleHeader sec.1 :: sec.2.flatMap RuleEntry.iniTexts)) =
      ([], secs.map (iniSectionOf env)) := by
  induction secs with
  | nil => rfl
  | cons sec secs ih =>
      have hrest := ih fun s hs => hsecs s (List.mem_cons_of_mem _ hs)
      -- no line of the section starts another one
      have hbody : ∀ line ∈ readIni env (sec.2.flatMap RuleEntry.iniTexts),
          isSectionLine line.text = false := by
        intro line hline
        rcases List.mem_map.1 hline with ⟨text, htext, rfl⟩
        rcases List.mem_flatMap.1 htext with ⟨entry, hentry, htext⟩
        have hsec := hsecs sec List.mem_cons_self
        cases entry with
        | setting key value =>
            obtain rfl := List.mem_singleton.1 htext
            exact (hback.setting sec hsec key value hentry).inSection
        | acl allow value =>
            rcases List.mem_map.1 htext with ⟨v, hv, rfl⟩
            exact (hback.acl sec hsec _ hentry v hv).inSection
        | aclList allow values =>
            rcases List.mem_map.1 htext with ⟨v, hv, rfl⟩
            exact (hback.acl sec hsec _ hentry v hv).inSection
      have htexts : readIni env
          ((sec :: secs).flatMap fun sec => ruleHeader sec.1 :: sec.2.flatMap RuleEntry.iniTexts) =
            { text := ruleHeader sec.1, env := env } ::
              (readIni env (sec.2.flatMap RuleEntry.iniTexts) ++ readIni env
                (secs.flatMap fun sec => ruleHeader sec.1 :: sec.2.flatMap RuleEntry.iniTexts)) := by
        simp [readIni]
      rw [htexts, splitSections_header (isSectionLine_ruleHeader sec.1), splitSections_append hbody,
        hrest, List.append_nil]
      rfl

/-- The sections of a written configuration: the main section, and the rule sections in order. -/
theorem iniSections_iniTexts {lib : ConfLib} {conf : ClientConf} (hback : conf.ReadsBack lib)
    (env : LoadEnv) :
    iniSections (readIni env conf.iniTexts) =
      { header := { text := INI_K2HFT_MAIN_SEC_STR, env := env }
        body := readIni env (conf.main.map fun p => iniText p.1 p.2) } ::
        conf.sections.map (iniSectionOf env) := by
  have hbody : ∀ line ∈ readIni env (conf.main.map fun p => iniText p.1 p.2),
      isSectionLine line.text = false := by
    intro line hline
    rcases List.mem_map.1 hline with ⟨text, htext, rfl⟩
    rcases List.mem_map.1 htext with ⟨p, hp, rfl⟩
    exact (hback.main p hp).inSection
  have htexts : readIni env conf.iniTexts =
      { text := INI_K2HFT_MAIN_SEC_STR, env := env } ::
        (readIni env (conf.main.map fun p => iniText p.1 p.2) ++ readIni env
          (conf.sections.flatMap fun sec =>
            ruleHeader sec.1 :: sec.2.flatMap RuleEntry.iniTexts)) := by
    simp [readIni, ClientConf.iniTexts]
  have hmain : isSectionLine INI_K2HFT_MAIN_SEC_STR = true := by decide
  rw [htexts, iniSections, splitSections_header hmain, splitSections_append hbody,
    splitSections_rules hback env fun sec hsec => hsec, List.append_nil]

end K2hFtFuse

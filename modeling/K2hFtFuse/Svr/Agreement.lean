import K2hFtFuse.Info.Client
import K2hFtFuse.Svr.Validity

/-!
# Svr.Agreement — one configuration of k2hftfusesvr in both formats

The configuration of k2hftfusesvr stands in the one of chmpx, so there is more in the file than the
section `K2HFTFUSESVR`. `LoadIni` goes over the lines of other sections, and `LoadYamlTopLevel` skips what
other keys of the top level have.

This file defines:
* `SvrText`: the pairs of the section, with the answers that are met while they are read,
* `OtherLines`, `OtherKeys`: what the loaders find around the section,
* `readPairs`: what the pairs do to the object.

and shows that both loaders make the same of one configuration (`loaders_agree`).
-/

namespace K2hFtFuse

open ByteSeq

/-! ## A configuration in both formats -/

/-- A key with its value, and what is met outside while it is read. -/
structure SvrPair where
  key : Bytes
  value : Bytes
  env : SvrLoadEnv

/-- The section `K2HFTFUSESVR`; `env` is met at its end. -/
structure SvrText where
  pairs : List SvrPair
  env : SvrLoadEnv

def SvrPair.line (p : SvrPair) : SvrIniLine :=
  { text := iniText p.key p.value
    env := p.env }

def SvrPair.reads (p : SvrPair) : List SvrYamlRead :=
  [{ event := .scalar p.key, env := p.env }, { event := .scalar p.value, env := p.env }]

def SvrText.read (text : SvrText) (event : YamlEvent) : SvrYamlRead :=
  { event := event
    env := text.env }

/-- As an INI file, with other lines before and after the section. -/
def SvrText.ini (text : SvrText) (before after : List SvrIniLine) : SvrConfSource :=
  .ini
    (some (before ++
      ({ text := INI_K2HFTSVR_MAIN_SEC_STR, env := text.env } :: text.pairs.map SvrPair.line ++ after)))
    text.env

/-- A stream up to the pairs, with other keys of the top level before the section. -/
def svrStart (before : List YamlEvent) : List YamlEvent :=
  [.streamStart, .documentStart, .mappingStart] ++ before ++
    [.scalar (ascii "K2HFTFUSESVR"), .mappingStart]

def svrClosing : List YamlEvent := [.mappingEnd, .documentEnd, .streamEnd]

/-- What follows the pairs, with other keys of the top level after the section. -/
def svrEnd (after : List YamlEvent) : List YamlEvent := .mappingEnd :: (after ++ svrClosing)

/-- As a YAML stream. -/
def SvrText.yaml (text : SvrText) (before after : List YamlEvent) : SvrConfSource :=
  .yaml (some ((svrStart before).map text.read ++
    (text.pairs.flatMap SvrPair.reads ++ (svrEnd after).map text.read)))

/-- Keys are not empty, and the INI lines are read as they are meant. -/
structure SvrText.ReadsBack (text : SvrText) (lib : ConfLib) : Prop where
  upper : ∀ s, lib.upper s = s.map toUpper
  pairs : ∀ p ∈ text.pairs, p.key ≠ [] ∧ ReadsAs lib p.key p.value

/-! ## What is around the section -/

/-- Lines of other sections; the first one that follows the section ends it. -/
structure OtherLines (before after : List SvrIniLine) : Prop where
  notMain : ∀ line ∈ before ++ after, line.text ≠ INI_K2HFTSVR_MAIN_SEC_STR
  header : ∀ line ∈ after.head?, isSectionLine line.text = true

/-- The events of another key with its value: `other_stack`, to which `seen` was added before, takes them
all, and is empty again with the last of them. -/
structure OtherKey (stack : YamlDataStack) (seen part : List YamlEvent) : Prop where
  key : ∃ key events, part = .scalar key :: events ∧ strcasecmp (ascii "K2HFTFUSESVR") key = false
  handled : ∀ event ∈ part, event ≠ .streamEnd ∧ event ≠ .noEvent ∧ event ≠ .aliasNode
  takes : ∀ n < part.length, stack.add (seen ++ part.take (n + 1)) = true
  opens : ∀ n < part.length, 0 < n → stack.empty (seen ++ part.take n) = false
  closes : stack.empty (seen ++ part) = true

/-- Keys with their values, one after the other. -/
inductive OtherKeys (stack : YamlDataStack) : List YamlEvent → List YamlEvent → Prop
  | nil (seen : List YamlEvent) : OtherKeys stack seen []
  | cons {seen part rest : List YamlEvent} (hpart : OtherKey stack seen part)
      (hrest : OtherKeys stack (seen ++ part) rest) : OtherKeys stack seen (part ++ rest)

/-! ## What the pairs do -/

/-- The pairs of the section, one after the other; no result where one is refused. -/
def readPairs (lib : ConfLib) : List SvrPair → SvrMainSec → Option SvrMainSec
  | [], sec => some sec
  | p :: pairs, sec =>
      match sec.loadMainKey lib p.env (fun name => strcasecmp name p.key) p.value with
      | (true, sec) => readPairs lib pairs sec
      | (false, _) => none

/-- The pairs, and then the checks. -/
def SvrText.checked (lib : ConfLib) (text : SvrText) (conf : K2hFtSvrConf) : Bool × K2hFtSvrConf :=
  let sec : SvrMainSec :=
    { conf := conf
      pPlugin := none }
  match (readPairs lib text.pairs sec).bind fun sec => sec.checkValues text.env with
  | none => (false, K2hFtSvrConf.start)
  | some conf => (true, conf)

/-- The loaders compare a key with names without lower case letters only. -/
theorem SvrMainSec.loadMainKey_congr {is is' : Bytes → Bool}
    (h : ∀ name, NoLower name → is name = is' name) (lib : ConfLib) (env : SvrLoadEnv) (value : Bytes)
    (sec : SvrMainSec) : sec.loadMainKey lib env is value = sec.loadMainKey lib env is' value := by
  unfold SvrMainSec.loadMainKey
  rw [h (ascii "TYPE") (by decide +kernel), h (ascii "FILE_BASEDIR") (by decide +kernel),
    h (ascii "FILE_UNIFY") (by decide +kernel), h (ascii "FILE_TIMEFORM") (by decide +kernel),
    h (ascii "PLUGIN") (by decide +kernel), h (ascii "FORMAT") (by decide +kernel),
    h (ascii "BINTRANS") (by decide +kernel), h (ascii "TRANSCONF") (by decide +kernel),
    h (ascii "K2HTYPE") (by decide +kernel), h (ascii "K2HFILE") (by decide +kernel),
    h (ascii "K2HFULLMAP") (by decide +kernel), h (ascii "K2HINIT") (by decide +kernel),
    h (ascii "K2HMASKBIT") (by decide +kernel), h (ascii "K2HCMASKBIT") (by decide +kernel),
    h (ascii "K2HMAXELE") (by decide +kernel), h (ascii "K2HPAGESIZE") (by decide +kernel),
    h (ascii "DTORTHREADCNT") (by decide +kernel), h (ascii "DTORCTP") (by decide +kernel)]

theorem SvrMainSec.loadMainKey_upper {lib : ConfLib} (hupper : ∀ s, lib.upper s = s.map toUpper)
    (env : SvrLoadEnv) (key value : Bytes) (sec : SvrMainSec) :
    sec.loadMainKey lib env (fun name => name == lib.upper key) value =
      sec.loadMainKey lib env (fun name => strcasecmp name key) value :=
  loadMainKey_congr (fun _ hname => beq_upper hupper hname key) lib env value sec

/-! ## `LoadIni` -/

section Ini

variable {lib : ConfLib}

/-- Before the section. -/
theorem loadSvrIniLines_before {before : List SvrIniLine}
    (hbefore : ∀ line ∈ before, line.text ≠ INI_K2HFTSVR_MAIN_SEC_STR) (rest : List SvrIniLine)
    (set_main_sec : Bool) (sec : SvrMainSec) :
    loadSvrIniLines lib (before ++ rest) false set_main_sec sec =
      loadSvrIniLines lib rest false set_main_sec sec := by
  induction before with
  | nil => rfl
  | cons line before ih =>
      have hother := hbefore line List.mem_cons_self
      have hrest := ih fun l hl => hbefore l (List.mem_cons_of_mem _ hl)
      simpa [loadSvrIniLines, hother] using hrest

/-- After the section. -/
theorem loadSvrIniLines_after {before after : List SvrIniLine} (h : OtherLines before after)
    (set_main_sec : Bool) (sec : SvrMainSec) :
    loadSvrIniLines lib after true set_main_sec sec = some sec := by
  cases after with
  | nil => rfl
  | cons line after =>
      have hsection : isSectionLine line.text = true := h.header line rfl
      have hother : ∀ l ∈ line :: after, l.text ≠ INI_K2HFTSVR_MAIN_SEC_STR :=
        fun l hl => h.notMain l (List.mem_append_right _ hl)
      have hrest : loadSvrIniLines lib (after ++ []) false set_main_sec sec = some sec :=
        loadSvrIniLines_before (fun l hl => hother l (List.mem_cons_of_mem _ hl)) [] set_main_sec sec
      rw [List.append_nil] at hrest
      simpa [loadSvrIniLines, hsection, hother line List.mem_cons_self] using hrest

/-- The pairs of the section. -/
theorem loadSvrIniLines_pairs (hupper : ∀ s, lib.upper s = s.map toUpper) {pairs : List SvrPair}
    (hpairs : ∀ p ∈ pairs, ReadsAs lib p.key p.value) (after : List SvrIniLine) (set_main_sec : Bool)
    (sec : SvrMainSec) :
    loadSvrIniLines lib (pairs.map SvrPair.line ++ after) true set_main_sec sec =
      (readPairs lib pairs sec).bind fun sec => loadSvrIniLines lib after true set_main_sec sec := by
  induction pairs generalizing sec with
  | nil => rfl
  | cons p pairs ih =>
      have hreads := hpairs p List.mem_cons_self
      have hrest := ih fun q hq => hpairs q (List.mem_cons_of_mem _ hq)
      simp only [List.map_cons, List.cons_append, SvrPair.line, loadSvrIniLines, hreads.inSection,
        Bool.not_false, Bool.and_self, if_true, hreads.parsed, SvrMainSec.loadMainKey_upper hupper,
        readPairs]
      rcases sec.loadMainKey lib p.env (fun name => strcasecmp name p.key) p.value with ⟨_ | _, sec₁⟩
      · rfl
      · exact hrest sec₁

/-- The checks come after the last line. -/
theorem loadSource_ini (text : SvrText) (hreads : text.ReadsBack lib) {before after : List SvrIniLine}
    (hothers : OtherLines before after) (stack : YamlDataStack) (conf : K2hFtSvrConf) :
    conf.loadSource lib stack (text.ini before after) =
      text.checked lib conf := by
  have hlines : ∀ sec, loadSvrIniLines lib
      (before ++ ({ text := INI_K2HFTSVR_MAIN_SEC_STR, env := text.env } ::
        text.pairs.map SvrPair.line ++ after)) false false sec = readPairs lib text.pairs sec := by
    intro sec
    rw [loadSvrIniLines_before fun l hl => hothers.notMain l (List.mem_append_left _ hl)]
    calc loadSvrIniLines lib ({ text := INI_K2HFTSVR_MAIN_SEC_STR, env := text.env } ::
            text.pairs.map SvrPair.line ++ after) false false sec
        = loadSvrIniLines lib (text.pairs.map SvrPair.line ++ after) true true sec := by
          simp [loadSvrIniLines]
      _ = (readPairs lib text.pairs sec).bind fun sec => loadSvrIniLines lib after true true sec :=
          loadSvrIniLines_pairs hreads.upper (fun p hp => (hreads.pairs p hp).2) after true sec
      _ = readPairs lib text.pairs sec := by
          simp [loadSvrIniLines_after hothers]
  simp only [SvrText.ini, K2hFtSvrConf.loadSource, K2hFtSvrConf.loadIni, hlines]
  rfl

end Ini

/-! ## `LoadYaml` -/

/-- In the mapping of the top level. -/
def YamlTop.seen (other_stack : List YamlEvent) : YamlTop :=
  { other_stack := other_stack
    in_stream := true
    in_document := true
    in_toplevel := true }

/-- Nothing is being skipped. -/
def Idle (stack : YamlDataStack) (seen : List YamlEvent) : Prop :=
  (seen.isEmpty || stack.empty seen) = true

section Yaml

variable {lib : ConfLib} {stack : YamlDataStack} {read : YamlEvent → SvrYamlRead}

theorem loadYamlEvents_cons {e : SvrYamlRead} {rest : List SvrYamlRead} {top top' : YamlTop}
    {phase phase' : SvrYamlPhase} {conf conf' : K2hFtSvrConf}
    (hstep : conf.yamlStep lib stack e.env top phase e.event = (.continue top' phase', conf')) :
    K2hFtSvrConf.loadYamlEvents lib stack (e :: rest) top phase conf =
      K2hFtSvrConf.loadYamlEvents lib stack rest top' phase' conf' := by
  rw [K2hFtSvrConf.loadYamlEvents, hstep]

/-- The first event of another key, or any event while something is skipped. -/
theorem svrYamlTopStep_skip {seen : List YamlEvent} {event : YamlEvent}
    (hhandled : event ≠ .streamEnd ∧ event ≠ .noEvent ∧ event ≠ .aliasNode)
    (hskip : (seen.isEmpty || stack.empty seen) = false ∨
      ∃ key, event = .scalar key ∧ strcasecmp (ascii "K2HFTFUSESVR") key = false)
    (hadd : stack.add (seen ++ [event]) = true) :
    svrYamlTopStep stack (.seen seen) event = .continue (.seen (seen ++ [event])) .top := by
  have htaken : K2hFtInfo.yamlSkip stack (.seen seen) event =
      .continue (.seen (seen ++ [event])) .top := by
    have hadd' : stack.add ((YamlTop.seen seen).other_stack ++ [event]) = true := hadd
    rw [K2hFtInfo.yamlSkip, if_pos hadd', if_neg hhandled.1]
    rfl
  rcases hskip with hskipping | ⟨key, rfl, hkey⟩
  · have hskipping' : (!((YamlTop.seen seen).other_stack.isEmpty ||
        stack.empty (YamlTop.seen seen).other_stack)) = true := by
      simpa [YamlTop.seen] using hskipping
    cases event with
    | noEvent => exact absurd rfl hhandled.2.1
    | aliasNode => exact absurd rfl hhandled.2.2
    | _ => simp [svrYamlTopStep, K2hFtInfo.yamlTopStep, hskipping', htaken, YamlNext.svr]
  · simp [svrYamlTopStep, htaken, hkey, YamlNext.svr]

theorem svrYamlTopStep_main {seen : List YamlEvent} (hidle : Idle stack seen) :
    svrYamlTopStep stack (.seen seen) (.scalar (ascii "K2HFTFUSESVR")) =
      .continue (.seen seen) .mainStart := by
  have hskipping : (!(seen.isEmpty || stack.empty seen)) = false := by
    rw [Bool.not_eq_false']
    exact hidle
  have hname : strcasecmp (ascii "K2HFTFUSESVR") (ascii "K2HFTFUSESVR") = true := by decide +kernel
  simp only [svrYamlTopStep, YamlTop.seen, hskipping]
  simp [hname]

variable {text : SvrText} {rest : List SvrYamlRead}

/-- The induction is on what is left of the other key. -/
theorem loadYamlEvents_otherKey {seen part : List YamlEvent} (h : OtherKey stack seen part)
    (conf : K2hFtSvrConf) :
    K2hFtSvrConf.loadYamlEvents lib stack (part.map text.read ++ rest) (.seen seen) .top conf =
      K2hFtSvrConf.loadYamlEvents lib stack rest (.seen (seen ++ part)) .top conf := by
  have hleft : ∀ post pre, part = pre ++ post →
      K2hFtSvrConf.loadYamlEvents lib stack (post.map text.read ++ rest) (.seen (seen ++ pre)) .top
          conf =
        K2hFtSvrConf.loadYamlEvents lib stack rest (.seen (seen ++ part)) .top conf := by
    intro post
    induction post with
    | nil =>
        intro pre hpart
        rw [hpart, List.append_nil]
        rfl
    | cons event post ih =>
        intro pre hpart
        have hlength : pre.length < part.length := by simp [hpart]
        have hadd : stack.add (seen ++ pre ++ [event]) = true := by
          have htakes := h.takes pre.length hlength
          have htake : part.take (pre.length + 1) = pre ++ [event] := by
            simp [hpart, List.take_append]
          rwa [htake, ← List.append_assoc] at htakes
        have hskip : ((seen ++ pre).isEmpty || stack.empty (seen ++ pre)) = false ∨
            ∃ key, event = .scalar key ∧ strcasecmp (ascii "K2HFTFUSESVR") key = false := by
          cases pre with
          | nil =>
              rcases h.key with ⟨key, events, hkey, hname⟩
              rw [hkey] at hpart
              exact .inr ⟨key, (List.cons.inj hpart).1.symm, hname⟩
          | cons first pre =>
              have hopens := h.opens (first :: pre).length hlength (by simp)
              have htake : part.take (first :: pre).length = first :: pre := by simp [hpart]
              rw [htake] at hopens
              simp [hopens]
        have hstep := svrYamlTopStep_skip (h.handled event (by simp [hpart])) hskip hadd
        have hyaml : conf.yamlStep lib stack (text.read event).env (.seen (seen ++ pre)) .top
            (text.read event).event = (.continue (.seen (seen ++ pre ++ [event])) .top, conf) :=
          congrArg (fun next => (next, conf)) hstep
        rw [List.map_cons, List.cons_append, loadYamlEvents_cons hyaml, List.append_assoc]
        exact ih (pre ++ [event]) (by simp [hpart])
  have hwhole := hleft part [] rfl
  rwa [List.append_nil] at hwhole

theorem loadYamlEvents_otherKeys {seen parts : List YamlEvent} (h : OtherKeys stack seen parts)
    (conf : K2hFtSvrConf) :
    K2hFtSvrConf.loadYamlEvents lib stack (parts.map text.read ++ rest) (.seen seen) .top conf =
      K2hFtSvrConf.loadYamlEvents lib stack rest (.seen (seen ++ parts)) .top conf := by
  induction h with
  | nil seen => simp
  | cons hpart _ ih =>
      rw [List.map_append, List.append_assoc, loadYamlEvents_otherKey hpart, ih, List.append_assoc]

theorem OtherKeys.idle {seen parts : List YamlEvent} (h : OtherKeys stack seen parts)
    (hidle : Idle stack seen) : Idle stack (seen ++ parts) := by
  induction h with
  | nil seen => rwa [List.append_nil]
  | cons hpart _ ih =>
      rw [← List.append_assoc]
      refine ih ?_
      rw [Idle, hpart.closes, Bool.or_true]

/-- The pairs of the section. -/
theorem loadYamlEvents_pairs {pairs : List SvrPair} (hpairs : ∀ p ∈ pairs, p.key ≠ []) (top : YamlTop)
    (sec : SvrMainSec) :
    K2hFtSvrConf.loadYamlEvents lib stack (pairs.flatMap SvrPair.reads ++ rest) top
        (.main [] sec.pPlugin) sec.conf =
      match readPairs lib pairs sec with
      | none => (false, K2hFtSvrConf.start)
      | some sec =>
          K2hFtSvrConf.loadYamlEvents lib stack rest top (.main [] sec.pPlugin) sec.conf := by
  induction pairs generalizing sec with
  | nil => rfl
  | cons p pairs ih =>
      have hkey := hpairs p List.mem_cons_self
      have hrest := ih fun q hq => hpairs q (List.mem_cons_of_mem _ hq)
      have hname : sec.conf.yamlStep lib stack p.env top (.main [] sec.pPlugin) (.scalar p.key) =
          (.continue top (.main p.key sec.pPlugin), sec.conf) := by
        simp [K2hFtSvrConf.yamlStep, K2hFtSvrConf.yamlMainStep]
      simp only [List.flatMap_cons, SvrPair.reads, List.cons_append, List.nil_append]
      rw [loadYamlEvents_cons hname]
      simp only [K2hFtSvrConf.loadYamlEvents, K2hFtSvrConf.yamlStep, K2hFtSvrConf.yamlMainStep,
        if_neg hkey, readPairs]
      rcases sec.loadMainKey lib p.env (fun name => strcasecmp name p.key) p.value with ⟨_ | _, sec₁⟩
      · rfl
      · exact hrest sec₁

theorem loadYamlEvents_closing {seen : List YamlEvent} (hidle : Idle stack seen) (conf : K2hFtSvrConf) :
    K2hFtSvrConf.loadYamlEvents lib stack (svrClosing.map text.read) (.seen seen) .top conf =
      (true, conf) := by
  have hskipping : ¬ (seen ≠ [] ∧ stack.empty seen = false) := by
    rintro ⟨hseen, hempty⟩
    rw [Idle, hempty, Bool.or_false, List.isEmpty_iff] at hidle
    exact hseen hidle
  simp [svrClosing, K2hFtSvrConf.loadYamlEvents, K2hFtSvrConf.yamlStep, SvrText.read, svrYamlTopStep,
    K2hFtInfo.yamlTopStep, YamlTop.seen, YamlNext.svr, hskipping]

/-- The checks come at the end of the section, and nothing that follows undoes them. -/
theorem loadYamlEvents_end {before after : List YamlEvent} (hidle : Idle stack before)
    (hafter : OtherKeys stack before after) (sec : SvrMainSec) :
    K2hFtSvrConf.loadYamlEvents lib stack ((svrEnd after).map text.read) (.seen before)
        (.main [] sec.pPlugin) sec.conf =
      match sec.checkValues text.env with
      | none => (false, K2hFtSvrConf.start)
      | some conf => (true, conf) := by
  simp only [svrEnd, List.map_cons, K2hFtSvrConf.loadYamlEvents, K2hFtSvrConf.yamlStep,
    K2hFtSvrConf.yamlMainStep, SvrText.read]
  cases hcheck : sec.checkValues text.env with
  | none => rfl
  | some conf =>
      have hlast := hafter.idle hidle
      change K2hFtSvrConf.loadYamlEvents lib stack ((after ++ svrClosing).map text.read)
        (.seen before) .top conf = _
      rw [List.map_append, loadYamlEvents_otherKeys hafter, loadYamlEvents_closing hlast]

/-- The checks come after the last pair. -/
theorem loadSource_yaml (text : SvrText) (hpairs : ∀ p ∈ text.pairs, p.key ≠ [])
    {before after : List YamlEvent} (hbefore : OtherKeys stack [] before)
    (hafter : OtherKeys stack before after) (conf : K2hFtSvrConf) :
    conf.loadSource lib stack (text.yaml before after) = text.checked lib conf := by
  have hidle : Idle stack before := hbefore.idle rfl
  have hstart : ∀ rest, K2hFtSvrConf.loadYamlEvents lib stack ((svrStart before).map text.read ++ rest)
      YamlTop.fresh .top conf =
      K2hFtSvrConf.loadYamlEvents lib stack rest (.seen before) (.main [] none) conf := by
    intro rest
    calc K2hFtSvrConf.loadYamlEvents lib stack ((svrStart before).map text.read ++ rest)
            YamlTop.fresh .top conf
        = K2hFtSvrConf.loadYamlEvents lib stack (before.map text.read ++
            (text.read (.scalar (ascii "K2HFTFUSESVR")) :: text.read .mappingStart :: rest))
            (.seen []) .top conf := by
          simp [svrStart]
          rfl
      _ = K2hFtSvrConf.loadYamlEvents lib stack
            (text.read (.scalar (ascii "K2HFTFUSESVR")) :: text.read .mappingStart :: rest)
            (.seen before) .top conf := loadYamlEvents_otherKeys hbefore conf
      _ = K2hFtSvrConf.loadYamlEvents lib stack (text.read .mappingStart :: rest) (.seen before)
            .mainStart conf :=
          loadYamlEvents_cons (congrArg (fun next => (next, conf)) (svrYamlTopStep_main hidle))
      _ = K2hFtSvrConf.loadYamlEvents lib stack rest (.seen before) (.main [] none) conf := rfl
  simp only [SvrText.yaml, K2hFtSvrConf.loadSource, K2hFtSvrConf.loadYaml, hstart]
  rw [loadYamlEvents_pairs hpairs (.seen before) { conf := conf, pPlugin := none }, SvrText.checked]
  cases hread : readPairs lib text.pairs { conf := conf, pPlugin := none } with
  | none => rfl
  | some sec => exact loadYamlEvents_end hidle hafter sec

end Yaml

/-! ## Both formats -/

/-- Whatever other sections and keys are around it, a configuration is accepted in both formats or in none,
and the object is the same afterwards but for the name of the configuration. -/
theorem K2hFtSvrConf.loaders_agree (lib : ConfLib) (stack : YamlDataStack) (text : SvrText)
    (hreads : text.ReadsBack lib) {lines lines' : List SvrIniLine} (hlines : OtherLines lines lines')
    {keys keys' : List YamlEvent} (hkeys : OtherKeys stack [] keys) (hkeys' : OtherKeys stack keys keys')
    {config config' : Bytes} (hconfig : config ≠ []) (hconfig' : config' ≠ []) (conf : K2hFtSvrConf) :
    conf.load lib stack config' (text.yaml keys keys') =
      match conf.load lib stack config (text.ini lines lines') with
      | (true, loaded) => (true, { loaded with Config := config' })
      | (false, failed) => (false, failed) := by
  have hini := loadSource_ini text hreads hlines stack conf
  have hyaml : conf.loadSource lib stack (text.yaml keys keys') = text.checked lib conf :=
    loadSource_yaml text (fun p hp => (hreads.pairs p hp).1) hkeys hkeys' conf
  unfold K2hFtSvrConf.load
  rw [if_neg hconfig, if_neg hconfig', hini, hyaml]
  cases conf.isLoad with
  | true => rfl
  | false =>
      rcases text.checked lib conf with ⟨_ | _, loaded⟩
      · rfl
      · rfl

/-- Output to files in `/out`. -/
def fileText : SvrText :=
  { pairs :=
      [{ key := ascii "type", value := ascii "file", env := plainSvrEnv },
       { key := ascii "FILE_BASEDIR", value := ascii "/out", env := plainSvrEnv }]
    env := plainSvrEnv }

/-- A section of chmpx. -/
def globalLines : List SvrIniLine :=
  [{ text := ascii "[GLOBAL]", env := plainSvrEnv },
   { text := iniText (ascii "TYPE") (ascii "none"), env := plainSvrEnv }]

def globalKey : List YamlEvent :=
  [.scalar (ascii "GLOBAL"), .mappingStart, .scalar (ascii "TYPE"), .scalar (ascii "none"), .mappingEnd]

/-- A stack for keys whose values are mappings. -/
def mappingStack : YamlDataStack :=
  { add := fun _ => true
    empty := fun events => events.getLast? == some .mappingEnd &&
      events.count .mappingStart == events.count .mappingEnd }

theorem otherKey_globalKey {seen : List YamlEvent} (h : seen = [] ∨ seen = globalKey) :
    OtherKey mappingStack seen globalKey := by
  refine ⟨⟨_, _, rfl, by decide +kernel⟩, by decide, fun _ _ => rfl, ?_, ?_⟩
  · rcases h with rfl | rfl <;> decide
  · rcases h with rfl | rfl <;> decide

theorem loaders_agree_fileText :
    (K2hFtSvrConf.start.load plainLib mappingStack (ascii "/etc/k2hft.ini")
        (fileText.ini globalLines globalLines)).1 = true ∧
      K2hFtSvrConf.start.load plainLib mappingStack (ascii "/etc/k2hft.yaml")
          (fileText.yaml globalKey globalKey) =
        match K2hFtSvrConf.start.load plainLib mappingStack (ascii "/etc/k2hft.ini")
            (fileText.ini globalLines globalLines) with
        | (true, loaded) => (true, { loaded with Config := ascii "/etc/k2hft.yaml" })
        | (false, failed) => (false, failed) := by
  have hreads : fileText.ReadsBack plainLib := by
    refine ⟨fun _ => rfl, ?_⟩
    intro p hp
    simp only [fileText, List.mem_cons, List.not_mem_nil, or_false] at hp
    rcases hp with rfl | rfl <;> exact ⟨by decide, by decide, by decide +kernel⟩
  have hkeys : OtherKeys mappingStack [] (globalKey ++ []) := .cons (otherKey_globalKey (.inl rfl)) (.nil _)
  have hkeys' : OtherKeys mappingStack globalKey (globalKey ++ []) :=
    .cons (otherKey_globalKey (.inr rfl)) (.nil _)
  have hlines : OtherLines globalLines globalLines := ⟨by decide, by decide⟩
  have hini : ascii "/etc/k2hft.ini" ≠ [] := by decide
  have hyaml : ascii "/etc/k2hft.yaml" ≠ [] := by decide
  refine ⟨by decide +kernel, ?_⟩
  exact K2hFtSvrConf.loaders_agree plainLib mappingStack fileText hreads hlines hkeys hkeys'
    hini hyaml K2hFtSvrConf.start

end K2hFtFuse

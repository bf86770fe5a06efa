import K2hFtFuse.Info.Failed

/-!
# Info.RuleEvents — `LoadYamlRuleSec` over any sequence of events

The calls of `LoadYamlRuleSec`, `LoadYamlAclPart` and `LoadYamlAclOneValue` read events until the
sequence ends, an event is refused or the parser fails. A value for the current rule that comes while
no mapping is open is written through a null pointer: the loop looks at the pending key alone.

This file defines:
* `loadYamlRuleSec`: the events from the key of a rule section to the return of the call,
* `RuleWalk`: where the calls stand, as the events alone tell it,
* `RuleWalk.proper`: no event of the walk is such a value.

Behind a rule key the call returns exactly for the proper sequences at whose end
`InitializeOutputFiles` returns (`loadYamlRuleSec_sound_iff`).
-/

namespace K2hFtFuse

open ByteSeq SpinLock Outcome

/-! ## The call -/

namespace K2hFtInfo

/-- `LoadYamlRuleSec` up to its return to `LoadYamlMainSec`, which returns as well when it gets
false; with the events that are left. -/
def loadYamlRuleSec (lib : ConfLib) (stack : YamlDataStack) (args : LoadArgs) (env : LoadEnv) :
    List YamlRead → YamlTop → YamlPhase → K2hFtInfo →
      Except Stop (Bool × List YamlRead × K2hFtInfo)
  | [], _, phase, info => do
      -- the parser fails to give the next event
      let (result, info) ← info.yamlParseError env phase
      return (result, [], info)
  | read :: rest, top, phase, info =>
      match yamlStep lib stack args read.env top phase read.event info with
      | .error e => .error e
      | .ok (.done result, info) => .ok (result, rest, info)
      | .ok (.continue top phase, info) =>
          if inRule phase then loadYamlRuleSec lib stack args env rest top phase info
          else .ok (true, rest, info)

/-- The events that the call reads, with where it stands. -/
def ruleTrace (lib : ConfLib) (stack : YamlDataStack) (args : LoadArgs) :
    List YamlRead → YamlTop → YamlPhase → K2hFtInfo → List YamlAt
  | [], _, _, _ => []
  | read :: rest, top, phase, info =>
      { read := read, phase := phase, info := info } ::
        match yamlStep lib stack args read.env top phase read.event info with
        | .ok (.continue top phase, info) =>
            if inRule phase then ruleTrace lib stack args rest top phase info else []
        | _ => []

/-- Where the YAML loader stands after some events, if it goes on. -/
def yamlAfter (lib : ConfLib) (stack : YamlDataStack) (args : LoadArgs) :
    List YamlRead → YamlTop → YamlPhase → K2hFtInfo → Option (YamlTop × YamlPhase × K2hFtInfo)
  | [], top, phase, info => some (top, phase, info)
  | read :: rest, top, phase, info =>
      match yamlStep lib stack args read.env top phase read.event info with
      | .ok (.continue top phase, info) => yamlAfter lib stack args rest top phase info
      | _ => none

end K2hFtInfo

/-- The event makes the loop use the current rule. -/
def YamlAt.usesRule (lib : ConfLib) (p : YamlAt) : Bool :=
  match p.phase, p.read.event with
  | .rule sec, .mappingEnd => sec.in_mapping
  | .rule sec, .scalar value =>
      sec.key != [] && K2hFtInfo.touchesRule lib (fun name => strcasecmp name sec.key) value
  | _, _ => false

/-- The mapping of a rule is open. -/
def YamlAt.inMapping (p : YamlAt) : Bool :=
  match p.phase with
  | .rule sec => sec.in_mapping
  | .acl _ sec _ => sec.in_mapping
  | _ => false

/-- The call returns, and it uses the current rule only while a mapping is open. -/
structure RuleSecSound (lib : ConfLib) (stack : YamlDataStack) (args : LoadArgs) (env : LoadEnv)
    (events : List YamlRead) (top : YamlTop) (info : K2hFtInfo) : Prop where
  returns : ∃ result, K2hFtInfo.loadYamlRuleSec lib stack args env events top .ruleStart info =
    .ok result
  guarded : ∀ p ∈ K2hFtInfo.ruleTrace lib stack args events top .ruleStart info,
    p.usesRule lib = true → p.inMapping = true

/-! ## The walk over the events -/

/-- Where the calls stand: before the sequence, in it with the pending key, and in `LoadYamlAclPart`
and `LoadYamlAclOneValue`. -/
inductive RuleWalk
  | start
  | rule (in_mapping : Bool) (key : Bytes)
  | part (in_mapping in_parent_sequence : Bool)
  | first (in_mapping : Bool)
  | second (in_mapping : Bool)
  | last (in_mapping : Bool)
  deriving DecidableEq

namespace RuleWalk

/-- Where an event leads, unless `LoadYamlRuleSec` returns. -/
def next : RuleWalk → YamlEvent → Option RuleWalk
  | .start, .sequenceStart => some (.rule false [])
  | .rule false key, .mappingStart => some (.rule true key)
  | .rule true key, .mappingEnd => some (.rule false key)
  | .rule in_mapping key, .scalar value =>
      if key = [] then
        if strcasecmp (ascii "ALLOW") value ∨ strcasecmp (ascii "DENY") value then
          some (.part in_mapping false)
        else
          some (.rule in_mapping value)
      else
        some (.rule in_mapping [])
  | .part in_mapping false, .scalar _ => some (.rule in_mapping [])
  | .part in_mapping true, .scalar _ => some (.part in_mapping true)
  | .part in_mapping false, .sequenceStart => some (.part in_mapping true)
  | .part in_mapping true, .sequenceStart => some (.first in_mapping)
  | .part in_mapping true, .sequenceEnd => some (.rule in_mapping [])
  | .first in_mapping, .scalar _ => some (.second in_mapping)
  | .second in_mapping, .scalar _ => some (.last in_mapping)
  | .last in_mapping, .sequenceEnd => some (.part in_mapping true)
  | _, _ => none

/-- A value for the current rule while no mapping is open. -/
def strays (lib : ConfLib) : RuleWalk → YamlEvent → Bool
  | .rule false key, .scalar value =>
      key != [] && K2hFtInfo.touchesRule lib (fun name => strcasecmp name key) value
  | _, _ => false

/-- No event of the walk is a stray value. -/
def proper (lib : ConfLib) : RuleWalk → List YamlEvent → Bool
  | _, [] => true
  | w, event :: rest =>
      !w.strays lib event &&
        match w.next event with
        | none => true
        | some w => w.proper lib rest

end RuleWalk

/-- The place in the walk of a phase of the rule section. -/
def YamlPhase.walk : YamlPhase → RuleWalk
  | .rule sec => .rule sec.in_mapping sec.key
  | .acl _ sec (.part in_parent_sequence) => .part sec.in_mapping in_parent_sequence
  | .acl _ sec .first => .first sec.in_mapping
  | .acl _ sec (.second _) => .second sec.in_mapping
  | .acl _ sec .last => .last sec.in_mapping
  | _ => .start

/-- In a rule section there is a current rule exactly while a mapping is open, and no key is pending
while a filter is read. -/
def YamlPhase.Tidy : YamlPhase → Prop
  | .ruleStart => True
  | .rule sec => sec.pTmpRule.isSome = sec.in_mapping
  | .acl _ sec _ => sec.pTmpRule.isSome = sec.in_mapping ∧ sec.key = []
  | _ => False

/-- A use of the current rule outside of a mapping is a stray value. -/
theorem YamlAt.inMapping_of_usesRule {lib : ConfLib} {p : YamlAt} (huses : p.usesRule lib = true)
    (hnot : p.phase.walk.strays lib p.read.event = false) : p.inMapping = true := by
  rcases p with ⟨⟨event, env⟩, phase, info⟩
  cases phase with
  | rule sec =>
      cases event with
      | mappingEnd =>
          exact huses
      | scalar value =>
          cases hopen : sec.in_mapping with
          | true =>
              exact hopen
          | false =>
              -- outside of a mapping, `strays` asks for the same key and value
              simp only [YamlPhase.walk, hopen, RuleWalk.strays] at hnot
              simp only [usesRule] at huses
              rw [huses] at hnot
              cases hnot
      | _ =>
          simp [usesRule] at huses
  | _ =>
      simp [usesRule] at huses

namespace K2hFtInfo

/-! ## One event -/

/-- Nobody holds the lock, and no rule was deleted. -/
structure Free (info : K2hFtInfo) : Prop where
  prule_lockval : info.prule_lockval = false
  freedRules : info.freedRules = []

/-- What one event of a rule section can do. -/
inductive RuleDid (lib : ConfLib) (args : LoadArgs) (top : YamlTop) (p : YamlAt) :
    Except Stop (YamlNext × K2hFtInfo) → Prop
  | fault (hstray : p.phase.walk.strays lib p.read.event = true) :
      RuleDid lib args top p (.error .fault)
  | goesOn {phase' : YamlPhase} {info' : K2hFtInfo}
      (hnot : p.phase.walk.strays lib p.read.event = false) (hend : p.endsRules = false)
      (hnext : p.phase.walk.next p.read.event = some phase'.walk) (hrule : inRule phase' = true)
      (htidy : phase'.Tidy) (hfree : info'.Free) :
      RuleDid lib args top p (.ok (.continue top phase', info'))
  | refused {info' : K2hFtInfo} (hnot : p.phase.walk.strays lib p.read.event = false)
      (hend : p.endsRules = false) (hnext : p.phase.walk.next p.read.event = none) :
      RuleDid lib args top p (.ok (.done false, info'))
  | ends {info' : K2hFtInfo} {result : Bool} (hnot : p.phase.walk.strays lib p.read.event = false)
      (hend : p.endsRules = true) (hnext : p.phase.walk.next p.read.event = none)
      (houtputs : p.outputs args = some result) :
      RuleDid lib args top p (.ok (.continue top (.main []), info'))
  | throws {e : Stop} (hnot : p.phase.walk.strays lib p.read.event = false)
      (hend : p.endsRules = true) (hnext : p.phase.walk.next p.read.event = none)
      (houtputs : p.outputs args = none) :
      RuleDid lib args top p (.error e)

section Step

variable {lib : ConfLib} {stack : YamlDataStack} {args : LoadArgs} {env : LoadEnv} {top : YamlTop}
  {event : YamlEvent} {info : K2hFtInfo}

theorem Free.cleaned (h : info.Free) (now : Option Timespec) : (info.cleaned now).Free :=
  ⟨rfl, h.freedRules⟩

theorem Free.clean (h : info.Free) (now : Option Timespec) :
    info.clean now = .ok (info.cleaned now) :=
  clean_eq_cleaned h.prule_lockval h.freedRules now

theorem Free.failYamlMain (h : info.Free) (env : LoadEnv) (n : Nat) :
    info.failYamlMain env n = .ok (.done false, info.cleaned (env.now n)) := by
  rw [K2hFtInfo.failYamlMain, h.clean]
  rfl

theorem Free.failYamlRule (h : info.Free) (env : LoadEnv) :
    info.failYamlRule env = .ok (.done false, (info.cleaned (env.now 0)).cleaned (env.now 1)) := by
  rw [K2hFtInfo.failYamlRule, h.clean]
  exact (h.cleaned (env.now 0)).failYamlMain env 1

theorem pushMatch_walk (is_key_allow : Bool) (sec : YamlRule) (pMatchPtn : Option K2hFtMatchPtn) :
    (pushMatch is_key_allow sec pMatchPtn).in_mapping = sec.in_mapping ∧
      (pushMatch is_key_allow sec pMatchPtn).key = sec.key ∧
      (pushMatch is_key_allow sec pMatchPtn).pTmpRule = sec.pTmpRule := by
  unfold pushMatch
  split
  · exact ⟨rfl, rfl, rfl⟩
  · split
    · exact ⟨rfl, rfl, rfl⟩
    · exact ⟨rfl, rfl, rfl⟩

theorem yamlAclStep_ruleDid {is_key_allow : Bool} {sec : YamlRule} {phase : YamlAclPhase}
    (htidy : (YamlPhase.acl is_key_allow sec phase).Tidy) (hfree : info.Free) :
    RuleDid lib args top ⟨⟨event, env⟩, .acl is_key_allow sec phase, info⟩
      (yamlAclStep env top is_key_allow sec phase event info) := by
  rcases htidy with ⟨hopen, hkey⟩
  have hpush : ∀ ptn, (pushMatch is_key_allow sec ptn).pTmpRule.isSome =
      (pushMatch is_key_allow sec ptn).in_mapping ∧ (pushMatch is_key_allow sec ptn).key = [] := by
    intro ptn
    rcases pushMatch_walk is_key_allow sec ptn with ⟨hmapping, hkey', hrule⟩
    rw [hmapping, hkey', hrule]
    exact ⟨hopen, hkey⟩
  -- no event strays here: the ACL parts write to the filter lists alone
  have hstray : ∀ event, (YamlPhase.acl is_key_allow sec phase).walk.strays lib event = false := by
    intro event
    cases phase <;> rfl
  -- the ways an event can go: it is refused, it keeps the lists, adds to them, or ends the part
  have hrefuse : (YamlPhase.acl is_key_allow sec phase).walk.next event = none →
      RuleDid lib args top ⟨⟨event, env⟩, .acl is_key_allow sec phase, info⟩
        (info.failYamlRule env) := by
    intro hnext
    rw [hfree.failYamlRule]
    exact .refused (hstray event) rfl hnext
  have hkeeps : ∀ phase', (YamlPhase.acl is_key_allow sec phase).walk.next event =
      some (YamlPhase.acl is_key_allow sec phase').walk →
      RuleDid lib args top ⟨⟨event, env⟩, .acl is_key_allow sec phase, info⟩
        (.ok (.continue top (.acl is_key_allow sec phase'), info)) := by
    intro phase' hnext
    exact .goesOn (hstray event) rfl hnext rfl ⟨hopen, hkey⟩ hfree
  have hpushes : ∀ ptn phase', (YamlPhase.acl is_key_allow sec phase).walk.next event =
      some (YamlPhase.acl is_key_allow sec phase').walk →
      RuleDid lib args top ⟨⟨event, env⟩, .acl is_key_allow sec phase, info⟩
        (.ok (.continue top (.acl is_key_allow (pushMatch is_key_allow sec ptn) phase'), info)) := by
    intro ptn phase' hnext
    refine .goesOn (hstray event) rfl (hnext.trans ?_) rfl (hpush ptn) hfree
    cases phase' <;> simp [YamlPhase.walk, pushMatch_walk]
  have hreturns : ∀ sec' : YamlRule, sec'.in_mapping = sec.in_mapping → sec'.key = [] →
      sec'.pTmpRule.isSome = sec'.in_mapping →
      (YamlPhase.acl is_key_allow sec phase).walk.next event = some (.rule sec.in_mapping []) →
      RuleDid lib args top ⟨⟨event, env⟩, .acl is_key_allow sec phase, info⟩
        (.ok (.continue top (.rule sec'), info)) := by
    intro sec' hmapping hkey' hopen' hnext
    refine .goesOn (hstray event) rfl (hnext.trans ?_) rfl hopen' hfree
    rw [YamlPhase.walk, hmapping, hkey']
  cases phase with
  | part in_parent_sequence =>
      cases in_parent_sequence <;> cases event
      case false.scalar value =>
        exact hreturns _ (pushMatch_walk _ _ _).1 (hpush _).2 (hpush _).1 rfl
      case false.sequenceStart => exact hkeeps (.part true) rfl
      case true.scalar value => exact hpushes _ (.part true) rfl
      case true.sequenceStart => exact hkeeps .first rfl
      case true.sequenceEnd => exact hreturns sec rfl hkey hopen rfl
      all_goals exact hrefuse rfl
  | first =>
      cases event
      case scalar value => exact hkeeps (.second value) rfl
      all_goals exact hrefuse rfl
  | second firstvalue =>
      cases event
      case scalar value => exact hpushes _ .last rfl
      all_goals exact hrefuse rfl
  | last =>
      cases event
      case sequenceEnd => exact hkeeps (.part true) rfl
      all_goals exact hrefuse rfl

theorem yamlRuleScalar_ruleDid {sec : YamlRule} {value : Bytes}
    (htidy : sec.pTmpRule.isSome = sec.in_mapping) (hfree : info.Free) :
    RuleDid lib args top ⟨⟨.scalar value, env⟩, .rule sec, info⟩
      (yamlRuleScalar lib env top sec value info) := by
  have hnext : (YamlPhase.rule sec).walk.next (.scalar value) =
      if sec.key = [] then
        if strcasecmp (ascii "ALLOW") value ∨ strcasecmp (ascii "DENY") value then
          some (.part sec.in_mapping false)
        else
          some (.rule sec.in_mapping value)
      else
        some (.rule sec.in_mapping []) := by
    rw [YamlPhase.walk]
    cases sec.in_mapping <;> rfl
  unfold yamlRuleScalar
  by_cases hkey : sec.key = []
  · -- a key
    have hnot : (YamlPhase.rule sec).walk.strays lib (.scalar value) = false := by
      simp only [YamlPhase.walk, hkey]
      cases sec.in_mapping <;> rfl
    rw [if_pos hkey] at hnext ⊢
    split
    · -- `ALLOW` and `DENY` open a filter
      rename_i hacl
      rw [if_pos hacl] at hnext
      exact .goesOn hnot rfl hnext rfl ⟨htidy, hkey⟩ hfree
    · rename_i hacl
      rw [if_neg hacl] at hnext
      exact .goesOn hnot rfl hnext rfl htidy hfree
  · -- a value
    rw [if_neg hkey] at hnext ⊢
    cases hrule : sec.pTmpRule with
    | none =>
        rw [hrule] at htidy
        have hclosed : sec.in_mapping = false := htidy.symm
        have hstray : (YamlPhase.rule sec).walk.strays lib (.scalar value) =
            touchesRule lib (fun name => strcasecmp name sec.key) value := by
          simp [YamlPhase.walk, hclosed, RuleWalk.strays, hkey]
        simp only
        split
        · rename_i htouches
          exact .fault (hstray.trans htouches)
        · rename_i htouches
          refine .goesOn (hstray.trans (Bool.eq_false_iff.2 htouches)) rfl hnext rfl ?_ hfree
          simp [YamlPhase.Tidy, hclosed]
    | some pTmpRule =>
        rw [hrule] at htidy
        have hopen : sec.in_mapping = true := htidy.symm
        have hnot : (YamlPhase.rule sec).walk.strays lib (.scalar value) = false := by
          simp [YamlPhase.walk, hopen, RuleWalk.strays]
        exact .goesOn hnot rfl hnext rfl hopen.symm hfree

/-- The end of the sequence while no mapping is open. -/
theorem yamlSequenceEnd_ruleDid {sec : YamlRule} (hclosed : sec.in_mapping = false)
    (hfree : info.Free) :
    RuleDid lib args top ⟨⟨.sequenceEnd, env⟩, .rule sec, info⟩
      (yamlRuleStep lib args env top sec .sequenceEnd info) := by
  have hend : YamlAt.endsRules ⟨⟨.sequenceEnd, env⟩, .rule sec, info⟩ = true := by
    simp [YamlAt.endsRules, hclosed]
  have hnot : (YamlPhase.rule sec).walk.strays lib .sequenceEnd = false := by
    simp [YamlPhase.walk, hclosed, RuleWalk.strays]
  have hnext : (YamlPhase.rule sec).walk.next .sequenceEnd = none := by
    simp [YamlPhase.walk, hclosed, RuleWalk.next]
  simp only [yamlRuleStep, hclosed, Bool.false_eq_true, if_false]
  cases houtputs : info.initializeOutputFiles args env with
  -- `InitializeOutputFiles` is left by a throw
  | error e =>
      exact .throws hnot hend hnext (by simp [YamlAt.outputs, houtputs, Except.toOption])
  | ok answer =>
      rcases answer with ⟨result, info₁⟩
      have hdone : YamlAt.outputs args ⟨⟨.sequenceEnd, env⟩, .rule sec, info⟩ = some result := by
        simp [YamlAt.outputs, houtputs, Except.toOption]
      rcases initializeOutputFiles_eq_ok houtputs with ⟨hlock, -, -, hfreed, -⟩
      have hfree₁ : info₁.Free := ⟨hlock.trans hfree.prule_lockval, hfreed⟩
      cases result with
      | false =>
          -- the call returns true although the object was cleaned
          simp only [Bind.bind, Except.bind, hfree₁.clean]
          exact .ends hnot hend hnext hdone
      | true =>
          -- no rule was deleted, so the loop over them reads none that is freed
          have hbinary : ∃ info₂, info₁.checkBinaryMode = .ok info₂ := by
            unfold checkBinaryMode derefAll
            rw [if_pos hfreed]
            split
            · exact ⟨_, rfl⟩
            · exact ⟨_, rfl⟩
          rcases hbinary with ⟨info₂, hbinary⟩
          simp only [Bind.bind, Except.bind, hbinary]
          exact .ends hnot hend hnext hdone

theorem yamlRuleStep_ruleDid {sec : YamlRule} (htidy : sec.pTmpRule.isSome = sec.in_mapping)
    (hfree : info.Free) :
    RuleDid lib args top ⟨⟨event, env⟩, .rule sec, info⟩
      (yamlRuleStep lib args env top sec event info) := by
  have hrefuse : (YamlPhase.rule sec).walk.strays lib event = false →
      YamlAt.endsRules ⟨⟨event, env⟩, .rule sec, info⟩ = false →
      (YamlPhase.rule sec).walk.next event = none →
      RuleDid lib args top ⟨⟨event, env⟩, .rule sec, info⟩ (info.failYamlRule env) := by
    intro hnot hend hnext
    rw [hfree.failYamlRule]
    exact .refused hnot hend hnext
  cases event with
  | mappingStart =>
      cases hopen : sec.in_mapping with
      | true =>
          simp only [yamlRuleStep, hopen, if_true]
          exact hrefuse (by simp [YamlPhase.walk, hopen, RuleWalk.strays]) rfl
            (by simp [YamlPhase.walk, hopen, RuleWalk.next])
      | false =>
          simp only [yamlRuleStep, hopen, Bool.false_eq_true, if_false]
          exact .goesOn (by simp [YamlPhase.walk, hopen, RuleWalk.strays]) rfl
            (by simp [YamlPhase.walk, hopen, RuleWalk.next]) rfl rfl hfree
  | mappingEnd =>
      cases hopen : sec.in_mapping with
      | false =>
          simp only [yamlRuleStep, hopen, Bool.not_false, if_true]
          exact hrefuse (by simp [YamlPhase.walk, hopen, RuleWalk.strays]) rfl
            (by simp [YamlPhase.walk, hopen, RuleWalk.next])
      | true =>
          -- there is a current rule while a mapping is open
          rw [hopen] at htidy
          rcases Option.isSome_iff_exists.1 htidy with ⟨pTmpRule, hrule⟩
          simp only [yamlRuleStep, hopen, Bool.not_true, Bool.false_eq_true, if_false, hrule]
          refine .goesOn (by simp [YamlPhase.walk, hopen, RuleWalk.strays]) rfl
            (by simp [YamlPhase.walk, hopen, RuleWalk.next]) rfl rfl ⟨hfree.prule_lockval, ?_⟩
          simp [register, act, setRule, hfree.freedRules]
  | sequenceEnd =>
      cases hopen : sec.in_mapping with
      | true =>
          simp only [yamlRuleStep, hopen, if_true]
          exact hrefuse (by simp [YamlPhase.walk, hopen, RuleWalk.strays])
            (by simp [YamlAt.endsRules, hopen]) (by simp [YamlPhase.walk, hopen, RuleWalk.next])
      | false =>
          exact yamlSequenceEnd_ruleDid hopen hfree
  | scalar value =>
      exact yamlRuleScalar_ruleDid htidy hfree
  -- no other event is allowed in the sequence
  | noEvent | streamStart | streamEnd | documentStart | documentEnd | sequenceStart | aliasNode =>
      cases hopen : sec.in_mapping <;>
        exact hrefuse (by simp [YamlPhase.walk, hopen, RuleWalk.strays]) rfl
          (by simp [YamlPhase.walk, hopen, RuleWalk.next])

/-- One event, wherever the calls stand. -/
theorem yamlStep_ruleDid {phase : YamlPhase} (htidy : phase.Tidy) (hfree : info.Free) :
    RuleDid lib args top ⟨⟨event, env⟩, phase, info⟩
      (yamlStep lib stack args env top phase event info) := by
  cases phase with
  | top | mainStart | main =>
      exact htidy.elim
  | ruleStart =>
      simp only [yamlStep]
      -- behind the key there has to be a sequence
      by_cases hstart : event = .sequenceStart
      · rw [if_pos hstart, hstart]
        exact .goesOn rfl rfl rfl rfl rfl hfree
      · rw [if_neg hstart, hfree.failYamlMain]
        refine .refused ?_ rfl ?_
        · cases event <;> rfl
        · cases event
          case sequenceStart => exact absurd rfl hstart
          all_goals rfl
  | rule sec =>
      exact yamlRuleStep_ruleDid htidy hfree
  | acl is_key_allow sec aclPhase =>
      exact yamlAclStep_ruleDid htidy hfree

/-! ## The whole call -/

theorem yamlParseError_returns {phase : YamlPhase} (htidy : phase.Tidy) (hfree : info.Free) :
    ∃ info', info.yamlParseError env phase = .ok (false, info') := by
  cases phase with
  | top | mainStart | main =>
      exact htidy.elim
  -- the object is cleaned by the main section alone, or by the rule section first
  | ruleStart =>
      exact ⟨_, by simp only [yamlParseError, hfree.clean, Bind.bind, Except.bind]; rfl⟩
  | rule | acl =>
      exact ⟨_, by
        simp only [yamlParseError, hfree.clean, (hfree.cleaned _).clean, Bind.bind, Except.bind]
        rfl⟩

/-- The call returns exactly if no value strays and the outputs are prepared without a throw. -/
theorem loadYamlRuleSec_returns_iff {events : List YamlRead} {phase : YamlPhase}
    (htidy : phase.Tidy) (hfree : info.Free) :
    (∃ result, loadYamlRuleSec lib stack args env events top phase info = .ok result) ↔
      phase.walk.proper lib (events.map (·.event)) = true ∧
        ∀ p ∈ ruleTrace lib stack args events top phase info, p.endsRules = true →
          p.outputs args ≠ none := by
  induction events generalizing phase info with
  | nil =>
      rcases @yamlParseError_returns env info phase htidy hfree with ⟨info', herror⟩
      refine iff_of_true ⟨(false, [], info'), ?_⟩ ⟨rfl, fun p hp => by cases hp⟩
      simp only [loadYamlRuleSec, herror, Bind.bind, Except.bind]
      rfl
  | cons read rest ih =>
      have hdid := @yamlStep_ruleDid lib stack args read.env top read.event info phase htidy hfree
      simp only [loadYamlRuleSec, ruleTrace, List.map_cons, RuleWalk.proper, Bool.and_eq_true,
        Bool.not_eq_true']
      generalize yamlStep lib stack args read.env top phase read.event info = outcome at hdid ⊢
      cases hdid with
      -- the call does not return, and the events are not proper
      | fault hstray =>
          simp only at hstray
          simp [hstray]
      | goesOn hnot hend hnext hrule htidy' hfree' =>
          simp only at hnot hnext
          simp only [hrule, if_true, hnot, hnext, true_and, List.forall_mem_cons, hend,
            Bool.false_eq_true, false_implies]
          exact ih htidy' hfree'
      -- the call returns false, and no later event counts
      | refused hnot hend hnext =>
          simp only at hnot hnext
          simp [hnot, hnext, hend]
      | ends hnot hend hnext houtputs =>
          simp only at hnot hnext
          simp [hnot, hnext, houtputs, inRule]
      | throws hnot hend hnext houtputs =>
          simp only at hnot hnext
          simp [hnot, hnext, hend, houtputs]

/-- Without a stray value the current rule is used only while a mapping is open. -/
theorem inMapping_of_proper {events : List YamlRead} {phase : YamlPhase} (htidy : phase.Tidy)
    (hfree : info.Free) (hproper : phase.walk.proper lib (events.map (·.event)) = true) :
    ∀ p ∈ ruleTrace lib stack args events top phase info, p.usesRule lib = true →
      p.inMapping = true := by
  induction events generalizing phase info with
  | nil =>
      intro p hp
      cases hp
  | cons read rest ih =>
      have hdid := @yamlStep_ruleDid lib stack args read.env top read.event info phase htidy hfree
      simp only [List.map_cons, RuleWalk.proper, Bool.and_eq_true, Bool.not_eq_true'] at hproper
      rcases hproper with ⟨hnot, hrest⟩
      simp only [ruleTrace, List.forall_mem_cons]
      constructor
      · -- a use outside of a mapping is a stray value
        exact fun huses => YamlAt.inMapping_of_usesRule huses hnot
      · generalize yamlStep lib stack args read.env top phase read.event info = outcome at hdid ⊢
        cases hdid with
        | goesOn hnot hend hnext hrule htidy' hfree' =>
            simp only at hnext
            simp only [hnext] at hrest
            simp only [hrule, if_true]
            exact ih htidy' hfree' hrest
        | fault | refused | throws =>
            intro p hp
            cases hp
        | ends =>
            intro p hp
            simp [inRule] at hp

/-! ## Behind a rule key -/

/-- While a load goes on, nobody holds the lock and no rule is deleted. -/
theorem free_of_yamlAfter {events : List YamlRead} {phase phase' : YamlPhase} {top' : YamlTop}
    {info' : K2hFtInfo} {reads : List LoadRead} (h : Left lib reads info)
    (hafter : yamlAfter lib stack args events top phase info = some (top', phase', info')) :
    info'.Free := by
  induction events generalizing top phase info reads with
  | nil =>
      simp only [yamlAfter, Option.some.injEq, Prod.mk.injEq] at hafter
      rw [← hafter.2.2]
      exact ⟨h.settled.idle.1, h.settled.idle.2⟩
  | cons read rest ih =>
      simp only [yamlAfter] at hafter
      split at hafter
      · -- each step of the load leaves the object idle
        rename_i hstep
        exact ih (yamlStep_leaves h hstep) hafter
      · cases hafter

/-- The events before `events` have led the load of a new object into `LoadYamlRuleSec`. -/
def EntersRuleSec (lib : ConfLib) (stack : YamlDataStack) (args : LoadArgs) (now : Option Timespec)
    (before : List YamlRead) (top : YamlTop) (info : K2hFtInfo) : Prop :=
  yamlAfter lib stack args before YamlTop.fresh .top (start now) = some (top, .ruleStart, info)

/-- Behind a rule key the call returns, and uses no rule outside of a mapping, exactly for the
sequences of events without a stray value at whose end `InitializeOutputFiles` returns. -/
theorem loadYamlRuleSec_sound_iff {now : Option Timespec} {before : List YamlRead}
    (henters : EntersRuleSec lib stack args now before top info) (events : List YamlRead)
    (env : LoadEnv) :
    RuleSecSound lib stack args env events top info ↔
      RuleWalk.start.proper lib (events.map (·.event)) = true ∧
        ∀ p ∈ ruleTrace lib stack args events top .ruleStart info, p.endsRules = true →
          p.outputs args ≠ none := by
  have hfree := free_of_yamlAfter (left_start lib now) henters
  have htidy : YamlPhase.ruleStart.Tidy := trivial
  constructor
  · intro h
    exact (loadYamlRuleSec_returns_iff htidy hfree).1 h.returns
  · intro h
    exact ⟨(loadYamlRuleSec_returns_iff htidy hfree).2 h, inMapping_of_proper htidy hfree h.1⟩

end Step

/-! ## The call as part of the load -/

section Load

variable {lib : ConfLib} {stack : YamlDataStack} {args : LoadArgs} {top : YamlTop}
  {info : K2hFtInfo}

/-- `LoadYamlMainSec` goes on with the events that the call leaves. -/
theorem loadYamlEvents_eq_ruleSec (env : LoadEnv) (events : List YamlRead) {phase : YamlPhase}
    (htidy : phase.Tidy) (hfree : info.Free) :
    loadYamlEvents lib stack args env events top phase info =
      match loadYamlRuleSec lib stack args env events top phase info with
      | .error e => .error e
      | .ok (false, _, info) => .ok (false, info)
      | .ok (true, rest, info) => loadYamlEvents lib stack args env rest top (.main []) info := by
  induction events generalizing phase info with
  | nil =>
      rcases @yamlParseError_returns env info phase htidy hfree with ⟨info', herror⟩
      simp only [loadYamlEvents, loadYamlRuleSec, herror, Bind.bind, Except.bind]
      rfl
  | cons read rest ih =>
      have hdid := @yamlStep_ruleDid lib stack args read.env top read.event info phase htidy hfree
      simp only [loadYamlRuleSec, loadYamlEvents]
      generalize yamlStep lib stack args read.env top phase read.event info = outcome at hdid ⊢
      cases hdid with
      | fault | throws =>
          rfl
      | goesOn hnot hend hnext hrule htidy' hfree' =>
          simp only [hrule, if_true]
          exact ih htidy' hfree'
      | refused =>
          rfl
      | ends =>
          rfl

end Load

/-- The events up to the key of the rules. -/
def beforeRules : List YamlRead :=
  ([.streamStart, .documentStart, .mappingStart, .scalar (ascii "K2HFTFUSE"), .mappingStart,
    .scalar (ascii "K2HFTFUSE_RULE")] : List YamlEvent).map fun event =>
      { event := event, env := plainEnv }

/-- Inside the `K2HFTFUSE` mapping. -/
def insideTop : YamlTop :=
  { other_stack := []
    in_stream := true
    in_document := true
    in_toplevel := true }

/-- A mapping with a target, in a sequence. -/
def oneMapping : List YamlRead :=
  ([.sequenceStart, .mappingStart, .scalar (ascii "TARGET"), .scalar (ascii "log/a"), .mappingEnd,
    .sequenceEnd] : List YamlEvent).map fun event => { event := event, env := plainEnv }

theorem loadYamlRuleSec_sound_iff_oneMapping :
    RuleSecSound plainLib plainStack plainArgs plainEnv oneMapping insideTop (start none) := by
  have henters : EntersRuleSec plainLib plainStack plainArgs none beforeRules insideTop
      (start none) := by
    unfold EntersRuleSec
    decide +kernel
  refine (loadYamlRuleSec_sound_iff henters oneMapping plainEnv).2 ⟨?_, ?_⟩
  · decide +kernel
  · decide +kernel

/-- A target that stands in the sequence itself. -/
def strayTarget : List YamlRead :=
  ([.sequenceStart, .scalar (ascii "TARGET"), .scalar (ascii "log/a"), .sequenceEnd] :
    List YamlEvent).map fun event => { event := event, env := plainEnv }

theorem strayTarget_faults :
    ¬ ∀ (lib : ConfLib) (stack : YamlDataStack) (args : LoadArgs) (now : Option Timespec)
      (before : List YamlRead) (top : YamlTop) (info : K2hFtInfo),
      EntersRuleSec lib stack args now before top info →
        ∀ events env, RuleSecSound lib stack args env events top info := by
  intro hall
  have henters : EntersRuleSec plainLib plainStack plainArgs none beforeRules insideTop
      (start none) := by
    unfold EntersRuleSec
    decide +kernel
  rcases (hall _ _ _ _ _ _ _ henters strayTarget plainEnv).returns with ⟨result, hreturns⟩
  have hfault : (loadYamlRuleSec plainLib plainStack plainArgs plainEnv strayTarget insideTop
      .ruleStart (start none)).toOption.isNone = true := by
    decide +kernel
  rw [hreturns] at hfault
  cases hfault

end K2hFtInfo

end K2hFtFuse

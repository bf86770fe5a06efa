import K2hFtFuse.Info.Ini

/-!
# Info.Yaml — `LoadYaml` and `Load`

The YAML loader reads one event after the other from `libyaml`. Where it stands is the call that it is
in: `LoadYamlTopLevel`, in it `LoadYamlMainSec`, in that `LoadYamlRuleSec` and in that
`LoadYamlAclPart`. A step is what happens with one event. The stream ends with an event of its own, or
`yaml_parser_parse` fails.
-/

namespace K2hFtFuse

open ByteSeq SpinLock

/-! ## Events -/

/-- `yaml_event_t`, with the value of a scalar as a C string. -/
inductive YamlEvent
  | noEvent
  | streamStart
  | streamEnd
  | documentStart
  | documentEnd
  | mappingStart
  | mappingEnd
  | sequenceStart
  | sequenceEnd
  | scalar (value : Bytes)
  | aliasNode
  deriving DecidableEq

/-- An event with what is met outside while it is handled. -/
structure YamlRead where
  event : YamlEvent
  env : LoadEnv

/-- `CHMYamlDataStack` of `libchmpx`, by the events that were added to it so far: whether it takes the
last one, and whether it is empty after it. -/
structure YamlDataStack where
  add : List YamlEvent → Bool
  empty : List YamlEvent → Bool

/-- A stack that takes every event and is not empty again. -/
def plainStack : YamlDataStack :=
  { add := fun _ => true
    empty := fun _ => false }

/-! ## Where the loader stands -/

/-- The local variables of `LoadYamlTopLevel`; `is_set_main` never changes. -/
structure YamlTop where
  other_stack : List YamlEvent
  in_stream : Bool
  in_document : Bool
  in_toplevel : Bool
  deriving DecidableEq

def YamlTop.fresh : YamlTop :=
  { other_stack := []
    in_stream := false
    in_document := false
    in_toplevel := false }

/-- The local variables of `LoadYamlRuleSec`, with what the open mapping says about lines. -/
structure YamlRule where
  in_mapping : Bool
  pTmpRule : Option K2hFtRule
  AllowMatchs : List K2hFtMatchPtn
  DenyMatchs : List K2hFtMatchPtn
  key : Bytes
  acl : List AclEntry
  deriving DecidableEq

def YamlRule.fresh : YamlRule :=
  { in_mapping := false
    pTmpRule := none
    AllowMatchs := []
    DenyMatchs := []
    key := []
    acl := [] }

/-- Where `LoadYamlAclPart` stands, and in it `LoadYamlAclOneValue`: before its first value, before
its second one, before the end of its sequence. -/
inductive YamlAclPhase
  | part (in_parent_sequence : Bool)
  | first
  | second (firstvalue : Bytes)
  | last
  deriving DecidableEq

inductive YamlPhase
  | top
  | mainStart
  | main (key : Bytes)
  | ruleStart
  | rule (sec : YamlRule)
  | acl (is_key_allow : Bool) (sec : YamlRule) (phase : YamlAclPhase)
  deriving DecidableEq

/-- What comes after an event. -/
inductive YamlNext
  | continue (top : YamlTop) (phase : YamlPhase)
  | done (result : Bool)
  deriving DecidableEq

namespace K2hFtInfo

/-! ## Failures -/

/-- `LoadYamlMainSec` cleans and returns false. -/
def failYamlMain (env : LoadEnv) (n : Nat) (info : K2hFtInfo) : Except Stop (YamlNext × K2hFtInfo) :=
  do
    let info ← info.clean (env.now n)
    return (.done false, info)

/-- `LoadYamlRuleSec` cleans and returns false to `LoadYamlMainSec`. -/
def failYamlRule (env : LoadEnv) (info : K2hFtInfo) : Except Stop (YamlNext × K2hFtInfo) := do
  let info ← info.clean (env.now 0)
  info.failYamlMain env 1

/-! ## Rule sections -/

/-- The pattern of an `ALLOW` or `DENY` value that is a scalar or a pair. -/
def yamlPattern (env : LoadEnv) (firstvalue secondvalue : Bytes) : Option K2hFtMatchPtn :=
  if firstvalue = [] then some K2hFtMatchPtn.any
  else buildMatchPattern env.regcomp firstvalue secondvalue

/-- A pattern is put into the list that the key chose: the key was cleared before it is compared with
`ALLOW`, so this is `DenyMatchs`. -/
def pushMatch (is_key_allow : Bool) (sec : YamlRule) (pMatchPtn : Option K2hFtMatchPtn) : YamlRule :=
  match pMatchPtn with
  | none => sec
  | some pMatchPtn =>
      if strcasecmp (ascii "ALLOW") [] then
        { sec with
          AllowMatchs := sec.AllowMatchs ++ [pMatchPtn]
          acl := sec.acl ++ [.pattern is_key_allow pMatchPtn] }
      else
        { sec with
          DenyMatchs := sec.DenyMatchs ++ [pMatchPtn]
          acl := sec.acl ++ [.pattern is_key_allow pMatchPtn] }

/-- An event in `LoadYamlAclPart`. -/
def yamlAclStep (env : LoadEnv) (top : YamlTop) (is_key_allow : Bool) (sec : YamlRule)
    (phase : YamlAclPhase) (event : YamlEvent) (info : K2hFtInfo) :
    Except Stop (YamlNext × K2hFtInfo) :=
  match phase, event with
  | .part false, .scalar value =>
      .ok (.continue top (.rule (pushMatch is_key_allow sec (yamlPattern env value []))), info)
  | .part true, .scalar value =>
      .ok (.continue top
        (.acl is_key_allow (pushMatch is_key_allow sec (yamlPattern env value [])) (.part true)), info)
  | .part false, .sequenceStart => .ok (.continue top (.acl is_key_allow sec (.part true)), info)
  | .part true, .sequenceStart => .ok (.continue top (.acl is_key_allow sec .first), info)
  | .part true, .sequenceEnd => .ok (.continue top (.rule sec), info)
  | .first, .scalar value => .ok (.continue top (.acl is_key_allow sec (.second value)), info)
  | .second firstvalue, .scalar value =>
      .ok (.continue top
        (.acl is_key_allow (pushMatch is_key_allow sec (yamlPattern env firstvalue value)) .last),
          info)
  | .last, .sequenceEnd => .ok (.continue top (.acl is_key_allow sec (.part true)), info)
  | _, _ => info.failYamlRule env

/-- Whether a key with its value writes to the current rule. -/
def touchesRule (lib : ConfLib) (is : Bytes → Bool) (value : Bytes) : Bool :=
  if is (ascii "TARGET") then true
  else if is (ascii "TRUNS") then (yesNo lib value).isSome
  else if is (ascii "OUTPUTFILE") then true
  else if is (ascii "PLUGIN") then true
  else if is (ascii "DEFAULTALL") then
    lib.upper value == ascii "DENY" || lib.upper value == ascii "ALLOW"
  else false

/-- A scalar in `LoadYamlRuleSec`. -/
def yamlRuleScalar (lib : ConfLib) (env : LoadEnv) (top : YamlTop) (sec : YamlRule) (value : Bytes)
    (info : K2hFtInfo) : Except Stop (YamlNext × K2hFtInfo) :=
  if sec.key = [] then
    -- the key of a filter is not kept, its part begins at once
    if strcasecmp (ascii "ALLOW") value ∨ strcasecmp (ascii "DENY") value then
      .ok (.continue top (.acl (strcasecmp (ascii "ALLOW") value) sec (.part false)), info)
    else
      .ok (.continue top (.rule { sec with key := value }), info)
  else
    match sec.pTmpRule with
    | none =>
        -- the rule that the value is written to is NULL
        if touchesRule lib (fun name => strcasecmp name sec.key) value then
          .error .fault
        else
          .ok (.continue top (.rule { sec with key := [] }), info)
    | some pTmpRule =>
        let (pTmpRule, said) :=
          loadRuleKey lib env (fun name => strcasecmp name sec.key) value pTmpRule
        .ok (.continue top
          (.rule
            { sec with
              pTmpRule := some pTmpRule
              key := []
              acl := sec.acl ++ said }), info)

/-- An event in the loop of `LoadYamlRuleSec`. -/
def yamlRuleStep (lib : ConfLib) (args : LoadArgs) (env : LoadEnv) (top : YamlTop) (sec : YamlRule)
    (event : YamlEvent) (info : K2hFtInfo) : Except Stop (YamlNext × K2hFtInfo) :=
  match event with
  | .mappingStart =>
      if sec.in_mapping then
        info.failYamlRule env
      else
        .ok (.continue top
          (.rule
            { sec with
              in_mapping := true
              pTmpRule := some K2hFtRule.fresh
              AllowMatchs := []
              DenyMatchs := []
              acl := [] }), info)
  | .mappingEnd =>
      if !sec.in_mapping then
        info.failYamlRule env
      else
        match sec.pTmpRule with
        | none => .error .fault
        | some pTmpRule =>
            -- `is_dir_rule` was computed from a key that had been cleared
            let is_dir_rule := strcasecmp (ascii "K2HFTFUSE_RULE_DIR") []
            let rule :=
              finishRule args is_dir_rule info.InitTime pTmpRule sec.AllowMatchs sec.DenyMatchs
            .ok (.continue top
              (.rule
                { sec with
                  in_mapping := false
                  pTmpRule := none
                  AllowMatchs := []
                  DenyMatchs := []
                  acl := [] }), info.register sec.acl rule)
  | .sequenceEnd =>
      if sec.in_mapping then
        info.failYamlRule env
      else do
        let (result, info) ← info.initializeOutputFiles args env
        if !result then
          -- everything is gone, but the result stays true
          let info ← info.clean (env.now 0)
          return (.continue top (.main []), info)
        else
          let info ← info.checkBinaryMode
          return (.continue top (.main []), info)
  | .scalar value => info.yamlRuleScalar lib env top sec value
  | _ => info.failYamlRule env

/-! ## The main section -/

/-- An event in the loop of `LoadYamlMainSec`. -/
def yamlMainStep (lib : ConfLib) (env : LoadEnv) (top : YamlTop) (key : Bytes) (event : YamlEvent)
    (info : K2hFtInfo) : Except Stop (YamlNext × K2hFtInfo) :=
  match event with
  | .mappingEnd =>
      if info.mainValuesOk then .ok (.continue top .top, info) else info.failYamlMain env 0
  | .scalar value =>
      if key = [] then
        -- both keys begin a list of rules
        if strcasecmp (ascii "K2HFTFUSE_RULE_DIR") value ∨
            strcasecmp (ascii "K2HFTFUSE_RULE") value then
          .ok (.continue top .ruleStart, info)
        else
          .ok (.continue top (.main value), info)
      else
        match info.loadMainKey lib env (fun name => strcasecmp name key) value with
        | (true, info) => .ok (.continue top (.main []), info)
        | (false, info) => info.failYamlMain env 0
  | _ => info.failYamlMain env 0

/-! ## The top level -/

/-- `other_stack.add` with what follows from its result. -/
def yamlSkip (stack : YamlDataStack) (top : YamlTop) (event : YamlEvent) : YamlNext :=
  if stack.add (top.other_stack ++ [event]) then
    if event = .streamEnd then .done true
    else .continue { top with other_stack := top.other_stack ++ [event] } .top
  else
    .done false

/-- An event in `LoadYamlTopLevel`. -/
def yamlTopStep (stack : YamlDataStack) (top : YamlTop) (event : YamlEvent) : YamlNext :=
  let skipping := !(top.other_stack.isEmpty || stack.empty top.other_stack)
  -- while a part is skipped, every event of it goes to `other_stack`
  match event with
  | .noEvent => .continue top .top
  | .aliasNode => .continue top .top
  | .streamStart =>
      if skipping || top.in_stream then yamlSkip stack top event
      else .continue { top with in_stream := true } .top
  | .streamEnd => if skipping || !top.in_stream then yamlSkip stack top event else .done true
  | .documentStart =>
      if skipping || !top.in_stream || top.in_document then yamlSkip stack top event
      else .continue { top with in_document := true } .top
  | .documentEnd =>
      if skipping || !top.in_document then yamlSkip stack top event
      else .continue { top with in_document := false } .top
  | .mappingStart =>
      if skipping || !top.in_stream || !top.in_document || top.in_toplevel then
        yamlSkip stack top event
      else .continue { top with in_toplevel := true } .top
  | .mappingEnd =>
      if skipping || !top.in_toplevel then yamlSkip stack top event
      else .continue { top with in_toplevel := false } .top
  | .sequenceStart => yamlSkip stack top event
  | .sequenceEnd => yamlSkip stack top event
  | .scalar value =>
      if skipping || !top.in_stream || !top.in_document || !top.in_toplevel then
        yamlSkip stack top event
      else if strcasecmp (ascii "K2HFTFUSE") value then .continue top .mainStart
      else yamlSkip stack top event

/-- One event. -/
def yamlStep (lib : ConfLib) (stack : YamlDataStack) (args : LoadArgs) (env : LoadEnv)
    (top : YamlTop) (phase : YamlPhase) (event : YamlEvent) (info : K2hFtInfo) :
    Except Stop (YamlNext × K2hFtInfo) :=
  match phase with
  | .top => .ok (yamlTopStep stack top event, info)
  | .mainStart =>
      if event = .mappingStart then .ok (.continue top (.main []), info) else .ok (.done false, info)
  | .main key => info.yamlMainStep lib env top key event
  | .ruleStart =>
      if event = .sequenceStart then .ok (.continue top (.rule YamlRule.fresh), info)
      else info.failYamlMain env 0
  | .rule sec => info.yamlRuleStep lib args env top sec event
  | .acl is_key_allow sec aclPhase => info.yamlAclStep env top is_key_allow sec aclPhase event

/-- `yaml_parser_parse` fails. -/
def yamlParseError (env : LoadEnv) (phase : YamlPhase) (info : K2hFtInfo) :
    Except Stop (Bool × K2hFtInfo) :=
  match phase with
  | .top | .mainStart => .ok (false, info)
  | .main _ | .ruleStart => do
      let info ← info.clean (env.now 0)
      return (false, info)
  | .rule _ | .acl _ _ _ => do
      -- the rule section cleans, and then the main section
      let info ← info.clean (env.now 0)
      let info ← info.clean (env.now 1)
      return (false, info)

/-- `LoadYamlTopLevel` from where the loader stands; `env` is met when the parser fails after the
last event. -/
def loadYamlEvents (lib : ConfLib) (stack : YamlDataStack) (args : LoadArgs) (env : LoadEnv) :
    List YamlRead → YamlTop → YamlPhase → Op K2hFtInfo Bool
  | [], _, phase, info => info.yamlParseError env phase
  | read :: rest, top, phase, info =>
      match yamlStep lib stack args read.env top phase read.event info with
      | .error e => .error e
      | .ok (.done result, info) => .ok (result, info)
      | .ok (.continue top phase, info) => loadYamlEvents lib stack args env rest top phase info

/-- `LoadYaml`; there are no events when the parser cannot be set up or the file not be opened. -/
def loadYaml (lib : ConfLib) (stack : YamlDataStack) (args : LoadArgs) (config : Bytes)
    (events : Option (List YamlRead)) (env : LoadEnv) : Op K2hFtInfo Bool := fun info =>
  match events with
  | none => return (false, info)
  | some events => do
      let (result, info) ← loadYamlEvents lib stack args env events YamlTop.fresh .top info
      if result then
        return (true, info.setLoaded args config)
      else
        return (false, info)

/-! ## Both loaders -/

end K2hFtInfo

/-- A configuration: what `check_chmconf_type` tells it to be, with what the loader reads of it and
what is met outside at its end. -/
inductive ConfSource
  | unknown
  | ini (lines : Option (List IniLine)) (env : LoadEnv)
  | yaml (events : Option (List YamlRead)) (env : LoadEnv)

/-- `Load`. -/
def K2hFtInfo.load (lib : ConfLib) (stack : YamlDataStack) (args : LoadArgs) (config : Bytes)
    (source : ConfSource) : Op K2hFtInfo Bool := fun info =>
  match source with
  | .unknown => return (false, info)
  | .ini lines env => info.loadIni lib args config lines env
  | .yaml events env => info.loadYaml lib stack args config events env

end K2hFtFuse

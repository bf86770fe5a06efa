import K2hFtFuse.Lib.Transition
import K2hFtFuse.WriteBuff

/-!
# Manage.Concurrent — pushes, closes and the timeup worker as steps

`K2hFtManage` with any number of callers of `Push` and `Close` and with the timeup worker. A step is
what happens between two lock operations:

- a call looks its buffer up under `wstack_lockval`;
- it fills the input buffer of its process;
- it stacks each finished block under `stack_lockval`;
- it asks `IsStackLimit`, without and then with the lock;
- it pops the whole stack under `stack_lockval`;
- it gives the popped value to `K2hFtInfo::Processing`.

The worker holds `wstack_lockval` while it walks over the handles and processes its values later.
-/

namespace K2hFtFuse

open ByteSeq

/-! ## States -/

/-- A line on a stack, with the identity of its memory block. -/
structure StackedLine where
  serial : Nat
  line : K2hFtLine
  deriving DecidableEq

/-- A value is the list of the lines it was built from. -/
abbrev Value := List StackedLine

/-- The `K2hFtWriteBuff` of a handle in a running system. -/
structure HandleBuff where
  InputBuffMap : OrdMap Pid K2hFtBinBuff
  Stack : Value
  deriving DecidableEq

def HandleBuff.fresh : HandleBuff :=
  { InputBuffMap := ∅
    Stack := [] }

/-- What a call does after its blocks are stacked: return, check the limits, or pop at once. -/
inductive AfterStack
  | finish
  | check
  | force
  deriving DecidableEq

/-- Where a call of `Push` or `Close` stands. -/
inductive Phase
  | idle
  | input (filehandle : UInt64) (data : Bytes) (pid : Pid) (isForce : Bool)
  | stacking (filehandle : UInt64) (blocks : List (Pid × Bytes)) (after : AfterStack)
  | check (filehandle : UInt64)
  | recheck (filehandle : UInt64)
  | pop (filehandle : UInt64)
  | process (filehandle : UInt64) (value : Value)
  deriving DecidableEq

/-- Where `TimeupWorkerProc` stands; `rest` are the handles that its walk has not reached. -/
inductive WorkerPhase
  | sleeping
  | scanning (rest : List UInt64)
  | rechecking (filehandle : UInt64) (rest : List UInt64)
  | popping (filehandle : UInt64) (rest : List UInt64)
  | delivering
  | exited
  deriving DecidableEq

/-- The worker holds `wstack_lockval`. -/
def WorkerPhase.locks : WorkerPhase → Bool
  | .scanning _ => true
  | .rechecking _ _ => true
  | .popping _ _ => true
  | _ => false

/-- The settings that do not change while clients run. -/
structure ManageConf where
  limits : BuffLimits
  IsBinaryMode : Bool
  cvtPushData : UInt64 → (Nat → UInt8) → Bytes → Option Bytes

def ManageConf.sink (conf : ManageConf) (filehandle : UInt64) : LineSink :=
  { limits := conf.limits
    cvtPushData := conf.cvtPushData filehandle }

/-- The state of `K2hFtManage`, its callers and its worker, with the history of what was offered to
the rules, appended to stacks, popped and given to `Processing`. -/
structure Manage where
  wbstackmap : OrdMap UInt64 HandleBuff
  clients : OrdMap Nat Phase
  worker : WorkerPhase
  valmap : OrdMap UInt64 Value
  run_thread : Bool
  offered : List (UInt64 × Pid × Bytes)
  appended : List (UInt64 × StackedLine)
  popped : List (UInt64 × Value)
  processed : List (UInt64 × Value)

namespace Manage

/-- After `Initialize`: the worker is started when the limits ask for it, and returns at once when
there is no timeup. -/
def start (conf : ManageConf) : Manage :=
  let run_thread := decide (DEFAULT_LINE_MAX < conf.limits.StackLineMax) ||
    decide (DEFAULT_TIMEUP < conf.limits.StackTimeup)
  { wbstackmap := ∅
    clients := ∅
    worker :=
      if run_thread && decide (0 < conf.limits.StackTimeup) then .sleeping else .exited
    valmap := ∅
    run_thread := run_thread
    offered := []
    appended := []
    popped := []
    processed := [] }

def phaseOf (s : Manage) (c : Nat) : Phase := (s.clients.find? c).getD .idle

def setPhase (s : Manage) (c : Nat) (p : Phase) : Manage :=
  { s with clients := s.clients.insert c p }

def setBuff (s : Manage) (filehandle : UInt64) (w : HandleBuff) : Manage :=
  { s with wbstackmap := s.wbstackmap.insert filehandle w }

def dropBuff (s : Manage) (filehandle : UInt64) : Manage :=
  { s with wbstackmap := s.wbstackmap.erase filehandle }

def stackOf (s : Manage) (filehandle : UInt64) : Value :=
  ((s.wbstackmap.find? filehandle).map HandleBuff.Stack).getD []

/-! ## The steps that calls and the worker share -/

/-- `StackPush` of one block: the rule is asked, and the line it makes is stacked. -/
def stackBlock (conf : ManageConf) (env : StackEnv) (s : Manage) (filehandle : UInt64) (pid : Pid)
    (block : Bytes) : Manage :=
  match s.wbstackmap.find? filehandle with
  | none => s
  | some w =>
      if block = [] then
        s
      else
        let asked := { s with offered := s.offered ++ [(filehandle, pid, block)] }
        match stackLine (conf.sink filehandle) env block pid with
        -- no rule takes the block
        | none => asked
        | some pLine =>
            let l : StackedLine :=
              { serial := s.appended.length
                line := pLine }
            { asked with
              wbstackmap := s.wbstackmap.insert filehandle { w with Stack := w.Stack ++ [l] }
              appended := s.appended ++ [(filehandle, l)] }

/-- `Pop`: the whole stack; the empty value is NULL. -/
def popStack (s : Manage) (filehandle : UInt64) : Value × Manage :=
  match s.wbstackmap.find? filehandle with
  | none => ([], s)
  | some w =>
      if w.Stack = [] then
        ([], s)
      else
        (w.Stack,
          { s with
            wbstackmap := s.wbstackmap.insert filehandle { w with Stack := [] }
            popped := s.popped ++ [(filehandle, w.Stack)] })

/-- `K2hFtInfo::Processing` of a value. -/
def process (s : Manage) (filehandle : UInt64) (value : Value) : Manage :=
  { s with processed := s.processed ++ [(filehandle, value)] }

/-! ## A call -/

/-- What a caller does: begin a call, or take the next step of the call it is in. -/
inductive CallEvent
  | push (filehandle : UInt64) (data : Bytes) (pid : Pid)
  | close (filehandle : UInt64) (pid : Pid)
  | next (env : PushEnv) (now : Int64)

/-- `K2hFtWriteBuff::Push` up to the stack. -/
def fillInput (conf : ManageConf) (env : PushEnv) (s : Manage) (c : Nat) (filehandle : UInt64)
    (data : Bytes) (pid : Pid) (isForce : Bool) : Option Manage := do
  let w ← s.wbstackmap.find? filehandle
  let (result, bufs, blocks) ← pushBlocks conf.limits conf.IsBinaryMode env w.InputBuffMap data pid
  -- a failed push returns before the limits are looked at
  let after := if result then (if isForce then AfterStack.force else .check) else .finish
  return (s.setBuff filehandle { w with InputBuffMap := bufs }).setPhase c
    (.stacking filehandle blocks after)

/-- The next step of a call. -/
def callNext (conf : ManageConf) (env : PushEnv) (now : Int64) (s : Manage) (c : Nat) :
    Phase → Option Manage
  | .idle => none
  | .input filehandle data pid isForce => fillInput conf env s c filehandle data pid isForce
  | .stacking filehandle ((pid, block) :: rest) after =>
      some ((stackBlock conf (env.line 0) s filehandle pid block).setPhase c
        (.stacking filehandle rest after))
  | .stacking _ [] .finish => some (s.setPhase c .idle)
  | .stacking filehandle [] .check => some (s.setPhase c (.check filehandle))
  | .stacking filehandle [] .force => some (s.setPhase c (.pop filehandle))
  | .check filehandle =>
      -- `IsStackLimit` without the lock, then with it
      if stackLimitFast conf.limits (s.stackOf filehandle).length then
        some (s.setPhase c (.pop filehandle))
      else
        some (s.setPhase c (.recheck filehandle))
  | .recheck filehandle =>
      if stackLimitLocked conf.limits now ((s.stackOf filehandle).map StackedLine.line) then
        some (s.setPhase c (.pop filehandle))
      else
        some (s.setPhase c .idle)
  | .pop filehandle =>
      let (value, s) := s.popStack filehandle
      if value = [] then some (s.setPhase c .idle)
      else some (s.setPhase c (.process filehandle value))
  | .process filehandle value => some ((s.process filehandle value).setPhase c .idle)

/-- A step of caller `c`. A call begins with the lookup, under the lock. -/
def callStep (conf : ManageConf) (s : Manage) (c : Nat) : CallEvent → Option Manage
  | .push filehandle data pid =>
      if s.phaseOf c = .idle ∧ s.worker.locks = false then
        let s :=
          match s.wbstackmap.find? filehandle with
          | some _ => s
          | none => s.setBuff filehandle HandleBuff.fresh
        some (s.setPhase c (.input filehandle data pid false))
      else
        none
  | .close filehandle pid =>
      if s.phaseOf c = .idle ∧ s.worker.locks = false then
        match s.wbstackmap.find? filehandle with
        -- `Close` of a handle without a buffer succeeds at once
        | none => some s
        | some _ => some (s.setPhase c (.input filehandle [] pid true))
      else
        none
  | .next env now => callNext conf env now s c (s.phaseOf c)

/-! ## The worker -/

/-- The next step of `TimeupWorkerProc`. -/
def workerStep (conf : ManageConf) (now : Int64) (s : Manage) : WorkerPhase → Option Manage
  | .sleeping =>
      some { s with
        worker := if s.run_thread then .scanning s.wbstackmap.keys else .exited }
  | .scanning [] => some { s with worker := .delivering }
  | .scanning (filehandle :: rest) =>
      if s.run_thread then
        if stackLimitFast conf.limits (s.stackOf filehandle).length then
          some { s with worker := .popping filehandle rest }
        else
          some { s with worker := .rechecking filehandle rest }
      else
        -- the walk ends early when the thread is to stop
        some { s with worker := .delivering }
  | .rechecking filehandle rest =>
      if stackLimitLocked conf.limits now ((s.stackOf filehandle).map StackedLine.line) then
        some { s with worker := .popping filehandle rest }
      else
        some { s with worker := .scanning rest }
  | .popping filehandle rest =>
      let (value, s) := s.popStack filehandle
      if value = [] then
        some { s with worker := .scanning rest }
      else
        some { s with
          valmap := s.valmap.insert filehandle value
          worker := .scanning rest }
  | .delivering =>
      match s.valmap.entries with
      -- after the last value the worker sleeps again
      | [] => some { s with worker := if s.run_thread then .sleeping else .exited }
      | (filehandle, pValue) :: _ =>
          some { s.process filehandle pValue with valmap := s.valmap.erase filehandle }
  | .exited => none

inductive Label
  | call (c : Nat) (e : CallEvent)
  | worker (now : Int64)
  | stopThread

/-- One step of the system. -/
def step (conf : ManageConf) (s : Manage) : Label → Option Manage
  | .call c e => callStep conf s c e
  | .worker now => workerStep conf now s s.worker
  | .stopThread => some { s with run_thread := false }

/-- The requests for memory in the step succeed. -/
def Label.AllocOk : Label → Prop
  | .call _ (.next env _) => env.AllocOk
  | _ => True

/-! ## CloseAll -/

/-- `StackPush` of the blocks of one push. -/
def stackBlocks (conf : ManageConf) (filehandle : UInt64) :
    (Nat → StackEnv) → Manage → List (Pid × Bytes) → Manage
  | _, s, [] => s
  | env, s, (pid, block) :: rest =>
      stackBlocks conf filehandle (fun n => env (n + 1))
        (stackBlock conf (env 0) s filehandle pid block) rest

/-- `CheckPush` with `is_force`, in one piece: the whole stack is popped and processed. -/
def checkPushForce (s : Manage) (filehandle : UInt64) : Manage :=
  let (value, s) := s.popStack filehandle
  if value = [] then s else s.process filehandle value

/-- One round of `CloseAll`: force all input out, pop and process, delete the buffer. -/
def closeOne (conf : ManageConf) (env : UInt64 → PushEnv) (s : Manage) (filehandle : UInt64) :
    Option Manage := do
  let w ← s.wbstackmap.find? filehandle
  let (_, bufs, blocks) ← pushBlocks conf.limits conf.IsBinaryMode (env filehandle) w.InputBuffMap []
    K2HFT_INVALID_PID
  let s := s.setBuff filehandle { w with InputBuffMap := bufs }
  let s := stackBlocks conf filehandle (env filehandle).line s blocks
  return (s.checkPushForce filehandle).dropBuff filehandle

/-- The rounds of `CloseAll`, in the order of the map. -/
def closeRounds (conf : ManageConf) (env : UInt64 → PushEnv) :
    Manage → List UInt64 → Option Manage
  | s, [] => some s
  | s, filehandle :: rest => do
      let s ← closeOne conf env s filehandle
      closeRounds conf env s rest

/-- `CloseAll`. -/
def closeAll (conf : ManageConf) (env : UInt64 → PushEnv) (s : Manage) : Option Manage :=
  closeRounds conf env s s.wbstackmap.keys

/-- A text mode manager with a timeup of a second, whose rules take every block as it is. -/
def plainConf : ManageConf :=
  { limits := { BuffLimits.default with StackTimeup := 1 }
    IsBinaryMode := false
    cvtPushData := fun _ _ data => some data }

end Manage

end K2hFtFuse

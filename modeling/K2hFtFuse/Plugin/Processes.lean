import K2hFtFuse.Lib.Descriptors
import K2hFtFuse.Lib.Transition
import K2hFtFuse.Plugin.ExecParam
import K2hFtFuse.Plugin.Manager

/-!
# Plugin.Processes — the descriptors with which plugins start

`RunPluginProcess` forks. The child opens both ends of the named pipe, closes the writing one, opens
the output file, puts the two on its stdin and stdout and executes the plugin; the parent opens the
writing end with `O_CLOEXEC`. The child has a copy of all that the parent has open.

This file defines:
* `ChildPhase`, `PluginChild.step`: the child, one call for a step, each of which may fail,
* `PluginProcesses.step`: the process of the manager, which opens and closes what it likes between the
  steps of its children,
* `WritersCloseOnExec`: the manager's writing ends of pipes are not for its children.

A plugin reads its pipe and writes to its file exactly if the manager had stdin and stdout open when it
forked, and never has a writing end of a pipe (`plugin_descriptors`).
-/

namespace K2hFtFuse

open ByteSeq Transition

def STDIN_FILENO : Nat := 0

def STDOUT_FILENO : Nat := 1

/-- What a descriptor was opened for: the ends of a named pipe, an output file, or something else. -/
inductive OpenObject
  | reader (pipepath : Bytes)
  | writer (pipepath : Bytes)
  | output (path : Bytes)
  | other (n : Nat)
  deriving DecidableEq

abbrev ProcessTable := DescriptorTable OpenObject

def OpenObject.isWriter : OpenObject → Bool
  | .writer _ => true
  | _ => false

/-! ## The child -/

/-- The arguments of `RunPluginProcess`, which are members of the plugin; `waits` says that the condition
and its mutex are given. -/
structure ProcessArgs where
  plugin : Plugin
  waits : Bool
  deriving DecidableEq

/-- The file, arguments and environment of `execvpe`. -/
abbrev ExecImage := Bytes × List Bytes × List Bytes

/-- The call that the child makes next. -/
inductive ChildPhase
  | openReader
  | openWriter (child_input_pipe : Nat)
  | clearFlags (child_input_pipe child_wr_pipe : Nat)
  | parse (child_input_pipe : Nat)
  | unblock (child_input_pipe : Nat) (image : ExecImage)
  | lock (child_input_pipe : Nat) (image : ExecImage)
  | wait (child_input_pipe : Nat) (image : ExecImage)
  | unlock (child_input_pipe : Nat) (image : ExecImage)
  | openOutput (child_input_pipe : Nat) (image : ExecImage)
  | reopenOutput (child_input_pipe : Nat) (image : ExecImage)
  | duplicate (child_input_pipe fd : Nat) (image : ExecImage)
  | execute (image : ExecImage)
  | running (image : ExecImage)
  | exited
  deriving DecidableEq

/-- A child, with the table that `fork` gave it. -/
structure PluginChild where
  args : ProcessArgs
  inherited : ProcessTable
  table : ProcessTable
  phase : ChildPhase
  deriving DecidableEq

namespace PluginChild

/-- What `fork` makes. -/
def forked (args : ProcessArgs) (parent : ProcessTable) : PluginChild :=
  { args := args
    inherited := parent
    table := parent
    phase := .openReader }

def readingEnd (c : PluginChild) : Descriptor OpenObject :=
  { object := .reader c.args.plugin.PipeFilePath
    cloexec := false }

def writingEnd (c : PluginChild) : Descriptor OpenObject :=
  { object := .writer c.args.plugin.PipeFilePath
    cloexec := false }

def outputFile (c : PluginChild) : Descriptor OpenObject :=
  { object := .output c.args.plugin.ofile
    cloexec := false }

/-- `exit`: the system closes everything. -/
def exit (c : PluginChild) : PluginChild :=
  { c with
    table := .empty
    phase := .exited }

/-- The next call, with a new table. -/
def next (c : PluginChild) (table : ProcessTable) (phase : ChildPhase) : PluginChild :=
  { c with
    table := table
    phase := phase }

/-- The output file is open. -/
def withOutput (c : PluginChild) (child_input_pipe : Nat) (image : ExecImage) : PluginChild :=
  c.next (c.table.acquire c.outputFile) (.duplicate child_input_pipe c.table.lowest image)

/-- The two calls of `dup2`. -/
def duplicateBoth (table : ProcessTable) (child_input_pipe fd : Nat) : Option ProcessTable := do
  let table ← table.dup2 child_input_pipe STDIN_FILENO
  table.dup2 fd STDOUT_FILENO

/-- One call of the child, and whether it succeeds. `lock`, `wait` and `unlock` are calls of the libfullock
library: what is assumed of them is that they leave the descriptors of the child as they are. -/
def step (c : PluginChild) (ok : Bool) : Option PluginChild :=
  match c.phase with
  | .openReader =>
      some (if ok then c.next (c.table.acquire c.readingEnd) (.openWriter c.table.lowest) else c.exit)
  | .openWriter child_input_pipe =>
      some (if ok then
        c.next (c.table.acquire c.writingEnd) (.clearFlags child_input_pipe c.table.lowest)
        else c.exit)
  | .clearFlags child_input_pipe child_wr_pipe =>
      some (if ok then c.next (c.table.close child_wr_pipe) (.parse child_input_pipe) else c.exit)
  | .parse child_input_pipe =>
      -- `ok` is the memory for the arguments
      match ok, execArgs c.args.plugin.BaseParam with
      | true, some image => some (c.next c.table (.unblock child_input_pipe image))
      | _, _ => some c.exit
  | .unblock child_input_pipe image =>
      -- without names of a condition and its mutex it does not wait
      some (if ok then
        c.next c.table
          (if c.args.waits then .lock child_input_pipe image
          else .openOutput child_input_pipe image)
        else c.exit)
  | .lock child_input_pipe image =>
      some (if ok then c.next c.table (.wait child_input_pipe image) else c.exit)
  | .wait child_input_pipe image =>
      some (if ok then c.next c.table (.unlock child_input_pipe image) else c.exit)
  | .unlock child_input_pipe image =>
      some (if ok then c.next c.table (.openOutput child_input_pipe image) else c.exit)
  | .openOutput child_input_pipe image =>
      -- the mount may not be there yet, so it is tried once more
      some (if ok then c.withOutput child_input_pipe image
        else c.next c.table (.reopenOutput child_input_pipe image))
  | .reopenOutput child_input_pipe image =>
      some (if ok then c.withOutput child_input_pipe image else c.exit)
  | .duplicate child_input_pipe fd image =>
      match ok, duplicateBoth c.table child_input_pipe fd with
      | true, some table =>
          -- both numbers are closed, whatever they are
          some (c.next ((table.close child_input_pipe).close fd) (.execute image))
      | _, _ => some c.exit
  | .execute image => some (if ok then c.next c.table.exec (.running image) else c.exit)
  | .running _ => none
  | .exited => none

end PluginChild

/-! ## The processes -/

/-- The table of the manager's process, and the children that it has forked. -/
structure PluginProcesses where
  parent : ProcessTable
  children : OrdMap Pid PluginChild

/-- What happens: the parent part of `RunPluginProcess`, other calls of the manager's process, a call
of a child, and the end of a child. -/
inductive ProcessAction
  | fork (pid : Pid) (args : ProcessArgs)
  | openPipe (pipepath : Bytes)
  | openOther (object : OpenObject) (cloexec : Bool)
  | close (fd : Nat)
  | child (pid : Pid) (ok : Bool)
  | exit (pid : Pid)

namespace PluginProcesses

def step (s : PluginProcesses) : ProcessAction → Option PluginProcesses
  | .fork pid args =>
      -- a pid is free again when its process has ended
      if args.plugin.BaseParam = [] ∨ args.plugin.PipeFilePath = [] ∨
          ((s.children.find? pid).any fun c => c.phase ≠ .exited) then
        none
      else
        some { s with children := s.children.insert pid (.forked args s.parent) }
  | .openPipe pipepath =>
      some
        { s with
          parent :=
            s.parent.acquire
              { object := .writer pipepath
                cloexec := true } }
  | .openOther object cloexec =>
      -- nothing else opens the writing end of a named pipe
      if object.isWriter then
        none
      else
        some
          { s with
            parent :=
              s.parent.acquire
                { object := object
                  cloexec := cloexec } }
  | .close fd => some { s with parent := s.parent.close fd }
  | .child pid ok => do
      let c ← s.children.find? pid
      let c ← c.step ok
      return { s with children := s.children.insert pid c }
  | .exit pid =>
      (s.children.find? pid).map fun c =>
        { s with children := s.children.insert pid c.exit }

end PluginProcesses

/-! ## What the child has open -/

/-- What the child is going to execute. -/
def ChildPhase.image? : ChildPhase → Option ExecImage
  | .unblock _ image | .lock _ image | .wait _ image | .unlock _ image | .openOutput _ image
  | .reopenOutput _ image | .duplicate _ _ image | .execute image | .running image => some image
  | _ => none

namespace PluginChild

/-- The reading end is open beside what was inherited. -/
structure Piped (c : PluginChild) (child_input_pipe : Nat) : Prop where
  lowest : child_input_pipe = c.inherited.lowest
  find? : ∀ n, c.table.find? n =
    if n = child_input_pipe then some c.readingEnd else c.inherited.find? n

/-- A second descriptor is open beside the reading end. -/
structure Opened (c : PluginChild) (child_input_pipe fd : Nat) (d : Descriptor OpenObject) : Prop where
  lowest : child_input_pipe = c.inherited.lowest
  ne : fd ≠ child_input_pipe
  free : c.inherited.find? fd = none
  find? : ∀ n, c.table.find? n =
    if n = fd then some d
    else if n = child_input_pipe then some c.readingEnd
    else c.inherited.find? n

/-- The streams are set up and the numbers of the two opens are closed. -/
def Arranged (c : PluginChild) (table : ProcessTable) : Prop :=
  ∃ child_input_pipe fd, child_input_pipe = c.inherited.lowest ∧ child_input_pipe < fd ∧
    c.inherited.find? fd = none ∧ ∀ n, table.find? n =
      if n = child_input_pipe ∨ n = fd then none
      else if n = STDIN_FILENO then some c.readingEnd
      else if n = STDOUT_FILENO then some c.outputFile
      else c.inherited.find? n

def Holds (c : PluginChild) : Prop :=
  match c.phase with
  | .openReader => c.table = c.inherited
  | .openWriter rd | .parse rd | .unblock rd _ | .lock rd _ | .wait rd _ | .unlock rd _
  | .openOutput rd _ | .reopenOutput rd _ => c.Piped rd
  | .clearFlags rd wr => c.Opened rd wr c.writingEnd
  | .duplicate rd fd _ => c.Opened rd fd c.outputFile
  | .execute _ => c.Arranged c.table
  | .running _ => ∃ table, c.Arranged table ∧ c.table = table.exec
  | .exited => True

structure Sound (c : PluginChild) : Prop where
  image : ∀ image, c.phase.image? = some image → execArgs c.args.plugin.BaseParam = some image
  holds : c.Holds

theorem piped_acquire {c : PluginChild} (h : c.table = c.inherited) (phase : ChildPhase) :
    (c.next (c.table.acquire c.readingEnd) phase).Piped c.table.lowest := by
  refine ⟨congrArg _ h, ?_⟩
  intro n
  rw [next, DescriptorTable.find?_acquire, h]
  rfl

/-- The next `open` takes a number that is free in the inherited table too. -/
theorem Piped.acquire {c : PluginChild} {rd : Nat} (h : c.Piped rd) (d : Descriptor OpenObject)
    (phase : ChildPhase) : (c.next (c.table.acquire d) phase).Opened rd c.table.lowest d := by
  have hfree := DescriptorTable.find?_lowest c.table
  rw [h.find?] at hfree
  have hne : c.table.lowest ≠ rd := by
    intro heq
    rw [if_pos heq] at hfree
    cases hfree
  rw [if_neg hne] at hfree
  refine ⟨h.lowest, hne, hfree, ?_⟩
  intro n
  rw [next, DescriptorTable.find?_acquire, h.find?]
  rfl

theorem Opened.close {c : PluginChild} {rd fd : Nat} {d : Descriptor OpenObject}
    (h : c.Opened rd fd d) (phase : ChildPhase) : (c.next (c.table.close fd) phase).Piped rd := by
  refine ⟨h.lowest, ?_⟩
  intro n
  rw [next, DescriptorTable.find?_close, h.find?]
  by_cases hn : n = fd
  · subst hn
    rw [if_pos rfl, if_neg h.ne]
    exact h.free.symm
  · rw [if_neg hn, if_neg hn]
    rfl

theorem Opened.lt {c : PluginChild} {rd fd : Nat} {d : Descriptor OpenObject}
    (h : c.Opened rd fd d) : rd < fd := by
  by_contra hle
  have hlt : fd < rd := Nat.lt_of_le_of_ne (Nat.le_of_not_lt hle) h.ne
  have htaken := (c.inherited.le_lowest_iff rd).1 (Nat.le_of_eq h.lowest) fd hlt
  rw [h.free] at htaken
  cases htaken

/-- `dup2` on stdin and stdout, and then both numbers are closed. -/
theorem Opened.arranged {c : PluginChild} {rd fd : Nat} {table : ProcessTable}
    (h : c.Opened rd fd c.outputFile) (hdup : duplicateBoth c.table rd fd = some table) :
    c.Arranged ((table.close rd).close fd) := by
  rcases Option.bind_eq_some_iff.1 hdup with ⟨t, hin, hout⟩
  rcases DescriptorTable.find?_dup2 hin with ⟨d, hd, hfind⟩
  rcases DescriptorTable.find?_dup2 hout with ⟨d', hd', hfind'⟩
  -- both come from the numbers that were opened, since 0 is not the second of them
  have hfd : fd ≠ STDIN_FILENO := Nat.ne_of_gt (Nat.lt_of_le_of_lt (Nat.zero_le rd) h.lt)
  obtain rfl : c.readingEnd = d := by
    rw [h.find?, if_neg (Ne.symm h.ne), if_pos rfl] at hd
    exact Option.some.inj hd
  obtain rfl : c.outputFile = d' := by
    rw [hfind, if_neg fun hn => hfd hn.2, h.find?, if_pos rfl] at hd'
    exact Option.some.inj hd'
  refine ⟨rd, fd, h.lowest, h.lt, h.free, ?_⟩
  intro n
  rw [DescriptorTable.find?_close, DescriptorTable.find?_close, hfind', hfind, h.find?]
  by_cases hclosed : n = rd ∨ n = fd
  · rw [if_pos hclosed]
    rcases hclosed with rfl | rfl
    · simp
    · simp
  · rcases not_or.1 hclosed with ⟨hrd, hwr⟩
    rw [if_neg hclosed, if_neg hwr, if_neg hrd, if_neg hwr, if_neg hrd]
    by_cases hin : n = STDIN_FILENO
    · subst hin
      have hout : STDIN_FILENO ≠ STDOUT_FILENO := by decide
      rw [if_neg fun hn => hout hn.2, if_pos ⟨Ne.symm hrd, rfl⟩, if_pos rfl]
      rfl
    · rw [if_neg hin]
      by_cases hout : n = STDOUT_FILENO
      · subst hout
        rw [if_pos ⟨Ne.symm hwr, rfl⟩, if_pos rfl]
        rfl
      · rw [if_neg fun hn => hout hn.2, if_neg fun hn => hin hn.2, if_neg hout]

/-- What the streams of a plugin are at its start, and what else it has open. -/
structure Started (c : PluginChild) : Prop where
  streams : (c.table.find? STDIN_FILENO = some c.readingEnd ∧
      c.table.find? STDOUT_FILENO = some c.outputFile) ↔
    (c.inherited.find? STDIN_FILENO).isSome ∧ (c.inherited.find? STDOUT_FILENO).isSome
  others : ∀ fd, STDOUT_FILENO < fd →
    c.table.find? fd = (c.inherited.find? fd).filter fun d => !d.cloexec
  ends : ∀ fd ≤ STDOUT_FILENO, ∀ d, c.table.find? fd = some d → d = c.readingEnd ∨ d = c.outputFile

theorem Arranged.started {c : PluginChild} {table : ProcessTable} (h : c.Arranged table)
    (hexec : c.table = table.exec) : c.Started := by
  rcases h with ⟨rd, fd, hlowest, hlt, hfree, hfind⟩
  have hrd : c.inherited.find? rd = none := hlowest ▸ DescriptorTable.find?_lowest c.inherited
  have hread : ∀ n, c.table.find? n = (if n = rd ∨ n = fd then none
      else if n = STDIN_FILENO then some c.readingEnd
      else if n = STDOUT_FILENO then some c.outputFile
      else c.inherited.find? n).filter fun d => !d.cloexec := by
    intro n
    rw [hexec, DescriptorTable.find?_exec, hfind]
  refine ⟨?_, ?_, ?_⟩
  · -- the lowest free number is above both exactly if both are taken
    have hboth : (c.inherited.find? STDIN_FILENO).isSome ∧
        (c.inherited.find? STDOUT_FILENO).isSome ↔ STDOUT_FILENO < rd := by
      rw [hlowest]
      refine Iff.trans ?_ (c.inherited.le_lowest_iff (STDOUT_FILENO + 1)).symm
      constructor
      · intro h m hm
        rcases Nat.le_one_iff_eq_zero_or_eq_one.1 (Nat.le_of_lt_succ hm) with rfl | rfl
        · exact h.1
        · exact h.2
      · intro h
        exact ⟨h STDIN_FILENO (by decide), h STDOUT_FILENO (by decide)⟩
    rw [hboth]
    constructor
    · rintro ⟨hin, hout⟩
      by_contra hle
      have hclosed : c.table.find? rd = none := by
        rw [hread, if_pos (Or.inl rfl)]
        rfl
      rcases Nat.le_one_iff_eq_zero_or_eq_one.1 (Nat.le_of_not_lt hle) with hzero | hone
      · have hzero : STDIN_FILENO = rd := hzero.symm
        rw [hzero, hclosed] at hin
        cases hin
      · have hone : STDOUT_FILENO = rd := hone.symm
        rw [hone, hclosed] at hout
        cases hout
    · intro habove
      have hnot : ∀ n ≤ STDOUT_FILENO, ¬ (n = rd ∨ n = fd) := by
        intro n hn
        have hn' : n < rd := Nat.lt_of_le_of_lt hn habove
        exact not_or.2 ⟨Nat.ne_of_lt hn', Nat.ne_of_lt (Nat.lt_trans hn' hlt)⟩
      rw [hread, hread, if_neg (hnot STDIN_FILENO (Nat.zero_le _)),
        if_neg (hnot STDOUT_FILENO (Nat.le_refl _))]
      exact ⟨rfl, rfl⟩
  · intro n hn
    rw [hread]
    by_cases hclosed : n = rd ∨ n = fd
    · have hnone : c.inherited.find? n = none := by
        rcases hclosed with rfl | rfl
        · exact hrd
        · exact hfree
      rw [if_pos hclosed, hnone]
    · have hout : n ≠ STDOUT_FILENO := Nat.ne_of_gt hn
      have hin : n ≠ STDIN_FILENO := Nat.ne_of_gt (Nat.lt_trans (by decide) hn)
      rw [if_neg hclosed, if_neg hin, if_neg hout]
  · intro n hn d hd
    rw [hread] at hd
    have hd := (Option.filter_eq_some_iff.1 hd).1
    split at hd
    · cases hd
    · split at hd
      · exact .inl (Option.some.inj hd).symm
      · split at hd
        · exact .inr (Option.some.inj hd).symm
        · -- a number that is neither is above both
          rename_i hin hout
          rcases Nat.le_one_iff_eq_zero_or_eq_one.1 hn with rfl | rfl
          · exact absurd rfl hin
          · exact absurd rfl hout

theorem Piped.next {c : PluginChild} {rd : Nat} (h : c.Piped rd) (phase : ChildPhase) :
    (c.next c.table phase).Piped rd :=
  ⟨h.lowest, h.find?⟩

theorem sound_forked (args : ProcessArgs) (parent : ProcessTable) : (forked args parent).Sound where
  image := by
    intro image himage
    cases himage
  holds := rfl

/-- A child after a step, or after its end. -/
structure Later (c c' : PluginChild) : Prop where
  sound : c'.Sound
  args : c'.args = c.args
  inherited : c'.inherited = c.inherited

theorem later_exit (c : PluginChild) : c.Later c.exit := by
  refine ⟨⟨?_, trivial⟩, rfl, rfl⟩
  intro image himage
  cases himage

theorem later_next {c : PluginChild} {table : ProcessTable} {phase : ChildPhase}
    (himage : ∀ image, phase.image? = some image → execArgs c.args.plugin.BaseParam = some image)
    (hholds : (c.next table phase).Holds) : c.Later (c.next table phase) :=
  ⟨⟨himage, hholds⟩, rfl, rfl⟩

/-- The child goes on, or exits. -/
theorem later_next_or_exit {c : PluginChild} {ok : Bool} {table : ProcessTable} {phase : ChildPhase}
    (himage : ∀ image, phase.image? = some image → execArgs c.args.plugin.BaseParam = some image)
    (hholds : (c.next table phase).Holds) :
    c.Later (if ok then c.next table phase else c.exit) := by
  cases ok with
  | true => exact later_next himage hholds
  | false => exact c.later_exit

theorem Sound.step {c c' : PluginChild} {ok : Bool} (h : c.Sound) (hstep : c.step ok = some c') :
    c.Later c' := by
  have himage := h.image
  have hholds := h.holds
  unfold Holds at hholds
  unfold PluginChild.step at hstep
  cases hphase : c.phase with
  -- before the command line is read there is no image
  | openReader =>
      rw [hphase] at hstep hholds himage
      obtain rfl := Option.some.inj hstep
      exact later_next_or_exit himage (piped_acquire hholds _)
  | openWriter rd =>
      rw [hphase] at hstep hholds himage
      obtain rfl := Option.some.inj hstep
      exact later_next_or_exit himage (hholds.acquire _ _)
  | clearFlags rd wr =>
      rw [hphase] at hstep hholds himage
      obtain rfl := Option.some.inj hstep
      exact later_next_or_exit himage (hholds.close _)
  | parse rd =>
      rw [hphase] at hstep hholds
      dsimp only at hstep
      split at hstep
      · rename_i image hargs
        obtain rfl := Option.some.inj hstep
        exact later_next (fun _ h => Option.some.inj h ▸ hargs) (hholds.next _)
      · obtain rfl := Option.some.inj hstep
        exact c.later_exit
  | unblock rd image =>
      rw [hphase] at hstep hholds himage
      obtain rfl := Option.some.inj hstep
      cases c.args.waits with
      | true => exact later_next_or_exit himage (hholds.next _)
      | false => exact later_next_or_exit himage (hholds.next _)
  | lock rd image | wait rd image | unlock rd image =>
      rw [hphase] at hstep hholds himage
      obtain rfl := Option.some.inj hstep
      exact later_next_or_exit himage (hholds.next _)
  -- the output file is opened at the first or the second try
  | openOutput rd image =>
      rw [hphase] at hstep hholds himage
      obtain rfl := Option.some.inj hstep
      cases ok with
      | true => exact later_next himage (hholds.acquire _ _)
      | false => exact later_next himage (hholds.next _)
  | reopenOutput rd image =>
      rw [hphase] at hstep hholds himage
      obtain rfl := Option.some.inj hstep
      exact later_next_or_exit himage (hholds.acquire _ _)
  | duplicate rd fd image =>
      rw [hphase] at hstep hholds himage
      dsimp only at hstep
      split at hstep
      · rename_i table hdup
        obtain rfl := Option.some.inj hstep
        exact later_next himage (hholds.arranged hdup)
      · obtain rfl := Option.some.inj hstep
        exact c.later_exit
  | execute image =>
      rw [hphase] at hstep hholds himage
      obtain rfl := Option.some.inj hstep
      exact later_next_or_exit himage ⟨c.table, hholds, rfl⟩
  | running image | exited =>
      rw [hphase] at hstep
      cases hstep

end PluginChild

/-! ## Runs -/

/-- The writing ends of pipes are closed at `exec`. -/
def WritersCloseOnExec (table : ProcessTable) : Prop :=
  ∀ fd d, table.find? fd = some d → d.object.isWriter = true → d.cloexec = true

theorem WritersCloseOnExec.acquire {table : ProcessTable} (h : WritersCloseOnExec table)
    {d : Descriptor OpenObject} (hd : d.object.isWriter = true → d.cloexec = true) :
    WritersCloseOnExec (table.acquire d) := by
  intro fd d' hfind
  rw [DescriptorTable.find?_acquire] at hfind
  split at hfind
  · obtain rfl := Option.some.inj hfind
    exact hd
  · exact h fd d' hfind

theorem WritersCloseOnExec.close {table : ProcessTable} (h : WritersCloseOnExec table) (fd : Nat) :
    WritersCloseOnExec (table.close fd) := by
  intro n d hfind
  rw [DescriptorTable.find?_close] at hfind
  split at hfind
  · cases hfind
  · exact h n d hfind

/-- No writing end is behind a number. -/
def NoWriter (table : ProcessTable) : Prop :=
  ∀ fd d, table.find? fd = some d → d.object.isWriter = false

/-- What is inherited is without writing ends, and the ends that the child puts in front are none. -/
theorem PluginChild.Started.noWriter {c : PluginChild} (h : c.Started)
    (hinherited : WritersCloseOnExec c.inherited) : NoWriter c.table := by
  intro fd d hfind
  rcases Nat.lt_or_ge STDOUT_FILENO fd with hfd | hfd
  · rw [h.others fd hfd] at hfind
    rcases Option.filter_eq_some_iff.1 hfind with ⟨hfind, hopen⟩
    by_contra hwriter
    rw [hinherited fd d hfind (Bool.not_eq_false _ ▸ hwriter)] at hopen
    cases hopen
  · rcases h.ends fd hfd d hfind with rfl | rfl
    · rfl
    · rfl

namespace PluginProcesses

structure Inv (s : PluginProcesses) : Prop where
  parent : WritersCloseOnExec s.parent
  sound : ∀ pid c, s.children.find? pid = some c → c.Sound
  inherited : ∀ pid c, s.children.find? pid = some c → WritersCloseOnExec c.inherited

/-- One child comes or changes. -/
theorem Inv.insert {s : PluginProcesses} (h : s.Inv) (pid : Pid) {c : PluginChild} (hc : c.Sound)
    (hinherited : WritersCloseOnExec c.inherited) :
    Inv { s with children := s.children.insert pid c } := by
  refine ⟨h.parent, ?_, ?_⟩
  · intro pid' c' hfind
    rw [OrdMap.find?_insert] at hfind
    split at hfind
    · exact Option.some.inj hfind ▸ hc
    · exact h.sound pid' c' hfind
  · intro pid' c' hfind
    rw [OrdMap.find?_insert] at hfind
    split at hfind
    · exact Option.some.inj hfind ▸ hinherited
    · exact h.inherited pid' c' hfind

theorem inv_step (s : PluginProcesses) (action : ProcessAction) (s' : PluginProcesses) (h : s.Inv)
    (hstep : s.step action = some s') : s'.Inv := by
  cases action with
  | fork pid args =>
      simp only [step, Option.ite_none_left_eq_some, Option.some.injEq] at hstep
      obtain ⟨-, rfl⟩ := hstep
      exact h.insert pid (PluginChild.sound_forked args s.parent) h.parent
  | openPipe pipepath =>
      obtain rfl := Option.some.inj hstep
      exact ⟨h.parent.acquire fun _ => rfl, h.sound, h.inherited⟩
  | openOther object cloexec =>
      simp only [step, Option.ite_none_left_eq_some, Option.some.injEq] at hstep
      obtain ⟨hother, rfl⟩ := hstep
      exact ⟨h.parent.acquire fun hwriter => absurd hwriter hother, h.sound, h.inherited⟩
  | close fd =>
      obtain rfl := Option.some.inj hstep
      exact ⟨h.parent.close fd, h.sound, h.inherited⟩
  | child pid ok =>
      rcases Option.bind_eq_some_iff.1 hstep with ⟨c, hfind, hstep⟩
      rcases Option.bind_eq_some_iff.1 hstep with ⟨c', hc', hstep⟩
      obtain rfl := Option.some.inj hstep
      have hlater := (h.sound pid c hfind).step hc'
      exact h.insert pid hlater.sound (hlater.inherited ▸ h.inherited pid c hfind)
  | exit pid =>
      rcases Option.map_eq_some_iff.1 hstep with ⟨c, hfind, rfl⟩
      exact h.insert pid c.later_exit.sound (h.inherited pid c hfind)

/-- A child with these arguments and this first table. -/
def Given (pid : Pid) (args : ProcessArgs) (table : ProcessTable) (s : PluginProcesses) : Prop :=
  ∃ c, s.children.find? pid = some c ∧ c.args = args ∧ c.inherited = table

/-- A child that was put in place is the given one, or the given one was there. -/
theorem given_insert {s : PluginProcesses} {pid pid' : Pid} {args : ProcessArgs}
    {table : ProcessTable} {c : PluginChild}
    (h : Given pid args table { s with children := s.children.insert pid' c }) :
    Given pid args table s ∨ pid = pid' ∧ c.args = args ∧ c.inherited = table := by
  rcases h with ⟨c', hfind, hargs, htable⟩
  rw [OrdMap.find?_insert] at hfind
  split at hfind
  · rename_i hpid
    obtain rfl := Option.some.inj hfind
    exact .inr ⟨hpid, hargs, htable⟩
  · exact .inl ⟨c', hfind, hargs, htable⟩

/-- Only a `fork` gives a child its arguments and its first table. -/
theorem given_step {pid : Pid} {args : ProcessArgs} {table : ProcessTable} (s : PluginProcesses)
    (action : ProcessAction) (s' : PluginProcesses) (hinv : s.Inv) (hstep : s.step action = some s')
    (h : Given pid args table s') :
    Given pid args table s ∨ action = .fork pid args ∧ s.parent = table := by
  cases action with
  | fork pid' args' =>
      simp only [step, Option.ite_none_left_eq_some, Option.some.injEq] at hstep
      obtain ⟨-, rfl⟩ := hstep
      rcases given_insert h with hgiven | ⟨rfl, rfl, htable⟩
      · exact .inl hgiven
      · exact .inr ⟨rfl, htable⟩
  | openPipe pipepath =>
      obtain rfl := Option.some.inj hstep
      exact .inl h
  | openOther object cloexec =>
      simp only [step, Option.ite_none_left_eq_some, Option.some.injEq] at hstep
      obtain ⟨-, rfl⟩ := hstep
      exact .inl h
  | close fd =>
      obtain rfl := Option.some.inj hstep
      exact .inl h
  | child pid' ok =>
      rcases Option.bind_eq_some_iff.1 hstep with ⟨c, hfind, hstep⟩
      rcases Option.bind_eq_some_iff.1 hstep with ⟨c', hc', hstep⟩
      obtain rfl := Option.some.inj hstep
      have hlater := (hinv.sound pid' c hfind).step hc'
      rcases given_insert h with hgiven | ⟨rfl, hargs, htable⟩
      · exact .inl hgiven
      · exact .inl ⟨c, hfind, hlater.args ▸ hargs, hlater.inherited ▸ htable⟩
  | exit pid' =>
      rcases Option.map_eq_some_iff.1 hstep with ⟨c, hfind, rfl⟩
      rcases given_insert h with hgiven | ⟨rfl, hargs, htable⟩
      · exact .inl hgiven
      · exact .inl ⟨c, hfind, hargs, htable⟩

/-- A plugin that has started was forked from a table of the manager that decides what it has open: its
streams are its pipe and its file exactly if stdin and stdout were open then, the rest is what was not
to be closed, and no writing end of a pipe is among it. -/
theorem plugin_descriptors {s₀ s : PluginProcesses} {actions : List ProcessAction}
    (hparent : WritersCloseOnExec s₀.parent) (hchildren : s₀.children = ∅)
    (hrun : run step s₀ actions = some s) {pid : Pid} {c : PluginChild} {image : ExecImage}
    (hchild : s.children.find? pid = some c) (hrunning : c.phase = .running image) :
    ∃ before after s₁, actions = before ++ .fork pid c.args :: after ∧
      run step s₀ before = some s₁ ∧ execArgs c.args.plugin.BaseParam = some image ∧
      ((c.table.find? STDIN_FILENO = some c.readingEnd ∧
          c.table.find? STDOUT_FILENO = some c.outputFile) ↔
        (s₁.parent.find? STDIN_FILENO).isSome ∧ (s₁.parent.find? STDOUT_FILENO).isSome) ∧
      (∀ fd, STDOUT_FILENO < fd →
        c.table.find? fd = (s₁.parent.find? fd).filter fun d => !d.cloexec) ∧
      NoWriter c.table := by
  have hnew : ∀ pid c, s₀.children.find? pid ≠ some c := by
    intro pid c hfind
    rw [hchildren, OrdMap.find?_empty] at hfind
    cases hfind
  have hinv₀ : s₀.Inv :=
    ⟨hparent, fun pid c h => absurd h (hnew pid c), fun pid c h => absurd h (hnew pid c)⟩
  have hinv := invariant_run inv_step hrun hinv₀
  have hbefore : ¬ Given pid c.args c.inherited s₀ := by
    rintro ⟨c', hfind, -⟩
    exact hnew pid c' hfind
  rcases exists_step_of_run inv_step given_step hinv₀ hrun hbefore ⟨c, hchild, rfl, rfl⟩ with
    ⟨before, action, after, s₁, rfl, hs₁, rfl, htable⟩
  have hsound := hinv.sound pid c hchild
  have hholds := hsound.holds
  rw [PluginChild.Holds, hrunning] at hholds
  rcases hholds with ⟨table, harranged, hexec⟩
  have hstarted := harranged.started hexec
  refine ⟨before, after, s₁, rfl, hs₁, hsound.image image (by rw [hrunning]; rfl), ?_⟩
  rw [htable]
  exact ⟨hstarted.streams, hstarted.others, hstarted.noWriter (hinv.inherited pid c hchild)⟩

/-- One plugin starts, stdout is closed, and the same plugin starts again. -/
def closedStdout : List ProcessAction :=
  let start (pid : Pid) : List ProcessAction :=
    .fork pid
        { plugin := PluginMan.outPlugin
          waits := false } ::
      .openPipe PluginMan.outPlugin.PipeFilePath :: List.replicate 8 (.child pid true)
  [.openOther (.other 0) false, .openOther (.other 1) false, .openOther (.other 2) false] ++
    start 10 ++ .close STDOUT_FILENO :: start 11

theorem plugin_descriptors_closed_stdout :
    ∃ s c before after s₁,
      run step
          { parent := .empty
            children := ∅ } closedStdout = some s ∧
        s.children.find? 11 = some c ∧ closedStdout = before ++ .fork 11 c.args :: after ∧
        run step
          { parent := .empty
            children := ∅ } before = some s₁ ∧
        ((c.table.find? STDIN_FILENO = some c.readingEnd ∧
            c.table.find? STDOUT_FILENO = some c.outputFile) ↔
          (s₁.parent.find? STDIN_FILENO).isSome ∧ (s₁.parent.find? STDOUT_FILENO).isSome) ∧
        NoWriter c.table := by
  have hphase :
      ((run step
          { parent := .empty
            children := ∅ } closedStdout).bind fun s =>
        (s.children.find? 11).map PluginChild.phase) =
        some (.running (ascii "cat", [ascii "cat"], [])) := by
    decide +kernel
  rcases Option.bind_eq_some_iff.1 hphase with ⟨s, hrun, hchild⟩
  rcases Option.map_eq_some_iff.1 hchild with ⟨c, hfind, hrunning⟩
  have hempty : WritersCloseOnExec .empty := by
    intro fd d h
    rw [DescriptorTable.find?_empty] at h
    cases h
  rcases plugin_descriptors hempty rfl hrun hfind hrunning with
    ⟨before, after, s₁, hactions, hs₁, -, hstreams, -, hno⟩
  exact ⟨s, c, before, after, s₁, hrun, hfind, hactions, hs₁, hstreams, hno⟩

end PluginProcesses

end K2hFtFuse

import K2hFtFuse.Lib.ShortWrite
import K2hFtFuse.Plugin.Manager

/-!
# Plugin.Pipe — writing to the pipe of a plugin

`Write` up to the pipe is `PluginMan.prepareWrite`.  This file adds what follows it, the loop of at most
`WRITE_RETRY_MAX` calls of `k2hft_write`, and tells when the pipe gets the data exactly once.  Every
try of the loop starts at the first byte again, whatever the tries before have written.
-/

namespace K2hFtFuse

open ByteSeq

/-- The answer of `write` to one call: the bytes that it accepts, or `errno`. -/
abbrev WriteAnswer := ShortWrite.Answer Int32

/-- `k2hft_write`. -/
def k2hftWrite (answers : Nat → WriteAnswer) (data : Bytes) : ShortWrite.Run UInt8 Int32 :=
  ShortWrite.writeAll answers data

/-- `K2hFtPluginMan::WRITE_RETRY_MAX`. -/
def WRITE_RETRY_MAX : Nat := 500

/-- The loop of `Write` over the calls of `k2hft_write`. -/
def retryWrite (answers : Nat → WriteAnswer) (data : Bytes) : ShortWrite.Run UInt8 Int32 :=
  ShortWrite.retryAll WRITE_RETRY_MAX answers data

/-- What `Write` gives, and the bytes that the pipe has accepted meanwhile. -/
structure PipeWrite where
  result : Bool
  accepted : Bytes
  deriving DecidableEq

def PipeWrite.refused : PipeWrite :=
  { result := false
    accepted := [] }

namespace PluginMan

/-- `Write`; the plugin keeps its pipe as long as it is locked. -/
def writePlugin (m : PluginMan) (id : Nat) (data : Bytes) (find : Bool) (kill : KillEnv)
    (env : RunEnv) (answers : Nat → WriteAnswer) : Option (PluginMan × PipeWrite) := do
  let (m, ready) ← m.prepareWrite id data find kill env
  if ready then
    let p ← m.plugins.find? id
    -- a plugin without a pipe is not waited for
    if p.pipe_input = K2HFT_INVALID_HANDLE then
      return (m, .refused)
    else
      let run := retryWrite answers data
      return (m, { result := run.done, accepted := run.accepted })
  else
    return (m, .refused)

section OpenPipe

variable {m : PluginMan} {id : Nat} {p : Plugin} {data : Bytes} {find : Bool}

/-- With its output file unchanged and its pipe open, the plugin is left alone and the data goes to
the loop. -/
theorem writePlugin_of_open (hp : m.plugins.find? id = some p) (hdata : data ≠ [])
    (hfind : (needsNoOutput m.mountpoint p || find) = true)
    (hpipe : p.pipe_input ≠ K2HFT_INVALID_HANDLE) (kill : KillEnv) (env : RunEnv)
    (answers : Nat → WriteAnswer) :
    m.writePlugin id data find kill env answers =
      some (m,
        { result := (retryWrite answers data).done
          accepted := (retryWrite answers data).accepted }) := by
  have hprepare : m.prepareWrite id data find kill env = some (m, true) := by
    simp [prepareWrite, hp, hdata, hfind]
  simp [writePlugin, hprepare, hp, hpipe]

/-- What a write that returns true has put into the pipe is the data once, exactly when no try that
failed had written anything. -/
theorem writePlugin_once_iff (hp : m.plugins.find? id = some p) (hdata : data ≠ [])
    (hfind : (needsNoOutput m.mountpoint p || find) = true)
    (hpipe : p.pipe_input ≠ K2HFT_INVALID_HANDLE) (kill : KillEnv) (env : RunEnv)
    (answers : Nat → WriteAnswer) :
    ∃ write, m.writePlugin id data find kill env answers = some (m, write) ∧
      ((write.result = true → write.accepted = data) ↔
        (ShortWrite.Served WRITE_RETRY_MAX answers data.length →
          ShortWrite.ServedOnce WRITE_RETRY_MAX answers data.length)) :=
  ⟨_, writePlugin_of_open hp hdata hfind hpipe kill env answers, ShortWrite.retryAll_once_iff⟩

end OpenPipe

/-- A manager with one plugin, which runs and has its pipe open. -/
def oneRunning : PluginMan :=
  (PluginMan.start (ascii "/mnt")).setPlugin 0 { outPlugin with pid := 7, pipe_input := 3 }

/-- The first byte is accepted, then `EAGAIN`, then everything. -/
def stutter : Nat → WriteAnswer
  | 1 => .fails 11
  | _ => .accepts 1

theorem retryWrite_stutter :
    (retryWrite stutter [65, 66]).done = true ∧ (retryWrite stutter [65, 66]).accepted = [65, 65, 66] := by
  -- the first try accepts a byte and then fails
  have hfirst : ShortWrite.writeAll stutter ([65, 66] : Bytes) =
      { done := false
        error := some 11
        accepted := [65]
        rest := ShortWrite.shift 2 stutter } := by
    rw [ShortWrite.writeAll_of_accepts (n := 1) (by simp) rfl,
      ShortWrite.writeAll_of_fails (e := 11) (by simp) rfl]
    simp
  -- the second one begins at the first byte again
  have hsecond : (ShortWrite.writeAll (ShortWrite.shift 2 stutter) ([65, 66] : Bytes)).done = true ∧
      (ShortWrite.writeAll (ShortWrite.shift 2 stutter) ([65, 66] : Bytes)).accepted = [65, 66] := by
    refine ShortWrite.writeAll_of_completes ⟨2, fun i hi => ?_, ?_⟩
    · rcases i with _ | _ | i
      · rfl
      · rfl
      · omega
    · simp [Finset.sum_range_succ, ShortWrite.shift, stutter, ShortWrite.Answer.size]
  have hrun : retryWrite stutter [65, 66] =
      ShortWrite.retryAll (498 + 1 + 1) stutter ([65, 66] : Bytes) := rfl
  rw [hrun, ShortWrite.retryAll, hfirst]
  simp [ShortWrite.retryAll, hsecond]

/-- `AB` in two writes with a failure between them arrives as `AAB`. -/
theorem writePlugin_not_once :
    ¬ ∀ (m : PluginMan) (id : Nat) (p : Plugin) (data : Bytes) (find : Bool) (kill : KillEnv)
        (env : RunEnv) (answers : Nat → WriteAnswer),
      m.plugins.find? id = some p → data ≠ [] →
      (needsNoOutput m.mountpoint p || find) = true → p.pipe_input ≠ K2HFT_INVALID_HANDLE →
      ∀ (m' : PluginMan) (write : PipeWrite),
        m.writePlugin id data find kill env answers = some (m', write) →
          write.result = true → write.accepted = data := by
  intro h
  obtain ⟨hdone, haccepted⟩ := retryWrite_stutter
  have hwrite := @writePlugin_of_open oneRunning 0 _ [65, 66] true (find?_setPlugin_self _ _ _)
    (by simp) (by simp) (by decide) .refused (startsAs 8) stutter
  have hdata := h oneRunning 0 _ [65, 66] true .refused (startsAs 8) stutter
    (find?_setPlugin_self _ _ _) (by simp) (by simp) (by decide) _ _ hwrite hdone
  rw [haccepted] at hdata
  revert hdata
  decide

/-- The same plugin and answers. -/
theorem writePlugin_once_iff_stutter :
    ∃ write, oneRunning.writePlugin 0 [65, 66] true .refused (startsAs 8) stutter =
        some (oneRunning, write) ∧
      ((write.result = true → write.accepted = [65, 66]) ↔
        (ShortWrite.Served WRITE_RETRY_MAX stutter 2 →
          ShortWrite.ServedOnce WRITE_RETRY_MAX stutter 2)) :=
  writePlugin_once_iff (find?_setPlugin_self _ _ _) (by simp) (by simp) (by decide) .refused
    (startsAs 8) stutter

end PluginMan

end K2hFtFuse

import K2hFtFuse.EndToEnd

/-!
# Svr.Relays — servers that pass on what they receive

A server in transfer mode sets every key and value that it receives in a k2hash of its own, whose
transactions go to the next server. This file defines:
* `Relay.forward`: what a server sets for the messages that it receives,
* `Chain`: sets that go through servers one after another,

and shows that a chain is either transparent or passes nothing on (`chain_eq`), so that the text which is
written on one side reaches the file of the last server as it would reach the file of the first one
(`relayed_fidelity_iff`).
-/

namespace K2hFtFuse

open ByteSeq

/-- A server: what it calls, its settings, and its output path. -/
structure Relay where
  env : SvrEnv
  info : K2hFtSvrInfo
  IsUnityMode : Bool
  OutputPath : Bytes

/-- The main loop of k2hftfusesvr on messages: the sets to the transfer k2hash. -/
def Relay.forward (r : Relay) : List Bytes → Option (List (Bytes × Bytes))
  | [] => some []
  | body :: rest => do
      let (_, effects) ← processing r.env r.info r.IsUnityMode r.OutputPath body
      let later ← r.forward rest
      return effects.transSets ++ later

/-- Each server gets the sets of the one before as messages. -/
inductive Chain : List Relay → List (Bytes × Bytes) → List (Bytes × Bytes) → Prop
  | nil (sets : List (Bytes × Bytes)) : Chain [] sets sets
  | cons (r : Relay) (relays : List Relay) (messages : List Bytes)
      (sets forwarded out : List (Bytes × Bytes))
      (hdelivered : List.Forall₂ (Delivers r.env) messages sets)
      (hforward : r.forward messages = some forwarded) (hrest : Chain relays forwarded out) :
      Chain (r :: relays) sets out

/-- `Processing` of a message passes on what it carries, whatever becomes of its lines. -/
theorem processing_transSets {env : SvrEnv} {info : K2hFtSvrInfo} {IsUnityMode : Bool}
    {OutputPath body : Bytes} {set : Bytes × Bytes} {result : Bool} {effects : SvrEffects}
    (hbody : Delivers env body set)
    (h : processing env info IsUnityMode OutputPath body = some (result, effects)) :
    effects.transSets = if info.isTransMode then [set] else [] := by
  unfold processing at h
  rw [if_neg (by simp [hbody.1]), hbody.2] at h
  dsimp only at h
  split at h
  · rcases Option.bind_eq_some_iff.1 h with ⟨filed, -, hlast⟩
    cases hlast
    rfl
  · cases h
    rfl

theorem forward_eq {r : Relay} {messages : List Bytes} {sets forwarded : List (Bytes × Bytes)}
    (hdelivered : List.Forall₂ (Delivers r.env) messages sets)
    (h : r.forward messages = some forwarded) :
    forwarded = if r.info.isTransMode then sets else [] := by
  induction hdelivered generalizing forwarded with
  | nil =>
      cases h
      simp
  | @cons body set messages sets hbody _ ih =>
      rcases Option.bind_eq_some_iff.1 h with ⟨⟨result, effects⟩, hone, hmore⟩
      rcases Option.bind_eq_some_iff.1 hmore with ⟨later, hlater, hlast⟩
      cases hlast
      rw [ih hlater, processing_transSets hbody hone]
      cases r.info.isTransMode with
      | true => rfl
      | false => rfl

/-- Sets come out of a chain as they went in, or one of its servers does not pass anything on. -/
theorem chain_eq {relays : List Relay} {sets out : List (Bytes × Bytes)} (h : Chain relays sets out) :
    out = if relays.all (fun r => r.info.isTransMode) then sets else [] := by
  induction h with
  | nil sets => rfl
  | cons r relays messages sets forwarded out hdelivered hforward _ ih =>
      rw [ih, forward_eq hdelivered hforward, List.all_cons]
      cases r.info.isTransMode with
      | true => rfl
      | false => simp

/-- The values of a run of writes go through any number of servers that transfer, which may put files or
run plugins of their own. The last server's file gets the written bytes without their NUL bytes exactly
when it would get them directly: no write holds a CRLF pair and, where `realloc` frees a block of size 0,
no value begins with two empty lines. -/
theorem relayed_fidelity_iff (limits : BuffLimits) (eng : RegexEngine) (pRule : K2hFtRule) (pid : Pid)
    (writes : List (PushEnv × Bytes)) (last : PushEnv)
    (env : SvrEnv) (info : K2hFtSvrInfo) (IsUnityMode : Bool) (OutputPath : Bytes)
    (hrule : TransfersAll pRule) (hlimit : limits.LineByteLimit = DEFAULT_LINE_LIMIT)
    (hpid : pid ≠ K2HFT_INVALID_PID) (halloc : ∀ w ∈ writes ++ [(last, [])], w.1.AllocOk)
    (hfit : LinesFit limits pid writes last) (hplain : PlainText info) :
    ∃ w, pushRun (ruleSink limits eng pRule) false pid K2hFtWriteBuff.fresh
        (writes ++ [(last, [])]) = some w ∧
      ∀ (groups : List (List K2hFtLine)) (values : List (ProcessEnv × Bytes)),
        groups.flatten = w.Stack → groups.mapM buildK2hFtValue = some (values.map Prod.snd) →
        ∃ sets, transferRun false pRule values = some sets ∧
          ∀ (relays : List Relay) (relayed : List (Bytes × Bytes)) (messages : List Bytes),
            (∀ r ∈ relays, r.info.isTransMode = true) → Chain relays sets relayed →
            List.Forall₂ (Delivers env) messages relayed →
            (serverRun env info IsUnityMode OutputPath messages =
                some ((writes.map Prod.snd).flatten.filter fun c => c ≠ 0) ↔
              (∀ w ∈ writes, ¬ [CR, LF] <:+: w.2) ∧
                (env.zero = .freesBlock → ∀ g ∈ groups, ¬ BlankStart g)) := by
  rcases pipeline_output limits eng pRule pid writes last env info IsUnityMode OutputPath
    hrule hlimit hpid halloc hfit hplain with ⟨w, hrun, -, hpipe⟩
  refine ⟨w, hrun, ?_⟩
  intro groups values hgroups hvalues
  rcases hpipe groups values hgroups hvalues with ⟨sets, hsets, hserver⟩
  refine ⟨sets, hsets, ?_⟩
  intro relays relayed messages htransfer hchain hdelivered
  -- what the last server receives is what was set first
  have hsame : relayed = sets := by
    rw [chain_eq hchain, if_pos (List.all_eq_true.2 htransfer)]
  rw [hsame] at hdelivered
  have hbytes := keptBytes_filter_eq_iff (writes.map Prod.snd)
  rw [List.forall_mem_map] at hbytes
  rw [hserver messages hdelivered, ← hbytes, and_comm]
  exact and_congr_left fun _ => eq_comm

/-- A server that transfers and puts no file. -/
def transferRelay : Relay :=
  { env := SvrEnv.framed .returnsBlock
    info := { plainInfo with OutputType := K2HFTFSVR_TRANS_TYPE }
    IsUnityMode := false
    OutputPath := [] }

theorem forward_transferRelay {key : Bytes} (hkey : key.length < 256 ^ 8) (value : Bytes) :
    transferRelay.forward [frame key value] = some [(key, value)] := by
  have hparse : transferRelay.env.parseBinCom (frame key value) = some (key, value) :=
    parseBinCom_frame .returnsBlock key hkey value
  have hfile : transferRelay.info.isOutputFileMode = false := by decide
  have htrans : transferRelay.info.isTransMode = true := by decide
  have hlength : transferRelay.env.scom_total_length (frame key value) = (frame key value).length := rfl
  simp [Relay.forward, processing, hparse, hfile, htrans, hlength]

/-- `a\n`, written by process 1, goes through two such servers. -/
theorem relayed_fidelity_two_servers :
    ∃ w sets messages,
      pushRun (ruleSink BuffLimits.default noRegex logRule) false 1
        K2hFtWriteBuff.fresh ([(PushEnv.zeroed, ascii "a\n")] ++ [(PushEnv.zeroed, [])]) = some w ∧
      Chain [transferRelay, transferRelay] sets sets ∧
      List.Forall₂ (Delivers (SvrEnv.framed .returnsBlock)) messages sets ∧
      serverRun (SvrEnv.framed .returnsBlock) plainInfo false (ascii "/out") messages =
        some (ascii "a\n") := by
  rcases pipeline_output BuffLimits.default noRegex logRule 1
      [(PushEnv.zeroed, ascii "a\n")] PushEnv.zeroed (SvrEnv.framed .returnsBlock) plainInfo false
      (ascii "/out") transfersAll_logRule rfl (by decide) (by simp [zeroed_allocOk])
      (linesFit_of_short (by decide) (by decide)) plainText_plainInfo with ⟨w, hrun, hbodies, -⟩
  rcases relayed_fidelity_iff BuffLimits.default noRegex logRule 1
      [(PushEnv.zeroed, ascii "a\n")] PushEnv.zeroed (SvrEnv.framed .returnsBlock) plainInfo false
      (ascii "/out") transfersAll_logRule rfl (by decide) (by simp [zeroed_allocOk])
      (linesFit_of_short (by decide) (by decide)) plainText_plainInfo with ⟨w', hrun', hpipe⟩
  obtain rfl : w = w' := Option.some.inj (hrun.symm.trans hrun')
  have hrecords : w.Stack.map K2hFtLine.body = [ascii "a\n\x00"] := by
    rw [hbodies]
    decide
  have hne : w.Stack ≠ [] := by
    intro hnil
    simp [hnil] at hrecords
  have hvalue := buildK2hFtValue_sampleValue hne (by
    rw [totallen_eq_map_body, hrecords]
    decide)
  rcases hpipe [w.Stack]
      [({ getpid := 7, set := true, put := fun _ => true, now := none }, sampleValue w.Stack)]
      (by simp) (by simp [hvalue]) with ⟨sets, hsets, hserver⟩
  rcases infoProcessing_sets { getpid := 7, set := true, put := fun _ => true, now := none } false
    transfersAll_logRule.transfer hvalue with ⟨result, effects, pRule', hproc, hset, -, -⟩
  have hsets' : sets = [(buildK2hFtKey (cStr logRule.TargetPath) 7, sampleValue w.Stack)] := by
    simpa [transferRun, hproc, hset, eq_comm] using hsets
  have hkey : (buildK2hFtKey (cStr logRule.TargetPath) 7).length < 256 ^ 8 := by decide
  have hdelivers : List.Forall₂ (Delivers (SvrEnv.framed .returnsBlock))
      [frame (buildK2hFtKey (cStr logRule.TargetPath) 7) (sampleValue w.Stack)] sets := by
    rw [hsets']
    exact List.Forall₂.cons ⟨rfl, parseBinCom_frame .returnsBlock _ hkey _⟩ List.Forall₂.nil
  have hforward : transferRelay.forward
      [frame (buildK2hFtKey (cStr logRule.TargetPath) 7) (sampleValue w.Stack)] = some sets := by
    rw [hsets']
    exact forward_transferRelay hkey _
  have hchain : Chain [transferRelay, transferRelay] sets sets :=
    .cons _ _ _ _ _ _ hdelivers hforward (.cons _ _ _ _ _ _ hdelivers hforward (.nil sets))
  refine ⟨w, sets, _, hrun, hchain, hdelivers, ?_⟩
  have htransfer : ∀ r ∈ [transferRelay, transferRelay], r.info.isTransMode = true := by
    intro r hr
    obtain rfl : r = transferRelay := by simpa using hr
    decide
  refine (hserver _ sets _ htransfer hchain hdelivers).2 ⟨?_, ?_⟩
  · intro write hwrite
    rw [List.mem_singleton.1 hwrite]
    decide
  · intro hzero
    cases hzero

end K2hFtFuse

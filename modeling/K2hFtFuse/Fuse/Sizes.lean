import K2hFtFuse.Fuse.Ownership

/-!
# Fuse.Sizes — what the size of a file tells

The files keep no data: `AccumSize` is what a file shows as its size, an `off_t` that wraps around.
`Processing` adds to it without the lock, also what it could not set in k2hash for want of a key, and
`TruncateZero` sets it to 0. A step of a run is one operation of `K2hFtInfo`, so an addition that another
thread breaks into is none.

This file defines:
* `sizeGiven`: the size by the history alone,
* `Accounts`: sizes and history agree.

and shows that in every interleaving the size of a file is what was given to k2hash, or skipped, since it
was last truncated (`size_eq_given`).
-/

namespace K2hFtFuse

open ByteSeq SpinLock Transition K2hFtInfo Outcome

/-! ## The size by the history -/

/-- The bytes given or skipped for a handle since its file was last set to 0, with `n` before that, as an
`off_t`. -/
def sizeGiven (key : Bytes) : Int64 → List AttrEvent → Int64
  | n, [] => n
  | n, .given handle value :: log =>
      sizeGiven key (if handle = key then n + Int64.ofNat value.length else n) log
  | n, .skipped handle size :: log =>
      sizeGiven key (if handle = key then n + Int64.ofNat size else n) log
  | n, .zeroed handle :: log => sizeGiven key (if handle = key then 0 else n) log

theorem sizeGiven_append (key : Bytes) (n : Int64) (log events : List AttrEvent) :
    sizeGiven key n (log ++ events) = sizeGiven key (sizeGiven key n log) events := by
  induction log generalizing n with
  | nil => rfl
  | cons e log ih =>
      cases e with
      | given handle value => exact ih _
      | skipped handle size => exact ih _
      | zeroed handle => exact ih _

/-- The event is about another file. -/
def AttrEvent.Elsewhere (key : Bytes) : AttrEvent → Prop
  | .given handle _ => handle ≠ key
  | .skipped handle _ => handle ≠ key
  | .zeroed handle => handle ≠ key

theorem sizeGiven_elsewhere {key : Bytes} {n : Int64} {events : List AttrEvent}
    (h : ∀ e ∈ events, e.Elsewhere key) : sizeGiven key n events = n := by
  induction events generalizing n with
  | nil => rfl
  | cons e events ih =>
      have hrest := ih (n := n) fun e' he' => h e' (List.mem_cons_of_mem _ he')
      cases e with
      | given handle value =>
          have hne : handle ≠ key := h _ List.mem_cons_self
          rw [sizeGiven, if_neg hne, hrest]
      | skipped handle size =>
          have hne : handle ≠ key := h _ List.mem_cons_self
          rw [sizeGiven, if_neg hne, hrest]
      | zeroed handle =>
          have hne : handle ≠ key := h _ List.mem_cons_self
          rw [sizeGiven, if_neg hne, hrest]

theorem RuleUpdate.elsewhere {s : AttrServer} {l : AttrLabel} {key key' : Bytes}
    {old : Option K2hFtRule} {rule' : K2hFtRule} {events : List AttrEvent}
    (h : RuleUpdate s l key old rule' events) (hkey : key ≠ key') :
    ∀ e ∈ events, e.Elsewhere key' := by
  intro e he
  cases h with
  | created l key rule hsize hfile => cases he
  | changed c now r rule hphase hfile => cases he
  | zeroed path now rule hfile =>
      rw [List.mem_singleton.1 he]
      exact hkey
  | touched c now key rule hhandle => cases he
  | processed c malloc env key value rule rule' result effects hhandle hprocess =>
      rcases List.mem_append.1 he with hgiven | hskipped
      · rcases List.mem_map.1 hgiven with ⟨set, -, rfl⟩
        exact hkey
      · rcases List.mem_map.1 hskipped with ⟨size, -, rfl⟩
        exact hkey

theorem length_slice? {mem v : Bytes} {size : Nat} (h : slice? mem 0 size = some v) :
    v.length = size := by
  unfold slice? at h
  split at h
  · obtain rfl := Option.some.inj h
    simp only [List.drop_zero, List.length_take]
    omega
  · cases h

/-- The size of a rule that transfers grows by what k2hash is given, or would have been given with a key. -/
theorem infoProcessing_size {malloc IsBinaryMode : Bool} {env : ProcessEnv} {rule rule' : K2hFtRule}
    {value : Bytes} {result : Bool} {effects : ProcessEffects} (htransfer : rule.IsTransfer = true)
    (h : infoProcessing malloc env IsBinaryMode rule value = some (result, effects, rule')) :
    (∃ key v, effects.sets = [(key, v)] ∧ effects.skipped = [] ∧
        rule'.AccumSize = rule.AccumSize + Int64.ofNat v.length) ∨
      ∃ size, effects.sets = [] ∧ effects.skipped = [size] ∧
        rule'.AccumSize = rule.AccumSize + Int64.ofNat size := by
  unfold infoProcessing at h
  rw [htransfer] at h
  simp only [Bool.not_true, Bool.false_and, Bool.false_eq_true, if_false] at h
  rcases Option.bind_eq_some_iff.1 h with ⟨size, -, h⟩
  rcases Option.bind_eq_some_iff.1 h with ⟨sets, hsets, h⟩
  rcases Option.bind_eq_some_iff.1 h with ⟨lines, -, h⟩
  cases h
  unfold infoSets at hsets
  cases malloc with
  | true =>
      rw [htransfer] at hsets
      rcases Option.map_eq_some_iff.1 hsets with ⟨v, hslice, rfl⟩
      exact .inl ⟨_, v, rfl, rfl, by rw [length_slice? hslice]⟩
  | false =>
      rw [htransfer] at hsets
      cases hsets
      exact .inr ⟨size, rfl, rfl, rfl⟩

/-- What an update does to the size is what it adds to the history. -/
theorem RuleUpdate.size {s : AttrServer} {l : AttrLabel} {key : Bytes} {rule rule' : K2hFtRule}
    {events : List AttrEvent} (h : RuleUpdate s l key (some rule) rule' events)
    (htransfer : rule.IsTransfer = true) :
    rule'.AccumSize = sizeGiven key rule.AccumSize events := by
  cases h with
  | changed c now r rule hphase hfile =>
      cases r.change with
      | mode perm => cases now <;> rfl
      | owner uid gid => cases now <;> rfl
      | times ts => rfl
  | zeroed path now rule hfile =>
      rw [sizeGiven, if_pos rfl, sizeGiven]
      cases now <;> rfl
  | touched c now key rule hhandle => cases now <;> rfl
  | processed c malloc env key value rule rule' result effects hhandle hprocess =>
      rcases infoProcessing_size htransfer hprocess with
        ⟨k, v, hsets, hskipped, hsize⟩ | ⟨size, hsets, hskipped, hsize⟩
      · simp [hsize, ProcessEffects.events, hsets, hskipped, sizeGiven]
      · simp [hsize, ProcessEffects.events, hsets, hskipped, sizeGiven]

namespace AttrServer

variable {env : FuseEnv} {s t : AttrServer} {l : AttrLabel}

/-- The size that a rule had before the run; a file that is made has none. -/
def sizeAt (info : K2hFtInfo) (key : Bytes) : Int64 :=
  ((info.RuleMap.find? key).map K2hFtRule.AccumSize).getD 0

/-- The sizes are those of the history, and nothing has happened to a file that is not there. -/
def Accounts (info : K2hFtInfo) (key : Bytes) (s : AttrServer) : Prop :=
  match s.rules.find? key with
  | none => sizeGiven key (sizeAt info key) s.log = 0
  | some rule => rule.IsTransfer = true → rule.AccumSize = sizeGiven key (sizeAt info key) s.log

theorem accounts_start (info : K2hFtInfo) (key : Bytes) : Accounts info key (start info) := by
  have hrules : (start info).rules = info.RuleMap := rfl
  unfold Accounts
  rw [hrules]
  cases hrule : info.RuleMap.find? key with
  | none => simp [start, sizeGiven, sizeAt, hrule]
  | some rule => simp [start, sizeGiven, sizeAt, hrule]

theorem step_accounts {info : K2hFtInfo} {key : Bytes} (hinv : Accounts info key s)
    (h : step env s l = some t) : Accounts info key t := by
  unfold Accounts at hinv ⊢
  rcases step_rules h with ⟨-, ⟨hrules, hlog⟩ | ⟨key', rule', events, hupdate, hrules, hlog⟩⟩
  · rw [hrules, hlog]
    exact hinv
  · rw [hrules, hlog, sizeGiven_append]
    by_cases hkey : key = key'
    · subst hkey
      rw [OrdMap.find?_insert_self]
      intro htransfer
      cases hold : s.rules.find? key with
      | none =>
          rw [hold] at hupdate hinv
          cases hupdate with
          | created l key rule hsize hfile =>
              rw [hinv, hsize]
              rfl
      | some rule =>
          rw [hold] at hupdate hinv
          have hbefore : rule.IsTransfer = true := by
            have hkept := hupdate.kept rfl
            rw [hkept.others] at htransfer
            exact htransfer
          rw [← hinv hbefore]
          exact hupdate.size hbefore
    · rw [OrdMap.find?_insert_ne _ _ hkey,
        sizeGiven_elsewhere (hupdate.elsewhere fun heq => hkey heq.symm)]
      exact hinv

/-- However the operations interleave, the size of a file whose rule transfers is the number of bytes given
to k2hash for its handle, or skipped for want of a key, since it was last truncated. -/
theorem size_eq_given (env : FuseEnv) (info : K2hFtInfo) {labels : List AttrLabel}
    (hrun : run (step env) (start info) labels = some t) {key : Bytes} {rule : K2hFtRule}
    (hrule : t.rules.find? key = some rule) (htransfer : rule.IsTransfer = true) :
    rule.AccumSize = sizeGiven key (sizeAt info key) t.log := by
  have hinv : Accounts info key t :=
    invariant_run (fun s l t hs hstep => step_accounts hs hstep) hrun (accounts_start info key)
  rw [Accounts, hrule] at hinv
  exact hinv htransfer

/-- After a truncation the size counts what is given later, and what is skipped. -/
theorem size_after_truncate :
    ∃ t rule,
      run (step ⟨4096, fun _ _ _ => false⟩) (start transferDirectory)
          (ownerSteps ++ [.truncate (ascii "/log/a") 0 none,
            .processing 1 true transferEnv (sampleValue [lineA, lineA]),
            .processing 1 false transferEnv (sampleValue [lineA])]) = some t ∧
        t.log.length = 4 ∧ t.rules.find? (ascii "log/a") = some rule ∧
        rule.AccumSize = Int64.ofNat
          ((sampleValue [lineA, lineA]).length + (sampleValue [lineA]).length) ∧
        rule.AccumSize = sizeGiven (ascii "log/a") (sizeAt transferDirectory (ascii "log/a")) t.log := by
  have hrun : (run (step ⟨4096, fun _ _ _ => false⟩) (start transferDirectory)
      (ownerSteps ++ [.truncate (ascii "/log/a") 0 none,
        .processing 1 true transferEnv (sampleValue [lineA, lineA]),
        .processing 1 false transferEnv (sampleValue [lineA])])).map
        (fun t => (t.log.length, (t.rules.find? (ascii "log/a")).map fun rule =>
          (rule.IsTransfer, rule.AccumSize))) =
      some (4, some (true, Int64.ofNat
        ((sampleValue [lineA, lineA]).length + (sampleValue [lineA]).length))) := by
    decide +kernel
  rcases Option.map_eq_some_iff.1 hrun with ⟨t, ht, hstate⟩
  rcases Option.map_eq_some_iff.1 (congrArg Prod.snd hstate) with ⟨rule, hrule, hfields⟩
  have htransfer : rule.IsTransfer = true := congrArg Prod.fst hfields
  exact ⟨t, rule, ht, congrArg Prod.fst hstate, hrule, congrArg Prod.snd hfields,
    size_eq_given _ _ ht hrule htransfer⟩

end AttrServer

end K2hFtFuse

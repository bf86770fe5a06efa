import K2hFtFuse.Info.Loaded

/-!
# Info.QuotedList — the values of `ALLOW` and `DENY`

`parse_ini_value` cuts a value at its commas and takes a piece that ends in a double quote, blanks
aside, for the end of an item. `Undivided` texts have no such comma: the loop only moves them to its
stack.
-/

namespace K2hFtFuse

open ByteSeq

variable {lib : ConfLib} {blank : UInt8 → Bool}

/-- A text that ends in a double quote, blanks aside. -/
def EndsQuoted (blank : UInt8 → Bool) (s : Bytes) : Prop :=
  ∃ front gap, s = front ++ INI_VALUE_AREA_CHAR :: gap ∧ ∀ c ∈ gap, blank c = true

theorem rdropWhile_quote (hquote : blank INI_VALUE_AREA_CHAR = false) (front : Bytes) {gap : Bytes}
    (hgap : ∀ c ∈ gap, blank c = true) :
    (front ++ INI_VALUE_AREA_CHAR :: gap).rdropWhile blank = front ++ [INI_VALUE_AREA_CHAR] := by
  induction gap using List.reverseRecOn with
  | nil =>
      exact List.rdropWhile_concat_neg blank front INI_VALUE_AREA_CHAR (by simp [hquote])
  | append_singleton gap c ih =>
      have hc : blank c = true := hgap c (by simp)
      have hrest : ∀ d ∈ gap, blank d = true := fun d hd => hgap d (by simp [hd])
      rw [← List.cons_append, ← List.append_assoc, List.rdropWhile_concat_pos blank _ _ hc]
      exact ih hrest

theorem getLast?_rdropWhile_iff (hquote : blank INI_VALUE_AREA_CHAR = false) (s : Bytes) :
    (s.rdropWhile blank).getLast? = some INI_VALUE_AREA_CHAR ↔ EndsQuoted blank s := by
  constructor
  · intro hlast
    rcases List.getLast?_eq_some_iff.1 hlast with ⟨front, hfront⟩
    refine ⟨front, s.rtakeWhile blank, ?_, ?_⟩
    · calc s = s.rdropWhile blank ++ s.rtakeWhile blank := by
              rw [List.rdropWhile, List.rtakeWhile, ← List.reverse_append,
                List.takeWhile_append_dropWhile, List.reverse_reverse]
        _ = _ := by
              rw [hfront, List.append_assoc, List.singleton_append]
    · intro c hc
      exact List.mem_rtakeWhile_imp hc
  · rintro ⟨front, gap, rfl, hgap⟩
    rw [rdropWhile_quote hquote front hgap]
    simp

/-! ## The loop without its fuel -/

theorem splitFirst_append {c : UInt8} {p : Bytes} (hp : c ∉ p) (q : Bytes) :
    splitFirst c (p ++ c :: q) = (p, q) := by
  have hall : ∀ b ∈ p, (decide (b ≠ c)) = true := by
    intro b hb
    exact decide_eq_true fun hbc => hp (hbc ▸ hb)
  unfold splitFirst
  rw [List.takeWhile_append_of_pos hall, List.dropWhile_append_of_pos hall]
  simp

theorem exists_splitFirst {c : UInt8} {s : Bytes} (h : c ∈ s) :
    ∃ p q, s = p ++ c :: q ∧ c ∉ p := by
  exact List.eq_append_cons_of_mem h

/-- The rounds that are left do not matter once there is one for every character. -/
theorem parseIniValueLoop_fuel (h : lib.TrimsBlanks blank) {fuel : Nat} {tempval : Bytes}
    (hfuel : tempval.length ≤ fuel) (tempstack : Bytes) (values : List Bytes) :
    parseIniValueLoop lib fuel tempstack tempval values =
      parseIniValueLoop lib tempval.length tempstack tempval values := by
  induction hn : tempval.length using Nat.strong_induction_on
    generalizing fuel tempval tempstack values with
  | _ n ih =>
      subst hn
      rcases tempval with _ | ⟨c, cs⟩
      · cases fuel <;> rfl
      · rcases fuel with _ | fuel
        · simp at hfuel
        · simp only [List.length_cons, Nat.add_le_add_iff_right] at hfuel ih ⊢
          by_cases hcomma : INI_VALUE_SEP_CHAR ∈ c :: cs
          · rcases exists_splitFirst hcomma with ⟨p, q, hsplit, hp⟩
            have hlen : q.length ≤ cs.length := by
              have hcong := congrArg List.length hsplit
              simp only [List.length_cons, List.length_append] at hcong
              omega
            have htrim : (lib.ltrim q).length ≤ cs.length := by
              rw [h.ltrim]
              exact Nat.le_trans (List.dropWhile_suffix blank).length_le hlen
            -- a shorter rest needs as many rounds with either fuel
            have hsame : ∀ t : Bytes, t.length ≤ cs.length → ∀ stack vs,
                parseIniValueLoop lib fuel stack t vs =
                  parseIniValueLoop lib cs.length stack t vs := by
              intro t ht stack vs
              rw [ih t.length (by omega) (Nat.le_trans ht hfuel) stack vs rfl,
                ih t.length (by omega) ht stack vs rfl]
            simp only [parseIniValueLoop, hsplit, splitFirst_append hp, hsame q hlen,
              hsame _ htrim]
          · simp only [parseIniValueLoop, if_neg hcomma]

/-- The loop of `parse_ini_value` on `tempval`. -/
def parseIniValueFrom (lib : ConfLib) (tempstack tempval : Bytes) (values : List Bytes) :
    List Bytes :=
  parseIniValueLoop lib tempval.length tempstack tempval values

@[simp] theorem parseIniValueFrom_nil (tempstack : Bytes) (values : List Bytes) :
    parseIniValueFrom lib tempstack [] values = values := rfl

theorem parseIniValueFrom_noComma {tempval : Bytes} (hne : tempval ≠ [])
    (hcomma : INI_VALUE_SEP_CHAR ∉ tempval) (tempstack : Bytes) (values : List Bytes) :
    parseIniValueFrom lib tempstack tempval values = values ++ [tempstack ++ tempval] := by
  rcases tempval with _ | ⟨c, cs⟩
  · exact absurd rfl hne
  · simp only [parseIniValueFrom, List.length_cons, parseIniValueLoop, if_neg hne, if_neg hcomma]

/-- One round at the first comma. -/
theorem parseIniValueFrom_comma (h : lib.TrimsBlanks blank) {p : Bytes}
    (hp : INI_VALUE_SEP_CHAR ∉ p) (q tempstack : Bytes) (values : List Bytes) :
    parseIniValueFrom lib tempstack (p ++ INI_VALUE_SEP_CHAR :: q) values =
      if (p.rdropWhile blank).getLast? = some INI_VALUE_AREA_CHAR then
        if q.dropWhile blank ≠ [] ∧
            (q.dropWhile blank).head? ≠ some INI_VALUE_AREA_CHAR then
          values ++ [tempstack ++ p.rdropWhile blank] ++ [q.dropWhile blank]
        else
          parseIniValueFrom lib [] (q.dropWhile blank)
            (values ++ [tempstack ++ p.rdropWhile blank])
      else
        parseIniValueFrom lib (tempstack ++ p ++ [INI_VALUE_SEP_CHAR]) q values := by
  have hlen : (p ++ INI_VALUE_SEP_CHAR :: q).length = (p.length + q.length) + 1 := by
    simp only [List.length_append, List.length_cons]
    omega
  have hq : q.length ≤ p.length + q.length := Nat.le_add_left _ _
  have htrim : (q.dropWhile blank).length ≤ p.length + q.length :=
    Nat.le_trans (List.dropWhile_suffix blank).length_le hq
  have hmem : INI_VALUE_SEP_CHAR ∈ p ++ INI_VALUE_SEP_CHAR :: q := by simp
  have hne : p ++ INI_VALUE_SEP_CHAR :: q ≠ [] := by simp
  simp only [parseIniValueFrom, hlen, parseIniValueLoop, if_neg hne, if_pos hmem,
    splitFirst_append hp, h.rtrim, h.ltrim]
  rw [parseIniValueLoop_fuel h hq, parseIniValueLoop_fuel h htrim]

/-- A piece that does not end an item goes to the stack. -/
theorem parseIniValueFrom_stack (h : lib.TrimsBlanks blank) {p : Bytes}
    (hp : INI_VALUE_SEP_CHAR ∉ p) (hend : ¬ EndsQuoted blank p) (q tempstack : Bytes)
    (values : List Bytes) :
    parseIniValueFrom lib tempstack (p ++ INI_VALUE_SEP_CHAR :: q) values =
      parseIniValueFrom lib (tempstack ++ p ++ [INI_VALUE_SEP_CHAR]) q values := by
  rw [parseIniValueFrom_comma h hp, if_neg]
  rwa [getLast?_rdropWhile_iff h.quote]

/-- The loop only adds values. -/
theorem prefix_parseIniValueFrom (h : lib.TrimsBlanks blank) (tempstack tempval : Bytes)
    (values : List Bytes) : values <+: parseIniValueFrom lib tempstack tempval values := by
  induction hn : tempval.length using Nat.strong_induction_on
    generalizing tempval tempstack values with
  | _ n ih =>
      subst hn
      by_cases hcomma : INI_VALUE_SEP_CHAR ∈ tempval
      · rcases exists_splitFirst hcomma with ⟨p, q, rfl, hp⟩
        have hq : q.length < (p ++ INI_VALUE_SEP_CHAR :: q).length := by
          simp only [List.length_append, List.length_cons]
          omega
        have htrim : (q.dropWhile blank).length < (p ++ INI_VALUE_SEP_CHAR :: q).length :=
          Nat.lt_of_le_of_lt (List.dropWhile_suffix blank).length_le hq
        rw [parseIniValueFrom_comma h hp]
        split
        · split
          · -- the rest does not begin with a quote, so it is the last value
            rw [List.append_assoc]
            exact List.prefix_append _ _
          · exact (List.prefix_append _ _).trans (ih _ htrim _ _ _ rfl)
        · exact ih _ hq _ _ _ rfl
      · by_cases hne : tempval = []
        · subst hne
          simp
        · rw [parseIniValueFrom_noComma hne hcomma]
          exact List.prefix_append _ _

/-- A piece that ends an item makes a value of it. -/
theorem prefix_parseIniValueFrom_quote (h : lib.TrimsBlanks blank) {front gap : Bytes}
    (hp : INI_VALUE_SEP_CHAR ∉ front ++ INI_VALUE_AREA_CHAR :: gap)
    (hgap : ∀ c ∈ gap, blank c = true) (q tempstack : Bytes) (values : List Bytes) :
    values ++ [tempstack ++ (front ++ [INI_VALUE_AREA_CHAR])] <+:
      parseIniValueFrom lib tempstack
        (front ++ INI_VALUE_AREA_CHAR :: gap ++ INI_VALUE_SEP_CHAR :: q) values := by
  have hend : EndsQuoted blank (front ++ INI_VALUE_AREA_CHAR :: gap) := ⟨front, gap, rfl, hgap⟩
  rw [parseIniValueFrom_comma h hp, if_pos ((getLast?_rdropWhile_iff h.quote _).2 hend),
    rdropWhile_quote h.quote front hgap]
  split
  · exact List.prefix_append _ _
  · exact prefix_parseIniValueFrom h _ _ _

/-! ## Texts without the end of an item -/

/-- No comma of the text stands behind a double quote, blanks aside. -/
def Undivided (blank : UInt8 → Bool) (s : Bytes) : Prop :=
  ∀ p q, s = p ++ INI_VALUE_SEP_CHAR :: q → ¬ EndsQuoted blank p

theorem undivided_of_noComma {s : Bytes} (h : INI_VALUE_SEP_CHAR ∉ s) : Undivided blank s := by
  intro p q hs
  exact absurd (by simp [hs]) h

/-- Being undivided, told at the first comma. -/
theorem undivided_comma_iff (hcomma : blank INI_VALUE_SEP_CHAR = false) {p : Bytes}
    (hp : INI_VALUE_SEP_CHAR ∉ p) (q : Bytes) :
    Undivided blank (p ++ INI_VALUE_SEP_CHAR :: q) ↔ ¬ EndsQuoted blank p ∧ Undivided blank q := by
  constructor
  · intro h
    refine ⟨h p q rfl, ?_⟩
    rintro p' q' rfl ⟨front, gap, rfl, hgap⟩
    refine h (p ++ INI_VALUE_SEP_CHAR :: (front ++ INI_VALUE_AREA_CHAR :: gap)) q' (by simp) ?_
    exact ⟨p ++ INI_VALUE_SEP_CHAR :: front, gap, by simp, hgap⟩
  · rintro ⟨hend, hq⟩ p' q' hsplit
    rcases List.append_eq_append_iff.1 hsplit with ⟨mid, rfl, hmid⟩ | ⟨mid, rfl, hmid⟩
    · rcases mid with _ | ⟨d, mid⟩
      · simpa using hend
      · simp only [List.cons_append, List.cons.injEq] at hmid
        obtain ⟨rfl, rfl⟩ := hmid
        rintro ⟨front, gap, hfront, hgap⟩
        -- the blanks behind the quote hold no comma, so the quote stands behind the first one
        rcases List.append_eq_append_iff.1 hfront with ⟨front', rfl, hrest⟩ | ⟨gap', rfl, hrest⟩
        · rcases front' with _ | ⟨d, front'⟩
          · simp [INI_VALUE_SEP_CHAR, INI_VALUE_AREA_CHAR] at hrest
          · simp only [List.cons_append, List.cons.injEq] at hrest
            exact hq mid q' rfl ⟨front', gap, hrest.2, hgap⟩
        · have hin : INI_VALUE_SEP_CHAR ∈ gap := by
            rcases gap' with _ | ⟨d, gap'⟩
            · simp [INI_VALUE_SEP_CHAR, INI_VALUE_AREA_CHAR] at hrest
            · simp only [List.cons_append, List.cons.injEq] at hrest
              rw [hrest.2]
              simp
          exact absurd (hgap _ hin) (by simp [hcomma])
    · rcases mid with _ | ⟨d, mid⟩
      · simpa using hend
      · simp only [List.cons_append, List.cons.injEq] at hmid
        exact absurd (by simp [hmid.1]) hp

/-- The loop moves an undivided text to its stack, up to the part behind its last comma. -/
theorem parseIniValueFrom_undivided (h : lib.TrimsBlanks blank) {u : Bytes}
    (hu : Undivided blank u) :
    ∃ u₁ u₂, u = u₁ ++ u₂ ∧ INI_VALUE_SEP_CHAR ∉ u₂ ∧
      (u₁ = [] ∨ u₁.getLast? = some INI_VALUE_SEP_CHAR) ∧
      ∀ tempstack t values, parseIniValueFrom lib tempstack (u ++ t) values =
        parseIniValueFrom lib (tempstack ++ u₁) (u₂ ++ t) values := by
  induction hn : u.length using Nat.strong_induction_on generalizing u with
  | _ n ih =>
      subst hn
      by_cases hcomma : INI_VALUE_SEP_CHAR ∈ u
      · rcases exists_splitFirst hcomma with ⟨p, q, rfl, hp⟩
        rcases (undivided_comma_iff h.comma hp q).1 hu with ⟨hend, hq⟩
        have hlen : q.length < (p ++ INI_VALUE_SEP_CHAR :: q).length := by
          simp only [List.length_append, List.length_cons]
          omega
        rcases ih _ hlen hq rfl with ⟨u₁, u₂, rfl, hu₂, hu₁, hrun⟩
        refine ⟨p ++ INI_VALUE_SEP_CHAR :: u₁, u₂, by simp, hu₂, .inr ?_, ?_⟩
        · rcases hu₁ with rfl | hlast
          · simp
          · rw [List.getLast?_append, List.getLast?_cons, hlast]
            rfl
        · -- one round puts `p` and its comma on the stack, the others what follows
          intro tempstack t values
          have hstep := parseIniValueFrom_stack h hp hend (u₁ ++ u₂ ++ t) tempstack values
          rw [hrun] at hstep
          simpa using hstep
      · exact ⟨[], u, rfl, hcomma, .inl rfl, fun _ _ _ => by simp⟩

/-- A text that is not undivided gives a value. -/
theorem parseIniValueFrom_ne_nil (h : lib.TrimsBlanks blank) {u : Bytes}
    (hu : ¬ Undivided blank u) (tempstack : Bytes) (values : List Bytes) :
    parseIniValueFrom lib tempstack u values ≠ [] := by
  induction hn : u.length using Nat.strong_induction_on generalizing u tempstack with
  | _ n ih =>
      subst hn
      by_cases hcomma : INI_VALUE_SEP_CHAR ∈ u
      · rcases exists_splitFirst hcomma with ⟨p, q, rfl, hp⟩
        by_cases hend : EndsQuoted blank p
        · -- `p` ends an item, and values are only added from here on
          rcases hend with ⟨front, gap, rfl, hgap⟩
          have hprefix := prefix_parseIniValueFrom_quote h hp hgap q tempstack values
          intro hnil
          rw [hnil, List.prefix_nil] at hprefix
          simp at hprefix
        · have hq : ¬ Undivided blank q := by
            intro hq
            exact hu ((undivided_comma_iff h.comma hp q).2 ⟨hend, hq⟩)
          rw [parseIniValueFrom_stack h hp hend]
          exact ih q.length (by simp only [List.length_append, List.length_cons]; omega) hq _ rfl
      · exact absurd (undivided_of_noComma hcomma) hu

/-! ## Lists of quoted items -/

/-- Quoted items joined by commas, with blanks after each comma. -/
def joinQuoted (item : Bytes) : List (Bytes × Bytes) → Bytes
  | [] => quoted item
  | (gap, next) :: rest =>
      quoted item ++ INI_VALUE_SEP_CHAR :: (gap ++ joinQuoted next rest)

/-- The item does not begin with a comma, blanks aside. -/
def NoLeadingComma (blank : UInt8 → Bool) (item : Bytes) : Prop :=
  (item.dropWhile blank).head? ≠ some INI_VALUE_SEP_CHAR

theorem joinQuoted_eq_cons (item : Bytes) (rest : List (Bytes × Bytes)) :
    ∃ more, joinQuoted item rest = INI_VALUE_AREA_CHAR :: more := by
  rcases rest with _ | ⟨⟨gap, next⟩, rest⟩
  · exact ⟨_, rfl⟩
  · exact ⟨_, rfl⟩

/-- The opening quote is taken for the end of an item exactly before a leading comma. -/
theorem undivided_quote_iff (h : lib.TrimsBlanks blank) {item : Bytes}
    (hitem : INI_VALUE_AREA_CHAR ∉ item) :
    Undivided blank (INI_VALUE_AREA_CHAR :: item) ↔ NoLeadingComma blank item := by
  constructor
  · intro hu hhead
    rcases hdrop : item.dropWhile blank with _ | ⟨c, q⟩
    · simp [hdrop] at hhead
    · rw [hdrop, List.head?_cons, Option.some.injEq] at hhead
      subst hhead
      refine hu (INI_VALUE_AREA_CHAR :: item.takeWhile blank) q ?_ ⟨[], _, rfl, ?_⟩
      · rw [List.cons_append, ← hdrop, List.takeWhile_append_dropWhile]
      · exact fun c hc => List.mem_takeWhile_imp hc
  · rintro hhead p q hsplit ⟨front, gap, rfl, hgap⟩
    rcases front with _ | ⟨d, front⟩
    · -- the quote before the comma is the opening one
      simp only [List.nil_append, List.cons_append, List.cons.injEq, true_and] at hsplit
      refine hhead ?_
      rw [hsplit, List.dropWhile_append_of_pos hgap, List.dropWhile_cons, h.comma]
      rfl
    · simp only [List.cons_append, List.cons.injEq] at hsplit
      exact hitem (by rw [hsplit.2]; simp)

/-- What the loop makes of an item that it leaves whole. -/
theorem parseIniValueFrom_quoted (h : lib.TrimsBlanks blank) {item : Bytes}
    (hu : Undivided blank (INI_VALUE_AREA_CHAR :: item)) (values : List Bytes) :
    parseIniValueFrom lib [] (quoted item) values = values ++ [quoted item] ∧
      ∀ q, (∃ more, q.dropWhile blank = INI_VALUE_AREA_CHAR :: more) →
        parseIniValueFrom lib [] (quoted item ++ INI_VALUE_SEP_CHAR :: q) values =
          parseIniValueFrom lib [] (q.dropWhile blank) (values ++ [quoted item]) := by
  rcases parseIniValueFrom_undivided h hu with ⟨u₁, u₂, hsplit, hu₂, -, hrun⟩
  have hquoted : quoted item = u₁ ++ (u₂ ++ [INI_VALUE_AREA_CHAR]) := by
    rw [quoted, hsplit, List.append_assoc]
  have hcomma : INI_VALUE_SEP_CHAR ∉ u₂ ++ [INI_VALUE_AREA_CHAR] := by
    simpa [INI_VALUE_SEP_CHAR, INI_VALUE_AREA_CHAR] using hu₂
  constructor
  · calc parseIniValueFrom lib [] (quoted item) values
        = parseIniValueFrom lib u₁ (u₂ ++ [INI_VALUE_AREA_CHAR]) values := by
          rw [quoted, hrun, List.nil_append]
      _ = values ++ [quoted item] := by
          rw [parseIniValueFrom_noComma (by simp) hcomma, hquoted]
  · rintro q ⟨more, hmore⟩
    -- the closing quote is no blank, so trimming takes nothing away
    have htrim : (u₂ ++ [INI_VALUE_AREA_CHAR]).rdropWhile blank = u₂ ++ [INI_VALUE_AREA_CHAR] :=
      rdropWhile_quote h.quote u₂ (by simp)
    calc parseIniValueFrom lib [] (quoted item ++ INI_VALUE_SEP_CHAR :: q) values
        = parseIniValueFrom lib u₁
            (u₂ ++ [INI_VALUE_AREA_CHAR] ++ INI_VALUE_SEP_CHAR :: q) values := by
          rw [quoted, List.append_assoc, hrun, List.nil_append,
            List.append_assoc]
      _ = parseIniValueFrom lib [] (q.dropWhile blank)
            (values ++ [u₁ ++ (u₂ ++ [INI_VALUE_AREA_CHAR])]) := by
          rw [parseIniValueFrom_comma h hcomma, htrim, if_pos (by simp), if_neg (by simp [hmore])]
      _ = _ := by
          rw [← hquoted]

/-- What the loop makes of an item with a leading comma: a value that is the opening quote. -/
theorem parseIniValueFrom_leadingComma (h : lib.TrimsBlanks blank) {item : Bytes}
    (hlead : ¬ NoLeadingComma blank item) (more : Bytes) (values : List Bytes) :
    values ++ [[INI_VALUE_AREA_CHAR]] <+:
      parseIniValueFrom lib [] (quoted item ++ more) values := by
  rw [NoLeadingComma, not_not] at hlead
  rcases hdrop : item.dropWhile blank with _ | ⟨c, q⟩
  · simp [hdrop] at hlead
  · rw [hdrop, List.head?_cons, Option.some.injEq] at hlead
    subst hlead
    have hgap : ∀ c ∈ item.takeWhile blank, blank c = true := fun c hc => List.mem_takeWhile_imp hc
    have hp : INI_VALUE_SEP_CHAR ∉ [] ++ INI_VALUE_AREA_CHAR :: item.takeWhile blank := by
      intro hin
      rcases List.mem_cons.1 hin with heq | hin
      · simp [INI_VALUE_SEP_CHAR, INI_VALUE_AREA_CHAR] at heq
      · exact absurd (hgap _ hin) (by simp [h.comma])
    -- the opening quote and the blanks are the piece before the first comma
    have hsplit : quoted item ++ more =
        [] ++ INI_VALUE_AREA_CHAR :: item.takeWhile blank ++
          INI_VALUE_SEP_CHAR :: (q ++ [INI_VALUE_AREA_CHAR] ++ more) := by
      rw [quoted]
      conv => lhs; rw [← List.takeWhile_append_dropWhile (p := blank) (l := item), hdrop]
      simp
    rw [hsplit]
    simpa using prefix_parseIniValueFrom_quote h hp hgap (q ++ [INI_VALUE_AREA_CHAR] ++ more) []
      values

theorem parseIniValueFrom_joinQuoted_iff (h : lib.TrimsBlanks blank) {item : Bytes}
    {rest : List (Bytes × Bytes)} (hitem : INI_VALUE_AREA_CHAR ∉ item)
    (hrest : ∀ e ∈ rest, (∀ c ∈ e.1, blank c = true) ∧ INI_VALUE_AREA_CHAR ∉ e.2)
    (values : List Bytes) :
    parseIniValueFrom lib [] (joinQuoted item rest) values =
        values ++ (item :: rest.map Prod.snd).map quoted ↔
      ∀ i ∈ item :: rest.map Prod.snd, NoLeadingComma blank i := by
  induction rest generalizing item values with
  | nil =>
      by_cases hlead : NoLeadingComma blank item
      · have hrun := (parseIniValueFrom_quoted h ((undivided_quote_iff h hitem).2 hlead) values).1
        simp [joinQuoted, hrun, hlead]
      · refine iff_of_false ?_ fun hall => hlead (hall item (by simp))
        intro heq
        have hprefix := parseIniValueFrom_leadingComma h hlead [] values
        rw [List.append_nil] at hprefix
        simp only [joinQuoted] at heq
        rw [heq, List.prefix_append_right_inj] at hprefix
        simp [quoted] at hprefix
  | cons e rest ih =>
      rcases e with ⟨gap, next⟩
      have hgap : ∀ c ∈ gap, blank c = true := (hrest (gap, next) (by simp)).1
      have hnext : INI_VALUE_AREA_CHAR ∉ next := (hrest (gap, next) (by simp)).2
      have hrest' : ∀ e ∈ rest, (∀ c ∈ e.1, blank c = true) ∧ INI_VALUE_AREA_CHAR ∉ e.2 :=
        fun e he => hrest e (by simp [he])
      by_cases hlead : NoLeadingComma blank item
      · rcases joinQuoted_eq_cons next rest with ⟨more, hmore⟩
        have hdrop : (gap ++ joinQuoted next rest).dropWhile blank = joinQuoted next rest := by
          rw [List.dropWhile_append_of_pos hgap, hmore, List.dropWhile_cons, h.quote]
          rfl
        have hrun := (parseIniValueFrom_quoted h ((undivided_quote_iff h hitem).2 hlead) values).2
          (gap ++ joinQuoted next rest) ⟨more, by rw [hdrop, hmore]⟩
        rw [hdrop] at hrun
        have hih := ih hnext hrest' (values ++ [quoted item])
        rw [joinQuoted, hrun]
        simpa [hlead] using hih
      · refine iff_of_false ?_ fun hall => hlead (hall item (by simp))
        intro heq
        have hprefix := parseIniValueFrom_leadingComma h hlead
          (INI_VALUE_SEP_CHAR :: (gap ++ joinQuoted next rest)) values
        rw [joinQuoted] at heq
        rw [heq, List.prefix_append_right_inj] at hprefix
        simp [quoted] at hprefix

theorem parseIniValue_of_quote {value : Bytes} (hhead : value.head? = some INI_VALUE_AREA_CHAR) :
    parseIniValue lib value = parseIniValueFrom lib [] value [] := by
  have hne : value ≠ [] := by
    rintro rfl
    simp at hhead
  rw [parseIniValue, if_neg hne, if_neg (by simp [hhead])]
  rfl

/-- Items without double quotes, each written between quotes and joined by commas with blanks after
them, come back exactly when none begins with a comma, blanks aside. -/
theorem parseIniValue_joinQuoted_iff (h : lib.TrimsBlanks blank) {item : Bytes}
    {rest : List (Bytes × Bytes)} (hitem : INI_VALUE_AREA_CHAR ∉ item)
    (hrest : ∀ e ∈ rest, (∀ c ∈ e.1, blank c = true) ∧ INI_VALUE_AREA_CHAR ∉ e.2) :
    parseIniValue lib (joinQuoted item rest) = (item :: rest.map Prod.snd).map quoted ↔
      ∀ i ∈ item :: rest.map Prod.snd, NoLeadingComma blank i := by
  rcases joinQuoted_eq_cons item rest with ⟨more, hmore⟩
  rw [parseIniValue_of_quote (by rw [hmore]; rfl)]
  simpa using parseIniValueFrom_joinQuoted_iff h hitem hrest []

/-- Two items with commas and blanks inside. -/
theorem parseIniValue_joinQuoted_iff_two :
    parseIniValue plainLib (joinQuoted (ascii "a, b") [([32], ascii "$1,,$3 ")]) =
        (ascii "a, b" :: [(([32] : Bytes), ascii "$1,,$3 ")].map Prod.snd).map quoted ↔
      ∀ i ∈ ascii "a, b" :: [(([32] : Bytes), ascii "$1,,$3 ")].map Prod.snd,
        NoLeadingComma isspace i :=
  parseIniValue_joinQuoted_iff plainLib_trimsBlanks (by decide +kernel) (by decide +kernel)

/-- The opening quote of an item with a leading comma is taken for its end. -/
theorem leadingComma_divides :
    parseIniValue plainLib (joinQuoted (ascii ",$1") []) ≠ [ascii ",$1"].map quoted := by
  decide +kernel

/-! ## Values that leave nothing -/

/-- The loop never comes to an end of an item, and its last round leaves nothing to add: the value
stays on the stack. -/
def LeftOnStack (blank : UInt8 → Bool) (value : Bytes) : Prop :=
  value.head? = some INI_VALUE_AREA_CHAR ∧ value.getLast? = some INI_VALUE_SEP_CHAR ∧
    Undivided blank value

theorem parseIniValue_eq_nil_iff (h : lib.TrimsBlanks blank) {value : Bytes} (hne : value ≠ []) :
    parseIniValue lib value = [] ↔ LeftOnStack blank value := by
  by_cases hhead : value.head? = some INI_VALUE_AREA_CHAR
  · rw [parseIniValue_of_quote hhead]
    by_cases hu : Undivided blank value
    · rcases parseIniValueFrom_undivided h hu with ⟨u₁, u₂, rfl, hu₂, hu₁, hrun⟩
      have hstack := hrun [] [] []
      simp only [List.append_nil, List.nil_append] at hstack
      rw [hstack]
      by_cases hnil : u₂ = []
      · -- the value ends in a comma, and its whole text is on the stack
        subst hnil
        rcases hu₁ with rfl | hlast
        · simp at hne
        · rw [List.append_nil] at hhead hu ⊢
          simp [LeftOnStack, hhead, hlast, hu]
      · rw [parseIniValueFrom_noComma hnil hu₂]
        refine iff_of_false (by simp) ?_
        rintro ⟨-, hlast, -⟩
        rw [List.getLast?_append_of_ne_nil _ hnil] at hlast
        exact hu₂ (List.mem_of_getLast? hlast)
    · exact iff_of_false (parseIniValueFrom_ne_nil h hu _ _) fun hleft => hu hleft.2.2
  · have hone : parseIniValue lib value = [value] := by
      rw [parseIniValue, if_neg hne, if_pos hhead]
    rw [hone]
    exact iff_of_false (by simp) fun hleft => hhead hleft.1

/-- A pattern that is built from a text is not the one of every line. -/
theorem buildMatchPattern_ne_any (regcomp : Bytes → Bool) (compptn replaceptn : Bytes) :
    buildMatchPattern regcomp compptn replaceptn ≠ some K2hFtMatchPtn.any := by
  intro hany
  simp only [buildMatchPattern] at hany
  by_cases hne : compptn = []
  · simp [hne] at hany
  · rw [if_neg hne] at hany
    split_ifs at hany <;> simp_all [K2hFtMatchPtn.any]

theorem iniPattern_eq_any_iff (env : LoadEnv) (value : Bytes) :
    iniPattern lib env value = some K2hFtMatchPtn.any ↔ parseIniValue lib value = [] := by
  unfold iniPattern
  split
  · rename_i hvalues
    simp [hvalues]
  · rename_i hvalues
    exact iff_of_false (buildMatchPattern_ne_any _ _ _) (by simp [hvalues])
  · rename_i hvalues
    exact iff_of_false (buildMatchPattern_ne_any _ _ _) (by simp [hvalues])
  · rename_i hnil _ _
    exact iff_of_false (by simp) hnil

/-- A line of a rule section adds the pattern that every line matches. -/
def InstallsAny (lib : ConfLib) (sec : IniRule) (line : IniLine) : Prop :=
  (loadIniRuleLine lib sec line).AllowMatchs = sec.AllowMatchs ++ [K2hFtMatchPtn.any] ∨
    (loadIniRuleLine lib sec line).DenyMatchs = sec.DenyMatchs ++ [K2hFtMatchPtn.any]

theorem installsAny_iff (sec : IniRule) {line : IniLine} {key value : Bytes}
    (hline : parseIniLine lib line.text = (key, value))
    (hkey : key = ascii "ALLOW" ∨ key = ascii "DENY") :
    InstallsAny lib sec line ↔ iniPattern lib line.env value = some K2hFtMatchPtn.any := by
  unfold InstallsAny loadIniRuleLine
  simp only [hline, if_pos hkey]
  rcases iniPattern lib line.env value with _ | pMatchPtn
  · simp
  · by_cases hallow : key = ascii "ALLOW"
    · simp [hallow]
    · simp [hallow]

/-- A non-empty `ALLOW` or `DENY` value gives elements, and not the pattern of every line, exactly
when it is not left on the stack. -/
theorem loadIniRuleLine_not_any_iff (h : lib.TrimsBlanks blank) (sec : IniRule) {line : IniLine}
    {key value : Bytes} (hline : parseIniLine lib line.text = (key, value))
    (hkey : key = ascii "ALLOW" ∨ key = ascii "DENY") (hne : value ≠ []) :
    parseIniValue lib value ≠ [] ∧ ¬ InstallsAny lib sec line ↔ ¬ LeftOnStack blank value := by
  rw [installsAny_iff sec hline hkey, iniPattern_eq_any_iff, and_self]
  exact not_congr (parseIniValue_eq_nil_iff h hne)

/-- The rule line `DENY = "x", "y"`. -/
def denyTwoLine : IniLine :=
  { text := ascii "DENY = \"x\", \"y\""
    env := plainEnv }

theorem loadIniRuleLine_not_any_iff_two :
    parseIniValue plainLib (ascii "\"x\", \"y\"") ≠ [] ∧
        ¬ InstallsAny plainLib IniRule.fresh denyTwoLine ↔
      ¬ LeftOnStack isspace (ascii "\"x\", \"y\"") :=
  loadIniRuleLine_not_any_iff plainLib_trimsBlanks IniRule.fresh
    (show parseIniLine plainLib denyTwoLine.text = (ascii "DENY", ascii "\"x\", \"y\"") by
      decide +kernel)
    (.inr rfl) (by decide +kernel)

/-- The rule line `ALLOW = "err,`. -/
def openQuoteLine : IniLine :=
  { text := ascii "ALLOW = \"err,"
    env := plainEnv }

/-- It is read as the pattern that every line matches. -/
theorem openQuote_installs_any :
    parseIniLine plainLib openQuoteLine.text = (ascii "ALLOW", ascii "\"err,") ∧
      parseIniValue plainLib (ascii "\"err,") = [] ∧
        (loadIniRuleLine plainLib IniRule.fresh openQuoteLine).AllowMatchs =
          [K2hFtMatchPtn.any] := by
  decide +kernel

end K2hFtFuse

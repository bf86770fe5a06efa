import K2hFtFuse.Lib.Escape
import K2hFtFuse.Structure.Key
import K2hFtFuse.Svr.Loading

/-!
# Svr.TimeFormat — the nanoseconds of a time format

`build_time_part_list` cuts a `FILE_TIMEFORM` at every `%-`, and `make_time_output_string` puts the
nanoseconds in the places of the cuts and gives the text to `strftime`.  This file defines:

* `IsNineDigits`, a number in nine digits;
* `KeepsPercents`, for a format whose `%-` are taken as in a text in which `%%` is one unit;

and shows for which formats the search for `%-` does that.
-/

namespace K2hFtFuse

open ByteSeq

/-! ## The nanoseconds -/

/-- The nine digits of a number, with zeros before it. -/
structure IsNineDigits (n : Nat) (s : Bytes) : Prop where
  length_eq : s.length = 9
  digits : ∀ c ∈ s, isdigit c = true
  value : digitsValue s = n

/-- `%09ld` prints the nanoseconds of a second in nine digits. -/
theorem isNineDigits_decimal9 {n : Nat} (hn : n < 10 ^ 9) : IsNineDigits n (decimal9 n) := by
  have hnonneg : ¬ (n : Int) < 0 := by omega
  have hle := length_decimalNat_le (by decide) hn
  have htext : decimal9 n = List.replicate (9 - (decimalNat n).length) 48 ++ decimalNat n := by
    simp [decimal9, hnonneg]
  refine ⟨?_, ?_, ?_⟩
  · rw [htext, List.length_append, List.length_replicate]
    omega
  · intro c hc
    rw [htext] at hc
    rcases List.mem_append.1 hc with hzero | hdigit
    · rw [List.eq_of_mem_replicate hzero]
      decide
    · exact isdigit_decimalNat hdigit
  · rw [htext, digitsValue_zeros, digitsValue_decimalNat]

/-- Other numbers may take more room, but no less. -/
theorem nine_le_length_decimal9 (i : Int) : 9 ≤ (decimal9 i).length := by
  simp only [decimal9, List.length_append, List.length_replicate]
  omega

theorem nul_notMem_decimal9 (i : Int) : (0 : UInt8) ∉ decimal9 i := by
  simp only [decimal9, List.mem_append, not_or]
  refine ⟨⟨?_, ?_⟩, nul_notMem_decimalNat _⟩
  · split
    · decide
    · simp
  · intro hzero
    exact absurd (List.eq_of_mem_replicate hzero) (by decide)

/-! ## The text for `strftime` -/

theorem nul_notMem_getStringContent {form : Bytes} (hform : (0 : UInt8) ∉ form) :
    (0 : UInt8) ∉ getStringContent form := by
  cases form with
  | nil =>
      exact hform
  | cons c rest =>
      have hrest : (0 : UInt8) ∉ rest := fun h => hform (List.mem_cons_of_mem c h)
      simp only [getStringContent]
      split
      · split
        · exact hrest
        · -- the text before the last quote
          rename_i content tail hsplit
          rw [(splitLast_eq_some hsplit).1] at hrest
          exact fun h => hrest (List.mem_append_left _ h)
      · exact hform

/-- What the parts of a time format become with the text `ns` for the nanoseconds. -/
def joinTimeParts (ns : Bytes) (list : List K2hFtSvrTimePart) : Bytes :=
  list.flatMap fun part => if part.is_type_ns then ns else part.form

theorem joinTimeParts_timeText (ns form : Bytes) : joinTimeParts ns (timeText form) = form := by
  unfold timeText
  split
  · rename_i hnil
    rw [hnil]
    rfl
  · simp [joinTimeParts]

/-- The tokenizer takes every `%-` of the text for the nanoseconds. -/
theorem joinTimeParts_timeParts (ns form s : Bytes) :
    joinTimeParts ns (timeParts form s) = form ++ Escape.replaceAll 37 45 ns s := by
  induction form, s using timeParts.induct with
  | case1 form =>
      simp [timeParts, joinTimeParts_timeText, Escape.replaceAll]
  | case2 form rest ih =>
      have hcons : joinTimeParts ns (timeParts form (37 :: 45 :: rest)) =
          joinTimeParts ns (timeText form) ++ (ns ++ joinTimeParts ns (timeParts [] rest)) := by
        simp [timeParts, joinTimeParts]
      rw [hcons, joinTimeParts_timeText, ih, Escape.replaceAll_value, List.nil_append]
  | case3 form c rest hno ih =>
      -- no `%-` begins here, so the search goes on behind the character
      have hcons : Escape.replaceAll 37 45 ns (c :: rest) =
          c :: Escape.replaceAll 37 45 ns rest := by
        cases rest with
        | nil =>
            rfl
        | cons d rest =>
            refine Escape.replaceAll_cons_cons ?_ ns rest
            rintro ⟨rfl, rfl⟩
            exact hno rest rfl rfl
      rw [timeParts.eq_3 form c rest hno, ih, hcons, List.append_assoc, List.singleton_append]

/-- `make_time_output_string` on the parts of `build_time_part_list`. -/
theorem makeTimeOutputString_buildTimePartList (lib : TextLib) {form : Bytes}
    (hform : (0 : UInt8) ∉ form) (ts : Timespec) :
    makeTimeOutputString lib (buildTimePartList form) ts =
      (lib.strftime (Escape.replaceAll 37 45 (decimal9 ts.tv_nsec.toInt) (getStringContent form))
        ts.tv_sec).getD [] := by
  have hjoin : makeTimeOutputString lib (buildTimePartList form) ts =
      (lib.strftime (cStr (joinTimeParts (decimal9 ts.tv_nsec.toInt)
        (timeParts [] (getStringContent form)))) ts.tv_sec).getD [] := rfl
  have hnul : (0 : UInt8) ∉ Escape.replaceAll 37 45 (decimal9 ts.tv_nsec.toInt)
      (getStringContent form) := by
    intro hmem
    rcases Escape.mem_or_mem_of_mem_replaceAll hmem with hns | hcontent
    · exact nul_notMem_decimal9 _ hns
    · exact nul_notMem_getStringContent hform hcontent
  rw [hjoin, joinTimeParts_timeParts, List.nil_append, cStr_eq_self hnul]

/-! ## Reading the format -/

/-- With the format read from left to right, `%%` as one unit, `strftime` gets the format with the
nine-digit nanoseconds for each unit `%-` and all other characters as they are. -/
structure KeepsPercents (form : Bytes) : Prop where
  -- `%` is 37 and `-` is 45
  units : (Escape.readUnits 37 45 (getStringContent form)).flatMap
    (Escape.TextUnit.text 37 45) = getStringContent form
  nanoseconds : ∀ ts : Timespec, 0 ≤ ts.tv_nsec.toInt → ts.tv_nsec.toInt < 10 ^ 9 →
    IsNineDigits ts.tv_nsec.toInt.toNat (decimal9 ts.tv_nsec.toInt)
  strftime : ∀ (lib : TextLib) (ts : Timespec),
    makeTimeOutputString lib (buildTimePartList form) ts =
      (lib.strftime ((Escape.readUnits 37 45 (getStringContent form)).flatMap
        (Escape.TextUnit.filled 37 (decimal9 ts.tv_nsec.toInt))) ts.tv_sec).getD []

/-- A `FILE_TIMEFORM` is read so exactly if no `-` of it stands directly behind an even number of
`%`, but for none. -/
theorem keepsPercents_iff (value : Bytes) :
    KeepsPercents (cStr value) ↔ Escape.Aligned 37 45 (getStringContent (cStr value)) := by
  have hform : (0 : UInt8) ∉ cStr value := nul_notMem_cStr value
  have hne : (45 : UInt8) ≠ 37 := by decide
  have hlen : ∀ ts : Timespec, 2 < (decimal9 ts.tv_nsec.toInt).length := by
    intro ts
    have hnine := nine_le_length_decimal9 ts.tv_nsec.toInt
    omega
  constructor
  · intro h
    -- a `strftime` that gives back its format shows what it gets
    have hshown := h.strftime { trim := id, strftime := fun form _ => some form } common_init_time
    rw [makeTimeOutputString_buildTimePartList _ hform] at hshown
    exact (Escape.replaceAll_eq_fill_iff hne (hlen common_init_time) _).1 hshown
  · intro haligned
    refine ⟨Escape.flatMap_text_readUnits 37 45 _, ?_, ?_⟩
    · intro ts hlow hhigh
      obtain ⟨n, hn⟩ := Int.eq_ofNat_of_zero_le hlow
      rw [hn] at hhigh ⊢
      exact isNineDigits_decimal9 (by omega)
    · intro lib ts
      rw [makeTimeOutputString_buildTimePartList lib hform,
        (Escape.replaceAll_eq_fill_iff hne (hlen ts) _).2 haligned]
      rfl

/-- `%%-` is taken for a `%` and the nanoseconds. -/
theorem not_keepsPercents : ¬ ∀ value : Bytes, KeepsPercents (cStr value) := by
  intro h
  have hshown := (h (ascii "%%-")).strftime
    { trim := id, strftime := fun form _ => some form } common_init_time
  revert hshown
  decide +kernel

end K2hFtFuse

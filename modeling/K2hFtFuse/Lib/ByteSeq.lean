import Mathlib.Data.List.Basic
import Mathlib.Data.Int.ModEq
import Mathlib.Order.Basic
import Mathlib.Tactic.Common

/-!
# ByteSeq — byte strings, C strings and little-endian words

Memory areas are lists of bytes. This module has the three readings of an area that programs
written against `<string.h>` use:

- the **C string** at its start (`cString?`), which exists only when the area holds a NUL byte;
- the **unsigned word** of a given width, least significant byte first (`encodeLE`, `decodeLE`);
- the **signed word** in two's complement (`encodeInt`, `decodeInt`).
-/

namespace ByteSeq

abbrev Bytes := List UInt8

/-- The bytes of a string literal. -/
def ascii (s : String) : Bytes :=
  s.toList.map fun c => UInt8.ofNat c.toNat

/-! ## C strings -/

/-- The C string at the start of an area: the bytes before its first NUL. There is none when the
area holds no NUL, since the reader then leaves the area. -/
def cString? : Bytes → Option Bytes
  | [] => none
  | b :: rest =>
      if b = 0 then some [] else (cString? rest).map (b :: ·)

@[simp] theorem cString?_nil : cString? [] = none := rfl

theorem cString?_eq_some_iff {m s : Bytes} :
    cString? m = some s ↔ (0 : UInt8) ∉ s ∧ ∃ rest, m = s ++ 0 :: rest := by
  induction m generalizing s with
  | nil =>
      simp
  | cons b m ih =>
      by_cases hb : b = 0
      · subst hb
        constructor
        · intro h
          have hs : s = [] := by simpa [cString?, eq_comm] using h
          subst hs
          exact ⟨by simp, m, rfl⟩
        · rintro ⟨hs, rest, hrest⟩
          cases s with
          | nil =>
              simp [cString?]
          | cons a s =>
              simp only [List.cons_append, List.cons.injEq] at hrest
              exact absurd (by simp [hrest.1]) hs
      · cases s with
        | nil =>
            simp [cString?, hb]
        | cons a s =>
            have hstep : cString? (b :: m) = some (a :: s) ↔ b = a ∧ cString? m = some s := by
              simp [cString?, hb, and_comm]
            rw [hstep, ih]
            constructor
            · rintro ⟨rfl, hs, rest, rfl⟩
              exact ⟨by simpa [hs] using fun h : (0 : UInt8) = b => hb h.symm, rest, rfl⟩
            · rintro ⟨hs, rest, hrest⟩
              simp only [List.cons_append, List.cons.injEq] at hrest
              exact ⟨hrest.1, fun h => hs (by simp [h]), rest, hrest.2⟩

theorem cString?_of_notMem {s rest : Bytes} (h : (0 : UInt8) ∉ s) :
    cString? (s ++ 0 :: rest) = some s :=
  cString?_eq_some_iff.2 ⟨h, rest, rfl⟩

/-- A C string that ends inside an area is the C string of every longer area. -/
theorem cString?_append {m s : Bytes} (h : cString? m = some s) (more : Bytes) :
    cString? (m ++ more) = some s := by
  rcases cString?_eq_some_iff.1 h with ⟨hs, rest, rfl⟩
  exact cString?_eq_some_iff.2 ⟨hs, rest ++ more, by simp⟩

theorem cString?_isSome_iff {m : Bytes} : (cString? m).isSome ↔ (0 : UInt8) ∈ m := by
  induction m with
  | nil =>
      simp
  | cons b m ih =>
      by_cases hb : b = 0
      · simp [cString?, hb]
      · have hb' : ¬ (0 : UInt8) = b := fun h => hb h.symm
        simp [cString?, hb, hb', ih]

theorem cString?_eq_none_iff {m : Bytes} : cString? m = none ↔ (0 : UInt8) ∉ m := by
  rw [← cString?_isSome_iff]
  simp

/-- `c_str()` of a string object as its readers see it. -/
def cStr (s : Bytes) : Bytes := s.takeWhile fun b => b ≠ 0

theorem cStr_eq_self {s : Bytes} (h : (0 : UInt8) ∉ s) : cStr s = s := by
  induction s with
  | nil =>
      rfl
  | cons b s ih =>
      have hb : b ≠ 0 := fun h0 => h (by simp [h0])
      have hs : cStr s = s := ih fun hmem => h (List.mem_cons_of_mem b hmem)
      calc cStr (b :: s)
          = b :: cStr s := by simp [cStr, hb]
        _ = b :: s := by rw [hs]

theorem nul_notMem_cStr (s : Bytes) : (0 : UInt8) ∉ cStr s := by
  induction s with
  | nil =>
      simp [cStr]
  | cons b s ih =>
      by_cases hb : b = 0
      · simp [cStr, hb]
      · have hb' : ¬ (0 : UInt8) = b := fun h => hb h.symm
        simpa [cStr, hb, hb'] using ih

/-! ## Unsigned words -/

/-- The `width` low bytes of `n`, least significant first. -/
def encodeLE : Nat → Nat → Bytes
  | 0, _ => []
  | width + 1, n => UInt8.ofNat n :: encodeLE width (n / 256)

def decodeLE : Bytes → Nat
  | [] => 0
  | b :: rest => b.toNat + 256 * decodeLE rest

@[simp] theorem length_encodeLE (width n : Nat) : (encodeLE width n).length = width := by
  induction width generalizing n with
  | zero =>
      rfl
  | succ width ih =>
      simp [encodeLE, ih]

theorem decodeLE_encodeLE (width n : Nat) : decodeLE (encodeLE width n) = n % 256 ^ width := by
  induction width generalizing n with
  | zero =>
      simp [encodeLE, decodeLE, Nat.mod_one]
  | succ width ih =>
      have hlow : (UInt8.ofNat n).toNat = n % 256 := by simp
      have hpow : 256 ^ (width + 1) = 256 * 256 ^ width := by rw [Nat.pow_succ, Nat.mul_comm]
      rw [encodeLE, decodeLE, ih, hlow, hpow, Nat.mod_mul]

theorem decodeLE_encodeLE_of_lt {width n : Nat} (h : n < 256 ^ width) :
    decodeLE (encodeLE width n) = n := by
  rw [decodeLE_encodeLE, Nat.mod_eq_of_lt h]

/-! ## Signed words -/

/-- The two's complement word of `width` bytes. -/
def encodeInt (width : Nat) (i : Int) : Bytes :=
  encodeLE width (i % (256 ^ width : Nat)).toNat

def decodeInt (m : Bytes) : Int :=
  if 2 * decodeLE m < 256 ^ m.length then decodeLE m
  else (decodeLE m : Int) - (256 ^ m.length : Nat)

@[simp] theorem length_encodeInt (width : Nat) (i : Int) : (encodeInt width i).length = width := by
  simp [encodeInt]

theorem decodeInt_encodeInt {width : Nat} {i : Int} (hlow : -(256 ^ width : Nat) ≤ 2 * i)
    (hhigh : 2 * i < (256 ^ width : Nat)) : decodeInt (encodeInt width i) = i := by
  have hpos : 0 < 256 ^ width := Nat.pow_pos (by decide)
  generalize hw : 256 ^ width = w at hlow hhigh hpos
  have hword : decodeLE (encodeInt width i) = (i % (w : Int)).toNat := by
    rw [encodeInt, hw, decodeLE_encodeLE_of_lt]
    rw [hw]
    have := Int.emod_lt_of_pos i (b := (w : Int)) (by omega)
    omega
  rw [decodeInt, length_encodeInt, hword, hw]
  by_cases hneg : i < 0
  · have hmod : i % (w : Int) = i + w := by
      rw [← Int.add_emod_right, Int.emod_eq_of_lt (by omega) (by omega)]
    rw [hmod, if_neg (by omega)]
    omega
  · have hmod : i % (w : Int) = i := Int.emod_eq_of_lt (by omega) (by omega)
    rw [hmod, if_pos (by omega)]
    omega

/-! ## Reads from a memory area

A read that would leave the area has no result. -/

def slice? (m : Bytes) (off len : Nat) : Option Bytes :=
  if off + len ≤ m.length then some ((m.drop off).take len) else none

def readLE (m : Bytes) (off width : Nat) : Option Nat :=
  (slice? m off width).map decodeLE

def readInt (m : Bytes) (off width : Nat) : Option Int :=
  (slice? m off width).map decodeInt

/-- The C string at offset `off`. -/
def cStringAt (m : Bytes) (off : Nat) : Option Bytes :=
  cString? (m.drop off)

theorem slice?_append {pre field post : Bytes} {off len : Nat} (hoff : off = pre.length)
    (hlen : len = field.length) : slice? (pre ++ (field ++ post)) off len = some field := by
  subst hoff hlen
  simp [slice?]

theorem readLE_append {pre post : Bytes} {off width n : Nat} (hoff : off = pre.length)
    (hn : n < 256 ^ width) : readLE (pre ++ (encodeLE width n ++ post)) off width = some n := by
  rw [readLE, slice?_append hoff (length_encodeLE width n).symm]
  simp [decodeLE_encodeLE_of_lt hn]

theorem readInt_append {pre post : Bytes} {off width : Nat} {i : Int} (hoff : off = pre.length)
    (hlow : -(256 ^ width : Nat) ≤ 2 * i) (hhigh : 2 * i < (256 ^ width : Nat)) :
    readInt (pre ++ (encodeInt width i ++ post)) off width = some i := by
  rw [readInt, slice?_append hoff (length_encodeInt width i).symm]
  simp [decodeInt_encodeInt hlow hhigh]

theorem cStringAt_append {pre rest : Bytes} {off : Nat} (hoff : off = pre.length) :
    cStringAt (pre ++ rest) off = cString? rest := by
  subst hoff
  simp [cStringAt]

/-! ## Paths -/

/-- The parts of a string before and after its last `c`, as `strrchr` splits it. -/
def splitLast (c : UInt8) (s : Bytes) : Option (Bytes × Bytes) :=
  let tail := (s.reverse.takeWhile fun b => b ≠ c).reverse
  if tail.length < s.length then some (s.take (s.length - (tail.length + 1)), tail) else none

theorem splitLast_append {c : UInt8} {b : Bytes} (hb : c ∉ b) (a : Bytes) :
    splitLast c (a ++ c :: b) = some (a, b) := by
  have hall : ∀ x ∈ b.reverse, decide (x ≠ c) = true := by
    intro x hx
    simpa using fun h : x = c => hb (h ▸ List.mem_reverse.1 hx)
  have htail : (a ++ c :: b).reverse.takeWhile (fun x => decide (x ≠ c)) = b.reverse := by
    rw [List.reverse_append, List.reverse_cons, List.append_assoc,
      List.takeWhile_append_of_pos hall]
    simp
  have hlen : (a ++ c :: b).length - (b.length + 1) = a.length := by simp
  have hlt : b.length < (a ++ c :: b).length := by
    simp
    omega
  simp only [splitLast, htail, List.reverse_reverse, if_pos hlt, hlen, List.take_left]

theorem splitLast_of_notMem {c : UInt8} {s : Bytes} (h : c ∉ s) : splitLast c s = none := by
  have hall : ∀ x ∈ s.reverse, decide (x ≠ c) = true := by
    intro x hx
    simpa using fun h' : x = c => h (h' ▸ List.mem_reverse.1 hx)
  have htail : s.reverse.takeWhile (fun x => decide (x ≠ c)) = s.reverse := by
    simpa using @List.takeWhile_append_of_pos _ _ _ [] hall
  simp only [splitLast, htail, List.reverse_reverse, Nat.lt_irrefl, if_false]

theorem splitLast_eq_some {c : UInt8} {s a b : Bytes} (h : splitLast c s = some (a, b)) :
    s = a ++ c :: b ∧ c ∉ b := by
  by_cases hc : c ∈ s
  · rcases List.eq_append_cons_of_mem (List.mem_reverse.2 hc) with ⟨xs, ys, hsplit, hxs⟩
    have hs : s = ys.reverse ++ c :: xs.reverse := by
      rw [← s.reverse_reverse, hsplit]
      simp
    have hxs' : c ∉ xs.reverse := by simpa using hxs
    rw [hs, splitLast_append hxs'] at h
    obtain ⟨rfl, rfl⟩ : ys.reverse = a ∧ xs.reverse = b := by simpa using h
    exact ⟨hs, hxs'⟩
  · rw [splitLast_of_notMem hc] at h
    cases h

/-! ## Byte order

`std::string` compares byte by byte as unsigned characters; maps keyed by byte strings need that
order as a `LinearOrder`. -/

instance instLinearOrderUInt8 : LinearOrder UInt8 where
  le_refl := UInt8.le_refl
  le_trans _ _ _ := UInt8.le_trans
  le_antisymm _ _ := UInt8.le_antisymm
  le_total := UInt8.le_total
  lt_iff_le_not_ge a b := by
    simp only [UInt8.lt_iff_toNat_lt, UInt8.le_iff_toNat_le]
    omega
  toDecidableLE := inferInstance
  toDecidableEq := inferInstance
  toDecidableLT := inferInstance
  min_def _ _ := rfl
  max_def _ _ := rfl
  compare_eq_compareOfLessAndEq _ _ := rfl

end ByteSeq

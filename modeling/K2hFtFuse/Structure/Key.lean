import Mathlib.Data.Nat.Digits.Lemmas
import K2hFtFuse.Info.Template
import K2hFtFuse.Lib.Block

/-!
# Structure.Key — keys in memory

`BuildK2hFtKey` writes a path and a pid into a block that it allocates, and `ParseK2hFtKey` gives
back both, the pid as a text or as a number.  This file defines both over memory and shows:

* `%d` and `atoi` are inverse for every pid (`atoi_decimal`);
* the block holds the key `buildK2hFtKey` and is long enough for it;
* a key has one path and one pid.
-/

namespace K2hFtFuse

open ByteSeq

/-! ## Numbers as texts -/

theorem digitsValue_digits {digits : List Nat} (hdigits : ∀ d ∈ digits, d < 10) :
    digitsValue (digits.reverse.map fun d => UInt8.ofNat (48 + d)) = Nat.ofDigits 10 digits := by
  induction digits with
  | nil =>
      rfl
  | cons d digits ih =>
      have hd : d < 10 := hdigits d (by simp)
      have hrest := ih fun e he => hdigits e (by simp [he])
      have hvalue : (UInt8.ofNat (48 + d)).toNat = 48 + d := by
        rw [UInt8.toNat_ofNat']
        exact Nat.mod_eq_of_lt (by omega)
      -- the last digit of the text is the first of the list
      rw [List.reverse_cons, List.map_append, List.map_singleton, digitsValue_concat, hrest, hvalue,
        Nat.ofDigits_cons]
      omega

theorem digitsValue_decimalNat (n : Nat) : digitsValue (decimalNat n) = n := by
  unfold decimalNat
  split
  · rename_i hzero
    rw [hzero]
    decide +kernel
  · rw [digitsValue_digits fun d hd => Nat.digits_lt_base (by omega) hd, Nat.ofDigits_digits]

theorem isdigit_decimalNat {n : Nat} {c : UInt8} (hc : c ∈ decimalNat n) : isdigit c = true := by
  unfold decimalNat at hc
  split at hc
  · have hzero : c = 48 := by simpa [ascii] using hc
    rw [hzero]
    decide
  · obtain ⟨d, hd, rfl⟩ := List.mem_map.1 hc
    have hlt : d < 10 := Nat.digits_lt_base (by omega) (List.mem_reverse.1 hd)
    have hvalue : (UInt8.ofNat (48 + d)).toNat = 48 + d := by
      rw [UInt8.toNat_ofNat']
      exact Nat.mod_eq_of_lt (by omega)
    simp only [isdigit, Bool.and_eq_true, decide_eq_true_eq, UInt8.le_iff_toNat_le, hvalue]
    exact ⟨by simp, by simp; omega⟩

theorem decimalNat_ne_nil (n : Nat) : decimalNat n ≠ [] := by
  unfold decimalNat
  split
  · decide
  · rename_i hne
    simpa [Nat.digits_eq_nil_iff_eq_zero] using hne

theorem length_decimalNat_le {n k : Nat} (hk : 0 < k) (hn : n < 10 ^ k) :
    (decimalNat n).length ≤ k := by
  unfold decimalNat
  split
  · exact hk
  · -- `k` digits are enough below `10 ^ k`
    simpa using (Nat.digits_length_le_iff (by decide) n).2 hn

/-- The text of a pid has at most ten digits and a sign. -/
theorem length_decimal_pid_le (pid : Pid) : (decimal pid.toInt).length ≤ 11 := by
  have hlow := Int32.le_toInt pid
  have hhigh := Int32.toInt_lt pid
  have hdigits : (decimalNat pid.toInt.natAbs).length ≤ 10 :=
    length_decimalNat_le (by decide) (by omega)
  unfold decimal
  split
  · simp [ascii]
    omega
  · omega

theorem strtol_minus {digits : Bytes} (hdigits : ∀ c ∈ digits, isdigit c = true) :
    strtol (45 :: digits) = max (-(digitsValue digits : Int)) (-2 ^ 63) := by
  have htake : digits.takeWhile isdigit = digits := List.takeWhile_eq_self_iff.2 hdigits
  simp [strtol, isspace, htake]

/-- `atoi` reads back what `%d` prints. -/
theorem atoi_decimal (pid : Pid) : atoi (decimal pid.toInt) = pid := by
  have hlow := Int32.le_toInt pid
  have hhigh := Int32.toInt_lt pid
  have hvalue := digitsValue_decimalNat pid.toInt.natAbs
  have hdigits : ∀ c ∈ decimalNat pid.toInt.natAbs, isdigit c = true := fun c hc =>
    isdigit_decimalNat hc
  by_cases hneg : pid.toInt < 0
  · -- a sign stands before the digits
    have hstrtol : strtol (45 :: decimalNat pid.toInt.natAbs) = pid.toInt := by
      rw [strtol_minus hdigits, hvalue]
      omega
    calc atoi (decimal pid.toInt)
        = atoi (45 :: decimalNat pid.toInt.natAbs) := by
          rw [decimal, if_pos hneg]
          rfl
      _ = Int32.ofInt pid.toInt := by rw [atoi, hstrtol]
      _ = pid := Int32.ofInt_toInt pid
  · rw [decimal, if_neg hneg]
    -- `atoi` reads a text that begins with a digit
    rcases hcons : decimalNat pid.toInt.natAbs with _ | ⟨c, digits⟩
    · exact absurd hcons (decimalNat_ne_nil _)
    · rw [hcons] at hdigits hvalue
      have hmin : min (digitsValue (c :: digits) : Int) (2 ^ 63 - 1) = pid.toInt := by
        rw [hvalue]
        omega
      have hend : NoDigit [] := fun d hd => by simp at hd
      calc atoi (c :: digits)
          = atoi (c :: (digits ++ [])) := by rw [List.append_nil]
        _ = Int32.ofInt (min (digitsValue (c :: digits) : Int) (2 ^ 63 - 1)) :=
          atoi_digits (hdigits c (by simp)) (fun d hd => hdigits d (by simp [hd])) hend
        _ = pid := by rw [hmin, Int32.ofInt_toInt]

/-! ## Building and parsing -/

/-- `K2HFT_KEY_BUFF_TID_MAXSIZE`. -/
def K2HFT_KEY_BUFF_TID_MAXSIZE : Nat := 32

/-- What `BuildK2hFtKey` gives: its block, and the length that it stores through its argument. -/
structure KeyBlock where
  pBuff : Bytes
  length : Nat
  deriving DecidableEq

/-- The key as it goes to k2hash. -/
def KeyBlock.key (block : KeyBlock) : Bytes := block.pBuff.take block.length

/-- `BuildK2hFtKey`; no result when a string leaves the block. -/
def buildKeyBlock (fresh : Nat → UInt8) (path : Bytes) (pid : Pid) : Option KeyBlock := do
  let pathlength := path.length
  let pBuff := malloc fresh (pathlength + K2HFT_KEY_BUFF_TID_MAXSIZE)
  let pBuff ← strcpy pBuff 0 path
  let pBuff ← strcpy pBuff (pathlength + 1) (decimal pid.toInt)
  -- the length comes from `strlen` of what was written
  let suffix ← cStringAt pBuff (pathlength + 1)
  return { pBuff := pBuff, length := pathlength + 1 + suffix.length + 1 }

/-- `ParseK2hFtKey` with the pid as a number. -/
def parseKeyPid (pk2hftkey : Bytes) : Option (Bytes × Pid) := do
  let path ← cStringAt pk2hftkey 0
  let pTmp ← cStringAt pk2hftkey (path.length + 1)
  return (path, atoi pTmp)

theorem parseKeyPid_eq (mem : Bytes) :
    parseKeyPid mem = (parseK2hFtKey mem).map fun parts => (parts.1, atoi parts.2) := by
  unfold parseKeyPid parseK2hFtKey
  rcases cStringAt mem 0 with _ | path
  · rfl
  · simp only [Option.bind_eq_bind, Option.bind_some]
    rcases cStringAt mem (path.length + 1) with _ | ppid <;> rfl

theorem length_buildK2hFtKey (path : Bytes) (pid : Pid) :
    (buildK2hFtKey path pid).length = path.length + 1 + (decimal pid.toInt).length + 1 := by
  simp [buildK2hFtKey]
  omega

/-- The block is the key and what is left of the 32 bytes. -/
theorem buildKeyBlock_eq (fresh : Nat → UInt8) (path : Bytes) (pid : Pid) :
    ∃ left : Bytes,
      (buildK2hFtKey path pid ++ left).length = path.length + K2HFT_KEY_BUFF_TID_MAXSIZE ∧
      buildKeyBlock fresh path pid =
        some
          { pBuff := buildK2hFtKey path pid ++ left
            length := (buildK2hFtKey path pid).length } := by
  have hdecimal := length_decimal_pid_le pid
  -- behind the path, 31 of the 32 bytes are left for the pid
  obtain ⟨after, hpath⟩ : ∃ after : Nat → UInt8,
      strcpy (malloc fresh (path.length + K2HFT_KEY_BUFF_TID_MAXSIZE)) 0 path =
        some (path ++ [0] ++ malloc after 31) := by
    refine ⟨fun i => fresh (path.length + 1 + i), ?_⟩
    have hcopy := @strcpy_malloc [] path fresh 0 (path.length + K2HFT_KEY_BUFF_TID_MAXSIZE) rfl
      (by simp [K2HFT_KEY_BUFF_TID_MAXSIZE])
    have hsize : path.length + K2HFT_KEY_BUFF_TID_MAXSIZE - (path.length + 1) = 31 := by
      simp [K2HFT_KEY_BUFF_TID_MAXSIZE]
    rw [hsize, List.nil_append, List.nil_append] at hcopy
    exact hcopy
  -- the pid fits, and what is left of the block stays behind it
  obtain ⟨left, hleft, hpid⟩ : ∃ left : Bytes,
      left.length = 31 - ((decimal pid.toInt).length + 1) ∧
      strcpy (path ++ [0] ++ malloc after 31) (path.length + 1) (decimal pid.toInt) =
        some (buildK2hFtKey path pid ++ left) := by
    refine ⟨malloc (fun i => after ((decimal pid.toInt).length + 1 + i))
      (31 - ((decimal pid.toInt).length + 1)), length_malloc _ _, ?_⟩
    have hcopy := @strcpy_malloc (path ++ [0]) (decimal pid.toInt) after (path.length + 1) 31
      (by simp) (by omega)
    rw [hcopy, buildK2hFtKey, ← List.append_assoc (path ++ [0])]
  -- `strlen` stops at the NUL that was written with the pid
  have hstrlen : cStringAt (buildK2hFtKey path pid ++ left) (path.length + 1) =
      some (decimal pid.toInt) := by
    have hsplit : buildK2hFtKey path pid ++ left =
        (path ++ [0]) ++ (decimal pid.toInt ++ 0 :: left) := by
      simp [buildK2hFtKey]
    rw [hsplit, cStringAt_append (by simp)]
    exact cString?_of_notMem (nul_notMem_decimal _)
  refine ⟨left, ?_, ?_⟩
  · rw [List.length_append, hleft, length_buildK2hFtKey, K2HFT_KEY_BUFF_TID_MAXSIZE]
    omega
  · simp only [buildKeyBlock, hpath, hpid, hstrlen, Option.bind_eq_bind, Option.bind_some,
      length_buildK2hFtKey, pure]

/-- Both parts are found at the start of a longer area, too. -/
theorem parseK2hFtKey_append {path : Bytes} (hpath : (0 : UInt8) ∉ path) (pid : Pid)
    (rest : Bytes) :
    parseK2hFtKey (buildK2hFtKey path pid ++ rest) = some (path, decimal pid.toInt) := by
  have hfirst : cStringAt (buildK2hFtKey path pid ++ rest) 0 = some path := by
    have hsplit : buildK2hFtKey path pid ++ rest =
        path ++ 0 :: (decimal pid.toInt ++ 0 :: rest) := by
      simp [buildK2hFtKey]
    rw [hsplit]
    exact cString?_of_notMem hpath
  have hsecond : cStringAt (buildK2hFtKey path pid ++ rest) (path.length + 1) =
      some (decimal pid.toInt) := by
    have hsplit : buildK2hFtKey path pid ++ rest =
        (path ++ [0]) ++ (decimal pid.toInt ++ 0 :: rest) := by
      simp [buildK2hFtKey]
    rw [hsplit, cStringAt_append (by simp)]
    exact cString?_of_notMem (nul_notMem_decimal _)
  simp [parseK2hFtKey, hfirst, hsecond]

/-- A key has one path and one pid. -/
theorem buildK2hFtKey_inj {path path' : Bytes} {pid pid' : Pid} (hpath : (0 : UInt8) ∉ path)
    (hpath' : (0 : UInt8) ∉ path') (h : buildK2hFtKey path pid = buildK2hFtKey path' pid') :
    path = path' ∧ pid = pid' := by
  have hparse := parseK2hFtKey_buildK2hFtKey hpath pid
  rw [h, parseK2hFtKey_buildK2hFtKey hpath' pid'] at hparse
  obtain ⟨rfl, hdecimal⟩ : path' = path ∧ decimal pid'.toInt = decimal pid.toInt := by
    simpa using hparse
  refine ⟨rfl, ?_⟩
  rw [← atoi_decimal pid, ← hdecimal, atoi_decimal]

/-- `BuildK2hFtKey` and `ParseK2hFtKey` are a codec for paths and pids: the length covers the four
parts of the key and stays inside the block, both overloads find what was built wherever the key
lies, and no other path and pid has the same key. -/
theorem buildKeyBlock_codec {path : Bytes} (hpath : (0 : UInt8) ∉ path) (pid : Pid)
    (fresh : Nat → UInt8) :
    ∃ block, buildKeyBlock fresh path pid = some block ∧
      block.length = path.length + 1 + (decimal pid.toInt).length + 1 ∧
      block.length ≤ path.length + 32 ∧ block.pBuff.length = path.length + 32 ∧
      block.key = path ++ [0] ++ decimal pid.toInt ++ [0] ∧
      (∀ rest, parseK2hFtKey (block.key ++ rest) = some (path, decimal pid.toInt)) ∧
      (∀ rest, parseKeyPid (block.key ++ rest) = some (path, pid)) ∧
      ∀ (path' : Bytes) (pid' : Pid) (fresh' : Nat → UInt8) (block' : KeyBlock),
        (0 : UInt8) ∉ path' → buildKeyBlock fresh' path' pid' = some block' →
          block'.key = block.key → path' = path ∧ pid' = pid := by
  obtain ⟨left, hsize, hblock⟩ := buildKeyBlock_eq fresh path pid
  have hlength := length_buildK2hFtKey path pid
  have hdecimal := length_decimal_pid_le pid
  have hkey : KeyBlock.key
      { pBuff := buildK2hFtKey path pid ++ left
        length := (buildK2hFtKey path pid).length } = buildK2hFtKey path pid := List.take_left
  refine ⟨_, hblock, hlength, ?_, hsize, hkey, ?_, ?_, ?_⟩
  · change (buildK2hFtKey path pid).length ≤ path.length + 32
    omega
  · intro rest
    rw [hkey]
    exact parseK2hFtKey_append hpath pid rest
  · intro rest
    rw [hkey, parseKeyPid_eq, parseK2hFtKey_append hpath, Option.map_some, atoi_decimal]
  · -- a block with the same key was built for the same path and pid
    intro path' pid' fresh' block' hpath' hbuild hsame
    obtain ⟨left', -, hblock'⟩ := buildKeyBlock_eq fresh' path' pid'
    obtain rfl : _ = block' := Option.some.inj (hblock'.symm.trans hbuild)
    rw [hkey] at hsame
    refine buildK2hFtKey_inj hpath' hpath ?_
    rw [← hsame]
    exact List.take_left.symm

/-- The key of `a` and the pid -7 in a block of zeros. -/
theorem buildKeyBlock_codec_minus :
    (0 : UInt8) ∉ ascii "a" ∧ ∃ block, buildKeyBlock (fun _ => 0) (ascii "a") (-7) = some block ∧
      block.key = [97, 0, 45, 55, 0] ∧ parseKeyPid block.key = some ([97], -7) := by
  obtain ⟨block, hbuild, -, -, -, hkey, -, hparse, -⟩ :=
    buildKeyBlock_codec (show (0 : UInt8) ∉ ascii "a" by decide +kernel) (-7) fun _ => 0
  refine ⟨by decide +kernel, block, hbuild, ?_, ?_⟩
  · rw [hkey]
    decide +kernel
  · have hend := hparse []
    rw [List.append_nil] at hend
    rw [hend]
    decide +kernel

end K2hFtFuse

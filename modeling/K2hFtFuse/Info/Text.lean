import K2hFtFuse.Rule
import Mathlib.Data.List.DropRight

/-!
# Info.Text — the texts of a configuration

What the two loaders do with keys and values before they mean anything: comparisons, numbers, INI
lines, quoted lists and patterns. All texts are C strings.
-/

namespace K2hFtFuse

open ByteSeq

/-! ## Strings -/

/-- The functions on strings that come with `libchmpx`. -/
structure ConfLib where
  upper : Bytes → Bytes
  trim : Bytes → Bytes
  ltrim : Bytes → Bytes
  rtrim : Bytes → Bytes
  extractConfValue : Bytes → Option Bytes

def toLower (c : UInt8) : UInt8 := if 65 ≤ c ∧ c ≤ 90 then c + 32 else c

/-- `0 == strcasecmp(a, b)`. -/
def strcasecmp (a b : Bytes) : Bool := a.map toLower == b.map toLower

def isspace (c : UInt8) : Bool := c == 32 || (9 ≤ c && c ≤ 13)

def isdigit (c : UInt8) : Bool := 48 ≤ c && c ≤ 57

/-- The value of a string of digits. -/
def digitsValue (digits : Bytes) : Nat := digits.foldl (fun n c => 10 * n + (c.toNat - 48)) 0

/-- `strtol` and `strtoll` with base 10: out of range, the result is the nearest `long`. -/
def strtol (s : Bytes) : Int :=
  let s := s.dropWhile isspace
  let negative := s.head? = some 45
  let digits := if negative ∨ s.head? = some 43 then s.tail else s
  let value : Int := digitsValue (digits.takeWhile isdigit)
  if negative then max (-value) (-2 ^ 63) else min value (2 ^ 63 - 1)

/-- `atoi` of the C library in use: the low bits of `strtol`. -/
def atoi (s : Bytes) : Int32 := Int32.ofInt (strtol s)

def atoll (s : Bytes) : Int64 := Int64.ofInt (strtol s)

/-! ## INI lines -/

/-- `INI_KV_SEP_CHAR`. -/
def INI_KV_SEP_CHAR : UInt8 := 61

/-- `INI_VALUE_AREA_CHAR`, the double quote. -/
def INI_VALUE_AREA_CHAR : UInt8 := 34

/-- `INI_VALUE_SEP_CHAR`. -/
def INI_VALUE_SEP_CHAR : UInt8 := 44

/-- `INI_SEC_START_CHAR`. -/
def INI_SEC_START_CHAR : UInt8 := 91

/-- `INI_SEC_END_CHAR`. -/
def INI_SEC_END_CHAR : UInt8 := 93

/-- A text between double quotes. -/
def quoted (s : Bytes) : Bytes := INI_VALUE_AREA_CHAR :: s ++ [INI_VALUE_AREA_CHAR]

/-- What the trimming functions of `libchmpx` do: they take the blanks from the ends. -/
structure ConfLib.TrimsBlanks (lib : ConfLib) (blank : UInt8 → Bool) : Prop where
  ltrim : ∀ s, lib.ltrim s = s.dropWhile blank
  rtrim : ∀ s, lib.rtrim s = s.rdropWhile blank
  trim : ∀ s, lib.trim s = (s.dropWhile blank).rdropWhile blank
  quote : blank INI_VALUE_AREA_CHAR = false
  comma : blank INI_VALUE_SEP_CHAR = false

/-- A line that starts a section. -/
def isSectionLine (line : Bytes) : Bool :=
  line.head? == some INI_SEC_START_CHAR && line.getLast? == some INI_SEC_END_CHAR

/-- What stands before and after the first `c`; all of it before when there is none. -/
def splitFirst (c : UInt8) (s : Bytes) : Bytes × Bytes :=
  (s.takeWhile fun b => b ≠ c, (s.dropWhile fun b => b ≠ c).tail)

/-- `parse_ini_line`. -/
def parseIniLine (lib : ConfLib) (line : Bytes) : Bytes × Bytes :=
  let key := lib.trim (splitFirst INI_KV_SEP_CHAR line).1
  let value :=
    if INI_KV_SEP_CHAR ∈ line then lib.trim (splitFirst INI_KV_SEP_CHAR line).2 else []
  match lib.extractConfValue key, lib.extractConfValue value with
  | some key, some value => (lib.upper key, value)
  | _, _ => ([], [])

/-- The loop of `parse_ini_value`. Each round takes the text up to a comma away, so the length of the
value is enough `fuel`. -/
def parseIniValueLoop (lib : ConfLib) : Nat → Bytes → Bytes → List Bytes → List Bytes
  | 0, _, _, values => values
  | fuel + 1, tempstack, tempval, values =>
      if tempval = [] then
        values
      else if INI_VALUE_SEP_CHAR ∈ tempval then
        let before := (splitFirst INI_VALUE_SEP_CHAR tempval).1
        let after := (splitFirst INI_VALUE_SEP_CHAR tempval).2
        let temptrimval := lib.rtrim before
        if temptrimval.getLast? = some INI_VALUE_AREA_CHAR then
          let values := values ++ [tempstack ++ temptrimval]
          let tempval := lib.ltrim after
          if tempval ≠ [] ∧ tempval.head? ≠ some INI_VALUE_AREA_CHAR then
            values ++ [tempval]
          else
            parseIniValueLoop lib fuel [] tempval values
        else
          parseIniValueLoop lib fuel (tempstack ++ before ++ [INI_VALUE_SEP_CHAR]) after values
      else
        values ++ [tempstack ++ tempval]

/-- `parse_ini_value`. -/
def parseIniValue (lib : ConfLib) (value : Bytes) : List Bytes :=
  if value = [] then []
  else if value.head? ≠ some INI_VALUE_AREA_CHAR then [value]
  else parseIniValueLoop lib value.length [] value []

/-! ## A library that trims white space -/

def toUpper (c : UInt8) : UInt8 := if 97 ≤ c ∧ c ≤ 122 then c - 32 else c

def plainLib : ConfLib :=
  { upper := fun s => s.map toUpper
    trim := fun s => ((s.dropWhile isspace).reverse.dropWhile isspace).reverse
    ltrim := fun s => s.dropWhile isspace
    rtrim := fun s => (s.reverse.dropWhile isspace).reverse
    extractConfValue := some }

theorem plainLib_trimsBlanks : plainLib.TrimsBlanks isspace :=
  { ltrim := fun _ => rfl
    rtrim := fun _ => rfl
    trim := fun _ => rfl
    quote := by decide
    comma := by decide }

/-! ## Patterns -/

/-- The static text read so far as the last part of a replacement. -/
def flushStatic (text : Bytes) (list : List K2hFtRepPtn) : List K2hFtRepPtn :=
  if text = [] then list else list ++ [{ matchno := -1, substring := text }]

/-- The number after `$` and how many digits it has: each digit adds the value of the rest of the
text, not its own. -/
def dollarNumber (number : Int32) (count : Nat) : Bytes → Int32 × Nat
  | [] => (number, count)
  | c :: rest =>
      if isdigit c then
        dollarNumber ((if number = -1 then 0 else number) * 10 + atoi (c :: rest)) (count + 1) rest
      else
        (number, count)

/-- The loop over a replacement after its first `"`. `skip` counts the digits of a number that was
read, `text` is the static text since the last part. -/
def parseReplace (skip : Nat) (is_last_escape : Bool) (text : Bytes) (list : List K2hFtRepPtn) :
    Bytes → Option (List K2hFtRepPtn)
  | [] => none
  | c :: rest =>
      if 0 < skip then
        parseReplace (skip - 1) is_last_escape text list rest
      else if is_last_escape then
        -- before a normal character, a single backslash is dropped as well
        parseReplace 0 false (text ++ [c]) list rest
      else if c = 92 then
        parseReplace 0 true text list rest
      else if c = 34 then
        if rest = [] then some (flushStatic text list) else none
      else if c = 38 then
        parseReplace 0 false [] (flushStatic text list ++ [{ matchno := 0, substring := [] }]) rest
      else if c = 36 then
        let (number, count) := dollarNumber (-1) 0 rest
        if number = -1 then
          none
        else if INI_K2HFT_MAX_REPLACE_NUMBER < number.toInt then
          none
        else
          parseReplace count false []
            (flushStatic text list ++ [{ matchno := number.toInt, substring := [] }]) rest
      else
        parseReplace 0 false (text ++ [c]) list rest

/-- `build_k2hft_match_pattern`. -/
def buildMatchPattern (regcomp : Bytes → Bool) (compptn replaceptn : Bytes) : Option K2hFtMatchPtn :=
  if compptn = [] then
    none
  else if compptn.head? ≠ some INI_VALUE_AREA_CHAR then
    some { IsRegex := false, BaseString := compptn, ReplaceList := [] }
  else if compptn.length < 3 ∨ compptn.getLast? ≠ some INI_VALUE_AREA_CHAR then
    none
  else
    let expression := compptn.tail.dropLast
    if !regcomp expression then
      none
    else if replaceptn = [] then
      some
        { IsRegex := true
          BaseString := expression
          ReplaceList := [{ matchno := 0, substring := [] }] }
    else if replaceptn.head? ≠ some INI_VALUE_AREA_CHAR then
      none
    else
      (parseReplace 0 false [] [] replaceptn.tail).map fun list =>
        { IsRegex := true
          BaseString := expression
          ReplaceList := list }

end K2hFtFuse

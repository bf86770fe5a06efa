import K2hFtFuse.Structure

/-!
# Util — path helpers of `k2hftutil.cc`

Paths are C strings, so they hold no NUL byte; the empty path is both NULL and `""`.
-/

namespace K2hFtFuse

open ByteSeq

/-- `'/'`. -/
def SLASH : UInt8 := 47

/-- `get_parent_dirpath`. -/
def getParentDirpath (path : Bytes) : Option Bytes :=
  if path = [] then
    none
  else if path = ascii "/" then
    none
  else
    let ptmp := if path.getLast? = some SLASH then path.dropLast else path
    match splitLast SLASH ptmp with
    | none => none
    | some (parent, _) => some (if parent = [] then ascii "/" else parent)

/-- `get_file_name`. -/
def getFileName (path : Bytes) : Option Bytes :=
  if path = [] then
    none
  else if path = ascii "/" then
    none
  else if path.getLast? = some SLASH then
    some []
  else
    match splitLast SLASH path with
    | none => some path
    | some (_, fname) => some fname

end K2hFtFuse

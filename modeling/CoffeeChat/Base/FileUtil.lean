import CoffeeChat.Base.Buffer
import CoffeeChat.Lib.FileTree
import CoffeeChat.Lib.Loop
import CoffeeChat.Lib.Memory
import CoffeeChat.Lib.Seek

/-!
# Paths and directories

The functions of `base/file/file_util.cpp`. A `const char*` is the memory from its address on to the
end of the allocation, or nothing for a null pointer; of a string in memory the NUL and the bytes
behind it are part of what the scanner may read, and it leaves the addresses it reads.

The directories and files are a tree with the current directory of the process. The system walks a
path name by name, each from a directory, where `.` and `..` are the directory itself and its
parent. Other processes may create directories before every system call, and the calls of `mkdir`
are recorded with the files they have found.
-/

namespace CoffeeChat

open Lib Lib.Seek Lib.FileTree

/-- The bytes of a C string in front of its NUL. -/
structure CString where
  bytes : Bytes
  noNul : 0 ∉ bytes
  deriving DecidableEq, Repr

namespace CString

/-- A `const char*` to the string, with what lies in memory behind it. -/
def inMemory (s : CString) (behind : Bytes) : Option Bytes := some (s.bytes ++ 0 :: behind)

end CString

namespace FileUtil

/-- `'/'`. -/
def slash : UInt8 := 47

/-- `'.'`. -/
def dot : UInt8 := 46

/-- `kFilePathSeparators`. -/
def kFilePathSeparators : CString := ⟨[slash], by decide⟩

/-! ## `ParsePathComponentsT` -/

/-- What the loop `for (c = seperators; *c && b != *c; c++)` finds out about `b`. -/
def isSeparator (seperators : CString) (b : UInt8) : Bool := b ∈ seperators.bytes

/-- The local variables of `ParsePathComponentsT` and the list it fills. -/
structure Scanner where
  /-- The address `next`, counted from `path`. -/
  next : Nat
  /-- The memory from `next` on. -/
  memory : Bytes
  components : List Bytes

/-- The component that ends in front of `found`; a separator stands for all that follow it. -/
def component (seperators : CString) (s : Scanner) (found : Pointer UInt8) : Bytes :=
  s.memory.take (found.address - s.next) ++
    if found.memory.headD 0 ≠ 0 then [seperators.bytes.headD 0] else []

/-- A turn of the loop `while (*next)`, with the addresses it reads. -/
def turn (seperators : CString) (s : Scanner) : List Nat × Loop.Turn Scanner Fault :=
  match s.memory with
  | [] => ([s.next], .fail .outOfBounds)
  | b :: _ =>
    if b = 0 then ([s.next], .leave s)
    else
      -- find the first separator
      let find := seek (fun b ↦ isSeparator seperators b || b = 0) s.next s.memory
      match find.2 with
      | none => (s.next :: find.1, .fail .outOfBounds)
      | some found =>
        -- skip duplicated separators; `next` goes on by one even from the NUL
        let skip := seek (fun b ↦ !isSeparator seperators b) (found.address + 1)
          found.memory.tail
        match skip.2 with
        | none => (s.next :: find.1 ++ skip.1, .fail .outOfBounds)
        | some next =>
          (s.next :: find.1 ++ skip.1,
            .again ⟨next.address, next.memory, s.components ++ [component seperators s found]⟩)

/-- How the loop ends; it always does, since every turn moves `next` forward. -/
def scanned : Loop.End Scanner Fault → Result (Bool × List Bytes)
  | .left s => .ok (true, s.components)
  | .failed fault => .error fault
  | .running _ => .error .notTerminated

/-- `ParsePathComponentsT(path, seperators, components)`: the addresses it reads, its result and
what `components` is then. -/
def ParsePathComponentsT (path : Option Bytes) (seperators : CString) :
    List Nat × Result (Bool × List Bytes) :=
  match path with
  | none => ([], .ok (false, []))
  | some memory =>
    let scan := Loop.run (turn seperators) (memory.length + 1) ⟨0, memory, []⟩
    (scan.1.flatten, scanned scan.2)

/-- `ParsePathComponents(path, components)`. -/
def ParsePathComponents (path : Option Bytes) : List Nat × Result (Bool × List Bytes) :=
  ParsePathComponentsT path kFilePathSeparators

/-! ## System calls -/

/-- The names in a path, behind the beginning `name` of the first. -/
def namesFrom (name : Bytes) : Bytes → List Bytes
  | [] => if name = [] then [] else [name]
  | b :: path =>
    if b = slash then
      if name = [] then namesFrom [] path else name :: namesFrom [] path
    else namesFrom (name ++ [b]) path

/-- What a name in a path stands for: `.` the directory itself, `..` its parent. -/
def stepOf (name : Bytes) : Step Bytes :=
  if name = [dot] then .stay else if name = [dot, dot] then .up else .down name

/-- The route a path describes. -/
def resolve (path : Bytes) : Route Bytes :=
  ⟨path.head? = some slash, (namesFrom [] path).map stepOf⟩

/-- A file system, and the current directory of the process. -/
abbrev Files := View Bytes

/-- A call of `mkdir`: its path and the files there were. -/
structure MkdirCall where
  path : Bytes
  files : Files

/-- What the functions of `file_util.cpp` work on. -/
structure World where
  files : Files
  /-- The directories other processes create before each of the next system calls. -/
  others : List (List (List Bytes))
  /-- The calls of `mkdir` made so far. -/
  calls : List MkdirCall

/-- The world when the next system call is made. -/
def World.settle (w : World) : World :=
  { w with files := w.files.createAll (w.others.headD []), others := w.others.tail }

/-- `access(path, F_OK) == 0`; a path with a slash at its end is one of a directory, and the empty
path one of nothing. -/
def access (path : Bytes) : StateM World Bool := do
  modify World.settle
  let kind := (← get).files.kind (resolve path)
  return path ≠ [] && if path.getLast? = some slash then kind = some .directory else kind.isSome

/-- `opendir(path) != nullptr`. -/
def opendir (path : Bytes) : StateM World Bool := do
  modify World.settle
  return path ≠ [] && (← get).files.kind (resolve path) = some .directory

/-- `mkdir(path, 0700)`. -/
def mkdir (path : Bytes) : StateM World Int32 := do
  modify World.settle
  modify fun w ↦ { w with calls := w.calls ++ [⟨path, w.files⟩] }
  if path = [] then return -1
  match (← get).files.mkdir (resolve path) with
  | some files => do
      modify ({ · with files })
      return 0
  | none => return -1

/-! ## `CreateDirectory` -/

/-- `FilePathIsExist(filepath_in, is_directory)`. -/
def FilePathIsExist (filepath : Bytes) (isDirectory : Bool) : StateM World Bool :=
  if !isDirectory then access filepath else opendir filepath

/-- The loop `*curr = *prev + *curr; prev = curr` behind an element. -/
def accumulateFrom (prev : Bytes) : List Bytes → List Bytes
  | [] => []
  | curr :: subpaths => (prev ++ curr) :: accumulateFrom (prev ++ curr) subpaths

/-- Collect a list of all parent directories. -/
def accumulate : List Bytes → List Bytes
  | [] => []
  | first :: subpaths => first :: accumulateFrom first subpaths

/-- Iterate through the parents and create the missing ones. -/
def createMissing : List Bytes → StateM World Bool
  | [] => return true
  | path :: subpaths => do
      if ← FilePathIsExist path true then createMissing subpaths
      else if (← mkdir path) = 0 then createMissing subpaths
      else if !(← FilePathIsExist path true) then return false
      else createMissing subpaths

/-- `CreateDirectory(const char* full_path)`. -/
def CreateDirectory (fullPath : Option Bytes) (w : World) : Result (Bool × World) :=
  match fullPath with
  | none => .ok (false, w)
  | some _ => do
      let parsed ← (ParsePathComponents fullPath).2
      if parsed.2.isEmpty then return (false, w)
      else return createMissing (accumulate parsed.2) w

end FileUtil

end CoffeeChat

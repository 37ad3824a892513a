import Pure64.Heap
import Mathlib.Data.List.Nodup

/-!
# Building a tree in memory: `pure64_dir_add_file` and `pure64_dir_add_subdir`

`src/lib/dir.c` grows a directory one entry at a time. Both insertions
first ask `pure64_dir_name_exists`, which compares the new name with the
name of every file and then of every subdirectory by `pure64_strcmp`; on a
match they return `PURE64_EEXIST`. Otherwise they grow the array with
`pure64_realloc` to `(count + 1) * sizeof` bytes, computed in `uint64_t`,
initialise the new last slot, name it with a copy of the string
(`pure64_dir_set_name`, which allocates `strlen + 1` bytes), and only then
store the grown array and the incremented count. `addEntry` is that shared
body; the two functions are it applied to their own array, size and
element functions.

The allocator is a parameter as in `Heap.lean`; a successful
`pure64_realloc` may move the block, so the pointer it was given counts as
released. A run of insertions (`Reachable`) takes the allocator too;
`ptrdiffAlloc` is glibc's, which refuses every request above `PTRDIFF_MAX`.
-/

namespace Pure64

/-! ## What the store is for

A directory holds each of its entries' names once: inserting a name that is
already there is refused and changes nothing, and any other name is
appended to its array, as a file with no data or an empty subdirectory. -/

/-- Which array an insertion grows. -/
inductive EntryKind where
  | file
  | subdir
deriving DecidableEq, Repr

namespace Dir

@[simp] theorem name_mk (n : List UInt8) (ds : List Dir) (fs : List File) : (mk n ds fs).name = n := rfl

@[simp] theorem subdirs_mk (n : List UInt8) (ds : List Dir) (fs : List File) :
    (mk n ds fs).subdirs = ds := rfl

@[simp] theorem files_mk (n : List UInt8) (ds : List Dir) (fs : List File) : (mk n ds fs).files = fs :=
  rfl

/-- The names of the entries, files first. -/
def entryNames (t : Dir) : List (List UInt8) := t.files.map File.name ++ t.subdirs.map Dir.name

/-- The number of entries of one kind. -/
def count (t : Dir) : EntryKind → Nat
  | .file => t.files.length
  | .subdir => t.subdirs.length

/-- A new empty entry named `name`, appended to its array. -/
def insert : EntryKind → List UInt8 → Dir → Dir
  | .file, name, mk n ds fs => mk n ds (fs ++ [⟨name, []⟩])
  | .subdir, name, mk n ds fs => mk n (ds ++ [mk name [] []]) fs

/-- The directory at a path of subdirectory indices. -/
def atPath : Dir → List Nat → Option Dir
  | t, [] => some t
  | mk _ ds _, i :: p =>
    match ds[i]? with
    | some c => c.atPath p
    | none => none

/-- The tree with the directory at a path replaced by `f` of it. -/
def modifyAt (f : Dir → Dir) : Dir → List Nat → Dir
  | t, [] => f t
  | mk n ds fs, i :: p =>
    match ds[i]? with
    | some c => mk n (ds.set i (c.modifyAt f p)) fs
    | none => mk n ds fs

@[simp] theorem atPath_nil (t : Dir) : t.atPath [] = some t := by cases t; rfl

@[simp] theorem modifyAt_nil (f : Dir → Dir) (t : Dir) : t.modifyAt f [] = f t := by cases t; rfl

end Dir

namespace Heap

/-! ## Strings -/

/-- The bytes of a NUL-terminated string: those before the first NUL. -/
def cString (s : List UInt8) : List UInt8 := s.takeWhile (· != 0)

/-- Modelled from the spec: `pure64_strlen` (`string.c` is not in the
sources; `pure64/string.h` documents it): the length of the string, not
counting the terminator. -/
def pure64Strlen (s : List UInt8) : Nat := (cString s).length

/-- Modelled from the spec: `pure64_strcmp` (`pure64/string.h`): `1` at the
first byte where `a` is greater, `-1` where it is smaller, `0` when the
strings end together. A byte past the end of a list reads as NUL. -/
def pure64Strcmp : List UInt8 → List UInt8 → Int
  | a :: as, b :: bs => if b < a then 1 else if a < b then -1 else if a = 0 then 0 else pure64Strcmp as bs
  | [], [] => 0
  | [], b :: _ => if b = 0 then 0 else -1
  | a :: _, [] => if a = 0 then 0 else 1

/-! ## The struct's fields -/

/-- How a call on a struct ends: `0` and the struct, an error code and the
struct as it was left, or undefined behaviour. -/
inductive Result (α : Type) where
  | ok (a : α)
  | err (e : Pure64Error) (a : α)
  | ub

/-- The same outcome with the struct mapped. -/
def Result.map {α β : Type} (f : α → β) : Result α → Result β
  | .ok a => .ok (f a)
  | .err e a => .err e (f a)
  | .ub => .ub

/-- The struct a call left, unless it was undefined. -/
def Result.state {α : Type} : Result α → Option α
  | .ok a => some a
  | .err _ a => some a
  | .ub => none

namespace Dir

/-- `name`. -/
def name : Dir → Ptr (List UInt8)
  | mk _ _ _ n _ _ => n

/-- `name_size`. -/
def nameSize : Dir → UInt64
  | mk n _ _ _ _ _ => n

/-- `subdir_count`. -/
def subdirCount : Dir → UInt64
  | mk _ n _ _ _ _ => n

/-- `file_count`. -/
def fileCount : Dir → UInt64
  | mk _ _ n _ _ _ => n

/-- `subdirs`. -/
def subdirs : Dir → Ptr (List (Slot Dir))
  | mk _ _ _ _ s _ => s

/-- `files`. -/
def files : Dir → Ptr (List (Slot File))
  | mk _ _ _ _ _ f => f

/-- The struct with `name` and `name_size` stored. -/
def withName (d : Dir) (p : Ptr (List UInt8)) (n : UInt64) : Dir :=
  .mk n d.subdirCount d.fileCount p d.subdirs d.files

/-- The struct with `subdirs` and `subdir_count` stored. -/
def withSubdirs (d : Dir) (p : Ptr (List (Slot Dir))) (n : UInt64) : Dir :=
  .mk d.nameSize n d.fileCount d.name p d.files

/-- The struct with `files` and `file_count` stored. -/
def withFiles (d : Dir) (p : Ptr (List (Slot File))) (n : UInt64) : Dir :=
  .mk d.nameSize d.subdirCount n d.name d.subdirs p

end Dir

/-- The file with `name` and `name_size` stored. -/
def File.withName (f : File) (p : Ptr (List UInt8)) (n : UInt64) : File :=
  { f with name := p, nameSize := n }

/-! ## `pure64_dir_name_exists` -/

/-- One loop of `pure64_dir_name_exists` over the first `n` slots: `true`
at the first name that compares equal. -/
def nameInSlots {α : Type} (nameOf : α → Ptr (List UInt8)) (name : List UInt8) :
    List (Slot α) → Nat → Option Bool
  | _, 0 => some false
  | .init a :: slots, n + 1 =>
    match nameOf a with
    | .live _ buf => if pure64Strcmp buf name = 0 then some true else nameInSlots nameOf name slots n
    | _ => none
  | _, _ + 1 => none

/-- The loop through the array pointer: no slot is read when there are none. -/
def nameInArray {α : Type} (nameOf : α → Ptr (List UInt8)) (name : List UInt8) :
    Ptr (List (Slot α)) → Nat → Option Bool
  | _, 0 => some false
  | .live _ slots, n + 1 => nameInSlots nameOf name slots (n + 1)
  | _, _ + 1 => none

/-- `pure64_dir_name_exists`: the files first, then the subdirectories. -/
def pure64DirNameExists (dir : Dir) (name : List UInt8) : Option Bool :=
  match nameInArray File.name name dir.files dir.fileCount.toNat with
  | none => none
  | some true => some true
  | some false => nameInArray Dir.name name dir.subdirs dir.subdirCount.toNat

/-! ## Naming -/

/-- The body `pure64_dir_set_name` and `pure64_file_set_name` share: a
buffer of `strlen(name) + 1` bytes holding the string and its terminator
replaces the old name, which is freed. -/
def setName {α : Type} (alloc : Nat → Bool) (nameOf : α → Ptr (List UInt8))
    (withName : α → Ptr (List UInt8) → UInt64 → α) (x : α) (name : List UInt8) : Result α :=
  let nameSize := (pure64Strlen name).toUInt64
  let tmpName : Ptr (List UInt8) := pure64Malloc alloc (nameSize + 1)
  if tmpName.isNull then .err .enomem x
  else
    match writeName tmpName (name.take nameSize.toNat), pure64Free (nameOf x) with
    | some tmpName, some _ => .ok (withName x tmpName nameSize)
    | _, _ => .ub

/-- `pure64_dir_set_name`. -/
def pure64DirSetName (alloc : Nat → Bool) : Dir → List UInt8 → Result Dir :=
  setName alloc Dir.name Dir.withName

/-- Modelled from the spec: `pure64_file_set_name`, the same body on the
file's name (`file.c` is not in the sources). -/
def pure64FileSetName (alloc : Nat → Bool) : File → List UInt8 → Result File :=
  setName alloc File.name File.withName

/-! ## Growing an array -/

/-- `pure64_realloc(p, size)` of an array of `elemSize`-byte slots: `NULL`
when it fails (the old block is kept), otherwise a block holding the slots
that fit; undefined on a released pointer. -/
def pure64Realloc {α : Type} (alloc : Nat → Bool) (p : Ptr (List (Slot α))) (size : UInt64)
    (elemSize : Nat) : Option (Ptr (List (Slot α))) :=
  match p with
  | .freed => none
  | .null => some (pure64Malloc alloc size)
  | .live _ slots =>
    some (if alloc size.toNat then .live size.toNat (slots.take (size.toNat / elemSize)) else .null)

/-- The value a pointer field keeps once `pure64_realloc` has succeeded on
it: a live block may have moved. -/
def Ptr.moved {α : Type} : Ptr α → Ptr α
  | .live _ _ => .freed
  | p => p

/-- The slots with slot `i` written, slots in between left uninitialised. -/
def putSlot {α : Type} : List (Slot α) → Nat → α → List (Slot α)
  | [], 0, a => [.init a]
  | [], n + 1, a => .uninit :: putSlot [] n a
  | _ :: slots, 0, a => .init a :: slots
  | s :: slots, n + 1, a => s :: putSlot slots n a

/-- A write of slot `i`: undefined unless it lies inside the allocation. -/
def setSlot {α : Type} (p : Ptr (List (Slot α))) (i elemSize : Nat) (a : α) :
    Option (Ptr (List (Slot α))) :=
  match p with
  | .live size slots => if (i + 1) * elemSize ≤ size then some (.live size (putSlot slots i a)) else none
  | _ => none

/-- The body `pure64_dir_add_file` and `pure64_dir_add_subdir` share: the
name check, the array grown by one slot, the slot initialised to `fresh`
and named, and the grown array and count stored. When the naming fails the
slot is released and the field keeps the pointer `pure64_realloc` was
given. -/
def addEntry {α : Type} (alloc : Nat → Bool) (elemSize : UInt64) (fresh : α)
    (setName : α → List UInt8 → Result α) (free : α → Option α) (arr : Dir → Ptr (List (Slot α)))
    (count : Dir → UInt64) (store : Dir → Ptr (List (Slot α)) → UInt64 → Dir) (dir : Dir)
    (name : List UInt8) : Result Dir :=
  match pure64DirNameExists dir name with
  | none => .ub
  | some true => .err .eexist dir
  | some false =>
    match pure64Realloc alloc (arr dir) ((count dir + 1) * elemSize) elemSize.toNat with
    | none => .ub
    | some .null => .err .enomem dir
    | some grown =>
      match setSlot grown (count dir).toNat elemSize.toNat fresh with
      | none => .ub
      | some grown =>
        match setName fresh name with
        | .ok a =>
          match setSlot grown (count dir).toNat elemSize.toNat a with
          | some grown => .ok (store dir grown (count dir + 1))
          | none => .ub
        | .err e a =>
          match free a with
          | some _ => .err e (store dir (arr dir).moved (count dir))
          | none => .ub
        | .ub => .ub

/-- `pure64_dir_add_file`. -/
def pure64DirAddFile (alloc : Nat → Bool) (sizeofFile : UInt64) : Dir → List UInt8 → Result Dir :=
  addEntry alloc sizeofFile pure64FileInit (pure64FileSetName alloc) pure64FileFree Dir.files
    Dir.fileCount Dir.withFiles

/-- `pure64_dir_add_subdir`. -/
def pure64DirAddSubdir (alloc : Nat → Bool) : Dir → List UInt8 → Result Dir :=
  addEntry alloc sizeofDir pure64DirInit (pure64DirSetName alloc) pure64DirFree Dir.subdirs
    Dir.subdirCount Dir.withSubdirs

/-- The insertion of each kind. -/
def entryAdd (alloc : Nat → Bool) (sizeofFile : UInt64) : EntryKind → Dir → List UInt8 → Result Dir
  | .file => pure64DirAddFile alloc sizeofFile
  | .subdir => pure64DirAddSubdir alloc

/-- The size of one slot of each array. -/
def entrySize (sizeofFile : UInt64) : EntryKind → UInt64
  | .file => sizeofFile
  | .subdir => sizeofDir

/-! ## Calls on any directory of the tree -/

/-- The struct `&d->subdirs[i]` reached through a path of indices, each
below the directory's `subdir_count`. -/
def Dir.atPath : Dir → List Nat → Option Dir
  | d, [] => some d
  | d, i :: p =>
    match d.subdirs with
    | .live _ slots =>
      if i < d.subdirCount.toNat then
        match slots[i]? with
        | some (.init c) => c.atPath p
        | _ => none
      else none
    | _ => none

/-- A call on the struct at a path: the call runs on the slot, which the
enclosing structs keep. `none` when the path names no directory. -/
def callAt (op : Dir → Result Dir) : Dir → List Nat → Option (Result Dir)
  | d, [] => some (op d)
  | d, i :: p =>
    match d.subdirs with
    | .live size slots =>
      if i < d.subdirCount.toNat then
        match slots[i]? with
        | some (.init c) =>
          (callAt op c p).map (Result.map fun c' =>
            d.withSubdirs (.live size (slots.set i (.init c'))) d.subdirCount)
        | _ => none
      else none
    | _ => none

/-- One insertion: its target, its kind and the string passed as `name`. -/
structure Call where
  path : List Nat
  kind : EntryKind
  name : List UInt8

/-- The call run on the tree rooted at `d`. -/
def Call.run (alloc : Nat → Bool) (sizeofFile : UInt64) (c : Call) (d : Dir) : Option (Result Dir) :=
  callAt (fun t => entryAdd alloc sizeofFile c.kind t c.name) d c.path

/-- A NUL-terminated string: it holds a NUL, and as an object of at most
`SIZE_MAX` bytes its length and terminator are below `2^64`. -/
def IsCString (s : List UInt8) : Prop := 0 ∈ s ∧ pure64Strlen s + 1 < 2 ^ 64

/-- The allocator of a run in which memory never runs out: glibc's
`malloc` and `realloc` still refuse every request above `PTRDIFF_MAX`,
`2^63 - 1` bytes. -/
def ptrdiffAlloc (n : Nat) : Bool := decide (n < 2 ^ 63)

/-- The trees a run of insertions builds with the allocator `alloc` from a
root `pure64_dir_init` prepared, every allocation succeeding: each call is
on a directory of the tree, with a C string, and is neither undefined nor
failed with `PURE64_ENOMEM`, the code a refused allocation returns. -/
inductive Reachable (alloc : Nat → Bool) (sizeofFile : UInt64) : Dir → Prop
  | init : Reachable alloc sizeofFile pure64DirInit
  | call {d d' : Dir} {c : Call} {r : Result Dir} : Reachable alloc sizeofFile d →
    IsCString c.name → c.run alloc sizeofFile d = some r → r.state = some d' →
    (∀ x, r ≠ .err .enomem x) → Reachable alloc sizeofFile d'

/-! ## The name fields `pure64_dir_name_exists` reads -/

/-- The name fields of the first `n` initialised slots. -/
def slotNames {α : Type} (nameOf : α → Ptr (List UInt8) × UInt64) :
    List (Slot α) → Nat → List (Ptr (List UInt8) × UInt64)
  | .init a :: slots, n + 1 => nameOf a :: slotNames nameOf slots n
  | _, _ => []

/-- The name fields of an array's first `n` entries. -/
def arrayNames {α : Type} (nameOf : α → Ptr (List UInt8) × UInt64) :
    Ptr (List (Slot α)) → Nat → List (Ptr (List UInt8) × UInt64)
  | .live _ slots, n => slotNames nameOf slots n
  | _, _ => []

/-- `name` and `name_size` of every entry, files first, as
`pure64_dir_name_exists` reads them. -/
def Dir.entryNameFields (d : Dir) : List (Ptr (List UInt8) × UInt64) :=
  arrayNames (fun f => (f.name, f.nameSize)) d.files d.fileCount.toNat ++
    arrayNames (fun c => (c.name, c.nameSize)) d.subdirs d.subdirCount.toNat

/-- The bytes of a buffer. -/
def bufferOf : Ptr (List UInt8) → List UInt8
  | .live _ buf => buf
  | _ => []

/-- No two entries of the directory compare equal under `pure64_strcmp`. -/
def Dir.EntriesDistinct (d : Dir) : Prop :=
  (d.entryNameFields.map fun e => bufferOf e.1).Pairwise fun a b => pure64Strcmp a b ≠ 0

/-- The buffer holds a NUL at index `n` and none before it. -/
def Terminated (p : Ptr (List UInt8)) (n : UInt64) : Prop :=
  ∃ size buf, p = .live size buf ∧ buf[n.toNat]? = some 0 ∧ 0 ∉ buf.take n.toNat

/-- Every entry's name is terminated at its `name_size`. -/
def Dir.EntriesTerminated (d : Dir) : Prop := ∀ e ∈ d.entryNameFields, Terminated e.1 e.2

/-- The number of entries an insertion of this kind finds, as the field
holds it. -/
def Dir.entryCount (d : Dir) : EntryKind → Nat
  | .file => d.fileCount.toNat
  | .subdir => d.subdirCount.toNat

end Heap

end Pure64

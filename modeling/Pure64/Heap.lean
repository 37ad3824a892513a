import Pure64.Tree

/-!
# The directory tree in memory: `pure64_dir_import` and `pure64_dir_free`

`Tree.lean` reads a directory as a value. Here the same decoder writes into
a `struct pure64_dir` in memory, as `src/lib/dir.c` does: it stores each
count in its field as soon as it is decoded, allocates the name buffer and
the two child arrays with sizes computed in `uint64_t`, reads the name,
writes the terminator, initialises every child slot, and only then imports
the children into the slots, returning at the first error.

Every pointer field is `NULL`, a live allocation or one already freed
(`Ptr`), and every array element is initialised or not (`Slot`). A write
outside a live allocation, a `pure64_free` of a freed pointer and a walk
into a slot that was never initialised are undefined behaviour: the `ub`
outcome, or `none` for `pure64_dir_free`. Whether `pure64_malloc(n)`
succeeds is the parameter `alloc n`; a stream read that fails writes
nothing.

`Dir.releasable` is what `pure64_dir_free` relies on: every pointer `NULL`
or live, and the first `subdir_count` and `file_count` slots initialised
and releasable in turn. `pure64DirFree_isSome` proves that it is enough.

Main results:

> `pure64DirImport_refines`: a successful import leaves a releasable tree,
> and its value is what the decoder of `Tree.lean` reads.

> `pure64DirImport_truncated_unreleasable`: an input that ends after the
> `subdir_count` field fails with `subdir_count = 1` and `subdirs = NULL`,
> and `pure64_dir_free` then dereferences `NULL`.

> `pure64DirImport_subdirs_wrap`: a `subdir_count` of `2^60` makes the
> request `subdir_count * 48` wrap to `0`, and initialising the slots
> writes outside the allocation.
-/

namespace Pure64

namespace Heap

/-- Modelled from the spec: the status codes of `pure64/error.h` that the
modelled functions return (`pure64/error.h` is not in the sources). -/
inductive Pure64Error where
  | eio
  | enomem
  | eexist
deriving DecidableEq, Repr

/-- A pointer field: `NULL`, a live allocation of `size` bytes holding
`val`, or an allocation already released. -/
inductive Ptr (α : Type) where
  | null
  | live (size : Nat) (val : α)
  | freed
deriving DecidableEq, Repr

/-- An element of an array `pure64_malloc` returned: not written since, or
an initialised struct. -/
inductive Slot (α : Type) where
  | uninit
  | init (a : α)
deriving DecidableEq, Repr

/-- Modelled from the spec: `struct pure64_file` (`pure64/file.h` is not in
the sources): the two sizes and the buffers they size. -/
structure File where
  nameSize : UInt64
  dataSize : UInt64
  name : Ptr (List UInt8)
  data : Ptr (List UInt8)
deriving DecidableEq, Repr

/-- `struct pure64_dir` in memory. A buffer holds the bytes written into it
from its start; an array holds its slots from the first. -/
inductive Dir where
  | mk (nameSize subdirCount fileCount : UInt64) (name : Ptr (List UInt8))
    (subdirs : Ptr (List (Slot Dir))) (files : Ptr (List (Slot File)))

/-- `sizeof(struct pure64_dir)`: six 8-byte fields. -/
def sizeofDir : UInt64 := 48

/-- How a call that writes into a struct ends: `0` and the unread rest, an
error code and the struct as it was left, or undefined behaviour. The
model's recursive import is bounded by a depth it is given; `outOfFuel`,
which no C code returns, is the end of a run that hit that bound. -/
inductive Outcome (α : Type) where
  | ok (a : α) (rest : List UInt8)
  | err (e : Pure64Error) (a : α)
  | ub
  | outOfFuel

/-! ## The allocator -/

/-- `pure64_malloc(size)`: a fresh allocation with nothing written yet, or
`NULL`. -/
def pure64Malloc {α : Type} (alloc : Nat → Bool) (size : UInt64) : Ptr (List α) :=
  if alloc size.toNat then .live size.toNat [] else .null

/-- `pure64_free(p)`: `NULL` is left alone, and freeing twice is undefined. -/
def pure64Free {α : Type} : Ptr α → Option (Ptr α)
  | .null => some .null
  | .live _ _ => some .freed
  | .freed => none

/-- The pointer is `NULL`. -/
def Ptr.isNull {α : Type} : Ptr α → Bool
  | .null => true
  | _ => false

/-- The pointer is `NULL` or live: one `pure64_free` of it is defined. -/
def Ptr.owned {α : Type} : Ptr α → Bool
  | .freed => false
  | _ => true

/-- `pure64_stream_read(in, p, n)` of the `n` bytes `bs`: undefined unless
the buffer is live and has room for them. -/
def writeBytes (p : Ptr (List UInt8)) (bs : List UInt8) : Option (Ptr (List UInt8)) :=
  match p with
  | .live size _ => if bs.length ≤ size then some (.live size bs) else none
  | _ => none

/-- `pure64_stream_read(in, name, n)` of the `n` bytes `bs`, then
`name[n] = 0`: undefined unless the buffer has room for `n + 1` bytes. -/
def writeName (p : Ptr (List UInt8)) (bs : List UInt8) : Option (Ptr (List UInt8)) :=
  match p with
  | .live size _ => if bs.length < size then some (.live size (bs ++ [0])) else none
  | _ => none

/-- The `pure64_dir_init`/`pure64_file_init` loop over the first `n` slots
of `elemSize` bytes each: undefined unless they lie inside the allocation. -/
def initSlots {α : Type} (p : Ptr (List (Slot α))) (n elemSize : Nat) (a : α) :
    Option (Ptr (List (Slot α))) :=
  match p with
  | .live size _ => if n * elemSize ≤ size then some (.live size (List.replicate n (.init a))) else none
  | _ => none

/-- The array once the child loop has left `as` in its initialised slots. -/
def Ptr.withSlots {α : Type} : Ptr (List (Slot α)) → List α → Ptr (List (Slot α))
  | .live size _, as => .live size (as.map .init)
  | p, _ => p

/-! ## Files -/

/-- Modelled from the spec: `pure64_file_init`. -/
def pure64FileInit : File := ⟨0, 0, .null, .null⟩

/-- Modelled from the spec: `pure64_file_free` releases both buffers. -/
def pure64FileFree (f : File) : Option File := do
  let _ ← pure64Free f.name
  let _ ← pure64Free f.data
  pure { f with name := .null, data := .null }

/-- Modelled from the spec: `pure64_file_import` mirrors the directory's
header: the two sizes, the two allocations, the name and its terminator,
then the data, each read through `fstream_read` as `pure64_dir_import`
reads its name. -/
def pure64FileImport (alloc : Nat → Bool) (c : UInt64Codec) (file : File) (bs : List UInt8) :
    Outcome File :=
  match decodeUint64 c bs with
  | none => .err .eio file
  | some (nameSize, bs) =>
  match decodeUint64 c bs with
  | none => .err .eio { file with nameSize }
  | some (dataSize, bs) =>
  let name : Ptr (List UInt8) := pure64Malloc alloc (nameSize + 1)
  let data : Ptr (List UInt8) := pure64Malloc alloc dataSize
  if name.isNull || data.isNull then
    match pure64Free name, pure64Free data with
    | some name, some data => .err .enomem ⟨nameSize, dataSize, name, data⟩
    | _, _ => .ub
  else
  match pure64StreamRead nameSize.toNat bs with
  | none =>
    match writeBytes name bs with
    | some name => .err .eio ⟨nameSize, dataSize, name, data⟩
    | none => .ub
  | some (nameBytes, bs) =>
  match writeName name nameBytes with
  | none => .ub
  | some name =>
  match pure64StreamRead dataSize.toNat bs with
  | none =>
    match writeBytes data bs with
    | some data => .err .eio ⟨nameSize, dataSize, name, data⟩
    | none => .ub
  | some (dataBytes, bs) =>
  match writeBytes data dataBytes with
  | none => .ub
  | some data => .ok ⟨nameSize, dataSize, name, data⟩ bs

/-- The file is what `pure64_file_free` relies on: both buffers `NULL` or live. -/
def File.releasable (f : File) : Bool := f.name.owned && f.data.owned

/-! ## Directories -/

/-- `pure64_dir_init`. -/
def pure64DirInit : Dir := .mk 0 0 0 .null .null .null

/-- A child loop of `pure64_dir_import` over `n` slots, each initialised to
`fresh`: every slot imported in turn, stopping at the first that fails.
The slots are returned in every case, the failed one as it was left and
those after it still `fresh`. -/
def importSlots {α : Type} (f : List UInt8 → Outcome α) (fresh : α) :
    Nat → List UInt8 → Outcome (List α)
  | 0, bs => .ok [] bs
  | n + 1, bs =>
    match f bs with
    | .ok a bs =>
      match importSlots f fresh n bs with
      | .ok as bs => .ok (a :: as) bs
      | .err e as => .err e (a :: as)
      | .ub => .ub
      | .outOfFuel => .outOfFuel
    | .err e a => .err e (a :: List.replicate n fresh)
    | .ub => .ub
    | .outOfFuel => .outOfFuel

section Import

variable (alloc : Nat → Bool) (c : UInt64Codec) (sizeofFile : UInt64)

/-- `pure64_dir_import` into `dir` under a bound on the nesting depth,
`outOfFuel` when the bound is hit. The stream is `fstream_read`: an
`fread` that comes up short has already copied what was left into the
buffer, which overruns the `malloc(0)` block a `name_size` of `2^64 - 1`
gets. -/
def dirImportFuel : Nat → Dir → List UInt8 → Outcome Dir
  | 0, _, _ => .outOfFuel
  | fuel + 1, .mk nameSize0 subdirCount0 fileCount0 name0 subdirs0 files0, bs =>
    match decodeUint64 c bs with
    | none => .err .eio (.mk nameSize0 subdirCount0 fileCount0 name0 subdirs0 files0)
    | some (nameSize, bs) =>
    match decodeUint64 c bs with
    | none => .err .eio (.mk nameSize subdirCount0 fileCount0 name0 subdirs0 files0)
    | some (subdirCount, bs) =>
    match decodeUint64 c bs with
    | none => .err .eio (.mk nameSize subdirCount fileCount0 name0 subdirs0 files0)
    | some (fileCount, bs) =>
    let name : Ptr (List UInt8) := pure64Malloc alloc (nameSize + 1)
    let subdirs : Ptr (List (Slot Dir)) := pure64Malloc alloc (subdirCount * sizeofDir)
    let files : Ptr (List (Slot File)) := pure64Malloc alloc (fileCount * sizeofFile)
    if name.isNull || subdirs.isNull || files.isNull then
      match pure64Free name, pure64Free subdirs, pure64Free files with
      | some name, some subdirs, some files =>
        .err .enomem (.mk nameSize subdirCount fileCount name subdirs files)
      | _, _, _ => .ub
    else
    match pure64StreamRead nameSize.toNat bs with
    | none =>
      match writeBytes name bs with
      | some name => .err .eio (.mk nameSize subdirCount fileCount name subdirs files)
      | none => .ub
    | some (nameBytes, bs) =>
    match writeName name nameBytes,
        initSlots subdirs subdirCount.toNat sizeofDir.toNat pure64DirInit,
        initSlots files fileCount.toNat sizeofFile.toNat pure64FileInit with
    | some name, some subdirs, some files =>
      match importSlots (dirImportFuel fuel pure64DirInit) pure64DirInit subdirCount.toNat bs with
      | .ub => .ub
      | .outOfFuel => .outOfFuel
      | .err e ds => .err e (.mk nameSize subdirCount fileCount name (subdirs.withSlots ds) files)
      | .ok ds bs =>
        match importSlots (pure64FileImport alloc c pure64FileInit) pure64FileInit
            fileCount.toNat bs with
        | .ub => .ub
        | .outOfFuel => .outOfFuel
        | .err e fs =>
          .err e (.mk nameSize subdirCount fileCount name (subdirs.withSlots ds) (files.withSlots fs))
        | .ok fs bs =>
          .ok (.mk nameSize subdirCount fileCount name (subdirs.withSlots ds) (files.withSlots fs)) bs
    | _, _, _ => .ub

/-- `pure64_dir_import` into a directory `pure64_dir_init` prepared, as
`ramfs_import` calls it for the root. -/
def pure64DirImport (bs : List UInt8) : Outcome Dir :=
  dirImportFuel alloc c sizeofFile (bs.length + 1) pure64DirInit bs

end Import

/-! ## Releasing -/

/-- The file loop of `pure64_dir_free` over the first `n` slots. -/
def freeFileSlots : List (Slot File) → Nat → Option (List (Slot File))
  | slots, 0 => some slots
  | .init f :: slots, n + 1 => do
    let f ← pure64FileFree f
    let slots ← freeFileSlots slots n
    pure (.init f :: slots)
  | _, _ + 1 => none

/-- The file loop through the `files` pointer: no slot is touched when
there are none, and otherwise the pointer must be live. -/
def freeFiles : Ptr (List (Slot File)) → Nat → Option (Ptr (List (Slot File)))
  | p, 0 => some p
  | .live size slots, n + 1 => (freeFileSlots slots (n + 1)).map (.live size)
  | _, _ + 1 => none

mutual
/-- `pure64_dir_free`: the name, every subdirectory and file, both arrays;
the pointers are then `NULL` and the counts are left as they were. -/
def pure64DirFree : Dir → Option Dir
  | .mk nameSize subdirCount fileCount name subdirs files => do
    let _ ← pure64Free name
    let subdirs ← freeSubdirs subdirs subdirCount.toNat
    let files ← freeFiles files fileCount.toNat
    let _ ← pure64Free subdirs
    let _ ← pure64Free files
    pure (.mk nameSize subdirCount fileCount .null .null .null)
/-- The subdirectory loop through the `subdirs` pointer. -/
def freeSubdirs : Ptr (List (Slot Dir)) → Nat → Option (Ptr (List (Slot Dir)))
  | p, 0 => some p
  | .live size slots, n + 1 => (freeSubdirSlots slots (n + 1)).map (.live size)
  | _, _ + 1 => none
/-- The subdirectory loop over the first `n` slots. -/
def freeSubdirSlots : List (Slot Dir) → Nat → Option (List (Slot Dir))
  | slots, 0 => some slots
  | .init d :: slots, n + 1 => do
    let d ← pure64DirFree d
    let slots ← freeSubdirSlots slots n
    pure (.init d :: slots)
  | _, _ + 1 => none
end

/-- The first `n` slots are initialised files `pure64_file_free` can release. -/
def fileSlotsReady : List (Slot File) → Nat → Bool
  | _, 0 => true
  | .init f :: slots, n + 1 => f.releasable && fileSlotsReady slots n
  | _, _ + 1 => false

/-- `files` with `n` entries, as `pure64_dir_free` walks it. -/
def filesReady : Ptr (List (Slot File)) → Nat → Bool
  | .null, n => n == 0
  | .live _ slots, n => fileSlotsReady slots n
  | .freed, _ => false

mutual
/-- What `pure64_dir_free` relies on: `name`, `subdirs` and `files` are
each `NULL` or live, and the first `subdir_count` and `file_count` slots
are initialised nodes of which the same holds. -/
def Dir.releasable : Dir → Bool
  | .mk _ subdirCount fileCount name subdirs files =>
    name.owned && subdirsReady subdirs subdirCount.toNat && filesReady files fileCount.toNat
/-- `subdirs` with `n` entries, as `pure64_dir_free` walks it. -/
def subdirsReady : Ptr (List (Slot Dir)) → Nat → Bool
  | .null, n => n == 0
  | .live _ slots, n => subdirSlotsReady slots n
  | .freed, _ => false
/-- The first `n` slots are releasable directories. -/
def subdirSlotsReady : List (Slot Dir) → Nat → Bool
  | _, 0 => true
  | .init d :: slots, n + 1 => d.releasable && subdirSlotsReady slots n
  | _, _ + 1 => false
end

/-! ## The value a directory holds -/

/-- The first `n` bytes of a buffer. -/
def bufferBytes : Ptr (List UInt8) → Nat → List UInt8
  | .live _ bs, n => bs.take n
  | _, _ => []

/-- The file as a value: its name and data bytes. -/
def File.view (f : File) : Pure64.File :=
  ⟨bufferBytes f.name f.nameSize.toNat, bufferBytes f.data f.dataSize.toNat⟩

/-- The files of the first `n` initialised slots. -/
def fileSlotsView : List (Slot File) → Nat → List Pure64.File
  | .init f :: slots, n + 1 => f.view :: fileSlotsView slots n
  | _, _ => []

/-- The files of `files`. -/
def filesView : Ptr (List (Slot File)) → Nat → List Pure64.File
  | .live _ slots, n => fileSlotsView slots n
  | _, _ => []

mutual
/-- The directory as a value: the name, the first `subdir_count`
subdirectories and the first `file_count` files. -/
def Dir.view : Dir → Pure64.Dir
  | .mk nameSize subdirCount fileCount name subdirs files =>
    .mk (bufferBytes name nameSize.toNat) (subdirsView subdirs subdirCount.toNat)
      (filesView files fileCount.toNat)
/-- The subdirectories of `subdirs`. -/
def subdirsView : Ptr (List (Slot Dir)) → Nat → List Pure64.Dir
  | .live _ slots, n => subdirSlotsView slots n
  | _, _ => []
/-- The subdirectories of the first `n` initialised slots. -/
def subdirSlotsView : List (Slot Dir) → Nat → List Pure64.Dir
  | .init d :: slots, n + 1 => d.view :: subdirSlotsView slots n
  | _, _ => []
end

/-! ## The allocator's small lemmas -/

@[simp] theorem pure64Malloc_of_alloc {α : Type} {alloc : Nat → Bool} {size : UInt64}
    (h : alloc size.toNat = true) : (pure64Malloc alloc size : Ptr (List α)) = .live size.toNat [] :=
  if_pos h

@[simp] theorem isNull_live {α : Type} (size : Nat) (a : α) : (Ptr.live size a).isNull = false := rfl

theorem pure64Free_of_owned {α : Type} {p : Ptr α} (h : p.owned = true) : ∃ q, pure64Free p = some q := by
  cases p
  · exact ⟨_, rfl⟩
  · exact ⟨_, rfl⟩
  · cases h

theorem writeName_eq_some {p q : Ptr (List UInt8)} {bs : List UInt8} (h : writeName p bs = some q) :
    ∃ size, q = .live size (bs ++ [0]) ∧ bs.length < size := by
  unfold writeName at h
  split at h
  · split at h
    · cases h; exact ⟨_, rfl, ‹_›⟩
    · cases h
  · cases h

theorem writeBytes_eq_some {p q : Ptr (List UInt8)} {bs : List UInt8} (h : writeBytes p bs = some q) :
    ∃ size, q = .live size bs ∧ bs.length ≤ size := by
  unfold writeBytes at h
  split at h
  · split at h
    · cases h; exact ⟨_, rfl, ‹_›⟩
    · cases h
  · cases h

theorem initSlots_eq_some {α : Type} {p q : Ptr (List (Slot α))} {n e : Nat} {a : α}
    (h : initSlots p n e a = some q) :
    ∃ size, q = .live size (List.replicate n (.init a)) ∧ n * e ≤ size := by
  unfold initSlots at h
  split at h
  · split at h
    · cases h; exact ⟨_, rfl, ‹_›⟩
    · cases h
  · cases h

/-- The `n` slots of `e` bytes do not fit: the initialising loop writes past
the allocation. -/
theorem initSlots_of_lt {α : Type} {size n e : Nat} {slots : List (Slot α)} (a : α)
    (h : size < n * e) : initSlots (.live size slots) n e a = none :=
  if_neg (Nat.not_le.mpr h)

@[simp] theorem bufferBytes_live (size : Nat) (bs r : List UInt8) :
    bufferBytes (.live size (bs ++ r)) bs.length = bs := by
  simp [bufferBytes]

/-! ## Releasing a releasable tree is defined -/

theorem freeFileSlots_isSome :
    ∀ (slots : List (Slot File)) n, fileSlotsReady slots n = true →
      ∃ slots', freeFileSlots slots n = some slots'
  | [], 0, _ | .uninit :: _, 0, _ | .init _ :: _, 0, _ => ⟨_, rfl⟩
  | .init f :: slots, n + 1, h => by
    obtain ⟨hf, hs⟩ : f.releasable = true ∧ fileSlotsReady slots n = true :=
      Bool.and_eq_true _ _ ▸ h
    obtain ⟨hn, hd⟩ : f.name.owned = true ∧ f.data.owned = true := Bool.and_eq_true _ _ ▸ hf
    obtain ⟨n', hn'⟩ := pure64Free_of_owned hn
    obtain ⟨d', hd'⟩ := pure64Free_of_owned hd
    obtain ⟨s', hs'⟩ := freeFileSlots_isSome slots n hs
    exact ⟨_, show pure64FileFree f >>= _ = _ by rw [pure64FileFree, hn', hd', hs']; rfl⟩

theorem freeFiles_isSome :
    ∀ (p : Ptr (List (Slot File))) n, filesReady p n = true →
      ∃ p', freeFiles p n = some p' ∧ p'.owned = true
  | .null, 0, _ | .live _ _, 0, _ => ⟨_, rfl, rfl⟩
  | .live size slots, n + 1, h => by
    obtain ⟨s', hs'⟩ := freeFileSlots_isSome slots (n + 1) h
    exact ⟨.live size s', show (freeFileSlots slots (n + 1)).map _ = _ by rw [hs']; rfl, rfl⟩

mutual
/-- `pure64_dir_free` of a releasable directory is defined at every step:
it never dereferences `NULL`, reads an uninitialised slot or frees twice. -/
theorem pure64DirFree_isSome :
    ∀ d : Dir, d.releasable = true → ∃ d', pure64DirFree d = some d'
  | .mk _ subdirCount fileCount name subdirs files, h => by
    simp only [Dir.releasable, Bool.and_eq_true] at h
    obtain ⟨⟨hn, hs⟩, hf⟩ := h
    obtain ⟨n', hn'⟩ := pure64Free_of_owned hn
    obtain ⟨s', hs', hso⟩ := freeSubdirs_isSome subdirs _ hs
    obtain ⟨f', hf', hfo⟩ := freeFiles_isSome files _ hf
    obtain ⟨s'', hs''⟩ := pure64Free_of_owned hso
    obtain ⟨f'', hf''⟩ := pure64Free_of_owned hfo
    simp [pure64DirFree, hn', hs', hf', hs'', hf'']
theorem freeSubdirs_isSome :
    ∀ (p : Ptr (List (Slot Dir))) n, subdirsReady p n = true →
      ∃ p', freeSubdirs p n = some p' ∧ p'.owned = true
  | .null, 0, _ | .live _ _, 0, _ => ⟨_, rfl, rfl⟩
  | .live size slots, n + 1, h => by
    obtain ⟨s', hs'⟩ := freeSubdirSlots_isSome slots (n + 1) h
    exact ⟨.live size s', show (freeSubdirSlots slots (n + 1)).map _ = _ by rw [hs']; rfl, rfl⟩
theorem freeSubdirSlots_isSome :
    ∀ (slots : List (Slot Dir)) n, subdirSlotsReady slots n = true →
      ∃ slots', freeSubdirSlots slots n = some slots'
  | [], 0, _ | .uninit :: _, 0, _ | .init _ :: _, 0, _ => ⟨_, rfl⟩
  | .init d :: slots, n + 1, h => by
    obtain ⟨hd, hs⟩ : d.releasable = true ∧ subdirSlotsReady slots n = true :=
      Bool.and_eq_true _ _ ▸ h
    obtain ⟨d', hd'⟩ := pure64DirFree_isSome d hd
    obtain ⟨s', hs'⟩ := freeSubdirSlots_isSome slots n hs
    exact ⟨.init d' :: s', show (pure64DirFree d).bind _ = _ by rw [hd', Option.some_bind, hs']; rfl⟩
end

/-! ## A successful import -/

section Refinement

variable {alloc : Nat → Bool} {c : UInt64Codec} {sizeofFile : UInt64}

/-- Everything a successful `pure64_file_import` did. -/
theorem pure64FileImport_eq_ok {file f : File} {bs r : List UInt8}
    (h : pure64FileImport alloc c file bs = .ok f r) :
    ∃ nameSize dataSize bs1 bs2 nameBytes bs3 dataBytes nsz dsz,
      decodeUint64 c bs = some (nameSize, bs1) ∧ decodeUint64 c bs1 = some (dataSize, bs2) ∧
      pure64StreamRead nameSize.toNat bs2 = some (nameBytes, bs3) ∧
      pure64StreamRead dataSize.toNat bs3 = some (dataBytes, r) ∧
      f = ⟨nameSize, dataSize, .live nsz (nameBytes ++ [0]), .live dsz dataBytes⟩ := by
  simp only [pure64FileImport] at h
  split at h
  · cases h
  rename_i nameSize bs1 h1
  split at h
  · cases h
  rename_i dataSize bs2 h2
  split at h
  · split at h <;> cases h
  split at h
  · split at h <;> cases h
  rename_i nameBytes bs3 h3
  split at h
  · cases h
  rename_i name hn
  obtain ⟨nsz, rfl, -⟩ := writeName_eq_some hn
  split at h
  · split at h <;> cases h
  rename_i dataBytes bs4 h4
  split at h
  · cases h
  rename_i data hd
  obtain ⟨dsz, rfl, -⟩ := writeBytes_eq_some hd
  cases h
  exact ⟨_, _, _, _, _, _, _, _, _, h1, h2, h3, h4, rfl⟩

/-- A successful file import leaves a releasable file holding what the
value-level decoder reads. -/
theorem pure64FileImport_refines {f : File} {bs r : List UInt8}
    (h : pure64FileImport alloc c pure64FileInit bs = .ok f r) :
    f.releasable = true ∧ pure64FileImportSpec c bs = some (f.view, r) := by
  obtain ⟨nameSize, dataSize, bs1, bs2, nameBytes, bs3, dataBytes, nsz, dsz, h1, h2, h3, h4, rfl⟩ :=
    pure64FileImport_eq_ok h
  obtain ⟨hn, -⟩ := pure64StreamRead_eq_some h3
  obtain ⟨hd, -⟩ := pure64StreamRead_eq_some h4
  refine ⟨rfl, ?_⟩
  have hv : (File.view ⟨nameSize, dataSize, .live nsz (nameBytes ++ [0]), .live dsz dataBytes⟩) =
      ⟨nameBytes, dataBytes⟩ := by
    simp only [File.view, ← hn, ← hd, bufferBytes_live]
    simp [bufferBytes]
  simp [pure64FileImportSpec, h1, h2, h3, h4, hv]

/-- A child loop that succeeds imported every slot, and the value-level loop
reads the same children. -/
theorem importSlots_eq_ok {α β : Type} {f : List UInt8 → Outcome α} {fresh : α}
    {g : List UInt8 → Option (β × List UInt8)} {v : α → β} {P : α → Prop}
    (hf : ∀ bs a r, f bs = .ok a r → P a ∧ g bs = some (v a, r)) :
    ∀ n bs as r, importSlots f fresh n bs = .ok as r →
      as.length = n ∧ (∀ a ∈ as, P a) ∧ importEach g n bs = some (as.map v, r)
  | 0, bs, as, r, h => by
    simp only [importSlots, Outcome.ok.injEq] at h
    obtain ⟨rfl, rfl⟩ := h
    simp [importEach]
  | n + 1, bs, as, r, h => by
    simp only [importSlots] at h
    split at h
    · rename_i a bs1 h1
      split at h
      · rename_i as' bs2 h2
        simp only [Outcome.ok.injEq] at h
        obtain ⟨rfl, rfl⟩ := h
        obtain ⟨hPa, hg⟩ := hf _ _ _ h1
        obtain ⟨hlen, hP, hrest⟩ := importSlots_eq_ok hf n _ _ _ h2
        refine ⟨by simp [hlen], ?_, by simp [importEach, hg, hrest]⟩
        simpa [hPa] using hP
      all_goals cases h
    all_goals cases h

theorem subdirSlotsView_map_init (ds : List Dir) :
    subdirSlotsView (ds.map .init) ds.length = ds.map Dir.view := by
  induction ds with
  | nil => rfl
  | cons d ds ih => simp only [List.map_cons, List.length_cons, subdirSlotsView, ih, List.map_cons]

theorem fileSlotsView_map_init (fs : List File) :
    fileSlotsView (fs.map .init) fs.length = fs.map File.view := by
  induction fs with
  | nil => rfl
  | cons f fs ih => simp only [List.map_cons, List.length_cons, fileSlotsView, ih, List.map_cons]

theorem subdirSlotsReady_map_init (ds : List Dir) :
    subdirSlotsReady (ds.map .init) ds.length = ds.all Dir.releasable := by
  induction ds with
  | nil => rfl
  | cons d ds ih => simp only [List.map_cons, List.length_cons, subdirSlotsReady, ih, List.all_cons]

theorem fileSlotsReady_map_init (fs : List File) :
    fileSlotsReady (fs.map .init) fs.length = fs.all File.releasable := by
  induction fs with
  | nil => rfl
  | cons f fs ih => simp only [List.map_cons, List.length_cons, fileSlotsReady, ih, List.all_cons]

/-- Everything one successful level of `pure64_dir_import` did: the three
counts, the name, both child loops, and the struct they leave. -/
theorem dirImportFuel_eq_ok {fuel : Nat} {dir d : Dir} {bs r : List UInt8}
    (h : dirImportFuel alloc c sizeofFile (fuel + 1) dir bs = .ok d r) :
    ∃ nameSize subdirCount fileCount bs1 bs2 bs3 nameBytes bs4 ds bs5 fs nsz ssz fsz,
      decodeUint64 c bs = some (nameSize, bs1) ∧ decodeUint64 c bs1 = some (subdirCount, bs2) ∧
      decodeUint64 c bs2 = some (fileCount, bs3) ∧
      pure64StreamRead nameSize.toNat bs3 = some (nameBytes, bs4) ∧
      importSlots (dirImportFuel alloc c sizeofFile fuel pure64DirInit) pure64DirInit
        subdirCount.toNat bs4 = .ok ds bs5 ∧
      importSlots (pure64FileImport alloc c pure64FileInit) pure64FileInit fileCount.toNat bs5 =
        .ok fs r ∧
      d = .mk nameSize subdirCount fileCount (.live nsz (nameBytes ++ [0]))
        (.live ssz (ds.map .init)) (.live fsz (fs.map .init)) := by
  obtain ⟨ns0, sc0, fc0, name0, subdirs0, files0⟩ := dir
  simp only [dirImportFuel] at h
  split at h
  · cases h
  rename_i nameSize bs1 h1
  split at h
  · cases h
  rename_i subdirCount bs2 h2
  split at h
  · cases h
  rename_i fileCount bs3 h3
  split at h
  · split at h <;> cases h
  split at h
  · split at h <;> cases h
  rename_i nameBytes bs4 h4
  split at h
  · rename_i name subdirs files hn hs hf
    obtain ⟨nsz, rfl, -⟩ := writeName_eq_some hn
    obtain ⟨ssz, rfl, -⟩ := initSlots_eq_some hs
    obtain ⟨fsz, rfl, -⟩ := initSlots_eq_some hf
    split at h <;> try cases h
    rename_i ds bs5 h5
    split at h <;> cases h
    rename_i fs bs6 h6
    exact ⟨_, _, _, _, _, _, _, _, _, _, _, _, _, _, h1, h2, h3, h4, h5, h6, rfl⟩
  · cases h

/-- One level of the refinement, by induction on the depth bound. -/
theorem dirImportFuel_refines :
    ∀ fuel bs d r, dirImportFuel alloc c sizeofFile fuel pure64DirInit bs = .ok d r →
      d.releasable = true ∧ Pure64.dirImportFuel c (specFileCodec c) fuel bs = some (d.view, r)
  | 0, _, _, _, h => by cases h
  | fuel + 1, bs, d, r, h => by
    obtain ⟨nameSize, subdirCount, fileCount, bs1, bs2, bs3, nameBytes, bs4, ds, bs5, fs, nsz, ssz,
      fsz, h1, h2, h3, h4, h5, h6, rfl⟩ := dirImportFuel_eq_ok h
    obtain ⟨hn, -⟩ := pure64StreamRead_eq_some h4
    obtain ⟨hsl, hsP, hse⟩ := importSlots_eq_ok (dirImportFuel_refines fuel) _ _ _ _ h5
    obtain ⟨hfl, hfP, hfe⟩ := importSlots_eq_ok (fun bs f r h => pure64FileImport_refines h) _ _ _ _ h6
    constructor
    · simp only [Dir.releasable, subdirsReady, filesReady, ← hsl, ← hfl, subdirSlotsReady_map_init,
        fileSlotsReady_map_init, List.all_eq_true, Ptr.owned, Bool.and_true, Bool.true_and,
        Bool.and_eq_true]
      exact ⟨fun d hd => (hsP d hd), fun f hf => (hfP f hf)⟩
    · simp only [Dir.view, subdirsView, filesView, ← hn, ← hsl, ← hfl, bufferBytes_live,
        subdirSlotsView_map_init, fileSlotsView_map_init]
      have hfe' : importEach (specFileCodec c).pure64FileImport fileCount.toNat bs5 =
          some (fs.map File.view, r) := hfe
      simp [Pure64.dirImportFuel, h1, h2, h3, h4, hse, hfe']

/-- **Refinement.** A successful `pure64_dir_import` leaves a tree
`pure64_dir_free` can release, and the tree's value is what the
value-level decoder of `Tree.lean` reads, with the same bytes left over. -/
theorem pure64DirImport_refines {bs r : List UInt8} {d : Dir}
    (h : pure64DirImport alloc c sizeofFile bs = .ok d r) :
    d.releasable = true ∧ Pure64.pure64DirImport c (specFileCodec c) bs = some (d.view, r) :=
  dirImportFuel_refines _ _ _ _ h

/-- The little-endian image of a root named `r` holding the file `f` with
the bytes `1 2`, followed by one byte more. -/
def oneFileImage : List UInt8 :=
  [1, 0, 0, 0, 0, 0, 0, 0, 0, 0, 0, 0, 0, 0, 0, 0, 1, 0, 0, 0, 0, 0, 0, 0, 0x72,
    1, 0, 0, 0, 0, 0, 0, 0, 2, 0, 0, 0, 0, 0, 0, 0, 0x66, 1, 2, 9]

theorem pure64DirImport_refines_oneFile : ∃ d,
    pure64DirImport (fun _ => true) leCodec 32 oneFileImage = .ok d [9] ∧ d.releasable = true ∧
      Pure64.pure64DirImport leCodec (specFileCodec leCodec) oneFileImage = some (d.view, [9]) :=
  have h : pure64DirImport (fun _ => true) leCodec 32 oneFileImage = .ok _ [9] := rfl
  ⟨_, h, pure64DirImport_refines h⟩

end Refinement

/-! ## A failed import -/

section Failure

variable {alloc : Nat → Bool} {c : UInt64Codec} {sizeofFile : UInt64}

/-- An input that ends inside the `file_count` field, after a nonzero
`subdir_count`: the import fails having stored `subdir_count` while
`subdirs` is still the `NULL` of `pure64_dir_init`. The tree is not
releasable, and `pure64_dir_free` dereferences `NULL` in its first loop. -/
theorem pure64DirImport_truncated_unreleasable (hc : c.RoundTrip) (nameSize subdirCount : UInt64)
    (hsc : 0 < subdirCount.toNat) (rest : List UInt8) (hr : rest.length < 8) :
    ∃ d, pure64DirImport alloc c sizeofFile
        (encodeUint64 c nameSize ++ encodeUint64 c subdirCount ++ rest) = .err .eio d ∧
      d.releasable = false ∧ pure64DirFree d = none := by
  obtain ⟨n, hn⟩ : ∃ n, subdirCount.toNat = n + 1 := ⟨_, (Nat.succ_pred_eq_of_pos hsc).symm⟩
  refine ⟨.mk nameSize subdirCount 0 .null .null .null, ?_, ?_, ?_⟩
  · simp [pure64DirImport, dirImportFuel, pure64DirInit, hc _ _, decodeUint64_of_length_lt c hr]
  · simp [Dir.releasable, subdirsReady, hn]
  · rw [pure64DirFree, hn]
    rfl

/-- Sixteen bytes: a `name_size` of zero, a `subdir_count` of one, and the
end of the image. -/
theorem pure64DirImport_sixteen_bytes :
    ∃ d, pure64DirImport (fun _ => true) leCodec 32
        (encodeUint64 leCodec 0 ++ encodeUint64 leCodec 1 ++ []) = .err .eio d ∧
      d.releasable = false ∧ pure64DirFree d = none :=
  pure64DirImport_truncated_unreleasable leCodec_roundTrip 0 1 (by decide) [] (by decide)

/-- When every allocation succeeds and either child-array request wraps
below the bytes its slots span, the import runs the initialising loop past
the end of the allocation: undefined behaviour, whatever the name. -/
theorem pure64DirImport_array_wrap_ub (hc : c.RoundTrip) (halloc : ∀ n, alloc n = true)
    (nameSize subdirCount fileCount : UInt64) (name rest : List UInt8)
    (hn : name.length = nameSize.toNat)
    (hwrap : (subdirCount * sizeofDir).toNat < subdirCount.toNat * sizeofDir.toNat ∨
      (fileCount * sizeofFile).toNat < fileCount.toNat * sizeofFile.toNat) :
    pure64DirImport alloc c sizeofFile (encodeUint64 c nameSize ++ encodeUint64 c subdirCount ++
      encodeUint64 c fileCount ++ name ++ rest) = .ub := by
  simp only [pure64DirImport, pure64DirInit, dirImportFuel, List.append_assoc, hc _ _,
    pure64Malloc_of_alloc (halloc _), isNull_live, Bool.or_false, Bool.false_eq_true, if_false,
    pure64StreamRead_append rest hn]
  rcases hwrap with hw | hw <;> simp [initSlots_of_lt _ hw]

/-- A `subdir_count` of `2^60`: the request `2^60 * 48` is `0` modulo `2^64`. -/
theorem pure64DirImport_subdirs_wrap :
    ((2 ^ 60 : Nat).toUInt64 * sizeofDir).toNat = 0 ∧
      pure64DirImport (fun _ => true) leCodec 32 (encodeUint64 leCodec 0 ++
        encodeUint64 leCodec (2 ^ 60 : Nat).toUInt64 ++ encodeUint64 leCodec 0 ++ [] ++ []) = .ub :=
  ⟨by decide,
    pure64DirImport_array_wrap_ub leCodec_roundTrip (fun _ => rfl) 0 _ 0 [] [] rfl (.inl (by decide))⟩

/-- **A `name_size` of `2^64 - 1`.** `name_size + 1` wraps to `0`, so the
name buffer is a `malloc(0)` block, and the read of the name, short of
`2^64 - 1` bytes, has `fread` copy every byte left in the stream into it
first: undefined behaviour whenever a byte follows the three counts. -/
theorem pure64DirImport_name_wrap_ub (hc : c.RoundTrip) (halloc : ∀ n, alloc n = true)
    (subdirCount fileCount : UInt64) (rest : List UInt8) (hr : 0 < rest.length)
    (hr' : rest.length < 2 ^ 64 - 1) :
    pure64DirImport alloc c sizeofFile (encodeUint64 c 0xFFFFFFFFFFFFFFFF ++ encodeUint64 c subdirCount ++
      encodeUint64 c fileCount ++ rest) = .ub := by
  have h0 : ((0xFFFFFFFFFFFFFFFF : UInt64) + 1).toNat = 0 := rfl
  have hshort : ¬ (0xFFFFFFFFFFFFFFFF : UInt64).toNat ≤ rest.length := by
    show ¬ 2 ^ 64 - 1 ≤ rest.length
    omega
  simp only [pure64DirImport, pure64DirInit, dirImportFuel, List.append_assoc, hc _ _,
    pure64Malloc_of_alloc (halloc _), isNull_live, Bool.or_false, Bool.false_eq_true, if_false, h0,
    pure64StreamRead, hshort, writeBytes, Nat.not_le.mpr hr]

/-- One byte after the counts of a root named by `2^64 - 1` bytes. -/
theorem pure64DirImport_name_wrap_one :
    pure64DirImport (fun _ => true) leCodec 32
      (encodeUint64 leCodec 0xFFFFFFFFFFFFFFFF ++ encodeUint64 leCodec 0 ++ encodeUint64 leCodec 0 ++ [1]) =
        .ub :=
  pure64DirImport_name_wrap_ub leCodec_roundTrip (fun _ => rfl) 0 0 [1] (by decide) (by decide)

end Failure

end Heap

end Pure64

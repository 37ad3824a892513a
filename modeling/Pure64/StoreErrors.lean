import Pure64.StoreRuns

/-!
# Failed insertions

`pure64_dir_add_file` and `pure64_dir_add_subdir` fail in three places: the
name is already there (`PURE64_EEXIST`), `pure64_realloc` returns `NULL`
(`PURE64_ENOMEM`), or naming the new slot fails. The first two return
before anything is stored, so the struct is as it was. The third comes
after `pure64_realloc` has succeeded: the new slot is freed and the error
returned, but the grown block is never stored. The field keeps the pointer
`pure64_realloc` was given, which a moving `realloc` has released
(`addEntry_err`).

Main result:

> `pure64DirAdd_naming_failure`: a failed insertion leaves the struct as it
> was, or with its array field holding the pointer `pure64_realloc` was
> given. On every directory with a live array, with the name absent, the
> grown array allocated and the name's `strlen + 1` bytes refused, the call
> returns `PURE64_ENOMEM` with that array released.
-/

namespace Pure64

namespace Heap

section Failure

variable {α : Type} {alloc : Nat → Bool} {e : UInt64} {fresh a : α}
  {setName' : α → List UInt8 → Result α} {free : α → Option α}
  {arr : Dir → Ptr (List (Slot α))} {count : Dir → UInt64}
  {store : Dir → Ptr (List (Slot α)) → UInt64 → Dir} {dir d' : Dir} {name : List UInt8}
  {err : Pure64Error}

/-- Every failure of the shared insertion body leaves the struct as it was,
or with the array field holding what it held before a successful
`pure64_realloc`. -/
theorem addEntry_err
    (h : addEntry alloc e fresh setName' free arr count store dir name = .err err d') :
    d' = dir ∨ d' = store dir (arr dir).moved (count dir) := by
  unfold addEntry at h
  split at h
  · cases h
  · cases h
    exact .inl rfl
  split at h
  · cases h
  · cases h
    exact .inl rfl
  split at h
  · cases h
  split at h
  · split at h <;> cases h
  · split at h
    · cases h
      exact .inr rfl
    · cases h
  · cases h

/-- Naming fails after `pure64_realloc` grew a live array: the error comes
back, and the array field keeps the released pointer. -/
theorem addEntry_naming_failure {size : Nat} {slots : List (Slot α)} {b : α}
    (harr : arr dir = .live size slots) (hex : pure64DirNameExists dir name = some false)
    (hgrow : alloc ((count dir + 1) * e).toNat = true)
    (hfit : ((count dir).toNat + 1) * e.toNat < 2 ^ 64)
    (hset : setName' fresh name = .err err a) (hfree : free a = some b) :
    addEntry alloc e fresh setName' free arr count store dir name =
      .err err (store dir .freed (count dir)) := by
  have hsz := toNat_grow (uint64_toNat_lt (count dir)) e
  rw [toUInt64_toNat, Nat.mod_eq_of_lt hfit] at hsz
  rw [hsz] at hgrow
  simp only [addEntry, hex, harr, pure64Realloc, hgrow, if_true, hsz, setSlot, le_refl, hset, hfree,
    Ptr.moved]

/-- Naming with `strlen + 1` bytes refused returns `PURE64_ENOMEM` and
leaves the entry as it was. -/
theorem setName_of_alloc_fail {nameOf : α → Ptr (List UInt8)}
    {withName : α → Ptr (List UInt8) → UInt64 → α} {x : α}
    (h : alloc ((pure64Strlen name).toUInt64 + 1).toNat = false) :
    setName alloc nameOf withName x name = .err .enomem x := by
  simp [setName, pure64Malloc, h, Ptr.isNull]

end Failure

/-- **Failed insertions.** Each insertion that fails leaves the struct as it
was, or with the array it grows replaced by the pointer `pure64_realloc`
was given. On every directory whose array is live, with the name absent,
the grown array allocated and the name's `strlen + 1` bytes refused,
naming fails after the growth: the call returns `PURE64_ENOMEM` and the
array field holds the released block. -/
theorem pure64DirAdd_naming_failure (alloc : Nat → Bool) (sizeofFile : UInt64) (dir : Dir)
    (name : List UInt8) :
    (∀ e d', pure64DirAddFile alloc sizeofFile dir name = .err e d' →
      d' = dir ∨ d' = dir.withFiles dir.files.moved dir.fileCount) ∧
    (∀ e d', pure64DirAddSubdir alloc dir name = .err e d' →
      d' = dir ∨ d' = dir.withSubdirs dir.subdirs.moved dir.subdirCount) ∧
    (pure64DirNameExists dir name = some false →
      alloc ((pure64Strlen name).toUInt64 + 1).toNat = false →
      (∀ size slots, dir.files = .live size slots →
        alloc ((dir.fileCount + 1) * sizeofFile).toNat = true →
        (dir.fileCount.toNat + 1) * sizeofFile.toNat < 2 ^ 64 →
        pure64DirAddFile alloc sizeofFile dir name =
          .err .enomem (dir.withFiles .freed dir.fileCount)) ∧
      (∀ size slots, dir.subdirs = .live size slots →
        alloc ((dir.subdirCount + 1) * sizeofDir).toNat = true →
        (dir.subdirCount.toNat + 1) * sizeofDir.toNat < 2 ^ 64 →
        pure64DirAddSubdir alloc dir name =
          .err .enomem (dir.withSubdirs .freed dir.subdirCount))) := by
  refine ⟨fun _ _ h => addEntry_err h, fun _ _ h => addEntry_err h, fun hex hname => ⟨?_, ?_⟩⟩
  · exact fun _ _ hf hgrow hfit =>
      addEntry_naming_failure hf hex hgrow hfit (setName_of_alloc_fail hname) rfl
  · exact fun _ _ hs hgrow hfit =>
      addEntry_naming_failure hs hex hgrow hfit (setName_of_alloc_fail hname) rfl

/-- A directory holding the file `a`, in a 32-byte block. -/
def oneFile : Dir :=
  .mk 0 0 1 .null .null (.live 32 [.init ⟨1, 0, .live 2 [0x61, 0], .null⟩])

/-- Adding the file `b` when the 64-byte growth succeeds and the 2-byte
name buffer is refused: `PURE64_ENOMEM`, with `files` left pointing at the
released block. -/
theorem pure64DirAddFile_oneFile_enomem :
    pure64DirAddFile (fun n => n != 2) 32 oneFile [0x62, 0] =
      .err .enomem (oneFile.withFiles .freed 1) :=
  ((pure64DirAdd_naming_failure (fun n => n != 2) 32 oneFile [0x62, 0]).2.2 (by decide) (by decide)).1
    32 _ rfl (by decide) (by decide)

end Heap

end Pure64

import Pure64.Store

/-!
# Runs of insertions: the tree store

`Store.lean` models `pure64_dir_add_file` and `pure64_dir_add_subdir` on
the structs in memory. Here a tree of the store is also a value
(`Pure64.Dir`, as `Tree.lean` has it), and `layoutWith` is the struct that
holds it: each name in a buffer of exactly its bytes and terminator, each
array `NULL` while empty and then a block of exactly its slots. `StoreWf`
says which values the store holds: distinct, storable entry names in every
directory, files without data, and array byte counts that fit 64 bits.
`absCall` says what an insertion is for.

The refinement is proved one layer at a time: `pure64_dir_name_exists`
answers `cString name ∈ t.entryNames` (`pure64DirNameExists_layoutWith`);
an insertion on `layoutWith t` is `absCall` on `t`
(`entryAdd_layoutWith`); a call at a path runs on the struct of the
directory there and rebuilds the enclosing ones (`callAt_layoutWith`); so
every tree a run builds is the struct of a well-formed value
(`reachable_layoutRoot`). With any allocator a call returns what it
returns when every allocation succeeds, or `PURE64_ENOMEM`
(`Call.run_alloc`), so a run in which every allocation succeeds is one of
those, and each array it grew is a block the allocator granted
(`ArraysGranted`).

Main result:

> `reachable_insert_spec`: take an allocator that, like glibc's, refuses
> requests above `PTRDIFF_MAX`. Over every run from `pure64_dir_init` in
> which every allocation succeeds, entry names stay distinct under
> `pure64_strcmp` and terminated at `name_size`; `PURE64_EEXIST` comes
> exactly for a name that is there and leaves the tree; any other name is
> appended with `0` returned unless an allocation is refused. The grown
> array's byte count `(count + 1) * sizeof` cannot wrap, since the
> allocator granted `count * sizeof` below `2^63`; with an allocator that
> granted any size it would wrap after `2^64 / sizeof` insertions.
-/

namespace Pure64

namespace Heap

/-! ## Strings, proved -/

theorem uint8_eq_of_not_lt {a b : UInt8} (h1 : ¬ a < b) (h2 : ¬ b < a) : a = b := by
  have h1' : ¬ a.toNat < b.toNat := h1
  have h2' : ¬ b.toNat < a.toNat := h2
  exact UInt8.eq_of_val_eq (Fin.ext (show a.toNat = b.toNat by omega))

theorem uint8_not_lt_zero (b : UInt8) : ¬ b < 0 := Nat.not_lt_zero b.toNat

theorem uint8_ne_of_lt {a b : UInt8} (h : a < b) : a ≠ b := by
  rintro rfl
  exact Nat.lt_irrefl _ h

@[simp] theorem cString_nil : cString [] = [] := rfl

theorem cString_cons (b : UInt8) (s : List UInt8) :
    cString (b :: s) = if b = 0 then [] else b :: cString s := by
  by_cases hb : b = 0 <;> simp [cString, List.takeWhile_cons, hb]

theorem zero_not_mem_cString (s : List UInt8) : 0 ∉ cString s := fun h => by
  simpa using List.mem_takeWhile_imp h

/-- `memcpy` of `strlen` bytes copies the string. -/
theorem take_pure64Strlen (s : List UInt8) : s.take (pure64Strlen s) = cString s := by
  induction s with
  | nil => rfl
  | cons b s ih =>
    by_cases hb : b = 0
    · simp [pure64Strlen, cString_cons, hb]
    · have hlen : pure64Strlen (b :: s) = pure64Strlen s + 1 := by
        simp [pure64Strlen, cString_cons, hb]
      rw [hlen, List.take_succ_cons, ih, cString_cons, if_neg hb]

/-- A terminator after a buffer ends its C string no earlier. -/
theorem cString_append_nul : ∀ k : List UInt8, cString (k ++ [0]) = cString k
  | [] => rfl
  | b :: k => by rw [List.cons_append, cString_cons, cString_cons, cString_append_nul k]

theorem cString_of_zero_not_mem {k : List UInt8} (hk : 0 ∉ k) : cString k = k :=
  List.takeWhile_eq_self_iff.mpr fun b hb => by simpa using ne_of_mem_of_not_mem hb hk

theorem cString_append_zero {k : List UInt8} (hk : 0 ∉ k) : cString (k ++ [0]) = k :=
  (cString_append_nul k).trans (cString_of_zero_not_mem hk)

/-- `pure64_strcmp` is zero exactly when the two buffers hold the same C
string. -/
theorem pure64Strcmp_eq_zero_iff_cString : ∀ a b : List UInt8,
    pure64Strcmp a b = 0 ↔ cString a = cString b
  | [], [] => by simp [pure64Strcmp]
  | [], b :: _ => by by_cases hb : b = 0 <;> simp [pure64Strcmp, cString_cons, hb]
  | a :: _, [] => by by_cases ha : a = 0 <;> simp [pure64Strcmp, cString_cons, ha]
  | a :: s, b :: t => by
    by_cases hba : b < a
    · have ha : a ≠ 0 := fun h => uint8_not_lt_zero b (h ▸ hba)
      simp only [pure64Strcmp, if_pos hba, cString_cons, if_neg ha]
      split <;> simp [Ne.symm (uint8_ne_of_lt hba)]
    by_cases hab : a < b
    · have hb : b ≠ 0 := fun h => uint8_not_lt_zero a (h ▸ hab)
      simp only [pure64Strcmp, if_neg hba, if_pos hab, cString_cons, if_neg hb]
      split <;> simp [uint8_ne_of_lt hab]
    obtain rfl := uint8_eq_of_not_lt hab hba
    by_cases ha : a = 0
    · simp [pure64Strcmp, ha, cString_cons]
    · simp [pure64Strcmp, hba, ha, cString_cons, pure64Strcmp_eq_zero_iff_cString s t]

/-- Against a terminated buffer of non-NUL bytes, `pure64_strcmp` is zero
exactly when the string is those bytes. -/
theorem pure64Strcmp_eq_zero_iff {a : List UInt8} (ha : 0 ∉ a) (s : List UInt8) :
    pure64Strcmp (a ++ [0]) s = 0 ↔ a = cString s := by
  rw [pure64Strcmp_eq_zero_iff_cString, cString_append_zero ha]

/-! ## The structs a store holds

Every struct the insertions build has one shape, fixed by the tree it
holds (`layoutWith`): a name buffer of exactly the name and its
terminator, and each array `NULL` while it is empty, then a block of
exactly its slots, all initialised. -/

/-- A name buffer as `pure64_dir_set_name` leaves it. -/
def nameBuffer (k : List UInt8) : Ptr (List UInt8) := .live (k.length + 1) (k ++ [0])

/-- An array as the insertions leave it. -/
def arrayOf {α : Type} (elemSize : Nat) : List α → Ptr (List (Slot α))
  | [] => .null
  | x :: xs => .live ((x :: xs).length * elemSize) ((x :: xs).map .init)

/-- A file as `pure64_dir_add_file` creates it: named, with no data. -/
def layoutFile (f : Pure64.File) : File := ⟨f.name.length.toUInt64, 0, nameBuffer f.name, .null⟩

mutual
/-- The struct holding a directory of the store under the given name
fields; each subdirectory holds its name in its buffer. -/
def layoutWith (sizeofFile : UInt64) (name : Ptr (List UInt8)) (nameSize : UInt64) :
    Pure64.Dir → Dir
  | .mk _ subdirs files =>
    .mk nameSize subdirs.length.toUInt64 files.length.toUInt64 name
      (arrayOf sizeofDir.toNat (layoutSubdirs sizeofFile subdirs))
      (arrayOf sizeofFile.toNat (files.map layoutFile))
/-- The subdirectory structs. -/
def layoutSubdirs (sizeofFile : UInt64) : List Pure64.Dir → List Dir
  | [] => []
  | d :: ds => layoutWith sizeofFile (nameBuffer d.name) d.name.length.toUInt64 d ::
    layoutSubdirs sizeofFile ds
end

/-- A subdirectory's struct. -/
def layoutDir (sizeofFile : UInt64) (d : Pure64.Dir) : Dir :=
  layoutWith sizeofFile (nameBuffer d.name) d.name.length.toUInt64 d

/-- The root's struct: `pure64_dir_init` left its name `NULL`. -/
def layoutRoot (sizeofFile : UInt64) (t : Pure64.Dir) : Dir := layoutWith sizeofFile .null 0 t

/-- A name the store can hold: no NUL, and `name_size + 1` does not wrap. -/
def NameOk (k : List UInt8) : Prop := 0 ∉ k ∧ k.length + 1 < 2 ^ 64

mutual
/-- The trees the store holds: in every directory the entries' names are
distinct and storable, files hold no data, and each array's byte count
fits 64 bits. -/
def StoreWf (sizeofFile : UInt64) : Pure64.Dir → Prop
  | .mk _ subdirs files =>
    (files.map Pure64.File.name ++ subdirs.map Pure64.Dir.name).Nodup ∧
      (∀ f ∈ files, NameOk f.name ∧ f.data = []) ∧
      subdirs.length * sizeofDir.toNat < 2 ^ 64 ∧ files.length * sizeofFile.toNat < 2 ^ 64 ∧
      StoreWfAll sizeofFile subdirs
/-- `StoreWf` of every subdirectory, each with a storable name. -/
def StoreWfAll (sizeofFile : UInt64) : List Pure64.Dir → Prop
  | [] => True
  | d :: ds => (NameOk d.name ∧ StoreWf sizeofFile d) ∧ StoreWfAll sizeofFile ds
end

mutual
/-- Every array of the tree is a block the allocator granted: it holds no
entry, or the allocator accepts a request of its byte count. -/
def ArraysGranted (alloc : Nat → Bool) (sizeofFile : UInt64) : Pure64.Dir → Prop
  | .mk _ subdirs files =>
    (subdirs.length = 0 ∨ alloc (subdirs.length * sizeofDir.toNat) = true) ∧
      (files.length = 0 ∨ alloc (files.length * sizeofFile.toNat) = true) ∧
      ArraysGrantedAll alloc sizeofFile subdirs
/-- `ArraysGranted` of every subdirectory. -/
def ArraysGrantedAll (alloc : Nat → Bool) (sizeofFile : UInt64) : List Pure64.Dir → Prop
  | [] => True
  | d :: ds => ArraysGranted alloc sizeofFile d ∧ ArraysGrantedAll alloc sizeofFile ds
end

/-- What one insertion does to the tree it is called on: refuse a name
that is there, append any other, and write past the grown array when its
byte count wraps. -/
def absCall (sizeofFile : UInt64) (kind : EntryKind) (name : List UInt8) (t : Pure64.Dir) :
    Result Pure64.Dir :=
  if cString name ∈ t.entryNames then .err .eexist t
  else if (t.count kind + 1) * (entrySize sizeofFile kind).toNat < 2 ^ 64 then
    .ok (t.insert kind (cString name))
  else .ub

/-! ## `pure64_dir_name_exists`, proved -/

/-- The name of `x` is the terminated buffer of the non-NUL bytes `k`. -/
def NamedBy {α : Type} (nameOf : α → Ptr (List UInt8)) (x : α) (k : List UInt8) : Prop :=
  nameOf x = .live (k.length + 1) (k ++ [0]) ∧ 0 ∉ k

/-- Over initialised slots whose names are the terminated keys `ks`, the
loop finds the string exactly when it is one of the keys. -/
theorem nameInSlots_map_init {α : Type} {nameOf : α → Ptr (List UInt8)} (name : List UInt8) :
    ∀ {xs : List α} {ks : List (List UInt8)}, List.Forall₂ (NamedBy nameOf) xs ks →
      nameInSlots nameOf name (xs.map .init) xs.length = some (decide (cString name ∈ ks))
  | [], [], .nil => rfl
  | x :: xs, k :: ks, .cons ⟨hx, hk⟩ h => by
    have ih := nameInSlots_map_init name h
    by_cases hm : k = cString name
    · simp only [List.map_cons, List.length_cons, nameInSlots, hx,
        if_pos ((pure64Strcmp_eq_zero_iff hk name).mpr hm)]
      simp [hm]
    · have : ¬ pure64Strcmp (k ++ [0]) name = 0 := fun h => hm ((pure64Strcmp_eq_zero_iff hk name).mp h)
      simp only [List.map_cons, List.length_cons, nameInSlots, hx, if_neg this, ih, List.mem_cons]
      simp [Ne.symm hm]

theorem nameInArray_arrayOf {α : Type} {nameOf : α → Ptr (List UInt8)} (name : List UInt8)
    (e : Nat) {xs : List α} {ks : List (List UInt8)} (h : List.Forall₂ (NamedBy nameOf) xs ks) :
    nameInArray nameOf name (arrayOf e xs) xs.length = some (decide (cString name ∈ ks)) := by
  cases h with
  | nil => rfl
  | cons hx h => exact nameInSlots_map_init name (.cons hx h)

theorem storeWfAll_iff {sizeofFile : UInt64} {ds : List Pure64.Dir} :
    StoreWfAll sizeofFile ds ↔ ∀ d ∈ ds, NameOk d.name ∧ StoreWf sizeofFile d := by
  induction ds with
  | nil => simp [StoreWfAll]
  | cons d ds ih => simp [StoreWfAll, ih]

theorem layoutSubdirs_eq_map (sizeofFile : UInt64) (ds : List Pure64.Dir) :
    layoutSubdirs sizeofFile ds = ds.map (layoutDir sizeofFile) := by
  induction ds with
  | nil => rfl
  | cons d ds ih => simp [layoutSubdirs, ih, layoutDir]

@[simp] theorem name_layoutWith (sizeofFile : UInt64) (nb : Ptr (List UInt8)) (ns : UInt64) (t : Pure64.Dir) :
    (layoutWith sizeofFile nb ns t).name = nb := by
  cases t; simp [layoutWith, Dir.name]

@[simp] theorem nameSize_layoutWith (sizeofFile : UInt64) (nb : Ptr (List UInt8)) (ns : UInt64)
    (t : Pure64.Dir) : (layoutWith sizeofFile nb ns t).nameSize = ns := by
  cases t; simp [layoutWith, Dir.nameSize]

theorem forall₂_files {fs : List Pure64.File} (h : ∀ f ∈ fs, NameOk f.name ∧ f.data = []) :
    List.Forall₂ (NamedBy File.name) (fs.map layoutFile) (fs.map Pure64.File.name) := by
  induction fs with
  | nil => exact .nil
  | cons f fs ih =>
    simp only [List.forall_mem_cons] at h
    exact .cons ⟨rfl, h.1.1.1⟩ (ih h.2)

theorem forall₂_subdirs {sizeofFile : UInt64} {ds : List Pure64.Dir} (h : ∀ d ∈ ds, NameOk d.name) :
    List.Forall₂ (NamedBy Dir.name) (layoutSubdirs sizeofFile ds) (ds.map Pure64.Dir.name) := by
  induction ds with
  | nil => exact .nil
  | cons d ds ih =>
    simp only [List.forall_mem_cons] at h
    exact .cons ⟨by simp [nameBuffer], h.1.1⟩ (ih h.2)

@[simp] theorem length_layoutSubdirs (sizeofFile : UInt64) (ds : List Pure64.Dir) :
    (layoutSubdirs sizeofFile ds).length = ds.length := by
  simp [layoutSubdirs_eq_map]

theorem length_lt_of_mul_lt {n e : Nat} (he : 0 < e) (h : n * e < 2 ^ 64) : n < 2 ^ 64 :=
  Nat.lt_of_le_of_lt (Nat.le_mul_of_pos_right n he) h

/-- A count whose array's byte count fits 64 bits reads back from its field. -/
theorem count_toNat {n e : Nat} (he : 0 < e) (h : n * e < 2 ^ 64) : n.toUInt64.toNat = n :=
  uint64_toNat_toUInt64_of_lt (length_lt_of_mul_lt he h)

theorem pure64DirNameExists_layoutWith {sizeofFile : UInt64} (hsf : 0 < sizeofFile.toNat)
    {t : Pure64.Dir} (hwf : StoreWf sizeofFile t) (nb : Ptr (List UInt8)) (ns : UInt64)
    (name : List UInt8) :
    pure64DirNameExists (layoutWith sizeofFile nb ns t) name =
      some (decide (cString name ∈ t.entryNames)) := by
  obtain ⟨n, ds, fs⟩ := t
  obtain ⟨-, hfs, hds, hfl, hall⟩ := hwf
  have h1 := nameInArray_arrayOf name sizeofFile.toNat (forall₂_files hfs)
  have h2 := nameInArray_arrayOf name sizeofDir.toNat
    (@forall₂_subdirs sizeofFile _ fun d hd => ((storeWfAll_iff.mp hall) d hd).1)
  rw [List.length_map] at h1
  rw [length_layoutSubdirs] at h2
  simp only [pure64DirNameExists, layoutWith, Dir.files, Dir.fileCount, Dir.subdirs, Dir.subdirCount,
    count_toNat hsf hfl, count_toNat (by decide) hds, h1, h2]
  by_cases hm : cString name ∈ fs.map Pure64.File.name <;>
    simp [hm, Pure64.Dir.entryNames, Pure64.Dir.files, Pure64.Dir.subdirs]

/-! ## One insertion, proved -/

/-- With every allocation succeeding and a string short enough for
`strlen + 1` not to wrap, naming a struct whose name is `NULL` stores the
string's buffer. -/
theorem setName_eq_ok {α : Type} {alloc : Nat → Bool} (halloc : ∀ n, alloc n = true)
    {nameOf : α → Ptr (List UInt8)} {withName : α → Ptr (List UInt8) → UInt64 → α} {x : α}
    (hx : nameOf x = .null) {name : List UInt8} (hname : pure64Strlen name + 1 < 2 ^ 64) :
    setName alloc nameOf withName x name =
      .ok (withName x (nameBuffer (cString name)) (cString name).length.toUInt64) := by
  have h1 : (1 : UInt64).toNat = 1 := rfl
  have hsize : ((pure64Strlen name).toUInt64 + 1).toNat = pure64Strlen name + 1 := by
    rw [uint64_toNat_add, uint64_toNat_toUInt64, h1]
    omega
  have hlen : (pure64Strlen name).toUInt64.toNat = pure64Strlen name :=
    uint64_toNat_toUInt64_of_lt (by omega)
  simp only [setName, pure64Malloc, halloc, if_true, isNull_live, Bool.false_eq_true, hsize, hlen,
    take_pure64Strlen, writeName, hx, pure64Free]
  simp [pure64Strlen, nameBuffer]

theorem putSlot_length {α : Type} (slots : List (Slot α)) (a : α) :
    putSlot slots slots.length a = slots ++ [.init a] := by
  induction slots with
  | nil => rfl
  | cons s slots ih => simp [putSlot, ih]

theorem putSlot_length_append {α : Type} (slots : List (Slot α)) (b : Slot α) (a : α) :
    putSlot (slots ++ [b]) slots.length a = slots ++ [.init a] := by
  induction slots with
  | nil => rfl
  | cons s slots ih => simp [putSlot, ih]

/-- `pure64_realloc` of an insertion-built array keeps the slots that fit. -/
theorem pure64Realloc_arrayOf {α : Type} {alloc : Nat → Bool} (halloc : ∀ n, alloc n = true)
    (xs : List α) (size : UInt64) (e : Nat) :
    pure64Realloc alloc (arrayOf e xs) size e =
      some (.live size.toNat ((xs.map .init).take (size.toNat / e))) := by
  cases xs <;> simp [pure64Realloc, arrayOf, pure64Malloc, halloc]

/-- The 64-bit byte count of `count + 1` slots. -/
theorem toNat_grow {n : Nat} (hn : n < 2 ^ 64) (e : UInt64) :
    ((n.toUInt64 + 1) * e).toNat = (n + 1) * e.toNat % 2 ^ 64 := by
  rw [uint64_toNat_mul, uint64_toNat_add, uint64_toNat_toUInt64, Nat.mod_eq_of_lt hn,
    show (1 : UInt64).toNat = 1 from rfl, Nat.mod_mul_mod]

theorem uint64_eq_of_toNat_eq {u v : UInt64} (h : u.toNat = v.toNat) : u = v := by
  rw [← toUInt64_toNat u, h, toUInt64_toNat]

theorem toUInt64_succ (n : Nat) : (n + 1).toUInt64 = n.toUInt64 + 1 :=
  uint64_eq_of_toNat_eq (by
    rw [uint64_toNat_add, uint64_toNat_toUInt64, uint64_toNat_toUInt64,
      show (1 : UInt64).toNat = 1 from rfl, Nat.mod_add_mod])

theorem arrayOf_append_singleton {α : Type} (e : Nat) (xs : List α) (a : α) :
    arrayOf e (xs ++ [a]) = .live ((xs.length + 1) * e) (xs.map .init ++ [.init a]) := by
  cases xs <;> simp [arrayOf]

/-- One insertion of a new name into an array holding the entries `xs`,
which `pure64_realloc` keeps as far as they fit: the array grows by the
named slot, unless its byte count wraps, and then the initialising write
lands past the block. -/
theorem addEntry_of_realloc {α : Type} {alloc : Nat → Bool} {e : UInt64} (he : 0 < e.toNat)
    {fresh a : α} {setName' : α → List UInt8 → Result α} {free : α → Option α}
    {arr : Dir → Ptr (List (Slot α))} {count : Dir → UInt64}
    {store : Dir → Ptr (List (Slot α)) → UInt64 → Dir} {dir : Dir} {name : List UInt8}
    (xs : List α) (hgrow : ∀ size : UInt64, pure64Realloc alloc (arr dir) size e.toNat =
      some (.live size.toNat ((xs.map .init).take (size.toNat / e.toNat))))
    (hcount : count dir = xs.length.toUInt64) (hn : xs.length < 2 ^ 64)
    (hex : pure64DirNameExists dir name = some false) (hname : setName' fresh name = .ok a) :
    addEntry alloc e fresh setName' free arr count store dir name =
      if (xs.length + 1) * e.toNat < 2 ^ 64 then
        .ok (store dir (arrayOf e.toNat (xs ++ [a])) (xs.length + 1).toUInt64)
      else .ub := by
  have hc : xs.length.toUInt64.toNat = xs.length := uint64_toNat_toUInt64_of_lt hn
  simp only [addEntry, hex, hcount, hgrow, toNat_grow hn, hc]
  split_ifs with hfit
  · have hdiv : (xs.length + 1) * e.toNat / e.toNat = xs.length + 1 := Nat.mul_div_cancel _ he
    have hslots : (xs.map Slot.init).take (xs.length + 1) = xs.map Slot.init :=
      List.take_of_length_le (by simp)
    have h1 : putSlot (xs.map Slot.init) xs.length fresh = xs.map Slot.init ++ [.init fresh] := by
      simpa using putSlot_length (xs.map Slot.init) fresh
    have h2 : putSlot (xs.map Slot.init ++ [.init fresh]) xs.length a =
        xs.map Slot.init ++ [.init a] := by
      simpa using putSlot_length_append (xs.map Slot.init) (.init fresh) a
    simp only [Nat.mod_eq_of_lt hfit, hdiv, hslots, setSlot, le_refl, if_true, hname, h1, h2]
    simp [arrayOf_append_singleton, toUInt64_succ]
  · have hlt : (xs.length + 1) * e.toNat % 2 ^ 64 < (xs.length + 1) * e.toNat :=
      Nat.lt_of_lt_of_le (Nat.mod_lt _ (by decide)) (Nat.le_of_not_lt hfit)
    simp only [setSlot, Nat.not_le.mpr hlt, if_false]

/-- The insertion on an array the insertions built. -/
theorem addEntry_eq {α : Type} {alloc : Nat → Bool} (halloc : ∀ n, alloc n = true) {e : UInt64}
    (he : 0 < e.toNat) {fresh a : α} {setName' : α → List UInt8 → Result α} {free : α → Option α}
    {arr : Dir → Ptr (List (Slot α))} {count : Dir → UInt64}
    {store : Dir → Ptr (List (Slot α)) → UInt64 → Dir} {dir : Dir} {name : List UInt8}
    (xs : List α) (harr : arr dir = arrayOf e.toNat xs) (hcount : count dir = xs.length.toUInt64)
    (hlen : xs.length * e.toNat < 2 ^ 64) (hex : pure64DirNameExists dir name = some false)
    (hname : setName' fresh name = .ok a) :
    addEntry alloc e fresh setName' free arr count store dir name =
      if (xs.length + 1) * e.toNat < 2 ^ 64 then
        .ok (store dir (arrayOf e.toNat (xs ++ [a])) (xs.length + 1).toUInt64)
      else .ub :=
  addEntry_of_realloc he xs (fun size => harr ▸ pure64Realloc_arrayOf halloc xs size _) hcount
    (length_lt_of_mul_lt he hlen) hex hname

/-! ## Refused allocations

An allocator that refuses a request makes `pure64_realloc` or
`pure64_malloc` return `NULL`, and the insertion then returns
`PURE64_ENOMEM`; every other outcome is the one the same call has when
every allocation succeeds. -/

theorem setName_alloc {α : Type} (alloc : Nat → Bool) (nameOf : α → Ptr (List UInt8))
    (withName : α → Ptr (List UInt8) → UInt64 → α) (x : α) (name : List UInt8) :
    setName alloc nameOf withName x name = setName (fun _ => true) nameOf withName x name ∨
      setName alloc nameOf withName x name = .err .enomem x := by
  unfold setName
  cases h : alloc ((pure64Strlen name).toUInt64 + 1).toNat <;> simp [pure64Malloc, h, Ptr.isNull]

theorem pure64Realloc_alloc {α : Type} {alloc : Nat → Bool} (p : Ptr (List (Slot α))) (size : UInt64)
    (e : Nat) (h : alloc size.toNat = true) :
    pure64Realloc alloc p size e = pure64Realloc (fun _ => true) p size e := by
  cases p <;> simp [pure64Realloc, pure64Malloc, h]

/-- The shared body with any allocator: as with every allocation
succeeding, or `PURE64_ENOMEM` once the name check has passed; and `0`
only when the grown array was granted. A refused naming returns the slot,
which `free` releases. -/
theorem addEntry_alloc {α : Type} {alloc : Nat → Bool} {e : UInt64} {fresh : α}
    {setNameA setNameT : α → List UInt8 → Result α} {free : α → Option α}
    {arr : Dir → Ptr (List (Slot α))} {count : Dir → UInt64}
    {store : Dir → Ptr (List (Slot α)) → UInt64 → Dir} {dir : Dir} {name : List UInt8}
    (hset : setNameA fresh name = setNameT fresh name ∨ setNameA fresh name = .err .enomem fresh)
    (hfree : (free fresh).isSome) :
    (addEntry alloc e fresh setNameA free arr count store dir name =
        addEntry (fun _ => true) e fresh setNameT free arr count store dir name ∨
      pure64DirNameExists dir name = some false ∧
        ∃ x, addEntry alloc e fresh setNameA free arr count store dir name = .err .enomem x) ∧
    ∀ x, addEntry alloc e fresh setNameA free arr count store dir name = .ok x →
      alloc ((count dir + 1) * e).toNat = true := by
  unfold addEntry
  refine ⟨?_, fun x hx => ?_⟩
  · rcases pure64DirNameExists dir name with _ | _ | _
    · simp
    swap
    · simp
    cases ha : alloc ((count dir + 1) * e).toNat
    · cases arr dir <;> simp [pure64Realloc, pure64Malloc, ha]
    rw [pure64Realloc_alloc _ _ _ ha]
    rcases hset with hs | hs
    · exact .inl (by rw [hs])
    obtain ⟨y, hy⟩ := Option.isSome_iff_exists.mp hfree
    rcases pure64Realloc (fun _ => true) (arr dir) ((count dir + 1) * e) e.toNat with
      _ | _ | ⟨sz, sl⟩ | _ <;> simp
    · cases setSlot (.live sz sl) (count dir).toNat e.toNat fresh <;> simp [hs, hy]
    · simp [setSlot]
  · cases ha : alloc ((count dir + 1) * e).toNat
    · rcases hn : pure64DirNameExists dir name with _ | _ | _ <;> cases harr : arr dir <;>
        simp [hn, harr, pure64Realloc, pure64Malloc, ha] at hx
    · rfl

/-- The 64-bit byte count of `count + 1` slots. -/
theorem toNat_succ_mul (u e : UInt64) : ((u + 1) * e).toNat = (u.toNat + 1) * e.toNat % 2 ^ 64 := by
  rw [uint64_toNat_mul, uint64_toNat_add, show (1 : UInt64).toNat = 1 from rfl, Nat.mod_mul_mod]

/-- **An insertion with any allocator.** It returns what it returns when
every allocation succeeds, or `PURE64_ENOMEM` when the name is new; when
it returns `0`, the allocator granted the grown array. -/
theorem entryAdd_alloc (alloc : Nat → Bool) (sizeofFile : UInt64) (kind : EntryKind) (dir : Dir)
    (name : List UInt8) :
    (entryAdd alloc sizeofFile kind dir name = entryAdd (fun _ => true) sizeofFile kind dir name ∨
      pure64DirNameExists dir name = some false ∧
        ∃ x, entryAdd alloc sizeofFile kind dir name = .err .enomem x) ∧
    ∀ x, entryAdd alloc sizeofFile kind dir name = .ok x →
      alloc ((dir.entryCount kind + 1) * (entrySize sizeofFile kind).toNat % 2 ^ 64) = true := by
  cases kind <;> simp only [Dir.entryCount, entrySize, ← toNat_succ_mul]
  · exact addEntry_alloc (setName_alloc _ _ _ _ _) rfl
  · exact addEntry_alloc (setName_alloc _ _ _ _ _) rfl

/-- An insertion whose two requests, the grown array and the name buffer,
the allocator grants runs as when every allocation succeeds. -/
theorem entryAdd_granted {alloc : Nat → Bool} {sizeofFile : UInt64} {kind : EntryKind} {dir : Dir}
    {name : List UInt8}
    (hreq : alloc ((dir.entryCount kind + 1) * (entrySize sizeofFile kind).toNat % 2 ^ 64) = true)
    (hname : alloc ((pure64Strlen name).toUInt64 + 1).toNat = true) :
    entryAdd alloc sizeofFile kind dir name = entryAdd (fun _ => true) sizeofFile kind dir name := by
  have hset {α : Type} (nameOf : α → Ptr (List UInt8)) (withName : α → Ptr (List UInt8) → UInt64 → α)
      (x : α) : setName alloc nameOf withName x name = setName (fun _ => true) nameOf withName x name := by
    simp [setName, pure64Malloc, hname]
  cases kind <;> simp only [Dir.entryCount, entrySize, ← toNat_succ_mul] at hreq <;>
    simp only [entryAdd, pure64DirAddFile, pure64DirAddSubdir, pure64FileSetName, pure64DirSetName,
      addEntry, pure64Realloc_alloc _ _ _ hreq, hset]

section Step

variable {alloc : Nat → Bool} {sizeofFile : UInt64}

@[simp] theorem layoutWith_mk (nb : Ptr (List UInt8)) (ns : UInt64) (n : List UInt8)
    (ds : List Pure64.Dir) (fs : List Pure64.File) :
    layoutWith sizeofFile nb ns (.mk n ds fs) =
      .mk ns ds.length.toUInt64 fs.length.toUInt64 nb
        (arrayOf sizeofDir.toNat (ds.map (layoutDir sizeofFile)))
        (arrayOf sizeofFile.toNat (fs.map layoutFile)) := by
  simp [layoutWith, layoutSubdirs_eq_map]

theorem pure64FileSetName_init (halloc : ∀ n, alloc n = true) {name : List UInt8}
    (hname : pure64Strlen name + 1 < 2 ^ 64) :
    pure64FileSetName alloc pure64FileInit name = .ok (layoutFile ⟨cString name, []⟩) :=
  setName_eq_ok halloc rfl hname

theorem pure64DirSetName_init (sf : UInt64) (halloc : ∀ n, alloc n = true) {name : List UInt8}
    (hname : pure64Strlen name + 1 < 2 ^ 64) :
    pure64DirSetName alloc pure64DirInit name = .ok (layoutDir sf (.mk (cString name) [] [])) :=
  setName_eq_ok halloc rfl hname

/-- **One insertion.** On any directory of the store, with every allocation
succeeding and a C string for the name, either insertion does what
`absCall` says, and the struct it leaves is the one holding that tree. -/
theorem entryAdd_layoutWith (halloc : ∀ n, alloc n = true) (hsf : 0 < sizeofFile.toNat)
    (kind : EntryKind) {t : Pure64.Dir} (hwf : StoreWf sizeofFile t) (nb : Ptr (List UInt8))
    (ns : UInt64) {name : List UInt8} (hname : pure64Strlen name + 1 < 2 ^ 64) :
    entryAdd alloc sizeofFile kind (layoutWith sizeofFile nb ns t) name =
      (absCall sizeofFile kind name t).map (layoutWith sizeofFile nb ns) := by
  have hex := pure64DirNameExists_layoutWith hsf hwf nb ns name
  by_cases hm : cString name ∈ t.entryNames
  · cases kind <;> simp [entryAdd, pure64DirAddFile, pure64DirAddSubdir, addEntry, hex, hm, absCall,
      Result.map]
  obtain ⟨n, ds, fs⟩ := t
  obtain ⟨-, -, hds, hfl, -⟩ := hwf
  rw [decide_eq_false hm] at hex
  cases kind
  · rw [entryAdd, pure64DirAddFile, addEntry_eq halloc hsf (fs.map layoutFile) rfl
      (by simp [Dir.fileCount]) (by simpa using hfl) hex (pure64FileSetName_init halloc hname)]
    simp only [absCall, hm, if_false, Pure64.Dir.count, entrySize, List.length_map, Pure64.Dir.files_mk,
      Pure64.Dir.subdirs_mk]
    split_ifs <;> simp [Result.map, Dir.withFiles, Dir.nameSize, Dir.subdirCount, Dir.name,
      Dir.subdirs, Pure64.Dir.insert]
  · rw [entryAdd, pure64DirAddSubdir, addEntry_eq halloc (by decide) (ds.map (layoutDir sizeofFile))
      (by simp [Dir.subdirs]) (by simp [Dir.subdirCount]) (by simpa using hds) hex
      (pure64DirSetName_init sizeofFile halloc hname)]
    simp only [absCall, hm, if_false, Pure64.Dir.count, entrySize, List.length_map, Pure64.Dir.files_mk,
      Pure64.Dir.subdirs_mk]
    split_ifs <;> simp [Result.map, Dir.withSubdirs, Dir.nameSize, Dir.fileCount, Dir.name,
      Dir.files, Pure64.Dir.insert]

end Step

/-! ## The invariant one insertion keeps -/

section Invariant

variable {sizeofFile : UInt64}

theorem nameOk_cString {name : List UInt8} (h : pure64Strlen name + 1 < 2 ^ 64) :
    NameOk (cString name) :=
  ⟨zero_not_mem_cString name, h⟩

/-- An appended entry keeps the tree in the store's shape. -/
theorem storeWf_insert {t : Pure64.Dir} (hwf : StoreWf sizeofFile t) (kind : EntryKind)
    {name : List UInt8} (hname : pure64Strlen name + 1 < 2 ^ 64) (hm : cString name ∉ t.entryNames)
    (hfit : (t.count kind + 1) * (entrySize sizeofFile kind).toNat < 2 ^ 64) :
    StoreWf sizeofFile (t.insert kind (cString name)) := by
  obtain ⟨n, ds, fs⟩ := t
  obtain ⟨hnd, hfs, hds, hfl, hall⟩ := hwf
  simp only [Pure64.Dir.entryNames, Pure64.Dir.files_mk, Pure64.Dir.subdirs_mk] at hm
  cases kind
  · refine ⟨?_, ?_, hds, by simpa using hfit, hall⟩
    · rw [List.map_append, List.map_singleton, List.append_assoc, List.singleton_append,
        List.nodup_middle, List.nodup_cons]
      exact ⟨hm, hnd⟩
    · simp only [List.mem_append, List.mem_singleton]
      rintro f (hf | rfl)
      · exact hfs f hf
      · exact ⟨nameOk_cString hname, rfl⟩
  · refine ⟨?_, hfs, by simpa using hfit, hfl, ?_⟩
    · rw [List.map_append, List.map_singleton, ← List.append_assoc]
      exact hnd.append (List.nodup_singleton _) (List.disjoint_singleton.mpr hm)
    · rw [storeWfAll_iff] at hall ⊢
      simp only [List.mem_append, List.mem_singleton]
      rintro d (hd | rfl)
      · exact hall d hd
      · exact ⟨nameOk_cString hname, by simp [StoreWf, StoreWfAll]⟩

/-- Whatever state one insertion leaves is in the store's shape and keeps
the directory's own name. -/
theorem absCall_state {t t' : Pure64.Dir} (hwf : StoreWf sizeofFile t) (kind : EntryKind)
    {name : List UInt8} (hname : pure64Strlen name + 1 < 2 ^ 64)
    (h : (absCall sizeofFile kind name t).state = some t') :
    StoreWf sizeofFile t' ∧ t'.name = t.name := by
  unfold absCall at h
  split_ifs at h with hm hfit
  · cases h; exact ⟨hwf, rfl⟩
  · cases h
    refine ⟨storeWf_insert hwf kind hname hm hfit, ?_⟩
    obtain ⟨n, ds, fs⟩ := t
    cases kind <;> rfl
  · cases h

theorem list_set_of_getElem? {α : Type} {l : List α} {i : Nat} {a : α} (h : l[i]? = some a) :
    l.set i a = l := by
  apply List.ext_getElem?
  intro j
  rw [List.getElem?_set]
  split_ifs with h1 h2
  · subst h1; exact h.symm
  · subst h1; exact absurd (List.getElem?_eq_some_iff.mp h).1 h2
  · rfl

theorem atPath_cons (n : List UInt8) (ds : List Pure64.Dir) (fs : List Pure64.File) (i : Nat)
    (p : List Nat) :
    (Pure64.Dir.mk n ds fs).atPath (i :: p) = ds[i]?.bind fun c => c.atPath p := by
  simp only [Pure64.Dir.atPath]
  cases ds[i]? <;> rfl

/-- Replacing a directory of the store by one in the store's shape with
the same name keeps the tree in the store's shape and its root's name. -/
theorem storeWf_modifyAt : ∀ (p : List Nat) {v t t' : Pure64.Dir}, StoreWf sizeofFile v →
    v.atPath p = some t → StoreWf sizeofFile t' → t'.name = t.name →
      StoreWf sizeofFile (v.modifyAt (fun _ => t') p) ∧ (v.modifyAt (fun _ => t') p).name = v.name
  | [], _, _, _, _, h, ht', hn => by
    simp only [Pure64.Dir.atPath_nil, Option.some.injEq] at h
    subst h
    exact ⟨by simpa using ht', by simpa using hn⟩
  | i :: p, .mk n ds fs, t, t', hv, h, ht', hn => by
    rw [atPath_cons] at h
    obtain ⟨c, hc, hp⟩ := Option.bind_eq_some.mp h
    obtain ⟨hnd, hfs, hds, hfl, hall⟩ := hv
    have hcwf := (storeWfAll_iff.mp hall) c (List.mem_iff_getElem?.mpr ⟨i, hc⟩)
    obtain ⟨hc', hcn⟩ := storeWf_modifyAt p hcwf.2 hp ht' hn
    have hnames : (ds.set i (c.modifyAt (fun _ => t') p)).map Pure64.Dir.name = ds.map Pure64.Dir.name := by
      rw [List.map_set, hcn]
      exact list_set_of_getElem? (by simp [hc])
    simp only [Pure64.Dir.modifyAt, hc, Pure64.Dir.name_mk, and_true]
    refine ⟨by rwa [hnames], hfs, by rwa [List.length_set], hfl, storeWfAll_iff.mpr ?_⟩
    intro d hd
    rcases List.mem_or_eq_of_mem_set hd with hd | rfl
    · exact (storeWfAll_iff.mp hall) d hd
    · exact ⟨hcn ▸ hcwf.1, hc'⟩

/-! ### Arrays the allocator granted -/

variable {alloc : Nat → Bool}

theorem arraysGrantedAll_iff {ds : List Pure64.Dir} :
    ArraysGrantedAll alloc sizeofFile ds ↔ ∀ d ∈ ds, ArraysGranted alloc sizeofFile d := by
  induction ds with
  | nil => simp [ArraysGrantedAll]
  | cons d ds ih => simp [ArraysGrantedAll, ih]

/-- An entry appended to an array the allocator grew to its new byte count. -/
theorem arraysGranted_insert {t : Pure64.Dir} (ht : ArraysGranted alloc sizeofFile t) (kind : EntryKind)
    (name : List UInt8) (h : alloc ((t.count kind + 1) * (entrySize sizeofFile kind).toNat) = true) :
    ArraysGranted alloc sizeofFile (t.insert kind name) := by
  obtain ⟨n, ds, fs⟩ := t
  obtain ⟨hds, hfs, hall⟩ := ht
  cases kind
  · exact ⟨hds, .inr (by simpa using h), hall⟩
  · refine ⟨.inr (by simpa using h), hfs, arraysGrantedAll_iff.mpr ?_⟩
    simp only [List.mem_append, List.mem_singleton]
    rintro d (hd | rfl)
    · exact arraysGrantedAll_iff.mp hall d hd
    · exact ⟨.inl rfl, .inl rfl, trivial⟩

theorem arraysGranted_atPath : ∀ (p : List Nat) {v t : Pure64.Dir}, ArraysGranted alloc sizeofFile v →
    v.atPath p = some t → ArraysGranted alloc sizeofFile t
  | [], _, _, hv, h => by
    simp only [Pure64.Dir.atPath_nil, Option.some.injEq] at h
    exact h ▸ hv
  | i :: p, .mk n ds fs, t, hv, h => by
    rw [atPath_cons] at h
    obtain ⟨c, hc, hp⟩ := Option.bind_eq_some.mp h
    exact arraysGranted_atPath p (arraysGrantedAll_iff.mp hv.2.2 c (List.mem_iff_getElem?.mpr ⟨i, hc⟩)) hp

/-- Replacing a directory leaves every enclosing array as it was. -/
theorem arraysGranted_modifyAt : ∀ (p : List Nat) {v t' : Pure64.Dir}, ArraysGranted alloc sizeofFile v →
    ArraysGranted alloc sizeofFile t' → ArraysGranted alloc sizeofFile (v.modifyAt (fun _ => t') p)
  | [], _, _, _, ht' => by simpa using ht'
  | i :: p, .mk n ds fs, t', ⟨hds, hfs, hall⟩, ht' => by
    rcases hc : ds[i]? with _ | c
    · simpa [Pure64.Dir.modifyAt, hc] using ⟨hds, hfs, hall⟩
    simp only [Pure64.Dir.modifyAt, hc]
    refine ⟨by rwa [List.length_set], hfs, arraysGrantedAll_iff.mpr fun d hd => ?_⟩
    rcases List.mem_or_eq_of_mem_set hd with hd | rfl
    · exact arraysGrantedAll_iff.mp hall d hd
    · exact arraysGranted_modifyAt p
        (arraysGrantedAll_iff.mp hall c (List.mem_iff_getElem?.mpr ⟨i, hc⟩)) ht'

end Invariant

/-! ## Calls at a path -/

theorem Result.map_congr {α β : Type} {f g : α → β} {r : Result α}
    (h : ∀ a, r.state = some a → f a = g a) : r.map f = r.map g := by
  cases r <;> simp_all [Result.map, Result.state]

@[simp] theorem Result.map_id' {α : Type} (r : Result α) : r.map (fun a => a) = r := by
  cases r <;> rfl

theorem Result.map_map {α β γ : Type} (f : α → β) (g : β → γ) (r : Result α) :
    (r.map f).map g = r.map (g ∘ f) := by
  cases r <;> rfl

theorem arrayOf_of_ne_nil {α : Type} (e : Nat) {xs : List α} (h : xs ≠ []) :
    arrayOf e xs = .live (xs.length * e) (xs.map .init) := by
  cases xs
  · exact absurd rfl h
  · rfl

theorem name_modifyAt {f : Pure64.Dir → Pure64.Dir} : ∀ {p : List Nat} {c t : Pure64.Dir},
    c.atPath p = some t → (f t).name = t.name → (c.modifyAt f p).name = c.name
  | [], c, t, h, hf => by
    simp only [Pure64.Dir.atPath_nil, Option.some.injEq] at h
    subst h; simpa using hf
  | i :: p, .mk n ds fs, t, _, _ => by
    simp only [Pure64.Dir.modifyAt]
    split <;> rfl

section Paths

variable {sizeofFile : UInt64}

theorem storeWf_atPath : ∀ (p : List Nat) {v t : Pure64.Dir}, StoreWf sizeofFile v →
    v.atPath p = some t → StoreWf sizeofFile t
  | [], _, _, hv, h => by
    simp only [Pure64.Dir.atPath_nil, Option.some.injEq] at h
    exact h ▸ hv
  | i :: p, .mk n ds fs, t, hv, h => by
    rw [atPath_cons] at h
    obtain ⟨c, hc, hp⟩ := Option.bind_eq_some.mp h
    exact storeWf_atPath p ((storeWfAll_iff.mp hv.2.2.2.2) c (List.mem_iff_getElem?.mpr ⟨i, hc⟩)).2 hp

/-- The struct of a subdirectory is `layoutDir` of it whatever name fields
it is given, as long as they are its own. -/
theorem layoutWith_nameBuffer {c c' : Pure64.Dir} (h : c'.name = c.name) :
    layoutWith sizeofFile (nameBuffer c.name) c.name.length.toUInt64 c' = layoutDir sizeofFile c' := by
  rw [layoutDir, h]

/-- **Calls at a path.** On the struct holding a tree of the store, a call
at a path runs on the struct holding the directory there, and the structs
left are those holding the tree with that directory replaced. -/
theorem callAt_layoutWith {op : Dir → Result Dir} {g : Pure64.Dir → Result Pure64.Dir}
    (hop : ∀ t nb ns, StoreWf sizeofFile t → op (layoutWith sizeofFile nb ns t) =
      (g t).map (layoutWith sizeofFile nb ns))
    (hg : ∀ t t', StoreWf sizeofFile t → (g t).state = some t' → t'.name = t.name) :
    ∀ (p : List Nat) (v : Pure64.Dir) (nb : Ptr (List UInt8)) (ns : UInt64), StoreWf sizeofFile v →
      callAt op (layoutWith sizeofFile nb ns v) p = (v.atPath p).map fun t =>
        (g t).map fun t' => layoutWith sizeofFile nb ns (v.modifyAt (fun _ => t') p)
  | [], v, nb, ns, hv => by simp [callAt, hop v nb ns hv]
  | i :: p, .mk n ds fs, nb, ns, hv => by
    obtain ⟨-, -, hds, -, hall⟩ := hv
    have hlen : ds.length.toUInt64.toNat = ds.length := count_toNat (by decide) hds
    rw [atPath_cons]
    by_cases hne : ds = []
    · subst hne
      simp [callAt, layoutWith_mk, arrayOf, Dir.subdirs]
    have hne' : ds.map (layoutDir sizeofFile) ≠ [] := by simpa using hne
    by_cases hi : i < ds.length
    · have hc : ds[i]? = some ds[i] := List.getElem?_eq_getElem hi
      have hcwf := (storeWfAll_iff.mp hall) ds[i] (List.getElem_mem hi)
      simp only [callAt, layoutWith_mk, arrayOf_of_ne_nil _ hne', Dir.subdirs, Dir.subdirCount, hlen,
        if_pos hi, List.getElem?_map, hc, Option.map_some', Option.bind_some]
      rw [show layoutDir sizeofFile ds[i] = layoutWith sizeofFile (nameBuffer ds[i].name)
        ds[i].name.length.toUInt64 ds[i] from rfl, callAt_layoutWith hop hg p ds[i] _ _ hcwf.2,
        Option.map_map]
      refine Option.map_congr fun t ht => ?_
      rw [Function.comp, Result.map_map]
      refine Result.map_congr fun t' ht' => ?_
      have hn : (ds[i].modifyAt (fun _ => t') p).name = ds[i].name :=
        name_modifyAt ht (hg t t' (storeWf_atPath p hcwf.2 ht) ht')
      simp only [Function.comp, layoutWith_nameBuffer hn, Pure64.Dir.modifyAt, hc, layoutWith_mk,
        Dir.withSubdirs, Dir.nameSize, Dir.fileCount, Dir.name, Dir.files]
      have hset : (ds.map (layoutDir sizeofFile)).set i
          (layoutDir sizeofFile (ds[i].modifyAt (fun _ => t') p)) ≠ [] := fun h =>
        hne' (List.length_eq_zero.mp (by rw [← List.length_set, h]; rfl))
      rw [List.map_set, arrayOf_of_ne_nil _ hset]
      simp [List.map_set]
    · have hc : ds[i]? = none := List.getElem?_eq_none (Nat.le_of_not_lt hi)
      simp [callAt, layoutWith_mk, arrayOf_of_ne_nil _ hne', Dir.subdirs, Dir.subdirCount, hlen, hi, hc]

/-- A call at a path runs on the directory there, and the enclosing
structs are rebuilt around what it leaves the same way whatever the call. -/
theorem callAt_eq : ∀ (p : List Nat) (d : Dir), ∃ g : Dir → Dir, ∀ op : Dir → Result Dir,
    callAt op d p = (d.atPath p).map fun t => (op t).map g
  | [], d => ⟨fun a => a, fun op => by simp [callAt, Dir.atPath]⟩
  | i :: p, d => by
    rcases hs : d.subdirs with _ | ⟨size, slots⟩ | _
    · exact ⟨fun a => a, fun op => by simp [callAt, Dir.atPath, hs]⟩
    · by_cases hi : i < d.subdirCount.toNat
      · rcases hc : slots[i]? with _ | _ | c
        · exact ⟨fun a => a, fun op => by simp [callAt, Dir.atPath, hs, hi, hc]⟩
        · exact ⟨fun a => a, fun op => by simp [callAt, Dir.atPath, hs, hi, hc]⟩
        · obtain ⟨g, hg⟩ := callAt_eq p c
          exact ⟨fun c' => d.withSubdirs (.live size (slots.set i (.init (g c')))) d.subdirCount,
            fun op => by simp [callAt, Dir.atPath, hs, hi, hc, hg, Result.map_map, Function.comp_def]⟩
      · exact ⟨fun a => a, fun op => by simp [callAt, Dir.atPath, hs, hi]⟩
    · exact ⟨fun a => a, fun op => by simp [callAt, Dir.atPath, hs]⟩

/-- **A call with any allocator.** On the directory its path reaches, it
returns what it returns when every allocation succeeds, or
`PURE64_ENOMEM` when the name is new there; when it returns `0`, the
allocator granted the array it grew. -/
theorem Call.run_alloc (alloc : Nat → Bool) (sizeofFile : UInt64) (c : Call) {d t : Dir}
    (ht : d.atPath c.path = some t) :
    (c.run alloc sizeofFile d = c.run (fun _ => true) sizeofFile d ∨
      pure64DirNameExists t c.name = some false ∧
        ∃ x, c.run alloc sizeofFile d = some (.err .enomem x)) ∧
    ∀ x, c.run alloc sizeofFile d = some (.ok x) →
      alloc ((t.entryCount c.kind + 1) * (entrySize sizeofFile c.kind).toNat % 2 ^ 64) = true := by
  obtain ⟨g, hg⟩ := callAt_eq c.path d
  obtain ⟨h1, h2⟩ := entryAdd_alloc alloc sizeofFile c.kind t c.name
  simp only [Call.run, hg, ht, Option.map_some', Option.some.injEq]
  refine ⟨h1.imp (fun h => by rw [h]) fun ⟨hn, x, hx⟩ => ⟨hn, g x, by rw [hx]; rfl⟩, fun x hx => ?_⟩
  cases h : entryAdd alloc sizeofFile c.kind t c.name <;> rw [h] at hx <;> cases hx
  exact h2 _ h

end Paths

/-! ## What the structs hold -/

section Layout

variable {sizeofFile : UInt64}

theorem layout_nameSize {k : List UInt8} (h : NameOk k) : k.length.toUInt64.toNat = k.length :=
  uint64_toNat_toUInt64_of_lt (by have := h.2; omega)

theorem view_layoutFile {f : Pure64.File} (h : NameOk f.name ∧ f.data = []) :
    (layoutFile f).view = f := by
  obtain ⟨name, data⟩ := f
  obtain ⟨hn, rfl⟩ := h
  simp [layoutFile, File.view, nameBuffer, bufferBytes, layout_nameSize hn]

theorem subdirsView_arrayOf (e : Nat) (xs : List Dir) :
    subdirsView (arrayOf e xs) xs.length = xs.map Dir.view := by
  cases xs
  · rfl
  · exact subdirSlotsView_map_init _

theorem filesView_arrayOf (e : Nat) (xs : List File) :
    filesView (arrayOf e xs) xs.length = xs.map File.view := by
  cases xs
  · rfl
  · exact fileSlotsView_map_init _

mutual
/-- The struct holding a tree of the store holds that tree's entries. -/
theorem view_layoutWith (hsf : 0 < sizeofFile.toNat) : ∀ (v : Pure64.Dir) (nb : Ptr (List UInt8))
    (ns : UInt64), StoreWf sizeofFile v →
      (layoutWith sizeofFile nb ns v).view = .mk (bufferBytes nb ns.toNat) v.subdirs v.files
  | .mk n ds fs, nb, ns, ⟨_, hfs, hds, hfl, hall⟩ => by
    have hsub := view_layoutSubdirs hsf ds hall
    have hfv : (fs.map layoutFile).map File.view = fs := by
      rw [List.map_map]
      conv_rhs => rw [← List.map_id fs]
      exact List.map_congr_left fun f hf => view_layoutFile (hfs f hf)
    have hs := subdirsView_arrayOf sizeofDir.toNat (ds.map (layoutDir sizeofFile))
    have hf := filesView_arrayOf sizeofFile.toNat (fs.map layoutFile)
    rw [List.length_map] at hs hf
    simp only [layoutWith_mk, Dir.view, count_toNat (by decide) hds, count_toNat hsf hfl, hs, hf, hsub,
      hfv, Pure64.Dir.subdirs_mk, Pure64.Dir.files_mk]
theorem view_layoutSubdirs (hsf : 0 < sizeofFile.toNat) : ∀ ds : List Pure64.Dir,
    StoreWfAll sizeofFile ds → (ds.map (layoutDir sizeofFile)).map Dir.view = ds
  | [], _ => rfl
  | d :: ds, ⟨⟨hn, hd⟩, hds⟩ => by
    simp only [List.map_cons, layoutDir, view_layoutWith hsf d _ _ hd, view_layoutSubdirs hsf ds hds]
    obtain ⟨n, ds', fs'⟩ := d
    simp only [Pure64.Dir.name_mk] at hn
    simp [nameBuffer, bufferBytes, layout_nameSize hn]
end

/-- The struct a path reaches in the struct of a tree of the store is the
struct of the directory the path reaches in the tree. -/
theorem atPath_layoutWith : ∀ (p : List Nat) {v : Pure64.Dir} {nb : Ptr (List UInt8)} {ns : UInt64}
    {t : Dir}, StoreWf sizeofFile v → (layoutWith sizeofFile nb ns v).atPath p = some t →
      ∃ u nb' ns', v.atPath p = some u ∧ t = layoutWith sizeofFile nb' ns' u
  | [], v, nb, ns, t, _, h => by
    simp only [Dir.atPath, Option.some.injEq] at h
    exact ⟨v, nb, ns, by simp, h.symm⟩
  | i :: p, .mk n ds fs, nb, ns, t, ⟨_, _, hds, _, hall⟩, h => by
    have hne : ds ≠ [] := by
      rintro rfl
      simp [Dir.atPath, layoutWith_mk, arrayOf, Dir.subdirs] at h
    have hne' : ds.map (layoutDir sizeofFile) ≠ [] := by simpa using hne
    simp only [Dir.atPath, layoutWith_mk, arrayOf_of_ne_nil _ hne', Dir.subdirs, Dir.subdirCount,
      count_toNat (by decide) hds] at h
    split_ifs at h with hi
    have hc : ds[i]? = some ds[i] := List.getElem?_eq_getElem hi
    simp only [List.getElem?_map, hc, Option.map_some'] at h
    obtain ⟨u, nb', ns', hu, rfl⟩ :=
      atPath_layoutWith p ((storeWfAll_iff.mp hall) ds[i] (List.getElem_mem hi)).2 h
    exact ⟨u, nb', ns', by rw [atPath_cons, hc, Option.some_bind, hu], rfl⟩

theorem slotNames_map_init {α : Type} (nameOf : α → Ptr (List UInt8) × UInt64) (xs : List α) :
    slotNames nameOf (xs.map .init) xs.length = xs.map nameOf := by
  induction xs with
  | nil => rfl
  | cons x xs ih => simp [slotNames, ih]

end Layout

/-! ## Whole runs -/

theorem Result.state_map {α β : Type} (f : α → β) (r : Result α) :
    (r.map f).state = r.state.map f := by
  cases r <;> rfl

section Runs

variable {sizeofFile : UInt64}

/-- A call on the root's struct, by the abstract call on the tree. -/
theorem run_layoutRoot (hsf : 0 < sizeofFile.toNat) {v : Pure64.Dir} (hv : StoreWf sizeofFile v)
    {c : Call} (hname : pure64Strlen c.name + 1 < 2 ^ 64) :
    c.run (fun _ => true) sizeofFile (layoutRoot sizeofFile v) = (v.atPath c.path).map fun t =>
      (absCall sizeofFile c.kind c.name t).map fun t' =>
        layoutRoot sizeofFile (v.modifyAt (fun _ => t') c.path) :=
  callAt_layoutWith (fun _ nb ns ht => entryAdd_layoutWith (fun _ => rfl) hsf c.kind ht nb ns hname)
    (fun _ _ ht h => (absCall_state ht c.kind hname h).2) c.path v .null 0 hv

theorem view_layoutRoot (hsf : 0 < sizeofFile.toNat) {v : Pure64.Dir} (hv : StoreWf sizeofFile v)
    (hn : v.name = []) : (layoutRoot sizeofFile v).view = v := by
  rw [layoutRoot, view_layoutWith hsf v _ _ hv]
  obtain ⟨n, ds, fs⟩ := v
  simp only [Pure64.Dir.name_mk] at hn
  simp [hn, bufferBytes]

theorem entryCount_layoutWith (hsf : 0 < sizeofFile.toNat) {u : Pure64.Dir} (hu : StoreWf sizeofFile u)
    (nb : Ptr (List UInt8)) (ns : UInt64) (kind : EntryKind) :
    (layoutWith sizeofFile nb ns u).entryCount kind = u.count kind := by
  obtain ⟨n, ds, fs⟩ := u
  cases kind <;> simp [Dir.entryCount, Dir.fileCount, Dir.subdirCount, Pure64.Dir.count,
    count_toNat hsf hu.2.2.2.1, count_toNat (by decide) hu.2.2.1]

/-- **The run invariant.** Every tree a run builds is the struct of a tree
in the store's shape, each of whose arrays the allocator granted, and
whose root has no name. -/
theorem reachable_layoutRoot (hsf : 0 < sizeofFile.toNat) {alloc : Nat → Bool} {d : Dir}
    (hd : Reachable alloc sizeofFile d) :
    ∃ v, StoreWf sizeofFile v ∧ ArraysGranted alloc sizeofFile v ∧ v.name = [] ∧
      d = layoutRoot sizeofFile v := by
  induction hd with
  | init => exact ⟨.mk [] [] [], by simp [StoreWf, StoreWfAll], ⟨.inl rfl, .inl rfl, trivial⟩, rfl, rfl⟩
  | call _ hc hrun hstate hnomem ih =>
    obtain ⟨v, hv, hg, hvn, rfl⟩ := ih
    obtain ⟨g, hg'⟩ := callAt_eq _ (layoutRoot sizeofFile v)
    obtain ⟨t, ht, -⟩ := Option.map_eq_some'.mp ((hg' _).symm.trans hrun)
    obtain ⟨hres, hok⟩ := Call.run_alloc _ sizeofFile _ ht
    obtain ⟨u, nb, ns, hu, rfl⟩ := atPath_layoutWith _ hv ht
    have htrue := hres.resolve_right fun ⟨_, x, hx⟩ => hnomem x (Option.some.inj (hrun.symm.trans hx))
    rw [hrun, run_layoutRoot hsf hv hc.2, hu, Option.map_some', Option.some.injEq] at htrue
    subst htrue
    rw [Result.state_map] at hstate
    obtain ⟨u', hu', rfl⟩ := Option.map_eq_some'.mp hstate
    have huwf := storeWf_atPath _ hv hu
    obtain ⟨hwf, hn⟩ := absCall_state huwf _ hc.2 hu'
    obtain ⟨hwf', hn'⟩ := storeWf_modifyAt _ hv hu hwf hn
    refine ⟨_, hwf', arraysGranted_modifyAt _ hg ?_, hn'.trans hvn, rfl⟩
    have hug := arraysGranted_atPath _ hg hu
    unfold absCall at hu' hrun
    split_ifs at hu' hrun with hm hfit <;> cases hu'
    · exact hug
    · refine arraysGranted_insert hug _ _ ?_
      have h := hok _ hrun
      rwa [entryCount_layoutWith hsf huwf, Nat.mod_eq_of_lt hfit] at h

/-! ### A root of many subdirectories -/

/-- A root holding `k` empty subdirectories named `1`, `11`, `111`, ... -/
def onesRoot (k : Nat) : Pure64.Dir :=
  .mk [] ((List.range k).map fun j => .mk (List.replicate (j + 1) 1) [] []) []

theorem onesRoot_succ (k : Nat) :
    onesRoot (k + 1) = (onesRoot k).insert .subdir (List.replicate (k + 1) 1) := by
  simp [onesRoot, List.range_succ, Pure64.Dir.insert]

theorem cString_replicate (k : Nat) : cString (List.replicate k 1 ++ [0]) = List.replicate k 1 :=
  cString_append_zero (by simp)

theorem pure64Strlen_replicate (k : Nat) : pure64Strlen (List.replicate k 1 ++ [0]) = k := by
  simp [pure64Strlen, cString_replicate]

theorem replicate_not_mem_onesRoot (k : Nat) :
    List.replicate (k + 1) 1 ∉ (onesRoot k).entryNames := by
  simp only [onesRoot, Pure64.Dir.entryNames, Pure64.Dir.files_mk, Pure64.Dir.subdirs_mk, List.map_nil,
    List.nil_append, List.map_map, List.mem_map, List.mem_range, not_exists, not_and]
  intro j hj h
  have := congrArg List.length h
  simp at this
  omega

theorem count_onesRoot (k : Nat) : (onesRoot k).count .subdir = k := by
  simp [onesRoot, Pure64.Dir.count]

theorem storeWf_onesRoot {k : Nat} (hk : k * 48 < 2 ^ 64) :
    StoreWf sizeofFile (onesRoot k) := by
  refine ⟨?_, by simp, by simpa [onesRoot] using hk, by simp, storeWfAll_iff.mpr ?_⟩
  · simp only [List.map_nil, List.nil_append, List.map_map]
    refine (List.nodup_range k).map fun i j h => ?_
    have := congrArg List.length h
    simp at this
    omega
  · simp only [List.mem_map, List.mem_range]
    rintro d ⟨j, hj, rfl⟩
    refine ⟨⟨by simp, by simp; omega⟩, by simp [StoreWf, StoreWfAll]⟩

/-- `k` calls `pure64_dir_add_subdir(root, "1...1")` build `onesRoot k`
with glibc's allocator, every request below `PTRDIFF_MAX`. -/
theorem reachable_onesRoot (hsf : 0 < sizeofFile.toNat) :
    ∀ k, k * 48 < 2 ^ 63 → Reachable ptrdiffAlloc sizeofFile (layoutRoot sizeofFile (onesRoot k))
  | 0, _ => .init
  | k + 1, hk => by
    have hwf : StoreWf sizeofFile (onesRoot k) := storeWf_onesRoot (by omega)
    have hc : IsCString (List.replicate (k + 1) 1 ++ [0]) :=
      ⟨by simp, by rw [pure64Strlen_replicate]; omega⟩
    have hreq : ptrdiffAlloc (((layoutRoot sizeofFile (onesRoot k)).entryCount .subdir + 1) *
        (entrySize sizeofFile .subdir).toNat % 2 ^ 64) = true := by
      rw [layoutRoot, entryCount_layoutWith hsf hwf, count_onesRoot]
      simp only [ptrdiffAlloc, entrySize, decide_eq_true_eq]
      exact Nat.lt_of_le_of_lt (Nat.mod_le _ _) hk
    have hname : ptrdiffAlloc ((pure64Strlen (List.replicate (k + 1) 1 ++ [0])).toUInt64 + 1).toNat =
        true := by
      rw [pure64Strlen_replicate, uint64_toNat_add, uint64_toNat_toUInt64,
        show (1 : UInt64).toNat = 1 from rfl]
      simp only [ptrdiffAlloc, decide_eq_true_eq]
      omega
    have hrun : (⟨[], .subdir, List.replicate (k + 1) 1 ++ [0]⟩ : Call).run ptrdiffAlloc sizeofFile
        (layoutRoot sizeofFile (onesRoot k)) = some (.ok (layoutRoot sizeofFile (onesRoot (k + 1)))) := by
      have habs : absCall sizeofFile .subdir (List.replicate (k + 1) 1 ++ [0]) (onesRoot k) =
          .ok (onesRoot (k + 1)) := by
        rw [absCall, cString_replicate, if_neg (replicate_not_mem_onesRoot k),
          if_pos (by rw [count_onesRoot]; show (k + 1) * 48 < 2 ^ 64; omega), onesRoot_succ]
      have h := run_layoutRoot hsf hwf hc.2 (c := ⟨[], .subdir, List.replicate (k + 1) 1 ++ [0]⟩)
      simp only [Call.run, callAt] at h ⊢
      rw [entryAdd_granted hreq hname, h]
      simp [habs, Result.map]
    exact .call (reachable_onesRoot hsf k (by omega)) hc hrun rfl (fun _ => Result.noConfusion)

end Runs


end Heap

end Pure64

import Pure64.Session

/-!
# Insertions on a reopened store

`StoreRuns.lean` follows the structs a run of insertions builds from
`pure64_dir_init`: they all have the one shape `layoutWith`. A program that
opens an image starts instead from the struct `pure64_dir_import` built,
whose arrays are allocated even when empty and whose files hold data. Here
the insertions are proved on every struct of a wider class, `Dir.Sound`:
each array field is `NULL` while empty or a block whose slots are exactly
its `count` initialised entries, every entry's name is terminated at its
`name_size`, and every file's `data_size` bytes are there to read, its
data buffer `NULL` or live. The
abstraction is `Dir.view`, and the abstract call is `absCall` at the
call's path (`Call.absRun`).

* One call on a sound struct agrees with the abstract call on the tree it
  holds: the same outcome, and a sound struct holding the abstract result
  (`Call.run_sound`). The proof goes one layer at a time, as in
  `StoreRuns.lean`: `pure64_dir_name_exists` (`pure64DirNameExists_sound`),
  one insertion (`entryAdd_sound`), a call at a path (`callAt_sound`).
* So the trees held by the structs a run builds from a sound struct are
  exactly the trees the abstract calls build from the tree it holds
  (`runFrom_view_iff`).
* A successful import builds a sound struct when the image's entry names
  hold no NUL (`pure64DirImport_sound`); a sound struct is exported to the
  value encoding of its tree (`pure64DirExport_sound`) and released by
  `pure64_dir_free` (`releasable_sound`).

Main results:

> `reopened_session`: import an image whose entry names hold no NUL and run
> any insertions on it, every allocation succeeding. Every struct reached
> holds a tree the abstract calls build from the imported one, every
> further call on it does what `absCall` says, `pure64_dir_export` writes
> the encoding of the tree it holds, and `pure64_dir_free` releases it.

> `saved_image`: over every sequence of sessions on an image, each one
> importing the image the last one left, running insertions and exporting
> the result, every image left is the encoding of a tree the abstract
> calls build from the first.
-/

namespace Pure64

/-- No entry name anywhere in the tree holds a NUL. -/
inductive Dir.NulFree : Dir → Prop
  | mk {name : List UInt8} {subdirs : List Dir} {files : List File} :
    (∀ k ∈ (Dir.mk name subdirs files).entryNames, 0 ∉ k) → (∀ d ∈ subdirs, d.NulFree) →
    Dir.NulFree (.mk name subdirs files)

theorem Dir.fitsAll_iff {ds : List Dir} : Dir.FitsAll ds ↔ ∀ d ∈ ds, d.Fits := by
  induction ds with
  | nil => simp [Dir.FitsAll]
  | cons d ds ih => simp [Dir.FitsAll, ih]

namespace Heap

/-! ## Sound structs -/

/-- The array field holds exactly the entries `xs`: `NULL` while there are
none, or a block of any size whose slots are the entries, all initialised.
`pure64_dir_import`, which allocates even an empty array, and the
insertions both leave their arrays so. -/
def Ptr.Holds {α : Type} (p : Ptr (List (Slot α))) (xs : List α) : Prop :=
  p = .null ∧ xs = [] ∨ ∃ size, p = .live size (xs.map .init)

/-- A file the insertions compare, the export writes and `pure64_file_free`
releases: its name terminated at `name_size`, `data_size` bytes to read
from `data`, and `data` `NULL` or live. -/
def File.Sound (f : File) : Prop :=
  Terminated f.name f.nameSize ∧ (readBuffer f.data f.dataSize.toNat).isSome ∧ f.data.owned

/-- The structs the insertions work on: both array fields hold exactly
their counts of entries, every entry is named by a buffer terminated at
its `name_size`, every file's data is there to read, and every
subdirectory is sound. A directory's own name is never read by an
insertion. -/
inductive Dir.Sound : Dir → Prop
  | mk {nameSize subdirCount fileCount : UInt64} {name : Ptr (List UInt8)}
    {subdirs : Ptr (List (Slot Dir))} {files : Ptr (List (Slot File))} (ds : List Dir)
    (fs : List File) : subdirs.Holds ds → subdirCount.toNat = ds.length → files.Holds fs →
    fileCount.toNat = fs.length → (∀ d ∈ ds, Terminated d.name d.nameSize) →
    (∀ d ∈ ds, d.Sound) → (∀ f ∈ fs, f.Sound) →
    Dir.Sound (.mk nameSize subdirCount fileCount name subdirs files)

/-- Two outcomes agree: the same status, with the states related by `R`. -/
def Result.Rel {α β : Type} (R : α → β → Prop) : Result α → Result β → Prop
  | .ok a, .ok b => R a b
  | .err e a, .err e' b => e = e' ∧ R a b
  | .ub, .ub => True
  | _, _ => False

/-- What a call on the sound struct `d` leaves: a sound struct `d'` that
holds the tree `t` and keeps the name fields of `d`. -/
structure Keeps (d d' : Dir) (t : Pure64.Dir) : Prop where
  sound : d'.Sound
  view : d'.view = t
  name : d'.name = d.name
  nameSize : d'.nameSize = d.nameSize

/-- The call on the tree, as `absCall` has it at the call's path: `none`
when the path names no directory. -/
def Call.absRun (sizeofFile : UInt64) (c : Call) (t : Pure64.Dir) : Option (Result Pure64.Dir) :=
  (t.atPath c.path).map fun u =>
    (absCall sizeofFile c.kind c.name u).map fun u' => t.modifyAt (fun _ => u') c.path

/-- The structs a run of insertions builds from `d₀`, every allocation
succeeding: each call is on a directory of the tree, with a C string, and
is not undefined. -/
inductive RunFrom (sizeofFile : UInt64) (d₀ : Dir) : Dir → Prop
  | start : RunFrom sizeofFile d₀ d₀
  | call {d d' : Dir} {c : Call} {r : Result Dir} : RunFrom sizeofFile d₀ d → IsCString c.name →
    c.run (fun _ => true) sizeofFile d = some r → r.state = some d' → RunFrom sizeofFile d₀ d'

/-- The trees the abstract calls build from `t₀`. -/
inductive AbsRunFrom (sizeofFile : UInt64) (t₀ : Pure64.Dir) : Pure64.Dir → Prop
  | start : AbsRunFrom sizeofFile t₀ t₀
  | call {t t' : Pure64.Dir} {c : Call} {r : Result Pure64.Dir} : AbsRunFrom sizeofFile t₀ t →
    IsCString c.name → c.absRun sizeofFile t = some r → r.state = some t' →
    AbsRunFrom sizeofFile t₀ t'

/-! ## Outcomes that agree -/

section Rel

variable {α β γ δ : Type} {R : α → β → Prop} {S : γ → δ → Prop}

theorem Result.Rel.map {f : α → γ} {g : β → δ} (hfg : ∀ a b, R a b → S (f a) (g b)) :
    ∀ {r : Result α} {s : Result β}, Result.Rel R r s → Result.Rel S (r.map f) (s.map g)
  | .ok _, .ok _, h => hfg _ _ h
  | .err _ _, .err _ _, h => ⟨h.1, hfg _ _ h.2⟩
  | .ub, .ub, _ => trivial

theorem Result.Rel.state : ∀ {r : Result α} {s : Result β}, Result.Rel R r s → ∀ {a : α},
    r.state = some a → ∃ b, s.state = some b ∧ R a b
  | .ok _, .ok _, h, _, rfl => ⟨_, rfl, h⟩
  | .err _ _, .err _ _, h, _, rfl => ⟨_, rfl, h.2⟩
  | .ok _, .err _ _, h, _, _ | .ok _, .ub, h, _, _ | .err _ _, .ok _, h, _, _
  | .err _ _, .ub, h, _, _ => h.elim

theorem Result.Rel.state_symm : ∀ {r : Result α} {s : Result β}, Result.Rel R r s → ∀ {b : β},
    s.state = some b → ∃ a, r.state = some a ∧ R a b
  | .ok _, .ok _, h, _, rfl => ⟨_, rfl, h⟩
  | .err _ _, .err _ _, h, _, rfl => ⟨_, rfl, h.2⟩
  | .err _ _, .ok _, h, _, _ | .ub, .ok _, h, _, _ | .ok _, .err _ _, h, _, _
  | .ub, .err _ _, h, _, _ => h.elim

theorem Option.Rel.map {f : α → γ} {g : β → δ} (hfg : ∀ a b, R a b → S (f a) (g b)) :
    ∀ {x : Option α} {y : Option β}, Option.Rel R x y → Option.Rel S (x.map f) (y.map g)
  | _, _, .some h => .some (hfg _ _ h)
  | _, _, .none => .none

theorem Option.rel_some_left {x : Option β} {a : α} (h : Option.Rel R (some a) x) :
    ∃ b, x = some b ∧ R a b := by
  cases h
  exact ⟨_, rfl, ‹_›⟩

theorem Option.rel_some_right {x : Option α} {b : β} (h : Option.Rel R x (some b)) :
    ∃ a, x = some a ∧ R a b := by
  cases h
  exact ⟨_, rfl, ‹_›⟩

end Rel

/-! ## What a sound struct holds -/

section Holds

variable {α : Type}

theorem holds_arrayOf (e : Nat) (xs : List α) : (arrayOf e xs).Holds xs := by
  cases xs
  · exact .inl ⟨rfl, rfl⟩
  · exact .inr ⟨_, rfl⟩

theorem holds_set {size : Nat} {xs : List α} (i : Nat) (a : α) :
    (Ptr.live size ((xs.map .init).set i (.init a))).Holds (xs.set i a) :=
  .inr ⟨size, by rw [List.map_set]⟩

/-- `pure64_realloc` of an array holding `xs` keeps the slots that fit. -/
theorem pure64Realloc_holds {p : Ptr (List (Slot α))} {xs : List α} (hp : p.Holds xs)
    (size : UInt64) (e : Nat) :
    pure64Realloc (fun _ => true) p size e =
      some (.live size.toNat ((xs.map .init).take (size.toNat / e))) := by
  rcases hp with ⟨rfl, rfl⟩ | ⟨_, rfl⟩ <;> simp [pure64Realloc, pure64Malloc]

theorem subdirsView_holds {p : Ptr (List (Slot Dir))} {ds : List Dir} (hp : p.Holds ds) :
    subdirsView p ds.length = ds.map Dir.view := by
  rcases hp with ⟨rfl, rfl⟩ | ⟨_, rfl⟩
  · rfl
  · exact subdirSlotsView_map_init ds

theorem filesView_holds {p : Ptr (List (Slot File))} {fs : List File} (hp : p.Holds fs) :
    filesView p fs.length = fs.map File.view := by
  rcases hp with ⟨rfl, rfl⟩ | ⟨_, rfl⟩
  · rfl
  · exact fileSlotsView_map_init fs

theorem view_mk_holds {nameSize subdirCount fileCount : UInt64} {name : Ptr (List UInt8)}
    {subdirs : Ptr (List (Slot Dir))} {files : Ptr (List (Slot File))} {ds : List Dir}
    {fs : List File} (hs : subdirs.Holds ds) (hsc : subdirCount.toNat = ds.length)
    (hf : files.Holds fs) (hfc : fileCount.toNat = fs.length) :
    (Dir.mk nameSize subdirCount fileCount name subdirs files).view =
      .mk (bufferBytes name nameSize.toNat) (ds.map Dir.view) (fs.map File.view) := by
  simp only [Dir.view, hsc, hfc, subdirsView_holds hs, filesView_holds hf]

theorem name_view (d : Dir) : d.view.name = bufferBytes d.name d.nameSize.toNat := by
  cases d
  rfl

end Holds

/-! ## Terminated names -/

theorem cString_append_zero_cons : ∀ {k : List UInt8}, 0 ∉ k → ∀ r, cString (k ++ 0 :: r) = k
  | [], _, r => by simp [cString_cons]
  | b :: k, hk, r => by
    rw [List.mem_cons, not_or] at hk
    rw [List.cons_append, cString_cons, if_neg (Ne.symm hk.1), cString_append_zero_cons hk.2 r]

/-- A buffer terminated at `n` holds the C string of its first `n` bytes. -/
theorem cString_of_terminated {size : Nat} {buf : List UInt8} {n : UInt64}
    (h : Terminated (.live size buf) n) : cString buf = buf.take n.toNat := by
  obtain ⟨_, _, ⟨⟩, h0, hnz⟩ := h
  obtain ⟨hlt, hget⟩ := List.getElem?_eq_some_iff.mp h0
  conv_lhs => rw [← List.take_append_drop n.toNat buf, List.drop_eq_getElem_cons hlt, hget]
  exact cString_append_zero_cons hnz _

theorem readBuffer_of_terminated {p : Ptr (List UInt8)} {n : UInt64} (h : Terminated p n) :
    readBuffer p n.toNat = some (bufferBytes p n.toNat) := by
  obtain ⟨size, buf, rfl, h0, -⟩ := h
  have hlt := (List.getElem?_eq_some_iff.mp h0).1
  unfold readBuffer
  split
  · simp_all [bufferBytes]
  · simp [bufferBytes, hlt.le]

theorem terminated_live_append {nb : List UInt8} {n : UInt64} (hl : nb.length = n.toNat)
    (h0 : 0 ∉ nb) (size : Nat) : Terminated (.live size (nb ++ [0])) n :=
  ⟨size, _, rfl, by simp [← hl], by simpa [← hl] using h0⟩

/-! ## `pure64_dir_name_exists` on sound structs -/

section NameExists

variable {α : Type} (nameOf : α → Ptr (List UInt8)) (sizeOf : α → UInt64)

/-- Over initialised slots named by terminated buffers, the loop finds the
string exactly when it is the first `name_size` bytes of one of them. -/
theorem nameInSlots_terminated (name : List UInt8) :
    ∀ {xs : List α}, (∀ x ∈ xs, Terminated (nameOf x) (sizeOf x)) →
      nameInSlots nameOf name (xs.map .init) xs.length =
        some (decide (cString name ∈ xs.map fun x => bufferBytes (nameOf x) (sizeOf x).toNat))
  | [], _ => rfl
  | x :: xs, h => by
    have hx := h x (List.mem_cons_self x xs)
    have ih := nameInSlots_terminated name fun y hy => h y (List.mem_cons_of_mem x hy)
    have ⟨size, buf, hbuf, _⟩ := hx
    have hx' : Terminated (.live size buf) (sizeOf x) := hbuf ▸ hx
    have hcmp : pure64Strcmp buf name = 0 ↔ buf.take (sizeOf x).toNat = cString name := by
      rw [pure64Strcmp_eq_zero_iff_cString, cString_of_terminated hx']
    by_cases hm : buf.take (sizeOf x).toNat = cString name
    · simp [nameInSlots, hbuf, hcmp.mpr hm, bufferBytes, hm]
    · simp only [List.map_cons, List.length_cons, nameInSlots, hbuf, if_neg (mt hcmp.mp hm), ih]
      simp [bufferBytes, Ne.symm hm]

theorem nameInArray_holds {p : Ptr (List (Slot α))} {xs : List α} (hp : p.Holds xs)
    (h : ∀ x ∈ xs, Terminated (nameOf x) (sizeOf x)) (name : List UInt8) :
    nameInArray nameOf name p xs.length =
      some (decide (cString name ∈ xs.map fun x => bufferBytes (nameOf x) (sizeOf x).toNat)) := by
  rcases hp with ⟨rfl, rfl⟩ | ⟨size, rfl⟩
  · rfl
  · cases xs
    · rfl
    · exact nameInSlots_terminated nameOf sizeOf name h

end NameExists

/-- On a sound struct, `pure64_dir_name_exists` answers whether the string
is the name of an entry of the tree the struct holds. -/
theorem pure64DirNameExists_sound {d : Dir} (hd : d.Sound) (name : List UInt8) :
    pure64DirNameExists d name = some (decide (cString name ∈ d.view.entryNames)) := by
  cases hd with
  | mk ds fs hs hsc hf hfc hnames _ hfs =>
    have h1 := nameInArray_holds File.name File.nameSize hf (fun f hf' => (hfs f hf').1) name
    have h2 := nameInArray_holds Dir.name Dir.nameSize hs hnames name
    have hvf : Pure64.File.name ∘ File.view = fun f => bufferBytes f.name f.nameSize.toNat := rfl
    have hvd : Pure64.Dir.name ∘ Dir.view = fun d => bufferBytes d.name d.nameSize.toNat :=
      funext name_view
    rw [view_mk_holds hs hsc hf hfc]
    simp only [pure64DirNameExists, Dir.files, Dir.fileCount, Dir.subdirs, Dir.subdirCount, hfc, hsc,
      h1, h2, Pure64.Dir.entryNames, Pure64.Dir.files_mk, Pure64.Dir.subdirs_mk, List.map_map, hvf, hvd]
    by_cases hm : cString name ∈ fs.map (fun f => bufferBytes f.name f.nameSize.toNat) <;> simp [hm]

/-! ## One insertion on a sound struct -/

section Step

variable {sizeofFile : UInt64}

theorem Keeps.refl {d : Dir} (hd : d.Sound) : Keeps d d d.view := ⟨hd, rfl, rfl, rfl⟩

theorem sound_layoutFile {k : List UInt8} (hk : NameOk k) : (layoutFile ⟨k, []⟩).Sound :=
  ⟨(terminated_nameBuffer (k := k) (by have := hk.2; omega)).mpr hk.1, rfl, rfl⟩

theorem sound_layoutDir {k : List UInt8} : (layoutDir sizeofFile (.mk k [] [])).Sound :=
  .mk [] [] (.inl ⟨rfl, rfl⟩) rfl (.inl ⟨rfl, rfl⟩) rfl (by simp) (by simp) (by simp)

theorem view_layoutDir {k : List UInt8} (hk : NameOk k) :
    (layoutDir sizeofFile (.mk k [] [])).view = .mk k [] [] := by
  simp [layoutDir, layoutWith_mk, Dir.view, subdirsView, filesView, nameBuffer, bufferBytes,
    layout_nameSize hk, arrayOf]

theorem count_toUInt64 {u : UInt64} {n : Nat} (h : u.toNat = n) : u = n.toUInt64 := by
  rw [← h, toUInt64_toNat]

/-- A new file on a sound struct that holds no entry of its name. -/
theorem addFile_sound (hsf : 0 < sizeofFile.toNat) {d : Dir} (hd : d.Sound) {name : List UInt8}
    (hname : pure64Strlen name + 1 < 2 ^ 64) (hex : pure64DirNameExists d name = false)
    (hm : cString name ∉ d.view.entryNames) :
    Result.Rel (Keeps d) (entryAdd (fun _ => true) sizeofFile .file d name)
      (absCall sizeofFile .file name d.view) := by
  have hk := nameOk_cString hname
  cases hd with
  | mk ds fs hs hsc hf hfc hnames hsub hfs =>
    rw [view_mk_holds hs hsc hf hfc] at hm ⊢
    rw [entryAdd, pure64DirAddFile, addEntry_of_realloc hsf fs (pure64Realloc_holds hf · _)
      (count_toUInt64 hfc) (hfc ▸ uint64_toNat_lt _) hex
      (pure64FileSetName_init (fun _ => rfl) hname)]
    simp only [absCall, hm, if_false, Pure64.Dir.count, entrySize, Pure64.Dir.files_mk,
      List.length_map]
    split_ifs with hfit
    · have hn : ((fs.length + 1).toUInt64).toNat =
          (fs ++ [layoutFile ⟨cString name, []⟩]).length := by
        simpa using uint64_toNat_toUInt64_of_lt (length_lt_of_mul_lt hsf hfit)
      refine ⟨.mk ds _ hs hsc (holds_arrayOf _ _) hn hnames hsub ?_, ?_, rfl, rfl⟩
      · simpa [or_imp, forall_and] using ⟨hfs, sound_layoutFile hk⟩
      · simp only [Dir.withFiles, Dir.nameSize, Dir.subdirCount, Dir.name, Dir.subdirs]
        rw [view_mk_holds hs hsc (holds_arrayOf _ _) hn]
        simp [Pure64.Dir.insert, view_layoutFile (f := ⟨cString name, []⟩) ⟨hk, rfl⟩]
    · trivial

/-- A new subdirectory on a sound struct that holds no entry of its name. -/
theorem addSubdir_sound {d : Dir} (hd : d.Sound) {name : List UInt8}
    (hname : pure64Strlen name + 1 < 2 ^ 64) (hex : pure64DirNameExists d name = false)
    (hm : cString name ∉ d.view.entryNames) :
    Result.Rel (Keeps d) (entryAdd (fun _ => true) sizeofFile .subdir d name)
      (absCall sizeofFile .subdir name d.view) := by
  have hk := nameOk_cString hname
  cases hd with
  | mk ds fs hs hsc hf hfc hnames hsub hfs =>
    rw [view_mk_holds hs hsc hf hfc] at hm ⊢
    rw [entryAdd, pure64DirAddSubdir, addEntry_of_realloc (by decide) ds (pure64Realloc_holds hs · _)
      (count_toUInt64 hsc) (hsc ▸ uint64_toNat_lt _) hex
      (pure64DirSetName_init sizeofFile (fun _ => rfl) hname)]
    simp only [absCall, hm, if_false, Pure64.Dir.count, entrySize, Pure64.Dir.subdirs_mk,
      List.length_map]
    split_ifs with hfit
    · have hn : ((ds.length + 1).toUInt64).toNat =
          (ds ++ [layoutDir sizeofFile (.mk (cString name) [] [])]).length := by
        simpa using uint64_toNat_toUInt64_of_lt (length_lt_of_mul_lt (by decide) hfit)
      have hnew : Terminated (layoutDir sizeofFile (.mk (cString name) [] [])).name
          (layoutDir sizeofFile (.mk (cString name) [] [])).nameSize := by
        simpa [layoutDir] using (terminated_nameBuffer (by have := hk.2; omega)).mpr hk.1
      refine ⟨.mk _ fs (holds_arrayOf _ _) hn hf hfc ?_ ?_ hfs, ?_, rfl, rfl⟩
      · simpa [or_imp, forall_and] using ⟨hnames, hnew⟩
      · simpa [or_imp, forall_and] using ⟨hsub, sound_layoutDir⟩
      · simp only [Dir.withSubdirs, Dir.nameSize, Dir.fileCount, Dir.name, Dir.files]
        rw [view_mk_holds (holds_arrayOf _ _) hn hf hfc]
        simp [Pure64.Dir.insert, view_layoutDir hk]
    · trivial

/-- **One insertion on a sound struct.** With every allocation succeeding
and a string short enough for `strlen + 1` not to wrap, an insertion on a
sound struct agrees with `absCall` on the tree it holds: a name already
there leaves both as they were, a new one is added to both. -/
theorem entryAdd_sound (hsf : 0 < sizeofFile.toNat) (kind : EntryKind) {d : Dir} (hd : d.Sound)
    {name : List UInt8} (hname : pure64Strlen name + 1 < 2 ^ 64) :
    Result.Rel (Keeps d) (entryAdd (fun _ => true) sizeofFile kind d name)
      (absCall sizeofFile kind name d.view) := by
  have hex := pure64DirNameExists_sound hd name
  by_cases hm : cString name ∈ d.view.entryNames
  · cases kind <;> simpa [entryAdd, pure64DirAddFile, pure64DirAddSubdir, addEntry, hex, hm, absCall,
      Result.Rel] using Keeps.refl hd
  rw [decide_eq_false hm] at hex
  cases kind
  · exact addFile_sound hsf hd hname hex hm
  · exact addSubdir_sound hd hname hex hm

end Step

/-! ## Calls at a path -/

section Paths

variable {op : Dir → Result Dir} {g : Pure64.Dir → Result Pure64.Dir}

/-- The struct a call at `i :: p` rebuilds around the subdirectory's new
struct keeps what the call on the subdirectory keeps. -/
theorem keeps_withSubdirs {nameSize subdirCount fileCount : UInt64} {name : Ptr (List UInt8)}
    {size : Nat} {files : Ptr (List (Slot File))} {ds : List Dir} {fs : List File}
    (hsc : subdirCount.toNat = ds.length) (hf : files.Holds fs) (hfc : fileCount.toNat = fs.length)
    (hnames : ∀ d ∈ ds, Terminated d.name d.nameSize) (hsub : ∀ d ∈ ds, d.Sound)
    (hfs : ∀ f ∈ fs, f.Sound) {i : Nat} (hi : i < ds.length) {c' : Dir} {u : Pure64.Dir}
    (hk : Keeps ds[i] c' u) :
    Keeps (.mk nameSize subdirCount fileCount name (.live size (ds.map .init)) files)
      (.mk nameSize subdirCount fileCount name (.live size ((ds.map .init).set i (.init c'))) files)
      (.mk (bufferBytes name nameSize.toNat) ((ds.map Dir.view).set i u) (fs.map File.view)) := by
  have hmem : ∀ d ∈ ds.set i c', Terminated d.name d.nameSize ∧ d.Sound := fun d hd => by
    rcases List.mem_or_eq_of_mem_set hd with hd | rfl
    · exact ⟨hnames d hd, hsub d hd⟩
    · rw [hk.name, hk.nameSize]
      exact ⟨hnames _ (List.getElem_mem hi), hk.sound⟩
  have hlen : subdirCount.toNat = (ds.set i c').length := by rw [List.length_set, hsc]
  refine ⟨.mk _ fs (holds_set i c') hlen hf hfc (fun d hd => (hmem d hd).1)
    (fun d hd => (hmem d hd).2) hfs, ?_, rfl, rfl⟩
  rw [view_mk_holds (holds_set i c') hlen hf hfc, List.map_set, hk.view]

/-- A call at a path on a sound struct agrees with the abstract call at the
path, as long as the call on the directory there agrees with its abstract
counterpart. -/
theorem callAt_sound (hop : ∀ d, d.Sound → Result.Rel (Keeps d) (op d) (g d.view)) :
    ∀ (p : List Nat) {d : Dir}, d.Sound →
      Option.Rel (Result.Rel (Keeps d)) (callAt op d p)
        ((d.view.atPath p).map fun t => (g t).map fun t' => d.view.modifyAt (fun _ => t') p)
  | [], d, hd => by simpa [callAt] using Option.Rel.some (hop d hd)
  | i :: p, _, hd => by
    cases hd with
    | @mk nameSize _ _ name _ files ds fs hs hsc hf hfc hnames hsub hfs =>
      rw [view_mk_holds hs hsc hf hfc]
      rcases hs with ⟨rfl, rfl⟩ | ⟨size, rfl⟩
      · simpa [callAt, Pure64.Dir.atPath] using Option.Rel.none
      by_cases hi : i < ds.length
      · have hview : (ds.map Dir.view)[i]? = some ds[i].view := by simp [hi]
        have ih := callAt_sound hop p (hsub _ (List.getElem_mem hi))
        have h := Option.Rel.map (fun r s h => Result.Rel.map
          (fun _ _ hk => @keeps_withSubdirs nameSize _ _ name size files _ _ hsc hf hfc hnames hsub
            hfs _ hi _ _ hk) h) ih
        simpa [callAt, Dir.subdirs, Dir.subdirCount, Dir.withSubdirs, Dir.nameSize, Dir.fileCount,
          Dir.name, Dir.files, hsc, hi, Pure64.Dir.atPath, Pure64.Dir.modifyAt, hview, Option.map_map,
          Function.comp_def, Result.map_map] using h
      · have hnone : ds[i]? = none := List.getElem?_eq_none_iff.mpr (Nat.le_of_not_lt hi)
        simpa [callAt, Dir.subdirs, Dir.subdirCount, hsc, hi, Pure64.Dir.atPath, hnone] using
          Option.Rel.none

end Paths

section Runs

variable {sizeofFile : UInt64} {d₀ : Dir}

/-- **One call on a sound struct.** With every allocation succeeding and a
string short enough for `strlen + 1` not to wrap, a call on a sound
struct ends as the abstract call on the tree it holds: both are defined or
neither, with the same outcome, and the struct left is sound, holds the
abstract result and keeps the root's name fields. -/
theorem Call.run_sound (hsf : 0 < sizeofFile.toNat) {d : Dir} (hd : d.Sound) (c : Call)
    (hname : pure64Strlen c.name + 1 < 2 ^ 64) :
    Option.Rel (Result.Rel (Keeps d)) (c.run (fun _ => true) sizeofFile d) (c.absRun sizeofFile d.view) :=
  callAt_sound (fun _ hd' => entryAdd_sound hsf c.kind hd' hname) c.path hd

theorem runFrom_keeps (hsf : 0 < sizeofFile.toNat) (h0 : d₀.Sound) {d : Dir}
    (h : RunFrom sizeofFile d₀ d) : Keeps d₀ d d.view ∧ AbsRunFrom sizeofFile d₀.view d.view := by
  induction h with
  | start => exact ⟨Keeps.refl h0, .start⟩
  | call _ hc hrun hstate ih =>
    obtain ⟨hk, habs⟩ := ih
    have hrel := Call.run_sound hsf hk.sound _ hc.2
    rw [hrun] at hrel
    obtain ⟨s, hs, hrs⟩ := Option.rel_some_left hrel
    obtain ⟨t', ht', hk'⟩ := hrs.state hstate
    refine ⟨⟨hk'.sound, rfl, hk'.name.trans hk.name, hk'.nameSize.trans hk.nameSize⟩, ?_⟩
    rw [hk'.view]
    exact .call habs hc hs ht'

theorem absRunFrom_runFrom (hsf : 0 < sizeofFile.toNat) (h0 : d₀.Sound) {t : Pure64.Dir}
    (h : AbsRunFrom sizeofFile d₀.view t) : ∃ d, RunFrom sizeofFile d₀ d ∧ d.view = t := by
  induction h with
  | start => exact ⟨d₀, .start, rfl⟩
  | call _ hc hrun hstate ih =>
    obtain ⟨d, hd, rfl⟩ := ih
    have hrel := Call.run_sound hsf (runFrom_keeps hsf h0 hd).1.sound _ hc.2
    rw [hrun] at hrel
    obtain ⟨r, hr, hrs⟩ := Option.rel_some_right hrel
    obtain ⟨d', hd', hk⟩ := hrs.state_symm hstate
    exact ⟨d', .call hd hc hr hd', hk.view⟩

/-- **Runs from a sound struct.** The trees held by the structs a run of
insertions builds from a sound struct are exactly the trees the abstract
calls build from the tree it holds. -/
theorem runFrom_view_iff (hsf : 0 < sizeofFile.toNat) (h0 : d₀.Sound) (t : Pure64.Dir) :
    (∃ d, RunFrom sizeofFile d₀ d ∧ d.view = t) ↔ AbsRunFrom sizeofFile d₀.view t :=
  ⟨fun ⟨_, hd, ht⟩ => ht ▸ (runFrom_keeps hsf h0 hd).2, absRunFrom_runFrom hsf h0⟩

theorem AbsRunFrom.trans {t₀ t t' : Pure64.Dir} (h₁ : AbsRunFrom sizeofFile t₀ t)
    (h₂ : AbsRunFrom sizeofFile t t') : AbsRunFrom sizeofFile t₀ t' := by
  induction h₂ with
  | start => exact h₁
  | call _ hc hrun hstate ih => exact .call ih hc hrun hstate

end Runs

/-- The tree `oneFileImage` encodes: a root named `r` holding the file `f`
with the bytes `1 2`. -/
def oneFileTree : Pure64.Dir := .mk [0x72] [] [⟨[0x66], [1, 2]⟩]

/-- The struct `pure64_dir_import` builds from `oneFileImage`: the empty
subdirectory array allocated with 0 bytes, the file's name and data in
buffers of their sizes. -/
def oneFileRoot : Dir :=
  .mk 1 0 1 (.live 2 [0x72, 0]) (.live 0 []) (.live 32 [.init ⟨1, 2, .live 2 [0x66, 0], .live 2 [1, 2]⟩])

/-- From the imported root holding `f`, the tree with `g` added is one both
the calls on the struct and the abstract calls reach. -/
theorem runFrom_view_iff_oneFile : oneFileRoot.Sound ∧
    ((∃ d, RunFrom 32 oneFileRoot d ∧ d.view = .mk [0x72] [] [⟨[0x66], [1, 2]⟩, ⟨[0x67], []⟩]) ↔
      AbsRunFrom 32 oneFileRoot.view (.mk [0x72] [] [⟨[0x66], [1, 2]⟩, ⟨[0x67], []⟩])) :=
  have hs : oneFileRoot.Sound := .mk [] [⟨1, 2, .live 2 [0x66, 0], .live 2 [1, 2]⟩] (.inr ⟨0, rfl⟩) rfl
    (.inr ⟨32, rfl⟩) rfl (by simp) (by simp)
    (by simp only [List.mem_singleton, forall_eq]; exact ⟨⟨_, _, rfl, rfl, by decide⟩, rfl, rfl⟩)
  ⟨hs, runFrom_view_iff (by decide) hs _⟩

/-! ## The trees sound structs hold -/

theorem length_bufferBytes_le (p : Ptr (List UInt8)) (n : Nat) : (bufferBytes p n).length ≤ n := by
  cases p <;> simp [bufferBytes]

theorem zero_not_mem_of_terminated {p : Ptr (List UInt8)} {n : UInt64} (h : Terminated p n) :
    0 ∉ bufferBytes p n.toNat := by
  obtain ⟨_, _, rfl, -, h0⟩ := h
  exact h0

/-- Every count of the tree a sound struct holds fits its field. -/
theorem fits_view_sound {d : Dir} (hd : d.Sound) : d.view.Fits := by
  induction hd with
  | @mk nameSize _ _ name _ _ ds fs hs hsc hf hfc _ _ _ ih =>
    rw [view_mk_holds hs hsc hf hfc]
    refine ⟨(length_bufferBytes_le _ _).trans_lt (uint64_toNat_lt _),
      by simpa [← hsc] using uint64_toNat_lt _, by simpa [← hfc] using uint64_toNat_lt _,
      Pure64.Dir.fitsAll_iff.mpr (by simpa using ih), ?_⟩
    simp only [List.mem_map]
    rintro _ ⟨f, -, rfl⟩
    exact ⟨(length_bufferBytes_le _ _).trans_lt (uint64_toNat_lt _),
      (length_bufferBytes_le _ _).trans_lt (uint64_toNat_lt _)⟩

/-- No entry name of the tree a sound struct holds has a NUL. -/
theorem nulFree_view_sound {d : Dir} (hd : d.Sound) : d.view.NulFree := by
  induction hd with
  | mk ds fs hs hsc hf hfc hnames _ hfs ih =>
    rw [view_mk_holds hs hsc hf hfc]
    refine .mk ?_ (by simpa using ih)
    simp only [Pure64.Dir.entryNames, Pure64.Dir.files_mk, Pure64.Dir.subdirs_mk, List.map_map,
      List.mem_append, List.mem_map, Function.comp]
    rintro _ (⟨f, hf, rfl⟩ | ⟨d, hd, rfl⟩)
    · exact zero_not_mem_of_terminated (hfs f hf).1
    · rw [name_view]
      exact zero_not_mem_of_terminated (hnames d hd)

/-! ## Export and import of sound structs -/

section Export

variable {c : UInt64Codec}

theorem pure64FileExport_sound {f : File} (hf : f.Sound) : ∃ b, pure64FileExport c f = some b := by
  obtain ⟨hn, hd, -⟩ := hf
  obtain ⟨data, hdata⟩ := Option.isSome_iff_exists.mp hd
  exact ⟨_, by simp only [pure64FileExport, readBuffer_of_terminated hn, hdata]; rfl⟩

theorem exportable_sound {d : Dir} (hd : d.Sound) (hname : (readBuffer d.name d.nameSize.toNat).isSome) :
    ∃ b, pure64DirExport c d = some b := by
  induction hd with
  | @mk nameSize subdirCount fileCount name subdirs files ds fs hs hsc hf hfc hnames _ hfs ih =>
    obtain ⟨nb, hnb⟩ := Option.isSome_iff_exists.mp hname
    simp only [Dir.name, Dir.nameSize] at hnb
    have hsub : ∃ b, exportSubdirs c subdirs ds.length = some b := by
      rcases hs with ⟨rfl, rfl⟩ | ⟨size, rfl⟩
      · exact ⟨[], rfl⟩
      · rw [exportSubdirs_live]
        exact exportSubdirSlots_map_init ds fun d hd =>
          ih d hd (by rw [readBuffer_of_terminated (hnames d hd)]; rfl)
    have hfile : ∃ b, exportFiles c files fs.length = some b := by
      rcases hf with ⟨rfl, rfl⟩ | ⟨size, rfl⟩
      · exact ⟨[], rfl⟩
      · rw [exportFiles_live]
        exact exportFileSlots_map_init fs fun f hf => pure64FileExport_sound (hfs f hf)
    obtain ⟨sb, hsb⟩ := hsub
    obtain ⟨fb, hfb⟩ := hfile
    exact ⟨_, by simp only [pure64DirExport, hnb, hsc, hfc, hsb, hfb]; rfl⟩

/-- **Export of a sound struct.** A sound struct whose own name buffer holds
its `name_size` bytes is exported, to the value encoding of the tree it
holds. -/
theorem pure64DirExport_sound {d : Dir} (hd : d.Sound)
    (hname : (readBuffer d.name d.nameSize.toNat).isSome) :
    pure64DirExport c d = some (Pure64.pure64DirExport c (specFileCodec c) d.view) := by
  obtain ⟨b, hb⟩ := exportable_sound hd hname
  rw [hb, pure64DirExport_view _ _ hb]

theorem owned_of_terminated {p : Ptr (List UInt8)} {n : UInt64} (h : Terminated p n) :
    p.owned = true := by
  obtain ⟨_, _, rfl, -⟩ := h
  rfl

/-- **Release of a sound struct.** A sound struct whose own name is `NULL`
or live is one `pure64_dir_free` can release. -/
theorem releasable_sound {d : Dir} (hd : d.Sound) (hname : d.name.owned = true) :
    d.releasable = true := by
  induction hd with
  | @mk _ _ _ name subdirs files ds fs hs hsc hf hfc hnames _ hfs ih =>
    simp only [Dir.releasable, Bool.and_eq_true, hsc, hfc]
    refine ⟨⟨hname, ?_⟩, ?_⟩
    · rcases hs with ⟨rfl, rfl⟩ | ⟨_, rfl⟩
      · rfl
      · simp only [subdirsReady, subdirSlotsReady_map_init, List.all_eq_true]
        exact fun d hd => ih d hd (owned_of_terminated (hnames d hd))
    · rcases hf with ⟨rfl, rfl⟩ | ⟨_, rfl⟩
      · rfl
      · simp only [filesReady, fileSlotsReady_map_init, List.all_eq_true, File.releasable,
          Bool.and_eq_true]
        exact fun f hf => ⟨owned_of_terminated (hfs f hf).1, (hfs f hf).2.2⟩

end Export

section Import

variable {alloc : Nat → Bool} {c : UInt64Codec} {sizeofFile : UInt64}

theorem terminated_of_imported {p : Ptr (List UInt8)} {n : UInt64}
    (h : ∃ size nb, p = .live size (nb ++ [0]) ∧ nb.length = n.toNat)
    (h0 : 0 ∉ bufferBytes p n.toNat) : Terminated p n := by
  obtain ⟨size, nb, rfl, hl⟩ := h
  rw [← hl, bufferBytes_live] at h0
  exact terminated_live_append hl h0 size

theorem pure64FileImport_sound {f : File} {bs r : List UInt8}
    (h : pure64FileImport alloc c pure64FileInit bs = .ok f r) :
    (∃ size nb, f.name = .live size (nb ++ [0]) ∧ nb.length = f.nameSize.toNat) ∧
      (readBuffer f.data f.dataSize.toNat).isSome ∧ f.data.owned := by
  obtain ⟨_, _, _, _, nameBytes, _, dataBytes, nsz, dsz, -, -, h3, h4, rfl⟩ := pure64FileImport_eq_ok h
  obtain ⟨hn, -⟩ := pure64StreamRead_eq_some h3
  obtain ⟨hd, -⟩ := pure64StreamRead_eq_some h4
  have hdata := readBuffer_live_append dsz dataBytes []
  rw [List.append_nil, hd] at hdata
  exact ⟨⟨nsz, nameBytes, rfl, hn⟩, by simp [hdata], rfl⟩

/-- Every level of a successful import leaves its name buffer holding the
`name_size` bytes read and a terminator, and a sound struct when no entry
name below it holds a NUL. -/
theorem dirImportFuel_sound : ∀ fuel bs d r,
    dirImportFuel alloc c sizeofFile fuel pure64DirInit bs = .ok d r →
      (∃ size nb, d.name = .live size (nb ++ [0]) ∧ nb.length = d.nameSize.toNat) ∧
        (d.view.NulFree → d.Sound)
  | 0, _, _, _, h => by cases h
  | fuel + 1, bs, d, r, h => by
    obtain ⟨nameSize, subdirCount, fileCount, _, _, _, nameBytes, _, ds, _, fs, nsz, ssz, fsz, -, -, -,
      h4, h5, h6, rfl⟩ := dirImportFuel_eq_ok h
    obtain ⟨hn, -⟩ := pure64StreamRead_eq_some h4
    obtain ⟨hsl, hsP, -⟩ := importSlots_eq_ok (fun bs d r h =>
      ⟨dirImportFuel_sound fuel bs d r h, (dirImportFuel_refines fuel bs d r h).2⟩) _ _ _ _ h5
    obtain ⟨hfl, hfP, -⟩ := importSlots_eq_ok (fun bs f r h =>
      ⟨pure64FileImport_sound h, (pure64FileImport_refines h).2⟩) _ _ _ _ h6
    refine ⟨⟨nsz, nameBytes, rfl, hn⟩, fun hnul => ?_⟩
    rw [view_mk_holds (.inr ⟨ssz, rfl⟩) hsl.symm (.inr ⟨fsz, rfl⟩) hfl.symm] at hnul
    cases hnul with
    | mk hnames hsub =>
      simp only [Pure64.Dir.entryNames, Pure64.Dir.files_mk, Pure64.Dir.subdirs_mk, List.mem_append,
        List.mem_map] at hnames
      refine .mk ds fs (.inr ⟨ssz, rfl⟩) hsl.symm (.inr ⟨fsz, rfl⟩) hfl.symm (fun d hd => ?_)
        (fun d hd => (hsP d hd).2 (hsub _ (List.mem_map_of_mem _ hd))) (fun f hf => ?_)
      · exact terminated_of_imported (hsP d hd).1
          (name_view d ▸ hnames _ (.inr ⟨_, ⟨d, hd, rfl⟩, rfl⟩))
      · exact ⟨terminated_of_imported (hfP f hf).1 (hnames _ (.inl ⟨_, ⟨f, hf, rfl⟩, rfl⟩)),
          (hfP f hf).2⟩

/-- **Import of a sound struct.** A successful import whose tree has no NUL
in an entry name builds a sound struct, with its own name buffer live and
holding its `name_size` bytes. -/
theorem pure64DirImport_sound {bs r : List UInt8} {d : Dir}
    (h : pure64DirImport alloc c sizeofFile bs = .ok d r) (hnul : d.view.NulFree) :
    d.Sound ∧ (readBuffer d.name d.nameSize.toNat).isSome ∧ d.name.owned = true := by
  obtain ⟨⟨size, nb, hname, hl⟩, hs⟩ := dirImportFuel_sound _ _ _ _ h
  refine ⟨hs hnul, ?_, by rw [hname]; rfl⟩
  rw [hname, ← hl, readBuffer_live_append]
  rfl

end Import

/-! ## A reopened store -/

section Session

variable {c : UInt64Codec} {sizeofFile : UInt64}

/-- **A reopened store.** Import an image whose tree has no NUL in an entry
name, every allocation succeeding: the value decoder reads that tree. Run
any insertions on the struct. Every struct reached holds a tree that the
abstract calls build from the tree imported; every further call on it,
with a string short enough for `strlen + 1` not to wrap, agrees with
`absCall` on that tree; `pure64_dir_export` writes the value encoding of
the tree; and `pure64_dir_free` releases it. -/
theorem reopened_session (hsf : 0 < sizeofFile.toNat) {bs r : List UInt8} {d₀ d : Dir}
    (himp : pure64DirImport (fun _ => true) c sizeofFile bs = .ok d₀ r) (hnul : d₀.view.NulFree)
    (hrun : RunFrom sizeofFile d₀ d) :
    Pure64.pure64DirImport c (specFileCodec c) bs = some (d₀.view, r) ∧
      AbsRunFrom sizeofFile d₀.view d.view ∧
      (∀ call : Call, pure64Strlen call.name + 1 < 2 ^ 64 →
        Option.Rel (Result.Rel (Keeps d)) (call.run (fun _ => true) sizeofFile d)
          (call.absRun sizeofFile d.view)) ∧
      pure64DirExport c d = some (Pure64.pure64DirExport c (specFileCodec c) d.view) ∧
      ∃ d', pure64DirFree d = some d' := by
  obtain ⟨h0, hname, howned⟩ := pure64DirImport_sound himp hnul
  obtain ⟨hk, habs⟩ := runFrom_keeps hsf h0 hrun
  refine ⟨(dirImportFuel_refines _ _ _ _ himp).2, habs,
    fun call hc => Call.run_sound hsf hk.sound call hc, pure64DirExport_sound hk.sound ?_,
    pure64DirFree_isSome _ (releasable_sound hk.sound ?_)⟩
  · rw [hk.name, hk.nameSize]
    exact hname
  · rw [hk.name]
    exact howned

/-- The image of a root holding the file `f`, reopened, with the file `g`
added: the export writes the encoding of the tree with both files. -/
theorem reopened_session_oneFile : ∃ d,
    pure64DirImport (fun _ => true) leCodec 32 oneFileImage = .ok oneFileRoot [9] ∧
      oneFileRoot.view.NulFree ∧ RunFrom 32 oneFileRoot d ∧
      d.view = .mk [0x72] [] [⟨[0x66], [1, 2]⟩, ⟨[0x67], []⟩] ∧
      pure64DirExport leCodec d = some (Pure64.pure64DirExport leCodec (specFileCodec leCodec) d.view) :=
  have himp : pure64DirImport (fun _ => true) leCodec 32 oneFileImage = .ok oneFileRoot [9] := rfl
  have hnul : oneFileRoot.view.NulFree := show oneFileTree.NulFree from .mk (by decide) (by simp)
  have hrun : RunFrom 32 oneFileRoot _ :=
    .call .start (c := ⟨[], .file, [0x67, 0]⟩) ⟨by decide, by decide⟩ rfl rfl
  have h := reopened_session (by decide) himp hnul hrun
  ⟨_, himp, hnul, hrun, rfl, h.2.2.2.1⟩

/-- The images a sequence of sessions leaves, each starting from the image
the last one left: `pure64_dir_import` of it, every allocation
succeeding, a run of insertions on the struct, and the bytes
`pure64_dir_export` writes for the result. -/
inductive Saved (c : UInt64Codec) (sizeofFile : UInt64) (img₀ : List UInt8) : List UInt8 → Prop
  | start : Saved c sizeofFile img₀ img₀
  | session {img img' r : List UInt8} {d₀ d : Dir} : Saved c sizeofFile img₀ img →
    pure64DirImport (fun _ => true) c sizeofFile img = .ok d₀ r → RunFrom sizeofFile d₀ d →
    pure64DirExport c d = some img' → Saved c sizeofFile img₀ img'

/-- **Sessions on a persistent image.** Start from the encoding of a tree
whose counts fit and whose entry names hold no NUL. Every image that a
sequence of sessions leaves, each importing the image the last one left,
running insertions and exporting, is the encoding of a tree the abstract
calls build from the first tree. -/
theorem saved_image (hc : c.RoundTrip) (hsf : 0 < sizeofFile.toNat) {t₀ : Pure64.Dir}
    (hfits : t₀.Fits) (hnul : t₀.NulFree) {img : List UInt8}
    (h : Saved c sizeofFile (Pure64.pure64DirExport c (specFileCodec c) t₀) img) :
    ∃ t, AbsRunFrom sizeofFile t₀ t ∧ img = Pure64.pure64DirExport c (specFileCodec c) t := by
  suffices ∃ t, AbsRunFrom sizeofFile t₀ t ∧ img = Pure64.pure64DirExport c (specFileCodec c) t ∧
      t.Fits ∧ t.NulFree from
    let ⟨t, habs, himg, _⟩ := this
    ⟨t, habs, himg⟩
  induction h with
  | start => exact ⟨t₀, .start, rfl, hfits, hnul⟩
  | @session _ _ r d₀ d _ himp hrun hexp ih =>
    obtain ⟨t, habs, rfl, hft, hnt⟩ := ih
    have hdec : Pure64.pure64DirImport c (specFileCodec c)
        (Pure64.pure64DirExport c (specFileCodec c) t ++ []) = some (d₀.view, r) := by
      rw [List.append_nil]
      exact (dirImportFuel_refines _ _ _ _ himp).2
    rw [Pure64.pure64DirImport_export hc (specFileCodec_roundTrip hc) t hft] at hdec
    obtain ⟨rfl, -⟩ := Prod.mk.inj (Option.some.inj hdec)
    obtain ⟨h0, hname, -⟩ := pure64DirImport_sound himp hnt
    obtain ⟨hk, habs'⟩ := runFrom_keeps hsf h0 hrun
    rw [pure64DirExport_sound hk.sound (by rw [hk.name, hk.nameSize]; exact hname)] at hexp
    cases hexp
    exact ⟨d.view, habs.trans habs', rfl, fits_view_sound hk.sound, nulFree_view_sound hk.sound⟩

/-- One session on the image of the root holding `f`, adding the file `g`:
the image it leaves is the encoding of a tree the abstract calls reach. -/
theorem saved_image_oneFile : ∃ img, oneFileTree.Fits ∧ oneFileTree.NulFree ∧
    Saved leCodec 32 (Pure64.pure64DirExport leCodec (specFileCodec leCodec) oneFileTree) img ∧
      ∃ t, AbsRunFrom 32 oneFileTree t ∧ img = Pure64.pure64DirExport leCodec (specFileCodec leCodec) t :=
  have hfits : oneFileTree.Fits := by simp [oneFileTree, Pure64.Dir.Fits, Pure64.Dir.FitsAll, File.Fits]
  have hnul : oneFileTree.NulFree := .mk (by decide) (by simp [oneFileTree])
  have himp : pure64DirImport (fun _ => true) leCodec 32
      (Pure64.pure64DirExport leCodec (specFileCodec leCodec) oneFileTree) = .ok oneFileRoot [] := rfl
  have hrun : RunFrom 32 oneFileRoot _ :=
    .call .start (c := ⟨[], .file, [0x67, 0]⟩) ⟨by decide, by decide⟩ rfl rfl
  have hsaved := Saved.session .start himp hrun rfl
  ⟨_, hfits, hnul, hsaved, saved_image leCodec_roundTrip (by decide) hfits hnul hsaved⟩

end Session

end Heap

end Pure64

import Pure64.StoreRuns

/-!
# `pure64_dir_import` on every input

`Heap.lean` models `pure64_dir_import` with a fuel argument bounding the
nesting depth, and `pure64DirImport` passes one more than the number of
bytes. This file shows that the fuel is bookkeeping and that the heap
decoder is exactly the value-level decoder of `Tree.lean` wherever no byte
count wraps.

* Every level reads its three 8-byte counts before it recurses, and each
  child loop hands the next child only the bytes the previous one left. So
  a run on `bs` never goes deeper than `bs.length / 24` levels, and any two
  fuels past that give the same outcome (`dirImportFuel_congr`). The counts
  read from the input only bound the loops; they never extend the
  recursion.
* With every allocation succeeding, the heap decoder accepts whatever the
  value decoder accepts, as long as no `name_size + 1` and no array byte
  count wraps. It then builds the struct `importedDir` of the value
  (`dirImportFuel_complete`). With `pure64DirImport_refines` this
  determines the heap decoder completely.

Main results:

> `pure64DirImport_terminates`: for every input, `pure64DirImport` never
> runs out of fuel, and every fuel from `bs.length / 24 + 1` on gives the
> outcome it returns.

> `pure64DirImport_names_unchecked`: for every tree whose counts fit, the
> image of it is accepted. The root it decodes has entry names distinct
> under `pure64_strcmp` exactly when the tree's names differ as C strings,
> and terminated at `name_size` exactly when they hold no NUL: the decoder
> checks neither.

> `pure64DirImport_malloc_zero`: with a `malloc(0)` that returns `NULL`, as
> the C standard allows, no input is ever imported: the empty subdirectory
> array of the innermost directory is refused as out of memory.
-/

namespace Pure64

namespace Heap

/-! ## Bytes read -/

section Termination

variable {alloc : Nat → Bool} {c : UInt64Codec} {sizeofFile : UInt64}

theorem decodeUint64_length {bs r : List UInt8} {v : UInt64} (h : decodeUint64 c bs = some (v, r)) :
    bs.length = r.length + 8 := by
  obtain ⟨b, hb, rfl⟩ := decodeUint64_eq_some h
  simp [hb, Nat.add_comm]

/-- A successful file import read its two 8-byte counts. -/
theorem pure64FileImport_length {file f : File} {bs r : List UInt8}
    (h : pure64FileImport alloc c file bs = .ok f r) : r.length + 16 ≤ bs.length := by
  obtain ⟨_, _, bs1, bs2, _, bs3, _, _, _, h1, h2, h3, h4, -⟩ := pure64FileImport_eq_ok h
  obtain ⟨-, rfl⟩ := pure64StreamRead_eq_some h3
  obtain ⟨-, rfl⟩ := pure64StreamRead_eq_some h4
  have := decodeUint64_length h1
  have := decodeUint64_length h2
  simp only [List.length_append] at *
  omega

/-- A child loop whose every success reads no more than it was given reads
no more. -/
theorem importSlots_length {α : Type} {f : List UInt8 → Outcome α} {fresh : α}
    (hf : ∀ bs a r, f bs = .ok a r → r.length ≤ bs.length) :
    ∀ n bs as r, importSlots f fresh n bs = .ok as r → r.length ≤ bs.length
  | 0, bs, as, r, h => by
    simp only [importSlots, Outcome.ok.injEq] at h
    rw [h.2]
  | n + 1, bs, as, r, h => by
    simp only [importSlots] at h
    split at h
    · rename_i a bs1 h1
      split at h
      · rename_i as' bs2 h2
        simp only [Outcome.ok.injEq] at h
        rw [← h.2]
        exact (importSlots_length hf n _ _ _ h2).trans (hf _ _ _ h1)
      all_goals cases h
    all_goals cases h

/-- A successful level read its three counts before anything else. -/
theorem dirImportFuel_length :
    ∀ {fuel : Nat} {dir d : Dir} {bs r : List UInt8},
      dirImportFuel alloc c sizeofFile fuel dir bs = .ok d r → r.length + 24 ≤ bs.length
  | 0, _, _, _, _, h => by cases h
  | fuel + 1, _, _, bs, r, h => by
    obtain ⟨_, _, _, bs1, bs2, bs3, _, bs4, _, bs5, _, _, _, _, h1, h2, h3, h4, h5, h6, -⟩ :=
      dirImportFuel_eq_ok h
    have l4 := (pure64StreamRead_eq_some h4).2
    have l5 := importSlots_length (fun _ _ _ h => by have := dirImportFuel_length h; omega) _ _ _ _ h5
    have l6 := importSlots_length (fun _ _ _ h => by have := pure64FileImport_length h; omega) _ _ _ _ h6
    have := decodeUint64_length h1
    have := decodeUint64_length h2
    have := decodeUint64_length h3
    rw [l4, List.length_append] at *
    omega

/-- Two child loops agree on any input whose every suffix their entries
agree on, when each success reads no more than it was given. -/
theorem importSlots_congr {α : Type} {f g : List UInt8 → Outcome α} {fresh : α} {L : Nat}
    (hfg : ∀ bs, bs.length ≤ L → f bs = g bs) (hf : ∀ bs a r, f bs = .ok a r → r.length ≤ bs.length) :
    ∀ n bs, bs.length ≤ L → importSlots f fresh n bs = importSlots g fresh n bs
  | 0, _, _ => rfl
  | n + 1, bs, hL => by
    simp only [importSlots, ← hfg bs hL]
    cases h : f bs with
    | ok a r =>
      dsimp only
      rw [importSlots_congr hfg hf n r ((hf _ _ _ h).trans hL)]
    | err e a => rfl
    | ub => rfl
    | outOfFuel => rfl

/-- One level of `pure64_dir_import` under two fuels: the same outcome when
the two child loops agree past the three counts. -/
theorem dirImportFuel_succ_congr {k m : Nat} {dir : Dir} {bs : List UInt8}
    (h : ∀ n bs', bs'.length + 24 ≤ bs.length →
      importSlots (dirImportFuel alloc c sizeofFile k pure64DirInit) pure64DirInit n bs' =
        importSlots (dirImportFuel alloc c sizeofFile m pure64DirInit) pure64DirInit n bs') :
    dirImportFuel alloc c sizeofFile (k + 1) dir bs = dirImportFuel alloc c sizeofFile (m + 1) dir bs := by
  obtain ⟨ns0, sc0, fc0, name0, subdirs0, files0⟩ := dir
  simp only [dirImportFuel]
  rcases h1 : decodeUint64 c bs with _ | ⟨nameSize, bs1⟩
  · rfl
  dsimp only
  rcases h2 : decodeUint64 c bs1 with _ | ⟨subdirCount, bs2⟩
  · rfl
  dsimp only
  rcases h3 : decodeUint64 c bs2 with _ | ⟨fileCount, bs3⟩
  · rfl
  dsimp only
  split
  · rfl
  rcases h4 : pure64StreamRead nameSize.toNat bs3 with _ | ⟨nameBytes, bs4⟩
  · rfl
  dsimp only
  have l4 := (pure64StreamRead_eq_some h4).2
  have := decodeUint64_length h1
  have := decodeUint64_length h2
  have := decodeUint64_length h3
  rw [h _ bs4 (by rw [l4, List.length_append] at *; omega)]

/-- **Fuel congruence.** Two fuels that both exceed `bs.length / 24` give
the same outcome: every level reads 24 bytes before it recurses. -/
theorem dirImportFuel_congr :
    ∀ {fuel₁ fuel₂ : Nat} {dir : Dir} {bs : List UInt8}, bs.length < 24 * fuel₁ →
      bs.length < 24 * fuel₂ →
      dirImportFuel alloc c sizeofFile fuel₁ dir bs = dirImportFuel alloc c sizeofFile fuel₂ dir bs
  | 0, _, _, _, h₁, _ => absurd h₁ (Nat.not_lt_zero _)
  | _, 0, _, _, _, h₂ => absurd h₂ (Nat.not_lt_zero _)
  | k + 1, m + 1, _, bs, h₁, h₂ =>
    dirImportFuel_succ_congr fun n bs' hb =>
      importSlots_congr (fun b (hbL : b.length ≤ bs'.length) => dirImportFuel_congr (by omega) (by omega))
        (fun _ _ _ h => by have := dirImportFuel_length h; omega) n bs' le_rfl

theorem pure64FileImport_ne_outOfFuel (file : File) (bs : List UInt8) :
    pure64FileImport alloc c file bs ≠ .outOfFuel := by
  simp only [pure64FileImport]
  repeat' split
  all_goals nofun

/-- A child loop runs out of fuel only where one of its entries does, on
bytes it had not read past. -/
theorem importSlots_outOfFuel {α : Type} {f : List UInt8 → Outcome α} {fresh : α}
    (hf : ∀ bs a r, f bs = .ok a r → r.length ≤ bs.length) :
    ∀ n bs, importSlots f fresh n bs = .outOfFuel →
      ∃ bs', bs'.length ≤ bs.length ∧ f bs' = .outOfFuel
  | 0, _, h => by cases h
  | n + 1, bs, h => by
    simp only [importSlots] at h
    split at h
    · rename_i bs1 h1
      split at h <;> try cases h
      rename_i h2
      obtain ⟨bs', hl, h'⟩ := importSlots_outOfFuel hf n _ h2
      exact ⟨bs', hl.trans (hf _ _ _ h1), h'⟩
    · cases h
    · cases h
    · exact ⟨bs, le_rfl, ‹_›⟩

/-- The decoder runs out of fuel only on an input holding 24 bytes for
every level of fuel: each level reads its three counts before it recurses. -/
theorem dirImportFuel_outOfFuel :
    ∀ {fuel : Nat} {dir : Dir} {bs : List UInt8},
      dirImportFuel alloc c sizeofFile fuel dir bs = .outOfFuel → 24 * fuel ≤ bs.length
  | 0, _, _, _ => Nat.zero_le _
  | fuel + 1, .mk _ _ _ _ _ _, bs, h => by
    simp only [dirImportFuel] at h
    split at h
    · cases h
    rename_i bs1 h1
    split at h
    · cases h
    rename_i bs2 h2
    split at h
    · cases h
    rename_i bs3 h3
    split at h
    · split at h <;> cases h
    split at h
    · split at h <;> cases h
    rename_i bs4 h4
    have l4 := (pure64StreamRead_eq_some h4).2
    have := decodeUint64_length h1
    have := decodeUint64_length h2
    have := decodeUint64_length h3
    rw [l4, List.length_append] at *
    split at h
    · split at h
      · cases h
      · rename_i h5
        obtain ⟨bs', hl, h'⟩ := importSlots_outOfFuel
          (fun _ _ _ h => by have := dirImportFuel_length h; omega) _ _ h5
        have := dirImportFuel_outOfFuel h'
        omega
      · cases h
      · split at h
        · cases h
        · rename_i h6
          obtain ⟨_, -, h'⟩ := importSlots_outOfFuel
            (fun _ _ _ h => by have := pure64FileImport_length h; omega) _ _ h6
          exact absurd h' (pure64FileImport_ne_outOfFuel _ _)
        · cases h
        · cases h
    · cases h

/-- **Termination.** On every input, `pure64_dir_import` recurses at most
`bs.length / 24` levels deep, however large the counts it reads: it never
runs out of the fuel `pure64DirImport` gives it, and every fuel from
`bs.length / 24 + 1` on gives the same outcome, so the unbounded recursion
of the source reaches that outcome. -/
theorem pure64DirImport_terminates (bs : List UInt8) (extra : Nat) :
    pure64DirImport alloc c sizeofFile bs ≠ .outOfFuel ∧
      dirImportFuel alloc c sizeofFile (bs.length / 24 + 1 + extra) pure64DirInit bs =
        pure64DirImport alloc c sizeofFile bs :=
  ⟨fun h => by have := dirImportFuel_outOfFuel h; omega, dirImportFuel_congr (by omega) (by omega)⟩

end Termination

/-! ## What the decoder builds -/

/-- The file struct `pure64_file_import` builds for a file: both sizes, the
name in a buffer of `name_size + 1` bytes with its terminator, the data in
a buffer of exactly `data_size` bytes. -/
def importedFile (f : Pure64.File) : File :=
  ⟨f.name.length.toUInt64, f.data.length.toUInt64, nameBuffer f.name, .live f.data.length f.data⟩

mutual
/-- The struct `pure64_dir_import` builds for a tree: the name in a buffer
of `name_size + 1` bytes, and both arrays allocated for exactly their
counts, every slot imported. -/
def importedDir (sizeofFile : UInt64) : Pure64.Dir → Dir
  | .mk name subdirs files =>
    .mk name.length.toUInt64 subdirs.length.toUInt64 files.length.toUInt64 (nameBuffer name)
      (.live (subdirs.length * sizeofDir.toNat) ((importedDirs sizeofFile subdirs).map .init))
      (.live (files.length * sizeofFile.toNat) ((files.map importedFile).map .init))
/-- The subdirectory structs. -/
def importedDirs (sizeofFile : UInt64) : List Pure64.Dir → List Dir
  | [] => []
  | d :: ds => importedDir sizeofFile d :: importedDirs sizeofFile ds
end

mutual
/-- The trees the decoder can build without a byte count wrapping: every
`name_size + 1` and every array's byte count fits 64 bits. -/
def ImportFits (sizeofFile : UInt64) : Pure64.Dir → Prop
  | .mk name subdirs files =>
    name.length + 1 < 2 ^ 64 ∧ subdirs.length * sizeofDir.toNat < 2 ^ 64 ∧
      files.length * sizeofFile.toNat < 2 ^ 64 ∧ (∀ f ∈ files, f.name.length + 1 < 2 ^ 64) ∧
      ImportFitsAll sizeofFile subdirs
/-- `ImportFits` for every tree of a list. -/
def ImportFitsAll (sizeofFile : UInt64) : List Pure64.Dir → Prop
  | [] => True
  | d :: ds => ImportFits sizeofFile d ∧ ImportFitsAll sizeofFile ds
end

section Completeness

variable {c : UInt64Codec} {sizeofFile : UInt64}

theorem importedDirs_eq_map (ds : List Pure64.Dir) :
    importedDirs sizeofFile ds = ds.map (importedDir sizeofFile) := by
  induction ds with
  | nil => rfl
  | cons d ds ih => simp [importedDirs, ih]

theorem importFitsAll_iff {ds : List Pure64.Dir} :
    ImportFitsAll sizeofFile ds ↔ ∀ d ∈ ds, ImportFits sizeofFile d := by
  induction ds with
  | nil => simp [ImportFitsAll]
  | cons d ds ih => simp [ImportFitsAll, ih]

theorem importEach_length {α : Type} {g : List UInt8 → Option (α × List UInt8)} :
    ∀ {n : Nat} {bs as r}, importEach g n bs = some (as, r) → as.length = n
  | 0, _, _, _, h => by
    simp only [importEach, Option.some.injEq, Prod.mk.injEq] at h
    rw [← h.1]
    rfl
  | n + 1, _, _, _, h => by
    simp only [importEach, Option.bind_eq_bind, Option.bind_eq_some, Option.pure_def,
      Option.some.injEq] at h
    obtain ⟨_, -, ⟨as', _⟩, h2, he⟩ := h
    rw [← (Prod.mk.inj he).1, List.length_cons, importEach_length h2]

/-- A value-level loop that reads `bs'` is a heap loop that imports them,
when each entry the value loop reads the heap one imports. -/
theorem importSlots_of_importEach {α β : Type} {f : List UInt8 → Outcome α} (fresh : α)
    {g : List UInt8 → Option (β × List UInt8)} {v : β → α} {P : β → Prop}
    (hfg : ∀ bs b r, g bs = some (b, r) → P b → f bs = .ok (v b) r) :
    ∀ n bs bs' r, importEach g n bs = some (bs', r) → (∀ b ∈ bs', P b) →
      importSlots f fresh n bs = .ok (bs'.map v) r
  | 0, bs, bs', r, h, _ => by
    simp only [importEach, Option.some.injEq, Prod.mk.injEq] at h
    obtain ⟨rfl, rfl⟩ := h
    rfl
  | n + 1, bs, bs', r, h, hP => by
    simp only [importEach, Option.bind_eq_bind, Option.bind_eq_some, Option.pure_def,
      Option.some.injEq] at h
    obtain ⟨⟨b, bs1⟩, h1, ⟨bs'', bs2⟩, h2, he⟩ := h
    obtain ⟨rfl, rfl⟩ := Prod.mk.inj he
    rw [List.forall_mem_cons] at hP
    simp only [importSlots, hfg _ _ _ h1 hP.1,
      importSlots_of_importEach fresh hfg n bs1 bs'' bs2 h2 hP.2, List.map_cons]

/-- The 64-bit size `n + 1` of a buffer for `n` bytes, when it does not wrap. -/
theorem toNat_succ_of_lt {n : Nat} (h : n + 1 < 2 ^ 64) : (n.toUInt64 + 1).toNat = n + 1 := by
  rw [uint64_toNat_add, uint64_toNat_toUInt64_of_lt (by omega), show (1 : UInt64).toNat = 1 from rfl,
    Nat.mod_eq_of_lt h]

/-- The 64-bit byte count of `n` elements, when it does not wrap. -/
theorem toNat_mul_of_lt {n : Nat} {e : UInt64} (h : n * e.toNat < 2 ^ 64) (hn : n < 2 ^ 64) :
    (n.toUInt64 * e).toNat = n * e.toNat := by
  rw [uint64_toNat_mul, uint64_toNat_toUInt64_of_lt hn, Nat.mod_eq_of_lt h]

/-- **File import, complete.** With every allocation succeeding, the heap
file import accepts whatever the value-level one reads, unless the name's
`name_size + 1` wraps. -/
theorem pure64FileImport_complete {bs r : List UInt8} {f : Pure64.File}
    (h : pure64FileImportSpec c bs = some (f, r)) (hn : f.name.length + 1 < 2 ^ 64) :
    pure64FileImport (fun _ => true) c pure64FileInit bs = .ok (importedFile f) r := by
  simp only [pure64FileImportSpec, Option.bind_eq_bind, Option.bind_eq_some, Option.pure_def,
    Option.some.injEq] at h
  obtain ⟨⟨ns, b1⟩, h1, ⟨ds, b2⟩, h2, ⟨name, b3⟩, h3, ⟨data, b4⟩, h4, he⟩ := h
  obtain ⟨rfl, rfl⟩ := Prod.mk.inj he
  obtain ⟨hnl, -⟩ := pure64StreamRead_eq_some h3
  obtain ⟨hdl, -⟩ := pure64StreamRead_eq_some h4
  dsimp only at h1 h2 h3 h4 hnl hdl hn ⊢
  have hdlt : data.length < 2 ^ 64 := hdl ▸ uint64_toNat_lt ds
  obtain rfl : ns = name.length.toUInt64 := by rw [hnl, toUInt64_toNat]
  obtain rfl : ds = data.length.toUInt64 := by rw [hdl, toUInt64_toNat]
  rw [uint64_toNat_toUInt64_of_lt hdlt] at h4
  simp only [pure64FileImport, h1, h2, h3, h4, pure64Malloc, if_true, isNull_live, Bool.or_false,
    Bool.false_eq_true, if_false, writeName, toNat_succ_of_lt hn, Nat.lt_succ_self, writeBytes,
    uint64_toNat_toUInt64_of_lt hdlt, le_refl, importedFile, nameBuffer]

/-- **Completeness.** With every allocation succeeding, the heap decoder
accepts whatever the value-level decoder of `Tree.lean` reads, unless a
`name_size + 1` or an array byte count wraps, and builds the struct of the
tree it read. -/
theorem dirImportFuel_complete :
    ∀ fuel bs t r, Pure64.dirImportFuel c (specFileCodec c) fuel bs = some (t, r) →
      ImportFits sizeofFile t →
      dirImportFuel (fun _ => true) c sizeofFile fuel pure64DirInit bs = .ok (importedDir sizeofFile t) r
  | 0, _, _, _, h, _ => by cases h
  | fuel + 1, bs, t, r, h, ht => by
    obtain ⟨ns, sc, fcnt, name, subdirs, files, b1, b2, b3, b4, b5, h1, h2, h3, h4, h5, h6, rfl⟩ :=
      Pure64.dirImportFuel_succ_eq_some h
    obtain ⟨hn, hs, hf, hfn, hall⟩ := ht
    obtain ⟨hnl, -⟩ := pure64StreamRead_eq_some h4
    have hsl := importEach_length h5
    have hfl := importEach_length h6
    have hsub := importSlots_of_importEach pure64DirInit
      (fun bs b r hb hP => dirImportFuel_complete fuel bs b r hb hP) _ _ _ _ h5 (importFitsAll_iff.mp hall)
    have hfil := importSlots_of_importEach pure64FileInit
      (fun bs f r hb (hP : f.name.length + 1 < 2 ^ 64) => pure64FileImport_complete hb hP) _ _ _ _ h6 hfn
    have hsz := toNat_mul_of_lt hs (hsl ▸ uint64_toNat_lt sc)
    have hfz := toNat_mul_of_lt hf (hfl ▸ uint64_toNat_lt fcnt)
    obtain rfl : ns = name.length.toUInt64 := by rw [hnl, toUInt64_toNat]
    obtain rfl : sc = subdirs.length.toUInt64 := by rw [hsl, toUInt64_toNat]
    obtain rfl : fcnt = files.length.toUInt64 := by rw [hfl, toUInt64_toNat]
    have hnt : name.length.toUInt64.toNat = name.length := uint64_toNat_toUInt64_of_lt (by omega)
    rw [hnt] at h4
    rw [← hsl] at hsub
    rw [← hfl] at hfil
    simp only [dirImportFuel, h1, h2, h3, hnt, h4, pure64Malloc, if_true, isNull_live, Bool.or_false,
      Bool.false_eq_true, if_false, writeName, toNat_succ_of_lt hn, Nat.lt_succ_self, initSlots, hsz,
      hfz, ← hsl, ← hfl, le_refl, hsub, hfil, Ptr.withSlots, List.map_map, importedDir,
      importedDirs_eq_map, nameBuffer]

/-- **The heap decoder is complete.** With every allocation succeeding,
`pure64_dir_import` accepts every input the value-level decoder reads a
tree from, unless a `name_size + 1` or an array byte count of the tree
wraps, leaves the same bytes over and builds the struct of that tree. -/
theorem pure64DirImport_complete {bs r : List UInt8} {t : Pure64.Dir}
    (h : Pure64.pure64DirImport c (specFileCodec c) bs = some (t, r)) (ht : ImportFits sizeofFile t) :
    pure64DirImport (fun _ => true) c sizeofFile bs = .ok (importedDir sizeofFile t) r :=
  dirImportFuel_complete _ _ _ _ h ht

theorem pure64DirImport_complete_oneFile :
    Pure64.pure64DirImport leCodec (specFileCodec leCodec) oneFileImage =
        some (.mk [0x72] [] [⟨[0x66], [1, 2]⟩], [9]) ∧
      ImportFits 32 (.mk [0x72] [] [⟨[0x66], [1, 2]⟩]) ∧
      pure64DirImport (fun _ => true) leCodec 32 oneFileImage =
        .ok (importedDir 32 (.mk [0x72] [] [⟨[0x66], [1, 2]⟩])) [9] :=
  have h : Pure64.pure64DirImport leCodec (specFileCodec leCodec) oneFileImage =
      some (.mk [0x72] [] [⟨[0x66], [1, 2]⟩], [9]) := rfl
  have ht : ImportFits 32 (.mk [0x72] [] [⟨[0x66], [1, 2]⟩]) := by
    simp only [ImportFits, ImportFitsAll]
    decide
  ⟨h, ht, pure64DirImport_complete h ht⟩

end Completeness

/-! ## What the decoder does not check -/

section Names

variable {c : UInt64Codec} {sizeofFile : UInt64}

/-- The entries of a decoded struct are named by the buffers of the tree's
entry names. -/
theorem entryNameFields_importedDir {t : Pure64.Dir} (ht : t.Fits) :
    (importedDir sizeofFile t).entryNameFields =
      t.entryNames.map fun k => (nameBuffer k, k.length.toUInt64) := by
  obtain ⟨n, ds, fs⟩ := t
  obtain ⟨-, hds, hfs, -, -⟩ := ht
  have hs := slotNames_map_init (fun c : Dir => (c.name, c.nameSize)) (ds.map (importedDir sizeofFile))
  have hf := slotNames_map_init (fun f : File => (f.name, f.nameSize)) (fs.map importedFile)
  simp only [List.length_map, List.map_map] at hs hf
  simp only [Dir.entryNameFields, importedDir, importedDirs_eq_map, arrayNames, Dir.files, Dir.subdirs,
    Dir.fileCount, Dir.subdirCount, uint64_toNat_toUInt64_of_lt hds, uint64_toNat_toUInt64_of_lt hfs,
    List.map_map, hs, hf, Pure64.Dir.entryNames, Pure64.Dir.files_mk, Pure64.Dir.subdirs_mk,
    List.map_append]
  congr 1
  refine List.map_congr_left fun d _ => ?_
  cases d
  rfl

theorem terminated_nameBuffer {k : List UInt8} (hk : k.length < 2 ^ 64) :
    Terminated (nameBuffer k) k.length.toUInt64 ↔ 0 ∉ k := by
  rw [Terminated, nameBuffer, uint64_toNat_toUInt64_of_lt hk]
  constructor
  · rintro ⟨_, _, ⟨⟩, -, h⟩
    simpa using h
  · exact fun h => ⟨_, _, rfl, by simp, by simpa using h⟩

theorem importFits_entryNames {t : Pure64.Dir} (ht : ImportFits sizeofFile t) :
    ∀ k ∈ t.entryNames, k.length + 1 < 2 ^ 64 := by
  obtain ⟨n, ds, fs⟩ := t
  obtain ⟨-, -, -, hfn, hall⟩ := ht
  intro k hk
  simp only [Pure64.Dir.entryNames, Pure64.Dir.files_mk, Pure64.Dir.subdirs_mk, List.mem_append,
    List.mem_map] at hk
  rcases hk with ⟨f, hf, rfl⟩ | ⟨⟨n', ds', fs'⟩, hd, rfl⟩
  · exact hfn f hf
  · exact (importFitsAll_iff.mp hall _ hd).1

/-- **The decoder checks no name.** For every tree whose counts fit, its
image is accepted, and the root struct it decodes has entry names that are
distinct under `pure64_strcmp` exactly when the tree's names differ as C
strings, and that are terminated at their `name_size` (as is the root's own
name) exactly when they hold no NUL. Nothing in `pure64_dir_import` rejects
two equal names or a NUL inside a name. -/
theorem pure64DirImport_names_unchecked (hc : c.RoundTrip) (t : Pure64.Dir) (ht : t.Fits)
    (hi : ImportFits sizeofFile t) :
    ∃ d, pure64DirImport (fun _ => true) c sizeofFile (Pure64.pure64DirExport c (specFileCodec c) t) =
        .ok d [] ∧
      (d.EntriesDistinct ↔ (t.entryNames.map cString).Nodup) ∧
      (d.EntriesTerminated ↔ ∀ k ∈ t.entryNames, 0 ∉ k) ∧
      (Terminated d.name d.nameSize ↔ 0 ∉ t.name) := by
  have hlen := importFits_entryNames hi
  refine ⟨importedDir sizeofFile t, ?_, ?_, ?_, ?_⟩
  · have h := Pure64.pure64DirImport_export hc (specFileCodec_roundTrip hc) t ht []
    rw [List.append_nil] at h
    exact dirImportFuel_complete _ _ _ _ h hi
  · rw [Dir.EntriesDistinct, entryNameFields_importedDir ht, List.map_map, List.pairwise_map,
      List.Nodup, List.pairwise_map]
    refine List.Pairwise.iff fun a b => ?_
    simp only [Function.comp, nameBuffer, bufferOf, ne_eq, pure64Strcmp_eq_zero_iff_cString,
      cString_append_nul]
  · rw [Dir.EntriesTerminated, entryNameFields_importedDir ht, List.forall_mem_map]
    exact forall₂_congr fun k hk => terminated_nameBuffer (by have := hlen k hk; omega)
  · obtain ⟨n, ds, fs⟩ := t
    exact terminated_nameBuffer (by have := hi.1; omega)

/-- A root holding two subdirectories named `a` and `a\0`: different
byte strings, the same C string. -/
def nulTwins : Pure64.Dir := .mk [] [.mk [0x61] [] [], .mk [0x61, 0] [] []] []

/-- The 75-byte image of `nulTwins` decodes to a root whose two entries
compare equal under `pure64_strcmp`, one of them with a NUL before its
`name_size`. -/
theorem pure64DirImport_nulTwins :
    ∃ d, pure64DirImport (fun _ => true) leCodec 32
        (Pure64.pure64DirExport leCodec (specFileCodec leCodec) nulTwins) = .ok d [] ∧
      ¬ d.EntriesDistinct ∧ ¬ d.EntriesTerminated := by
  obtain ⟨d, hd, hdist, hterm, -⟩ := pure64DirImport_names_unchecked leCodec_roundTrip nulTwins
    (by simp [nulTwins, Pure64.Dir.Fits, Pure64.Dir.FitsAll])
    (show ImportFits 32 nulTwins by simp only [nulTwins, ImportFits, ImportFitsAll]; decide)
  exact ⟨d, hd, fun h => absurd (hdist.mp h) (by decide), fun h => absurd (hterm.mp h) (by decide)⟩

end Names

/-! ## A `malloc(0)` that returns `NULL` -/

section MallocZero

variable {alloc : Nat → Bool} {c : UInt64Codec} {sizeofFile : UInt64}

/-- A level of `pure64_dir_import` that succeeds got its subdirectory array. -/
theorem dirImportFuel_ok_alloc {fuel : Nat} {dir d : Dir} {bs r : List UInt8}
    (h : dirImportFuel alloc c sizeofFile (fuel + 1) dir bs = .ok d r) :
    alloc (d.subdirCount * sizeofDir).toNat = true := by
  obtain ⟨_, subdirCount, _, _, _, _, _, _, _, _, _, _, _, _, h1, h2, h3, -, -, -, rfl⟩ :=
    dirImportFuel_eq_ok h
  obtain ⟨_, _, _, _, _, _⟩ := dir
  simp only [dirImportFuel, h1, h2, h3] at h
  split at h
  · split at h <;> cases h
  rename_i hnull
  simp only [Bool.or_eq_true, not_or, pure64Malloc] at hnull
  by_contra hne
  simp only [Dir.subdirCount, Bool.not_eq_true] at hne
  simp [hne, Ptr.isNull] at hnull

/-- No level succeeds: the innermost directory has no subdirectory, and its
0-byte array comes back `NULL`. -/
theorem dirImportFuel_malloc_zero (h0 : alloc 0 = false) :
    ∀ fuel dir bs d r, dirImportFuel alloc c sizeofFile fuel dir bs ≠ .ok d r
  | 0, _, _, _, _, h => by cases h
  | fuel + 1, _, _, _, _, h => by
    have halloc := dirImportFuel_ok_alloc h
    obtain ⟨_, subdirCount, _, _, _, _, _, _, _, _, _, _, _, _, -, -, -, -, h5, -, rfl⟩ :=
      dirImportFuel_eq_ok h
    rcases hsc : subdirCount.toNat with _ | n
    · have hz : (subdirCount * sizeofDir).toNat = 0 := by
        rw [uint64_toNat_mul, hsc, Nat.zero_mul, Nat.zero_mod]
      simp [Dir.subdirCount, hz, h0] at halloc
    · rw [hsc] at h5
      simp only [importSlots] at h5
      split at h5
      · exact dirImportFuel_malloc_zero h0 fuel _ _ _ _ ‹_›
      all_goals cases h5

/-- **A `malloc(0)` that returns `NULL`.** The C standard lets `malloc(0)`
return `NULL`, and `pure64_malloc` passes the call on. `pure64_dir_import`
asks for `subdir_count * sizeof(struct pure64_dir)` bytes and takes `NULL`
for `PURE64_ENOMEM`, so it fails on a directory without subdirectories.
Every tree has one: with such an allocator, no input is ever imported,
however much memory there is. -/
theorem pure64DirImport_malloc_zero (h0 : alloc 0 = false) (bs : List UInt8) (d : Dir)
    (r : List UInt8) : pure64DirImport alloc c sizeofFile bs ≠ .ok d r :=
  dirImportFuel_malloc_zero h0 _ _ _ d r

/-- The image of the root holding `f` imports when no allocation fails, and
is refused when only `malloc(0)` returns `NULL`. -/
theorem pure64DirImport_malloc_zero_oneFile :
    (∃ d, pure64DirImport (fun _ => true) leCodec 32 oneFileImage = .ok d [9]) ∧
      (fun n => n != 0) 0 = false ∧
      ∀ d r, pure64DirImport (fun n => n != 0) leCodec 32 oneFileImage ≠ .ok d r :=
  ⟨⟨_, rfl⟩, rfl, pure64DirImport_malloc_zero rfl oneFileImage⟩

end MallocZero

end Heap

end Pure64

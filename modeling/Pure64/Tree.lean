import Pure64.Codec

/-!
# The directory tree codec: `pure64_dir_export` and `pure64_dir_import`

`src/lib/dir.c` writes a directory depth-first and pre-order: three 64-bit
counts (`name_size`, `subdir_count`, `file_count`), the raw name bytes,
then every subdirectory and every file in order. `pure64_dir_import`
mirrors it, reading the counts before it recurses into the children it
has just counted.

Here a directory is its value: the `name_size` name bytes and the two
child sequences, whose lengths are the counts. The import loops are
`importEach`, which stops at the first child that fails, as the C loops
return at the first nonzero `err`. Recursion into subdirectories carries a
depth bound (`dirImportFuel`); `pure64DirImport` starts it at the input's
length, and every level reads its 24 header bytes before it recurses.
Allocation always succeeds at this level: the heap-level model, where it
may fail, is refined by this one.

Main results, over any integer codec and file codec with the matching law:

> `pure64DirImport_export`: decoding `export t ++ r` gives back `t` and
> leaves exactly `r` unread, for every tree whose counts fit their fields.

> `pure64DirImport_canonical`: whatever the decoder accepts, ending exactly
> at the end of `b`, re-encodes to `b`.
-/

namespace Pure64

/-- `struct pure64_dir` as a value: the name bytes (`name_size` of them, the
terminator the C buffer adds is not part of the name), the subdirectories
and the files, in order. -/
inductive Dir where
  | mk (name : List UInt8) (subdirs : List Dir) (files : List File)
deriving Repr

namespace Dir

/-- The `name_size` name bytes. -/
def name : Dir → List UInt8
  | mk n _ _ => n

/-- The first `subdir_count` entries of `subdirs`. -/
def subdirs : Dir → List Dir
  | mk _ s _ => s

/-- The first `file_count` entries of `files`. -/
def files : Dir → List File
  | mk _ _ f => f

mutual
/-- Every count of the tree fits the 64-bit field that holds it. -/
def Fits : Dir → Prop
  | mk name subdirs files =>
    name.length < 2 ^ 64 ∧ subdirs.length < 2 ^ 64 ∧ files.length < 2 ^ 64 ∧
      FitsAll subdirs ∧ ∀ f ∈ files, f.Fits
/-- `Fits` for every tree of a list. -/
def FitsAll : List Dir → Prop
  | [] => True
  | d :: ds => d.Fits ∧ FitsAll ds
end

mutual
/-- Nesting depth: how deep `pure64_dir_import` recurses on the tree's encoding. -/
def depth : Dir → Nat
  | mk _ subdirs _ => depthAll subdirs + 1
/-- The largest depth of a list of trees. -/
def depthAll : List Dir → Nat
  | [] => 0
  | d :: ds => max d.depth (depthAll ds)
end

end Dir

/-- `pure64_dir_init`: no name, no children. -/
def pure64DirInit : Dir := .mk [] [] []

section Codec

variable (c : UInt64Codec) (fc : FileCodec)

mutual
/-- `pure64_dir_export`: the three counts, the name bytes, every
subdirectory, every file. -/
def pure64DirExport : Dir → List UInt8
  | .mk name subdirs files =>
    encodeUint64 c name.length.toUInt64 ++ encodeUint64 c subdirs.length.toUInt64 ++
      encodeUint64 c files.length.toUInt64 ++ name ++ exportSubdirs subdirs ++
      (files.map fc.pure64FileExport).flatten
/-- The subdirectory loop of `pure64_dir_export`. -/
def exportSubdirs : List Dir → List UInt8
  | [] => []
  | d :: ds => pure64DirExport d ++ exportSubdirs ds
end

/-- A child loop of `pure64_dir_import`: `n` entries read one after the
other, stopping at the first that fails. -/
def importEach {α : Type} (f : List UInt8 → Option (α × List UInt8)) :
    Nat → List UInt8 → Option (List α × List UInt8)
  | 0, bs => some ([], bs)
  | n + 1, bs => do
    let (a, bs) ← f bs
    let (as, bs) ← importEach f n bs
    pure (a :: as, bs)

/-- `pure64_dir_import` under a bound on the nesting depth. -/
def dirImportFuel : Nat → List UInt8 → Option (Dir × List UInt8)
  | 0, _ => none
  | fuel + 1, bs => do
    let (nameSize, bs) ← decodeUint64 c bs
    let (subdirCount, bs) ← decodeUint64 c bs
    let (fileCount, bs) ← decodeUint64 c bs
    let (name, bs) ← pure64StreamRead nameSize.toNat bs
    let (subdirs, bs) ← importEach (dirImportFuel fuel) subdirCount.toNat bs
    let (files, bs) ← importEach fc.pure64FileImport fileCount.toNat bs
    pure (.mk name subdirs files, bs)

/-- `pure64_dir_import` on the unread bytes `bs`: the result and what is left
unread, or `none` when a read fails. -/
def pure64DirImport (bs : List UInt8) : Option (Dir × List UInt8) :=
  dirImportFuel c fc (bs.length + 1) bs

theorem exportSubdirs_eq (ds : List Dir) :
    exportSubdirs c fc ds = (ds.map (pure64DirExport c fc)).flatten := by
  induction ds with
  | nil => rfl
  | cons d ds ih => simp [exportSubdirs, ih]

/-! ## Round trip -/

/-- A loop over encodings that each decode back reads all of them back. -/
theorem importEach_flatten {α : Type} {f : List UInt8 → Option (α × List UInt8)}
    {g : α → List UInt8} (as : List α) (h : ∀ a ∈ as, ∀ r, f (g a ++ r) = some (a, r))
    (r : List UInt8) : importEach f as.length ((as.map g).flatten ++ r) = some (as, r) := by
  induction as with
  | nil => rfl
  | cons a as ih =>
    simp [importEach, h a (List.mem_cons_self a as),
      ih (fun b hb => h b (List.mem_cons_of_mem a hb))]

variable {c fc}

mutual
theorem dirImportFuel_export (hc : c.RoundTrip) (hf : fc.RoundTrip) :
    ∀ (t : Dir), t.Fits → ∀ fuel, t.depth < fuel → ∀ r,
      dirImportFuel c fc fuel (pure64DirExport c fc t ++ r) = some (t, r)
  | _, _, 0, hd, _ => absurd hd (Nat.not_lt_zero _)
  | .mk name subdirs files, ⟨hn, hs, hfl, hsub, hfiles⟩, fuel + 1, hd, r => by
    have hsubdirs := importEach_exportSubdirs hc hf subdirs hsub fuel
      (by simp only [Dir.depth] at hd; omega)
    have hfs := @importEach_flatten _ _ fc.pure64FileExport files
      (fun f hm r => hf f (hfiles f hm) r)
    simp [pure64DirExport, dirImportFuel, hc _ _, uint64_toNat_toUInt64_of_lt hn,
      uint64_toNat_toUInt64_of_lt hs, uint64_toNat_toUInt64_of_lt hfl, hsubdirs, hfs]
theorem importEach_exportSubdirs (hc : c.RoundTrip) (hf : fc.RoundTrip) :
    ∀ (ds : List Dir), Dir.FitsAll ds → ∀ fuel, Dir.depthAll ds < fuel → ∀ r,
      importEach (dirImportFuel c fc fuel) ds.length (exportSubdirs c fc ds ++ r) = some (ds, r)
  | [], _, _, _, _ => rfl
  | d :: ds, ⟨hd, hds⟩, fuel, hdep, r => by
    have hmax : d.depth < fuel ∧ Dir.depthAll ds < fuel := by
      simp only [Dir.depthAll] at hdep; omega
    simp [exportSubdirs, importEach, dirImportFuel_export hc hf d hd fuel hmax.1,
      importEach_exportSubdirs hc hf ds hds fuel hmax.2]
end

mutual
theorem depth_le_export (hc : c.RoundTrip) :
    ∀ t : Dir, t.depth ≤ (pure64DirExport c fc t).length
  | .mk name subdirs files => by
    have := depthAll_le_exportSubdirs hc subdirs
    simp only [Dir.depth, pure64DirExport, List.length_append, encodeUint64_length hc]
    omega
theorem depthAll_le_exportSubdirs (hc : c.RoundTrip) :
    ∀ ds : List Dir, Dir.depthAll ds ≤ (exportSubdirs c fc ds).length
  | [] => Nat.zero_le _
  | d :: ds => by
    have := depth_le_export hc d
    have := depthAll_le_exportSubdirs hc ds
    simp only [Dir.depthAll, exportSubdirs, List.length_append]
    omega
end

/-- **Round trip.** For every tree whose counts fit their 64-bit fields,
importing its export followed by any suffix gives the tree back and leaves
exactly the suffix unread. -/
theorem pure64DirImport_export (hc : c.RoundTrip) (hf : fc.RoundTrip) (t : Dir) (ht : t.Fits)
    (r : List UInt8) : pure64DirImport c fc (pure64DirExport c fc t ++ r) = some (t, r) :=
  dirImportFuel_export hc hf t ht _
    (by have := @depth_le_export c fc hc t; simp only [List.length_append]; omega) r

/-- A root holding the subdirectory `bin` and the two-byte file `a`. -/
def binTree : Dir := .mk [] [.mk [0x62, 0x69, 0x6e] [] []] [⟨[0x61], [1, 2]⟩]

theorem binTree_round_trip : leCodec.RoundTrip ∧ (specFileCodec leCodec).RoundTrip ∧
    binTree.Fits ∧
    pure64DirImport leCodec (specFileCodec leCodec)
      (pure64DirExport leCodec (specFileCodec leCodec) binTree ++ [7]) = some (binTree, [7]) :=
  have hf : binTree.Fits := by simp [binTree, Dir.Fits, Dir.FitsAll, File.Fits]
  ⟨leCodec_roundTrip, specFileCodec_roundTrip leCodec_roundTrip, hf,
    pure64DirImport_export leCodec_roundTrip (specFileCodec_roundTrip leCodec_roundTrip)
      binTree hf [7]⟩

/-! ## Canonicity -/

/-- A loop whose entries each consumed their encoding consumed the
concatenation, one entry per count. -/
theorem importEach_eq_some {α : Type} {f : List UInt8 → Option (α × List UInt8)}
    {g : α → List UInt8} (hfg : ∀ bs a r, f bs = some (a, r) → bs = g a ++ r) :
    ∀ n bs as r, importEach f n bs = some (as, r) →
      as.length = n ∧ bs = (as.map g).flatten ++ r
  | 0, bs, as, r, h => by
    simp only [importEach, Option.some.injEq, Prod.mk.injEq] at h
    obtain ⟨rfl, rfl⟩ := h
    simp
  | n + 1, bs, as, r, h => by
    simp only [importEach, Option.bind_eq_bind, Option.bind_eq_some, Option.pure_def,
      Option.some.injEq] at h
    obtain ⟨⟨a, bs1⟩, h1, ⟨as', bs2⟩, h2, he⟩ := h
    obtain ⟨rfl, rfl⟩ := Prod.mk.inj he
    obtain ⟨hlen, hbs⟩ := importEach_eq_some hfg n bs1 as' bs2 h2
    refine ⟨by simp [hlen], ?_⟩
    rw [hfg bs a bs1 h1, hbs]
    simp

/-- What one successful level of the decoder read, in order. -/
theorem dirImportFuel_succ_eq_some {fuel : Nat} {bs r : List UInt8} {t : Dir}
    (h : dirImportFuel c fc (fuel + 1) bs = some (t, r)) :
    ∃ ns sc fcnt name subdirs files b1 b2 b3 b4 b5,
      decodeUint64 c bs = some (ns, b1) ∧ decodeUint64 c b1 = some (sc, b2) ∧
      decodeUint64 c b2 = some (fcnt, b3) ∧ pure64StreamRead ns.toNat b3 = some (name, b4) ∧
      importEach (dirImportFuel c fc fuel) sc.toNat b4 = some (subdirs, b5) ∧
      importEach fc.pure64FileImport fcnt.toNat b5 = some (files, r) ∧ t = .mk name subdirs files := by
  simp only [dirImportFuel, Option.bind_eq_bind, Option.bind_eq_some, Option.pure_def,
    Option.some.injEq] at h
  obtain ⟨⟨ns, b1⟩, h1, ⟨sc, b2⟩, h2, ⟨fcnt, b3⟩, h3, ⟨name, b4⟩, h4, ⟨subdirs, b5⟩, h5,
    ⟨files, b6⟩, h6, he⟩ := h
  obtain ⟨rfl, rfl⟩ := Prod.mk.inj he
  exact ⟨ns, sc, fcnt, name, subdirs, files, b1, b2, b3, b4, b5, h1, h2, h3, h4, h5, h6, rfl⟩

/-- A successful decode consumed exactly the export of its result. -/
theorem dirImportFuel_eq_some (hc : c.Canonical) (hf : fc.Canonical) :
    ∀ fuel bs t r, dirImportFuel c fc fuel bs = some (t, r) → bs = pure64DirExport c fc t ++ r
  | 0, _, _, _, h => by cases h
  | fuel + 1, bs, t, r, h => by
    obtain ⟨ns, sc, fcnt, name, subdirs, files, b1, b2, b3, b4, b5, h1, h2, h3, h4, h5, h6, rfl⟩ :=
      dirImportFuel_succ_eq_some h
    obtain ⟨hn, rfl⟩ := pure64StreamRead_eq_some h4
    obtain ⟨hs, rfl⟩ := importEach_eq_some (dirImportFuel_eq_some hc hf fuel) _ _ _ _ h5
    obtain ⟨hfl, rfl⟩ := importEach_eq_some hf _ _ _ _ h6
    rw [decodeUint64_split hc h1, decodeUint64_split hc h2, decodeUint64_split hc h3]
    simp only [pure64DirExport, exportSubdirs_eq, hn, hs, hfl, toUInt64_toNat, List.append_assoc]

/-- **Canonicity.** Whatever the decoder accepts, stopping exactly at the
end of `b`, exports back to `b`: no two byte strings decode to one tree. -/
theorem pure64DirImport_canonical (hc : c.Canonical) (hf : fc.Canonical) (b r : List UInt8)
    (t : Dir) (h : pure64DirImport c fc (b ++ r) = some (t, r)) : pure64DirExport c fc t = b :=
  (List.append_cancel_right (dirImportFuel_eq_some hc hf _ _ t r h)).symm

/-- An image written field by field: a root holding a subdirectory whose
two-byte name is `a` then a NUL, and a file `b` holding `1 2`. -/
def nulNameImage : List UInt8 :=
  encodeUint64 leCodec 0 ++ encodeUint64 leCodec 1 ++ encodeUint64 leCodec 1 ++
    (encodeUint64 leCodec 2 ++ encodeUint64 leCodec 0 ++ encodeUint64 leCodec 0 ++ [0x61, 0]) ++
    (encodeUint64 leCodec 1 ++ encodeUint64 leCodec 2 ++ [0x62] ++ [1, 2])

/-- The image decodes, with a byte left over, to the tree whose export it is. -/
theorem nulNameImage_canonical : leCodec.Canonical ∧ (specFileCodec leCodec).Canonical ∧
    pure64DirImport leCodec (specFileCodec leCodec) (nulNameImage ++ [9]) =
      some (.mk [] [.mk [0x61, 0] [] []] [⟨[0x62], [1, 2]⟩], [9]) ∧
    pure64DirExport leCodec (specFileCodec leCodec) (.mk [] [.mk [0x61, 0] [] []] [⟨[0x62], [1, 2]⟩]) =
      nulNameImage :=
  have h : pure64DirImport leCodec (specFileCodec leCodec) (nulNameImage ++ [9]) =
      some (.mk [] [.mk [0x61, 0] [] []] [⟨[0x62], [1, 2]⟩], [9]) := rfl
  ⟨leCodec_canonical, specFileCodec_canonical leCodec_canonical, h,
    pure64DirImport_canonical leCodec_canonical (specFileCodec_canonical leCodec_canonical)
      _ _ _ h⟩

end Codec

end Pure64

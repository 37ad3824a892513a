import Pure64.Encoder

/-!
# A run of the store, saved, loaded back and released

`main` in `src/util/pure64.c` imports the file system from the image, runs
one command on it, exports it back and frees it. `StoreRuns.lean` describes
the structs a run of insertions builds (`reachable_layoutRoot`); this module
follows such a struct through the rest of the session.

Main results:

> `reachable_export_import`: every struct the insertions build is exported,
> and importing the bytes gives back a struct holding the same tree: what
> one command of the tool saves, the next one loads.

> `reachable_releasable`: every struct the insertions build is one
> `pure64_dir_free` can release: no pointer it follows is `NULL` or already
> released, and no slot it reads is uninitialised.

Both hold for runs with any allocator in which every allocation succeeds.
-/

namespace Pure64

namespace Heap

/-! ## What one command saves, the next one loads -/

section Layout

variable {c : UInt64Codec} {sizeofFile : UInt64}

@[simp] theorem readBuffer_zero (p : Ptr (List UInt8)) : readBuffer p 0 = some [] := rfl

theorem readBuffer_nameBuffer (k : List UInt8) : readBuffer (nameBuffer k) k.length = some k :=
  readBuffer_live_append _ k [0]

theorem exportFiles_arrayOf {α : Type} (e : Nat) (f : α → File) (xs : List α) :
    exportFiles c (arrayOf e (xs.map f)) xs.length =
      exportFileSlots c ((xs.map f).map .init) xs.length := by
  cases xs <;> rfl

theorem exportSubdirs_arrayOf {α : Type} (e : Nat) (f : α → Dir) (xs : List α) :
    exportSubdirs c (arrayOf e (xs.map f)) xs.length =
      exportSubdirSlots c ((xs.map f).map .init) xs.length := by
  cases xs <;> rfl

/-- A file as `pure64_dir_add_file` creates it is exported: its name buffer
holds the `name_size` bytes, and no data byte is read. -/
theorem pure64FileExport_layoutFile {f : Pure64.File} (h : NameOk f.name ∧ f.data = []) :
    ∃ b, pure64FileExport c (layoutFile f) = some b :=
  ⟨_, by simp only [pure64FileExport, layoutFile, layout_nameSize h.1, readBuffer_nameBuffer,
    UInt64.toNat_zero, readBuffer_zero]; rfl⟩

mutual
/-- Every struct of a tree of the store is exported, whatever name fields it
is given, as long as its own name buffer holds `name_size` bytes. -/
theorem exportable_layoutWith (hsf : 0 < sizeofFile.toNat) : ∀ (t : Pure64.Dir)
    (nb : Ptr (List UInt8)) (ns : UInt64), StoreWf sizeofFile t →
      (∃ b, readBuffer nb ns.toNat = some b) →
      ∃ b, pure64DirExport c (layoutWith sizeofFile nb ns t) = some b
  | .mk n ds fs, nb, ns, ⟨_, hfs, hds, hfl, hall⟩, ⟨nbytes, hnb⟩ => by
    obtain ⟨sb, hsb⟩ := exportable_layoutSubdirs hsf ds hall
    obtain ⟨fb, hfb⟩ := exportFileSlots_map_init (c := c) (fs.map layoutFile)
      (List.forall_mem_map.mpr fun f hf => pure64FileExport_layoutFile (hfs f hf))
    rw [List.length_map] at hfb
    exact ⟨_, by
      simp only [layoutWith_mk, pure64DirExport, hnb, count_toNat (by decide) hds,
        count_toNat hsf hfl, exportSubdirs_arrayOf, exportFiles_arrayOf, hsb, hfb]
      rfl⟩
theorem exportable_layoutSubdirs (hsf : 0 < sizeofFile.toNat) : ∀ ds : List Pure64.Dir,
    StoreWfAll sizeofFile ds →
      ∃ b, exportSubdirSlots c ((ds.map (layoutDir sizeofFile)).map .init) ds.length = some b
  | [], _ => ⟨[], rfl⟩
  | d :: ds, ⟨⟨hn, hd⟩, hds⟩ => by
    obtain ⟨b, hb⟩ : ∃ b, pure64DirExport c (layoutDir sizeofFile d) = some b :=
      exportable_layoutWith hsf d _ _ hd ⟨_, (layout_nameSize hn).symm ▸ readBuffer_nameBuffer d.name⟩
    obtain ⟨bs, hbs⟩ := exportable_layoutSubdirs hsf ds hds
    exact ⟨b ++ bs, by simp only [List.map_cons, List.length_cons, exportSubdirSlots, hb, hbs]; rfl⟩
end

mutual
/-- The trees of the store have counts that fit their fields, and that the
decoder can allocate for. -/
theorem fits_of_storeWf (hsf : 0 < sizeofFile.toNat) : ∀ t : Pure64.Dir, StoreWf sizeofFile t →
    t.name.length + 1 < 2 ^ 64 → t.Fits ∧ ImportFits sizeofFile t
  | .mk n ds fs, ⟨_, hfs, hds, hfl, hall⟩, hn => by
    obtain ⟨hsub, hisub⟩ := fitsAll_of_storeWfAll hsf ds hall
    have hfile : ∀ f ∈ fs, f.Fits := fun f hf => by
      obtain ⟨⟨-, hl⟩, hd⟩ := hfs f hf
      exact ⟨by omega, by simp [hd]⟩
    exact ⟨⟨by simp only [Pure64.Dir.name_mk] at hn; omega, length_lt_of_mul_lt (by decide) hds,
      length_lt_of_mul_lt hsf hfl, hsub, hfile⟩, ⟨hn, hds, hfl, fun f hf => (hfs f hf).1.2, hisub⟩⟩
theorem fitsAll_of_storeWfAll (hsf : 0 < sizeofFile.toNat) : ∀ ds : List Pure64.Dir,
    StoreWfAll sizeofFile ds → Pure64.Dir.FitsAll ds ∧ ImportFitsAll sizeofFile ds
  | [], _ => ⟨trivial, trivial⟩
  | d :: ds, ⟨⟨hn, hd⟩, hds⟩ =>
    have h := fits_of_storeWf hsf d hd hn.2
    have hs := fitsAll_of_storeWfAll hsf ds hds
    ⟨⟨h.1, hs.1⟩, ⟨h.2, hs.2⟩⟩
end

/-- **Save, then load.** Every struct a run of insertions builds, whatever
the allocator, is exported, and importing the bytes with every allocation
succeeding consumes them all and builds a struct holding the same tree:
what one command of the tool writes to the image, the next one reads back. -/
theorem reachable_export_import (hc : c.RoundTrip) (hsf : 0 < sizeofFile.toNat)
    {alloc : Nat → Bool} {d : Dir} (hd : Reachable alloc sizeofFile d) :
    ∃ bs d', pure64DirExport c d = some bs ∧
      pure64DirImport (fun _ => true) c sizeofFile bs = .ok d' [] ∧ d'.view = d.view := by
  obtain ⟨v, hv, -, hvn, rfl⟩ := reachable_layoutRoot hsf hd
  obtain ⟨bs, hbs⟩ := exportable_layoutWith (c := c) hsf v .null 0 hv ⟨[], rfl⟩
  have hview : (layoutRoot sizeofFile v).view = v := view_layoutRoot hsf hv hvn
  obtain rfl : bs = Pure64.pure64DirExport c (specFileCodec c) v := by
    rw [pure64DirExport_view _ _ hbs]
    exact congrArg _ hview
  obtain ⟨hfit, hifit⟩ := fits_of_storeWf hsf v hv (by rw [hvn]; decide)
  have hval := Pure64.dirImportFuel_export hc (specFileCodec_roundTrip hc) v hfit _
    (Nat.lt_succ_of_le (@Pure64.depth_le_export c (specFileCodec c) hc v)) []
  rw [List.append_nil] at hval
  have himp := dirImportFuel_complete _ _ _ _ hval hifit
  refine ⟨_, _, hbs, himp, ?_⟩
  have hrefines := (dirImportFuel_refines _ _ _ _ himp).2
  rw [hval, Option.some.injEq, Prod.mk.injEq] at hrefines
  exact hrefines.1.symm.trans hview.symm

/-- Two subdirectories, added by two calls with glibc's allocator: saved
and loaded back. -/
theorem reachable_export_import_onesRoot :
    ∃ bs d', pure64DirExport leCodec (layoutRoot 32 (onesRoot 2)) = some bs ∧
      pure64DirImport (fun _ => true) leCodec 32 bs = .ok d' [] ∧
      d'.view = (layoutRoot 32 (onesRoot 2)).view :=
  reachable_export_import leCodec_roundTrip (by decide) (reachable_onesRoot (by decide) 2 (by decide))

end Layout

/-! ## What the session frees, `pure64_dir_free` can release -/

section Release

variable {sizeofFile : UInt64}

theorem subdirsReady_arrayOf (e : Nat) (xs : List Dir) :
    subdirsReady (arrayOf e xs) xs.length = xs.all Dir.releasable := by
  cases xs
  · rfl
  · exact subdirSlotsReady_map_init _

theorem filesReady_arrayOf (e : Nat) (xs : List File) :
    filesReady (arrayOf e xs) xs.length = xs.all File.releasable := by
  cases xs
  · rfl
  · exact fileSlotsReady_map_init _

mutual
/-- Every struct of a tree of the store can be released, whatever owned
name buffer it is given: both arrays are `NULL` or live with every slot
initialised, and every file owns its name and has no data. -/
theorem releasable_layoutWith (hsf : 0 < sizeofFile.toNat) : ∀ (t : Pure64.Dir)
    (nb : Ptr (List UInt8)) (ns : UInt64), StoreWf sizeofFile t → nb.owned = true →
      (layoutWith sizeofFile nb ns t).releasable = true
  | .mk n ds fs, nb, ns, ⟨_, _, hds, hfl, hall⟩, hnb => by
    have hs := subdirsReady_arrayOf sizeofDir.toNat (ds.map (layoutDir sizeofFile))
    have hf := filesReady_arrayOf sizeofFile.toNat (fs.map layoutFile)
    rw [List.length_map] at hs hf
    have hfiles : (fs.map layoutFile).all File.releasable = true :=
      List.all_eq_true.mpr fun _ hf => by
        obtain ⟨f, -, rfl⟩ := List.mem_map.mp hf
        rfl
    simp only [layoutWith_mk, Dir.releasable, count_toNat (by decide) hds, count_toNat hsf hfl, hs, hf,
      hnb, hfiles, releasable_layoutSubdirs hsf ds hall, Bool.and_self]
theorem releasable_layoutSubdirs (hsf : 0 < sizeofFile.toNat) : ∀ ds : List Pure64.Dir,
    StoreWfAll sizeofFile ds → (ds.map (layoutDir sizeofFile)).all Dir.releasable = true
  | [], _ => rfl
  | d :: ds, ⟨⟨_, hd⟩, hds⟩ => by
    have h : (layoutDir sizeofFile d).releasable = true := releasable_layoutWith hsf d _ _ hd rfl
    simp only [List.map_cons, List.all_cons, h, releasable_layoutSubdirs hsf ds hds, Bool.and_self]
end

/-- **Every run's struct can be released.** Whatever insertions a run
made, whatever the allocator, the struct it leaves is one
`pure64_dir_free` walks without following a `NULL` or released pointer or
reading an uninitialised slot, so the free at the end of `main` is
defined. -/
theorem reachable_releasable (hsf : 0 < sizeofFile.toNat) {alloc : Nat → Bool} {d : Dir}
    (hd : Reachable alloc sizeofFile d) :
    d.releasable = true ∧ ∃ d', pure64DirFree d = some d' := by
  obtain ⟨v, hv, -, -, rfl⟩ := reachable_layoutRoot hsf hd
  have h := releasable_layoutWith hsf v .null 0 hv rfl
  exact ⟨h, pure64DirFree_isSome _ h⟩

/-- Two subdirectories, added by two calls with glibc's allocator, are
released. -/
theorem reachable_releasable_onesRoot :
    (layoutRoot 32 (onesRoot 2)).releasable = true ∧
      ∃ d', pure64DirFree (layoutRoot 32 (onesRoot 2)) = some d' :=
  reachable_releasable (by decide) (reachable_onesRoot (by decide) 2 (by decide))

end Release

end Heap

end Pure64

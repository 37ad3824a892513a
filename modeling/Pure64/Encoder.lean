import Pure64.Decoder

/-!
# `pure64_dir_export` on the structs

`Tree.lean` models `pure64_dir_export` on the value a directory holds. The
function in `src/lib/dir.c` reads the struct: it writes the three counts as
they stand in the fields, then `name_size` bytes from `name`, then walks
`subdir_count` slots of `subdirs` and `file_count` slots of `files`. Here it
is modelled on the structs of `Heap.lean`, as a partial function: `none` is
a read of memory the struct does not own (a buffer shorter than its size
field, an array that is `NULL` or released, a slot never initialised).

Main results:

> `pure64DirExport_view`: whenever `pure64_dir_export` is defined on a
> struct, it writes the value encoding of the tree the struct holds. The
> heap encoder refines the value encoder of `Tree.lean`.

> `pure64DirExport_of_import`: every struct a successful
> `pure64_dir_import` builds is exported back to exactly the bytes the
> import read.
-/

namespace Pure64

namespace Heap

/-! ## The encoder -/

/-- `pure64_stream_write(out, p, n)`, as far as it reads the buffer: the
first `n` bytes. Nothing is read when `n` is zero; otherwise the buffer
must be live and hold them. -/
def readBuffer (p : Ptr (List UInt8)) (n : Nat) : Option (List UInt8) :=
  if n = 0 then some []
  else
    match p with
    | .live _ bs => if n ≤ bs.length then some (bs.take n) else none
    | _ => none

section Export

variable (c : UInt64Codec)

/-- Modelled from the spec: `pure64_file_export` (`file.c` is not in the
sources), the struct counterpart of `pure64FileExportSpec`: both sizes,
then the name and data bytes they count. -/
def pure64FileExport (f : File) : Option (List UInt8) := do
  let name ← readBuffer f.name f.nameSize.toNat
  let data ← readBuffer f.data f.dataSize.toNat
  pure (encodeUint64 c f.nameSize ++ encodeUint64 c f.dataSize ++ name ++ data)

/-- The file loop of `pure64_dir_export` over the first `n` slots. -/
def exportFileSlots : List (Slot File) → Nat → Option (List UInt8)
  | _, 0 => some []
  | .init f :: slots, n + 1 => do
    let b ← pure64FileExport c f
    let bs ← exportFileSlots slots n
    pure (b ++ bs)
  | _, _ + 1 => none

/-- The file loop through the `files` pointer: no slot is read when there
are none, and otherwise the pointer must be live. -/
def exportFiles : Ptr (List (Slot File)) → Nat → Option (List UInt8)
  | _, 0 => some []
  | .live _ slots, n + 1 => exportFileSlots c slots (n + 1)
  | _, _ + 1 => none

mutual
/-- `pure64_dir_export`: the three counts, `name_size` bytes of the name,
every subdirectory, every file. -/
def pure64DirExport : Dir → Option (List UInt8)
  | .mk nameSize subdirCount fileCount name subdirs files => do
    let nameBytes ← readBuffer name nameSize.toNat
    let subdirBytes ← exportSubdirs subdirs subdirCount.toNat
    let fileBytes ← exportFiles c files fileCount.toNat
    pure (encodeUint64 c nameSize ++ encodeUint64 c subdirCount ++ encodeUint64 c fileCount ++
      nameBytes ++ subdirBytes ++ fileBytes)
/-- The subdirectory loop through the `subdirs` pointer. -/
def exportSubdirs : Ptr (List (Slot Dir)) → Nat → Option (List UInt8)
  | _, 0 => some []
  | .live _ slots, n + 1 => exportSubdirSlots slots (n + 1)
  | _, _ + 1 => none
/-- The subdirectory loop over the first `n` slots. -/
def exportSubdirSlots : List (Slot Dir) → Nat → Option (List UInt8)
  | _, 0 => some []
  | .init d :: slots, n + 1 => do
    let b ← pure64DirExport d
    let bs ← exportSubdirSlots slots n
    pure (b ++ bs)
  | _, _ + 1 => none
end

end Export

/-! ## The encoder refines the value encoder -/

section View

variable {c : UInt64Codec}

theorem readBuffer_eq_some {p : Ptr (List UInt8)} {n : Nat} {bs : List UInt8}
    (h : readBuffer p n = some bs) : bs = bufferBytes p n ∧ bs.length = n := by
  unfold readBuffer at h
  split at h
  · cases h
    subst n
    cases p <;> simp [bufferBytes]
  · split at h
    · split at h
      · cases h
        simp [bufferBytes, *]
      · cases h
    · cases h

theorem pure64FileExport_view {f : File} {bs : List UInt8} (h : pure64FileExport c f = some bs) :
    bs = pure64FileExportSpec c f.view := by
  simp only [pure64FileExport, Option.bind_eq_bind, Option.bind_eq_some, Option.pure_def,
    Option.some.injEq] at h
  obtain ⟨name, hn, data, hd, rfl⟩ := h
  obtain ⟨rfl, hnl⟩ := readBuffer_eq_some hn
  obtain ⟨rfl, hdl⟩ := readBuffer_eq_some hd
  simp only [pure64FileExportSpec, File.view, hnl, hdl, toUInt64_toNat]

@[simp] theorem fileSlotsView_zero (slots : List (Slot File)) : fileSlotsView slots 0 = [] := by
  rcases slots with _ | ⟨_ | _, _⟩ <;> rfl

@[simp] theorem subdirSlotsView_zero (slots : List (Slot Dir)) : subdirSlotsView slots 0 = [] := by
  rcases slots with _ | ⟨_ | _, _⟩ <;> rfl

theorem exportFileSlots_view : ∀ (slots : List (Slot File)) n bs,
    exportFileSlots c slots n = some bs →
      (fileSlotsView slots n).length = n ∧
        bs = ((fileSlotsView slots n).map (pure64FileExportSpec c)).flatten
  | [], 0, _, h | .uninit :: _, 0, _, h | .init _ :: _, 0, _, h => by
    cases h
    simp
  | .init f :: slots, n + 1, bs, h => by
    simp only [exportFileSlots, Option.bind_eq_bind, Option.bind_eq_some, Option.pure_def,
      Option.some.injEq] at h
    obtain ⟨b, hb, bs', hbs, rfl⟩ := h
    obtain ⟨hl, rfl⟩ := exportFileSlots_view slots n bs' hbs
    simp [fileSlotsView, hl, pure64FileExport_view hb]
  | [], _ + 1, _, h | .uninit :: _, _ + 1, _, h => by cases h

theorem exportFiles_view : ∀ (p : Ptr (List (Slot File))) n bs,
    exportFiles c p n = some bs →
      (filesView p n).length = n ∧ bs = ((filesView p n).map (pure64FileExportSpec c)).flatten
  | .null, 0, _, h | .freed, 0, _, h => by
    cases h
    simp [filesView]
  | .live _ slots, 0, _, h => by
    cases h
    simp [filesView]
  | .live _ slots, n + 1, bs, h => exportFileSlots_view slots (n + 1) bs h
  | .null, _ + 1, _, h | .freed, _ + 1, _, h => by cases h

mutual
/-- **The encoder refines the value encoder.** Wherever `pure64_dir_export`
is defined on a struct, the bytes it writes are the value encoding of the
tree the struct holds. -/
theorem pure64DirExport_view : ∀ (d : Dir) bs, pure64DirExport c d = some bs →
    bs = Pure64.pure64DirExport c (specFileCodec c) d.view
  | .mk nameSize subdirCount fileCount name subdirs files, bs, h => by
    simp only [pure64DirExport, Option.bind_eq_bind, Option.bind_eq_some, Option.pure_def,
      Option.some.injEq] at h
    obtain ⟨nb, hn, sb, hs, fb, hf, rfl⟩ := h
    obtain ⟨rfl, hnl⟩ := readBuffer_eq_some hn
    obtain ⟨hsl, rfl⟩ := exportSubdirs_view subdirs _ sb hs
    obtain ⟨hfl, rfl⟩ := exportFiles_view files _ fb hf
    simp only [Dir.view, Pure64.pure64DirExport, hnl, hsl, hfl, toUInt64_toNat, specFileCodec]
theorem exportSubdirs_view : ∀ (p : Ptr (List (Slot Dir))) n bs,
    exportSubdirs c p n = some bs →
      (subdirsView p n).length = n ∧ bs = Pure64.exportSubdirs c (specFileCodec c) (subdirsView p n)
  | .null, 0, _, h | .freed, 0, _, h => by
    cases h
    simp [subdirsView, Pure64.exportSubdirs]
  | .live _ slots, 0, _, h => by
    cases h
    simp [subdirsView, Pure64.exportSubdirs]
  | .live _ slots, n + 1, bs, h => exportSubdirSlots_view slots (n + 1) bs h
  | .null, _ + 1, _, h | .freed, _ + 1, _, h => by cases h
theorem exportSubdirSlots_view : ∀ (slots : List (Slot Dir)) n bs,
    exportSubdirSlots c slots n = some bs →
      (subdirSlotsView slots n).length = n ∧
        bs = Pure64.exportSubdirs c (specFileCodec c) (subdirSlotsView slots n)
  | [], 0, _, h | .uninit :: _, 0, _, h | .init _ :: _, 0, _, h => by
    cases h
    simp [Pure64.exportSubdirs]
  | .init d :: slots, n + 1, bs, h => by
    simp only [exportSubdirSlots, Option.bind_eq_bind, Option.bind_eq_some, Option.pure_def,
      Option.some.injEq] at h
    obtain ⟨b, hb, bs', hbs, rfl⟩ := h
    obtain ⟨hl, rfl⟩ := exportSubdirSlots_view slots n bs' hbs
    simp [subdirSlotsView, hl, pure64DirExport_view d b hb, Pure64.exportSubdirs]
  | [], _ + 1, _, h | .uninit :: _, _ + 1, _, h => by cases h
end

end View

/-! ## What the import builds, the export writes back -/

section Import

variable {alloc : Nat → Bool} {c : UInt64Codec} {sizeofFile : UInt64}

/-- A buffer whose first `n` bytes are there is read in full. -/
theorem readBuffer_live_append (size : Nat) (bs r : List UInt8) :
    readBuffer (.live size (bs ++ r)) bs.length = some bs := by
  unfold readBuffer
  split
  · simp_all
  · simp

theorem exportFileSlots_map_init :
    ∀ fs : List File, (∀ f ∈ fs, ∃ b, pure64FileExport c f = some b) →
      ∃ b, exportFileSlots c (fs.map .init) fs.length = some b
  | [], _ => ⟨[], rfl⟩
  | f :: fs, h => by
    obtain ⟨b, hb⟩ := h f (List.mem_cons_self f fs)
    obtain ⟨bs, hbs⟩ := exportFileSlots_map_init fs fun g hg => h g (List.mem_cons_of_mem f hg)
    exact ⟨b ++ bs, by simp [exportFileSlots, hb, hbs]⟩

theorem exportSubdirSlots_map_init :
    ∀ ds : List Dir, (∀ d ∈ ds, ∃ b, pure64DirExport c d = some b) →
      ∃ b, exportSubdirSlots c (ds.map .init) ds.length = some b
  | [], _ => ⟨[], rfl⟩
  | d :: ds, h => by
    obtain ⟨b, hb⟩ := h d (List.mem_cons_self d ds)
    obtain ⟨bs, hbs⟩ := exportSubdirSlots_map_init ds fun e he => h e (List.mem_cons_of_mem d he)
    exact ⟨b ++ bs, by simp [exportSubdirSlots, hb, hbs]⟩

/-- The file loop through a live array reads what the slot loop reads. -/
theorem exportFiles_live (size : Nat) (fs : List File) :
    exportFiles c (.live size (fs.map .init)) fs.length =
      exportFileSlots c (fs.map .init) fs.length := by
  cases fs <;> rfl

theorem exportSubdirs_live (size : Nat) (ds : List Dir) :
    exportSubdirs c (.live size (ds.map .init)) ds.length =
      exportSubdirSlots c (ds.map .init) ds.length := by
  cases ds <;> rfl

theorem pure64FileImport_exportable {f : File} {bs r : List UInt8}
    (h : pure64FileImport alloc c pure64FileInit bs = .ok f r) :
    ∃ b, pure64FileExport c f = some b := by
  obtain ⟨ns, ds, _, _, nameBytes, _, dataBytes, nsz, dsz, -, -, h3, h4, rfl⟩ :=
    pure64FileImport_eq_ok h
  obtain ⟨hn, -⟩ := pure64StreamRead_eq_some h3
  obtain ⟨hd, -⟩ := pure64StreamRead_eq_some h4
  have hdata := readBuffer_live_append dsz dataBytes []
  rw [List.append_nil] at hdata
  exact ⟨_, by simp only [pure64FileExport, ← hn, ← hd, readBuffer_live_append, hdata]; rfl⟩

/-- Every struct a successful import builds can be exported: its buffers
hold the bytes their sizes count, and its arrays are live with every slot
initialised. -/
theorem dirImportFuel_exportable :
    ∀ fuel bs d r, dirImportFuel alloc c sizeofFile fuel pure64DirInit bs = .ok d r →
      ∃ b, pure64DirExport c d = some b
  | 0, _, _, _, h => by cases h
  | fuel + 1, bs, d, r, h => by
    obtain ⟨_, _, _, _, _, _, nameBytes, _, ds, _, fs, nsz, ssz, fsz, -, -, -, h4, h5, h6, rfl⟩ :=
      dirImportFuel_eq_ok h
    obtain ⟨hn, -⟩ := pure64StreamRead_eq_some h4
    obtain ⟨hsl, hsP, -⟩ := importSlots_eq_ok (P := fun d => ∃ b, pure64DirExport c d = some b)
      (fun bs d r h => ⟨dirImportFuel_exportable fuel bs d r h,
        (dirImportFuel_refines fuel bs d r h).2⟩) _ _ _ _ h5
    obtain ⟨hfl, hfP, -⟩ := importSlots_eq_ok (P := fun f => ∃ b, pure64FileExport c f = some b)
      (fun bs f r h => ⟨pure64FileImport_exportable h, (pure64FileImport_refines h).2⟩) _ _ _ _ h6
    obtain ⟨sb, hsb⟩ := exportSubdirSlots_map_init ds hsP
    obtain ⟨fb, hfb⟩ := exportFileSlots_map_init fs hfP
    exact ⟨_, by
      simp only [pure64DirExport, ← hn, ← hsl, ← hfl, readBuffer_live_append, exportSubdirs_live,
        exportFiles_live, hsb, hfb]
      rfl⟩

/-- **Import, then export, gives back the input.** For a canonical word
codec, every struct a successful `pure64_dir_import` builds (whatever the
allocator did) is exported, and the export writes exactly the bytes that
the import consumed. -/
theorem pure64DirExport_of_import (hc : c.Canonical) {bs r : List UInt8} {d : Dir}
    (h : pure64DirImport alloc c sizeofFile bs = .ok d r) :
    ∃ pre, pure64DirExport c d = some pre ∧ bs = pre ++ r := by
  obtain ⟨pre, hpre⟩ := dirImportFuel_exportable _ _ _ _ h
  refine ⟨pre, hpre, ?_⟩
  rw [pure64DirExport_view _ _ hpre]
  exact Pure64.dirImportFuel_eq_some hc (specFileCodec_canonical hc) _ _ _ _
    (dirImportFuel_refines _ _ _ _ h).2

/-- The image of a root holding one file, with a byte after it. -/
theorem pure64DirExport_of_import_oneFile : ∃ d pre,
    pure64DirImport (fun _ => true) leCodec 32 oneFileImage = .ok d [9] ∧
      pure64DirExport leCodec d = some pre ∧ oneFileImage = pre ++ [9] :=
  have h : pure64DirImport (fun _ => true) leCodec 32 oneFileImage = .ok _ [9] := rfl
  let ⟨pre, hpre, hbs⟩ := pure64DirExport_of_import leCodec_canonical h
  ⟨_, pre, h, hpre, hbs⟩

end Import

end Heap

end Pure64

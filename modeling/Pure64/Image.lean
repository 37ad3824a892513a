import Pure64.Disk
import Pure64.Tree

/-!
# The boot image of `mkfs`: `ramfs_export` and `ramfs_import`

`ramfs_export` (`src/util/pure64.c`) checks that both boot stages fit the
BIOS read of `0x7f` sectors, writes the MBR at offset 0, stage 2 at
`0x2000`, stage 3 after it and the file system after that, each offset
rounded up to a sector (`ramfsOffsets`), pads the image (`padImage`) and
patches the two disk address packets of the MBR. `ramfs_import` decodes the
file system from the fixed `PURE64_DISK_LOCATION`.

The MBR record (`mbr.c`) and the file-system codec (`fs.c`) are not in the
sources: `MbrPatch` and `FsCodec` stand for them. `PURE64_FS_SECTOR` is not
defined in the sources either and is a parameter.

Main results:

> `ramfsExport_image`: every image `ramfs_export` writes holds stage 2 at its
> DAP sector, the file-system encoding at `fs_offset`, and of stage 3 the
> part below `fs_offset`.

> `ramfsExport_size`: every image is whole sectors: the 1 MiB minimum disk,
> or the end of the file system rounded up to a sector when it lies past it.

> `ramfsImport_ramfsExport`: `ramfs_import` gives back the exported file
> system when `PURE64_DISK_LOCATION` is the `fs_offset` of the build.

> `ramfs_fs_location_mismatch`: whatever `PURE64_FS_SECTOR` is, some build
> whose stages pass the size checks has another `fs_offset`, and
> `ramfs_import` does not read back the file system its image holds.
-/

namespace Pure64

/-- `((x + 511) / 512) * 512`: `x` rounded up to a sector. -/
def sectorRound (x : Nat) : Nat := (x + 511) / 512 * 512

/-- Modelled from the spec: a disk address packet of the MBR boot code
(`pure64/mbr.h` is not in the sources): the first sector of a stage and the
number of sectors the BIOS reads. -/
structure Dap where
  sector : Nat
  sectorCount : Nat
  deriving DecidableEq, Repr

/-- Modelled from the spec: `pure64_mbr_read` then `pure64_mbr_write`
(`mbr.c` is not in the sources): the boot sector read back from offset 0,
its two DAPs replaced, and written back as one sector at offset 0. -/
structure MbrPatch where
  patch : List UInt8 → Dap → Dap → List UInt8
  length_patch : ∀ sector st2dap st3dap, (patch sector st2dap st3dap).length = 512

/-- Modelled from the spec: `pure64_fs_export` and `pure64_fs_import`
(`fs.c` is not in the sources): the bytes the tree codec writes for a file
system, and the decoder reading them from the stream. -/
structure FsCodec (Fs : Type) where
  pure64FsExport : Fs → List UInt8
  pure64FsImport : List UInt8 → Option Fs

/-- `PURE64_MINIMUM_DISK_SIZE`. -/
def minimumDiskSize : Nat := 1 * 1024 * 1024

/-- `PURE64_DISK_LOCATION`, from `PURE64_FS_SECTOR`. -/
def pure64DiskLocation (fsSector : Nat) : Nat := fsSector * 512

/-- `st2_offset`, `st3_offset` and `fs_offset` of `ramfs_export`. The sizes
are those of arrays in memory, far below `2^64`, so the `uint64_t` sums do
not wrap. -/
def ramfsOffsets (pure64DataSize stageThreeDataSize : Nat) : Nat × Nat × Nat :=
  (sectorRound 0x2000, sectorRound (0x2000 + pure64DataSize),
    sectorRound (0x2000 + pure64DataSize + stageThreeDataSize))

/-- The padding step: a zero byte at the last byte of the minimum disk, or of
the sector the position is in. -/
def padImage (file : Disk) : Disk :=
  if file.pos < minimumDiskSize then (file.setPos (minimumDiskSize - 1)).write [0]
  else if file.pos % 512 ≠ 0 then (file.setPos (file.pos + (512 - file.pos % 512) - 1)).write [0]
  else file

/-- `ramfs_export(fs, filename)`: `none` is `EXIT_FAILURE`, `some file` the
image it leaves. `mbrData`, `pure64Data` and `stageThreeData` are the
build's three boot binaries. -/
def ramfsExport {Fs : Type} (mbr : MbrPatch) (fsc : FsCodec Fs)
    (mbrData pure64Data stageThreeData : List UInt8) (fs : Fs) : Option Disk := do
  if (pure64Data.length + 511) / 512 > 0x7f then none
  if (stageThreeData.length + 511) / 512 > 0x7f then none
  let file := Disk.empty.write mbrData
  let (st2Offset, st3Offset, fsOffset) := ramfsOffsets pure64Data.length stageThreeData.length
  let file ← file.seek st2Offset
  let file := file.write pure64Data
  let file ← file.seek st3Offset
  let file := file.write stageThreeData
  let file ← file.seek fsOffset
  let file := file.write (fsc.pure64FsExport fs)
  let file := padImage file
  let file ← file.seek 0
  let (sector, file) ← file.read 512
  let st2dap : Dap := ⟨st2Offset / 512, (pure64Data.length + 511) / 512⟩
  let st3dap : Dap := ⟨st3Offset / 512, (stageThreeData.length + 511) / 512⟩
  let file ← file.seek 0
  pure (file.write (mbr.patch sector st2dap st3dap))

/-- `ramfs_import(fs, filename)`: the file system decoded from the rest of
the image at `PURE64_DISK_LOCATION`. -/
def ramfsImport {Fs : Type} (fsc : FsCodec Fs) (fsSector : Nat) (file : Disk) : Option Fs := do
  let file ← file.seek (pure64DiskLocation fsSector)
  fsc.pure64FsImport (file.region file.pos (file.size - file.pos))

/-! ## Offsets -/

/-- The three offsets are sector multiples in order: stage 2 at `0x2000`, stage 3 right after
it, the file system after both stages' bytes. -/
theorem ramfsOffsets_spec (s2 s3 : Nat) :
    let o := ramfsOffsets s2 s3
    o.1 = 0x2000 ∧ o.1 % 512 = 0 ∧ o.2.1 % 512 = 0 ∧ o.2.2 % 512 = 0 ∧ o.1 + s2 ≤ o.2.1 ∧
      0x2000 + s2 + s3 ≤ o.2.2 ∧ o.2.1 ≤ o.2.2 ∧ o.2.2 < 0x2000 + s2 + s3 + 512 := by
  simp only [ramfsOffsets, sectorRound, true_and]
  omega

/-! ## Padding -/

theorem region_padImage {d : Disk} {off n : Nat} (h : off + n ≤ d.pos) :
    (padImage d).region off n = d.region off n := by
  unfold padImage minimumDiskSize
  split
  · exact Disk.region_write_setPos_of_disjoint (by omega)
  · split
    · exact Disk.region_write_setPos_of_disjoint (by omega)
    · rfl

theorem size_padImage {d : Disk} (h : minimumDiskSize ≤ d.pos → d.pos ≤ d.size) :
    minimumDiskSize ≤ (padImage d).size := by
  unfold padImage
  split
  · rw [Disk.size_write_of_length_pos _ (by simp)]
    simp
    omega
  · split
    · have := Disk.size_le_size_write d (d.pos + (512 - d.pos % 512) - 1) [0]
      omega
    · omega

theorem le_size_padImage (d : Disk) : d.size ≤ (padImage d).size := by
  unfold padImage
  split
  · exact Disk.size_le_size_write _ _ _
  · split
    · exact Disk.size_le_size_write _ _ _
    · exact le_refl _

/-- The padding writes a zero byte. -/
theorem byte_padImage_of_zero {d : Disk} {i : Nat} (h : d.byte i = 0) : (padImage d).byte i = 0 := by
  unfold padImage
  split_ifs
  · exact Disk.byte_write_of_zero (by simp) h
  · exact Disk.byte_write_of_zero (by simp) h
  · exact h

/-- The padding leaves the file at least as long as the minimum disk, and
past anything written below it. -/
theorem size_padImage_write (X : Disk) {off : Nat} (E : List UInt8) (hoff : off < minimumDiskSize) :
    off + E.length ≤ (padImage ((X.setPos off).write E)).size := by
  rcases Nat.eq_zero_or_pos E.length with hE | hE
  · have := @size_padImage ((X.setPos off).write E) fun hp => by simp at hp; omega
    omega
  · have := le_size_padImage ((X.setPos off).write E)
    rw [Disk.size_write_of_length_pos _ hE] at this
    simp at this
    omega

theorem size_write_setPos_le (d : Disk) (p : Nat) (bs : List UInt8) :
    ((d.setPos p).write bs).size ≤ max d.size (p + bs.length) := by
  rw [Disk.size_write]
  split <;> simp only [Disk.size_setPos, Disk.pos_setPos] <;> omega

/-- The padding's result after a last write below the minimum disk, on a
file no longer than the minimum disk: the minimum disk, or the end of the
write rounded up to a sector. -/
theorem size_padImage_write_eq {X : Disk} {off : Nat} (E : List UInt8) (hX : X.size ≤ minimumDiskSize)
    (hoff : off < minimumDiskSize) :
    (padImage ((X.setPos off).write E)).size = max minimumDiskSize (sectorRound (off + E.length)) := by
  have hsize := size_write_setPos_le X off E
  have hpos : ((X.setPos off).write E).pos = off + E.length := by simp
  unfold padImage sectorRound
  unfold minimumDiskSize at hX hoff ⊢
  rw [hpos]
  split
  · rw [Disk.size_write_of_length_pos _ (by simp)]
    simp only [Disk.size_setPos, Disk.pos_setPos, List.length_singleton]
    omega
  · have hE : 0 < E.length := by omega
    rw [Disk.size_write_of_length_pos _ hE] at hsize
    split
    · rw [Disk.size_write_of_length_pos _ (by simp)]
      simp only [Disk.size_write_of_length_pos _ hE, Disk.size_setPos, Disk.pos_setPos,
        List.length_singleton]
      omega
    · simp only [Disk.size_write_of_length_pos _ hE, Disk.size_setPos, Disk.pos_setPos] at hsize ⊢
      omega

/-! ## The image -/

section Export

variable {Fs : Type} {mbr : MbrPatch} {fsc : FsCodec Fs} {mbrData pure64Data stageThreeData : List UInt8}
  {fs : Fs} {d : Disk}

theorem ramfsExport_guards (h : ramfsExport mbr fsc mbrData pure64Data stageThreeData fs = some d) :
    (pure64Data.length + 511) / 512 ≤ 0x7f ∧ (stageThreeData.length + 511) / 512 ≤ 0x7f := by
  unfold ramfsExport at h
  by_cases h2 : (pure64Data.length + 511) / 512 > 0x7f
  · simp [h2] at h
  by_cases h3 : (stageThreeData.length + 511) / 512 > 0x7f
  · simp [h2, h3] at h
  omega

/-- `ramfs_export` past its size checks: the four writes, the padding, and
the MBR patched with the two DAPs. -/
theorem ramfsExport_eq (h2 : (pure64Data.length + 511) / 512 ≤ 0x7f)
    (h3 : (stageThreeData.length + 511) / 512 ≤ 0x7f) :
    let o := ramfsOffsets pure64Data.length stageThreeData.length
    ∃ d4, d4 = (((((Disk.empty.write mbrData).setPos o.1).write pure64Data).setPos o.2.1).write
        stageThreeData |>.setPos o.2.2).write (fsc.pure64FsExport fs) ∧
      ramfsExport mbr fsc mbrData pure64Data stageThreeData fs =
        some (((padImage d4).setPos 0).write (mbr.patch ((padImage d4).region 0 512)
          ⟨o.1 / 512, (pure64Data.length + 511) / 512⟩
          ⟨o.2.1 / 512, (stageThreeData.length + 511) / 512⟩)) := by
  dsimp only
  refine ⟨_, rfl, ?_⟩
  simp only [ramfsExport, ramfsOffsets, gt_iff_lt, Nat.not_lt.mpr h2, Nat.not_lt.mpr h3, if_false,
    Option.pure_def, Option.bind_eq_bind, Option.some_bind, Disk.seek_natCast, Disk.seek_ofNat]
  have hof : sectorRound (8192 + pure64Data.length + stageThreeData.length) < minimumDiskSize := by
    unfold sectorRound minimumDiskSize
    omega
  have hlo : 512 ≤ sectorRound (8192 + pure64Data.length + stageThreeData.length) := by
    unfold sectorRound
    omega
  rw [Disk.read_setPos (le_trans (by omega) (size_padImage_write _ _ hof)), Option.some_bind,
    Disk.setPos_setPos]

/-- What every image `ramfs_export` writes holds: stage 2 where its DAP points,
of stage 3 the part below `fs_offset`, the file-system encoding at
`fs_offset`, and the MBR patched with both DAPs. -/
theorem ramfsExport_image (h : ramfsExport mbr fsc mbrData pure64Data stageThreeData fs = some d) :
    let o := ramfsOffsets pure64Data.length stageThreeData.length
    d.region o.1 pure64Data.length = pure64Data ∧
      d.region o.2.1 (min stageThreeData.length (o.2.2 - o.2.1)) =
        stageThreeData.take (o.2.2 - o.2.1) ∧
      d.region o.2.2 (fsc.pure64FsExport fs).length = fsc.pure64FsExport fs ∧
      o.2.2 + (fsc.pure64FsExport fs).length ≤ d.size ∧
      ∃ sector, d.region 0 512 = mbr.patch sector ⟨o.1 / 512, (pure64Data.length + 511) / 512⟩
        ⟨o.2.1 / 512, (stageThreeData.length + 511) / 512⟩ := by
  obtain ⟨h2, h3⟩ := ramfsExport_guards h
  obtain ⟨d4, hd4, he⟩ := @ramfsExport_eq Fs mbr fsc mbrData pure64Data stageThreeData fs h2 h3
  rw [he, Option.some_inj] at h
  subst h
  have hs := ramfsOffsets_spec pure64Data.length stageThreeData.length
  have hof : (ramfsOffsets pure64Data.length stageThreeData.length).2.2 < minimumDiskSize := by
    simp only [ramfsOffsets, sectorRound, minimumDiskSize]
    omega
  dsimp only at hs hd4 ⊢
  generalize ramfsOffsets pure64Data.length stageThreeData.length = o at hs hd4 hof ⊢
  obtain ⟨o2, o3, of⟩ := o
  dsimp only at hs hd4 hof ⊢
  obtain ⟨ho2, -, -, -, h23, h3f, h3f', -⟩ := hs
  have hpos : d4.pos = of + (fsc.pure64FsExport fs).length := by rw [hd4]; simp
  have hpatch : ∀ {off n : Nat}, 512 ≤ off → (((padImage d4).setPos 0).write
      (mbr.patch ((padImage d4).region 0 512) ⟨o2 / 512, (pure64Data.length + 511) / 512⟩
        ⟨o3 / 512, (stageThreeData.length + 511) / 512⟩)).region off n = (padImage d4).region off n :=
    fun h => Disk.region_write_setPos_of_disjoint (by rw [mbr.length_patch]; omega)
  refine ⟨?_, ?_, ?_, ?_, _, Disk.region_write_of_pos rfl (mbr.length_patch _ _ _)⟩
  · rw [hpatch (by omega), region_padImage (by omega), hd4, Disk.region_write_setPos_of_disjoint (by omega),
      Disk.region_write_setPos_of_disjoint (by omega), Disk.region_write_of_pos (Disk.pos_setPos _ _) rfl]
  · have h3r := Disk.region_sub (Disk.region_write_of_pos
      (Disk.pos_setPos (((Disk.empty.write mbrData).setPos o2).write pure64Data) o3) rfl)
      (by omega : 0 + min stageThreeData.length (of - o3) ≤ stageThreeData.length)
    rw [Nat.add_zero, List.drop_zero] at h3r
    rw [hpatch (by omega), region_padImage (by omega), hd4, Disk.region_write_setPos_of_disjoint (by omega),
      h3r, List.take_eq_take]
    omega
  · rw [hpatch (by omega), region_padImage (by omega), hd4, Disk.region_write_of_pos (Disk.pos_setPos _ _) rfl]
  · have := Disk.size_le_size_write (padImage d4) 0 (mbr.patch ((padImage d4).region 0 512)
      ⟨o2 / 512, (pure64Data.length + 511) / 512⟩ ⟨o3 / 512, (stageThreeData.length + 511) / 512⟩)
    rw [hd4] at this ⊢
    have := size_padImage_write ((((Disk.empty.write mbrData).setPos o2).write pure64Data).setPos o3
      |>.write stageThreeData) (fsc.pure64FsExport fs) hof
    omega

/-- An image of boot binaries and an MBR sector of zeros is zero outside
the file-system encoding. -/
theorem byte_ramfsExport_of_zeros (h : ramfsExport mbr fsc mbrData pure64Data stageThreeData fs = some d)
    (hmbr : ∀ sector a b, ∀ x ∈ mbr.patch sector a b, x = 0)
    (hbin : ∀ x ∈ mbrData ++ pure64Data ++ stageThreeData, x = 0) (i : Nat)
    (hi : i < (ramfsOffsets pure64Data.length stageThreeData.length).2.2 ∨
      (ramfsOffsets pure64Data.length stageThreeData.length).2.2 + (fsc.pure64FsExport fs).length ≤ i) :
    d.byte i = 0 := by
  obtain ⟨h2, h3⟩ := ramfsExport_guards h
  obtain ⟨d4, rfl, he⟩ := @ramfsExport_eq Fs mbr fsc mbrData pure64Data stageThreeData fs h2 h3
  rw [he, Option.some_inj] at h
  subst h
  simp only [List.mem_append] at hbin
  refine Disk.byte_write_of_zero (hmbr _ _ _) (byte_padImage_of_zero ?_)
  rw [Disk.byte_write_setPos_of_not_mem hi]
  exact Disk.byte_write_setPos_of_zero (fun x hx => hbin x (.inr hx)) <|
    Disk.byte_write_setPos_of_zero (fun x hx => hbin x (.inl (.inr hx))) <|
    Disk.byte_write_of_zero (fun x hx => hbin x (.inl (.inl hx))) rfl

/-- **The image is whole sectors.** With an MBR binary no longer than the
minimum disk, every image `ramfs_export` writes is exactly the minimum disk
of 1 MiB, or longer when the file system ends past it: then it ends at the
end of the file system rounded up to a sector. -/
theorem ramfsExport_size (h : ramfsExport mbr fsc mbrData pure64Data stageThreeData fs = some d)
    (hmbr : mbrData.length ≤ minimumDiskSize) :
    d.size = max minimumDiskSize (sectorRound
      ((ramfsOffsets pure64Data.length stageThreeData.length).2.2 + (fsc.pure64FsExport fs).length)) := by
  obtain ⟨h2, h3⟩ := ramfsExport_guards h
  obtain ⟨d4, hd4, he⟩ := @ramfsExport_eq Fs mbr fsc mbrData pure64Data stageThreeData fs h2 h3
  rw [he, Option.some_inj] at h
  subst h hd4
  clear he
  have hs := ramfsOffsets_spec pure64Data.length stageThreeData.length
  dsimp only at hs ⊢
  generalize ramfsOffsets pure64Data.length stageThreeData.length = o at hs ⊢
  obtain ⟨o2, o3, of⟩ := o
  dsimp only at hs ⊢
  obtain ⟨rfl, -, -, -, h23, h3f, h3f', hfl⟩ := hs
  have hXs : ((((Disk.empty.write mbrData).setPos 0x2000).write pure64Data).setPos o3 |>.write
      stageThreeData).size ≤ max mbrData.length (o3 + stageThreeData.length) := by
    have := size_write_setPos_le (((Disk.empty.write mbrData).setPos 0x2000).write pure64Data) o3
      stageThreeData
    have := size_write_setPos_le (Disk.empty.write mbrData) 0x2000 pure64Data
    have : (Disk.empty.write mbrData).size ≤ mbrData.length := by
      rw [Disk.size_write]
      split <;> simp
    omega
  rw [Disk.size_write_of_length_pos _ (by rw [mbr.length_patch]; decide), Disk.size_setPos,
    Disk.pos_setPos, mbr.length_patch,
    size_padImage_write_eq _ (hXs.trans (by unfold minimumDiskSize at hmbr ⊢; omega))
      (by unfold minimumDiskSize; omega)]
  simp only [minimumDiskSize, sectorRound]
  omega

theorem ramfsExport_size_seven : ∃ d,
    ramfsExport ⟨fun _ _ _ => List.replicate 512 0, fun _ _ _ => List.length_replicate _ _⟩
        ⟨fun _ => [7], fun bs => if bs.head? = some 7 then some () else none⟩ [] [1] [1] () = some d ∧
      d.size = max minimumDiskSize (sectorRound ((ramfsOffsets 1 1).2.2 + 1)) := by
  obtain ⟨_, -, he⟩ := @ramfsExport_eq Unit
    ⟨fun _ _ _ => List.replicate 512 0, fun _ _ _ => List.length_replicate _ _⟩
    ⟨fun _ => [7], fun bs => if bs.head? = some 7 then some () else none⟩ [] [1] [1] () (by decide)
    (by decide)
  have hsz := ramfsExport_size he (Nat.zero_le _)
  exact ⟨_, he, hsz⟩

/-- `ramfs_import` reads back what `ramfs_export` wrote when
`PURE64_DISK_LOCATION` is the `fs_offset` of the build. -/
theorem ramfsImport_ramfsExport {fsSector : Nat}
    (h : ramfsExport mbr fsc mbrData pure64Data stageThreeData fs = some d)
    (hloc : pure64DiskLocation fsSector = (ramfsOffsets pure64Data.length stageThreeData.length).2.2)
    (hfs : ∀ r, fsc.pure64FsImport (fsc.pure64FsExport fs ++ r) = some fs) :
    ramfsImport fsc fsSector d = some fs := by
  obtain ⟨-, -, hE, hsize, -⟩ := ramfsExport_image h
  rw [ramfsImport, hloc, Disk.seek_natCast, Option.bind_eq_bind, Option.some_bind, Disk.pos_setPos,
    Disk.size_setPos, Disk.region_setPos, ← Nat.add_sub_of_le (Nat.le_sub_of_add_le' hsize),
    Disk.region_add, hE, hfs]

end Export

/-! ## The file system at a fixed sector -/

/-- Modelled from the spec: the file system `pure64_fs_export` writes is its
root directory, through the tree codec with the integers of `leCodec` and the
files of `specFileCodec`. -/
def rootFsCodec : FsCodec Dir where
  pure64FsExport := pure64DirExport leCodec (specFileCodec leCodec)
  pure64FsImport bs := (pure64DirImport leCodec (specFileCodec leCodec) bs).map Prod.fst

/-- `pure64 mkfs` with one-byte stages: stage 3's DAP points at sector 17
for one sector, and `fs_offset` is sector 17 as well, so the byte the BIOS
loads there is the first byte of the file-system encoding. -/
theorem ramfsExport_mkfs_stage3_overwritten (mbr : MbrPatch) (mbrData : List UInt8) :
    ∃ d, ramfsExport mbr rootFsCodec mbrData [1] [1] pure64DirInit = some d ∧
      (∃ sector, d.region 0 512 = mbr.patch sector ⟨16, 1⟩ ⟨17, 1⟩) ∧
      (ramfsOffsets 1 1).2.2 = 17 * 512 ∧ d.region (17 * 512) 1 = [0] := by
  obtain ⟨d4, -, he⟩ := @ramfsExport_eq Dir mbr rootFsCodec mbrData [1] [1] pure64DirInit
    (by decide) (by decide)
  refine ⟨_, he, ?_⟩
  obtain ⟨-, -, hE, -, hmbr⟩ := ramfsExport_image he
  exact ⟨hmbr, rfl, Disk.region_sub hE (by decide : 0 + 1 ≤ 24)⟩

/-- Twenty-four zero bytes are the encoding of the empty root: whatever
follows them, `ramfs_import` decodes the empty directory. -/
theorem rootFsCodec_import_zeros (r : List UInt8) :
    rootFsCodec.pure64FsImport (List.replicate 24 0 ++ r) = some (.mk [] [] []) := by
  have h := dirImportFuel_export leCodec_roundTrip (specFileCodec_roundTrip leCodec_roundTrip)
    (.mk [] [] []) (by simp [Dir.Fits, Dir.FitsAll]) ((List.replicate 24 0 ++ r).length + 1)
    (by simp [Dir.depth, Dir.depthAll]) r
  have hz : pure64DirExport leCodec (specFileCodec leCodec) (.mk [] [] []) = List.replicate 24 0 := by
    decide
  rw [hz] at h
  simp only [rootFsCodec, pure64DirImport, h, Option.map_some']

/-- A build whose `fs_offset` is not `PURE64_DISK_LOCATION`, with stages of
zeros and a zero MBR sector, writes an image of the file system holding the
one empty file `a` that `ramfs_import` does not read back: at its location
it finds zero bytes, so the empty root, or nothing at all. -/
theorem ramfsImport_ne_of_location {s fsSector : Nat} (hs : (s + 511) / 512 ≤ 0x7f)
    (hloc : pure64DiskLocation fsSector ≠ (ramfsOffsets s s).2.2) :
    ∃ d, ramfsExport ⟨fun _ _ _ => List.replicate 512 0, fun _ _ _ => List.length_replicate _ _⟩
        rootFsCodec [] (List.replicate s 0) (List.replicate s 0) (.mk [] [] [⟨[0x61], []⟩]) = some d ∧
      ramfsImport rootFsCodec fsSector d ≠ some (.mk [] [] [⟨[0x61], []⟩]) := by
  obtain ⟨d4, -, hD⟩ := @ramfsExport_eq Dir
    ⟨fun _ _ _ => List.replicate 512 0, fun _ _ _ => List.length_replicate _ _⟩ rootFsCodec []
    (List.replicate s 0) (List.replicate s 0) (.mk [] [] [⟨[0x61], []⟩]) (by simpa using hs)
    (by simpa using hs)
  generalize ((padImage _).setPos 0).write _ = D at hD
  refine ⟨D, hD, ?_⟩
  have hlen : (rootFsCodec.pure64FsExport (.mk [] [] [⟨[0x61], []⟩])).length = 41 := by decide
  have hsize := ramfsExport_size hD (by decide)
  have hbin : ∀ x ∈ ([] : List UInt8) ++ List.replicate s 0 ++ List.replicate s 0, x = 0 := by
    simp only [List.nil_append, ← List.replicate_add]
    exact fun x hx => List.eq_of_mem_replicate hx
  have hzero := byte_ramfsExport_of_zeros hD (fun _ _ _ x hx => List.eq_of_mem_replicate hx) hbin
  simp only [List.length_replicate, hlen, ramfsOffsets, sectorRound, minimumDiskSize] at hsize hzero
  simp only [pure64DiskLocation, ramfsOffsets, sectorRound] at hloc
  simp only [ramfsImport, pure64DiskLocation, Disk.seek_natCast, Option.bind_eq_bind, Option.some_bind,
    Disk.pos_setPos, Disk.size_setPos, Disk.region_setPos]
  by_cases hend : D.size ≤ fsSector * 512
  · have hnil : rootFsCodec.pure64FsImport [] = none := rfl
    rw [Nat.sub_eq_zero_of_le hend]
    simp [Disk.region, hnil]
  · have hsplit : D.size - fsSector * 512 = 24 + (D.size - fsSector * 512 - 24) := by omega
    rw [hsplit, Disk.region_add, Disk.region_eq_replicate fun j hj => hzero _ (by omega),
      rootFsCodec_import_zeros]
    simp

/-- **`ramfs_import` reads elsewhere.** Whatever `PURE64_FS_SECTOR` is, one
of two builds whose stages pass the size checks writes the file system
elsewhere than `ramfs_import` reads it; with stages of zeros and a zero MBR
sector, that build's image of the file system holding one empty file is
not read back. -/
theorem ramfs_fs_location_mismatch (fsSector : Nat) :
    ∃ s ∈ [512, 1024], (s + 511) / 512 ≤ 0x7f ∧
      pure64DiskLocation fsSector ≠ (ramfsOffsets s s).2.2 ∧
      ∃ d, ramfsExport ⟨fun _ _ _ => List.replicate 512 0, fun _ _ _ => List.length_replicate _ _⟩
          rootFsCodec [] (List.replicate s 0) (List.replicate s 0) (.mk [] [] [⟨[0x61], []⟩]) = some d ∧
        ramfsImport rootFsCodec fsSector d ≠ some (.mk [] [] [⟨[0x61], []⟩]) := by
  obtain ⟨s, hs, hg, hloc⟩ : ∃ s ∈ [512, 1024], (s + 511) / 512 ≤ 0x7f ∧
      pure64DiskLocation fsSector ≠ (ramfsOffsets s s).2.2 := by
    simp only [List.mem_cons, List.mem_singleton, exists_eq_or_imp, exists_eq_left,
      List.not_mem_nil, or_false, pure64DiskLocation, ramfsOffsets, sectorRound]
    omega
  exact ⟨s, hs, hg, hloc, ramfsImport_ne_of_location hg hloc⟩

end Pure64

import Pure64.Gpt

/-!
# `pure64_init`: the empty GPT disk

`pure64_init` (`src/util/pure64.c`) checks the requested size against the
smallest GPT disk, rounds it up to a sector, and writes: the MBR, the
primary header at LBA 1, 128 zeroed partition entries, the zeroed backup
entries just below the last sector and the backup header in the last
sector; then it runs `calculate_checksums`. `LaidOut` is the image at that
point.

`pure64Init` starts from the parsed disk size and UUID; the option loop
that parses them is in `Cli.lean`.

Main results:

> `primaryHeader_geometry`: on every size past the guard, the header fields
> tile the padded disk: MBR, primary header, primary entries, usable
> sectors, backup entries, backup header.

> `pure64Init_checksums`: on every run that returns `EXIT_SUCCESS`, both
> headers carry correct checksums.

> `pure64Init_headerView`: a reader decodes from the image the fields of
> the primary and backup headers `pure64_init` computed.

> `pure64Init_image`: the disk has no partitions: both entry arrays are
> zero, and the image ends with the backup header's sector.

> `pure64Init_backup_mirror`: the backup header mirrors the primary one,
> except that its entry-array LBA is `last_usable_lba`, one sector below the
> array that `pure64_init` zeroed and `calculate_partition_headers_checksum`
> reads.
-/

namespace Pure64

/-- The smallest disk `pure64_init` accepts: a header, 128 primary entries,
a sector per entry, 128 backup entries and the backup header. -/
def minimumSize : UInt64 := 92 + 128 * 128 + 128 * 512 + 128 * 128 + 92

/-- `disk_size` padded to the nearest sector, in place, in 64 bits. -/
def padDiskSize (diskSize : UInt64) : UInt64 :=
  if diskSize % 512 ≠ 0 then diskSize + (512 - diskSize % 512) else diskSize

/-- The primary header `pure64_init` fills in for the padded size. -/
def primaryHeader (diskSize : UInt64) (diskUuid : Pure64Uuid) : GptHeader :=
  let backupLba := (diskSize - 512) / 512
  { currentLba := 1
    backupLba := backupLba
    firstUsableLba := ((1 + 1) * 512 + 128 * 128) / 512
    lastUsableLba := (backupLba * 512 - 128 * 128 - 512) / 512
    diskUuid := diskUuid
    partitionHeadersLba := 2
    partitionHeaderCount := 128 }

/-- The header `pure64_init` turns the primary one into for the backup. -/
def backupHeader (primary : GptHeader) : GptHeader :=
  { primary with
    partitionHeadersLba := (primary.backupLba * 512 - 128 * 128 - 512) / 512
    currentLba := primary.backupLba
    backupLba := 1 }

/-- `pure64_init` from its parsed arguments: `none` is `EXIT_FAILURE`,
`some file` the image it leaves. `mbrData` is the build's `mbr_data`. -/
def pure64Init (mbrData : List UInt8) (diskSize : UInt64) (diskUuid : Pure64Uuid) :
    Option Disk := do
  if diskSize < minimumSize then none
  let diskSize := padDiskSize diskSize
  let file := Disk.empty.write mbrData
  if mbrData.length ≠ 512 then none
  let header := primaryHeader diskSize diskUuid
  let file := exportGptHeader file header
  let file := zeroFileData file (128 * 128)
  let file ← file.seek (toLong (header.backupLba * 512 - 128 * 128))
  let file := zeroFileData file (128 * 128)
  let file ← file.seek (toLong (header.backupLba * 512))
  let file := exportGptHeader file (backupHeader header)
  calculateChecksums file

/-! ## Geometry -/

/-- Padding rounds up to whole sectors, modulo `2^64`. -/
theorem padDiskSize_toNat (s : UInt64) :
    (padDiskSize s).toNat = (s.toNat + 511) / 512 * 512 % 2 ^ 64 := by
  unfold padDiskSize
  have := uint64_toNat_lt s
  by_cases h : s.toNat % 512 = 0
  · have h' : s % 512 = 0 := UInt64.toNat.inj (by simpa using h)
    simp only [h', ne_eq, not_true_eq_false, if_false]
    omega
  · have h' : s % 512 ≠ 0 := fun e => h (by simpa using congrArg UInt64.toNat e)
    simp only [h', ne_eq, not_false_eq_true, if_true, uint64_toNat_add, uint64_toNat_sub,
      UInt64.toNat_mod, uint64_toNat_ofNat, Nat.reducePow, Nat.reduceMod]
    omega

/-- The backup LBA is the last sector of the padded disk, also when the
padding wraps. -/
theorem backupLba_toNat (diskUuid : Pure64Uuid) {diskSize : UInt64}
    (hmin : ¬ diskSize < minimumSize) :
    (primaryHeader (padDiskSize diskSize) diskUuid).backupLba.toNat =
      (diskSize.toNat + 511) / 512 - 1 := by
  rw [uint64_lt_iff, show minimumSize.toNat = 98488 from rfl] at hmin
  have := uint64_toNat_lt diskSize
  simp only [primaryHeader, UInt64.toNat_div, uint64_toNat_sub, padDiskSize_toNat, uint64_toNat_ofNat,
    Nat.reducePow, Nat.reduceMod]
  omega

/-- On a size `pure64_init` accepts, a backup header it can seek to sits at
LBA 192 or above, below `2^63` bytes. -/
theorem backupLba_bounds {diskSize : UInt64} (diskUuid : Pure64Uuid)
    (hmin : ¬ diskSize < minimumSize)
    (hseek : 0 ≤ toLong ((primaryHeader (padDiskSize diskSize) diskUuid).backupLba * 512)) :
    192 ≤ (primaryHeader (padDiskSize diskSize) diskUuid).backupLba.toNat ∧
      (primaryHeader (padDiskSize diskSize) diskUuid).backupLba.toNat * 512 < 2 ^ 63 := by
  have hb := backupLba_toNat diskUuid hmin
  rw [toLong_nonneg_iff, uint64_toNat_mul, show (512 : UInt64).toNat = 512 from rfl] at hseek
  rw [uint64_lt_iff, show minimumSize.toNat = 98488 from rfl] at hmin
  have := uint64_toNat_lt diskSize
  omega

/-- `lba * 512 - 128 * 128`: the byte the backup entry array starts at. -/
theorem entriesBelow_toNat {b : UInt64} (hb : 32 ≤ b.toNat) (hlt : b.toNat * 512 < 2 ^ 64) :
    (b * 512 - 128 * 128).toNat = (b.toNat - 32) * 512 := by
  simp only [uint64_toNat_sub, uint64_toNat_mul, uint64_toNat_ofNat, Nat.reducePow, Nat.reduceMod,
    Nat.reduceMul]
  omega

/-- `lba * 512 - 128 * 128 - 512`, in sectors: the sector below the
backup entry array. -/
theorem usableBelow_toNat {b : UInt64} (hb : 33 ≤ b.toNat) (hlt : b.toNat * 512 < 2 ^ 64) :
    ((b * 512 - 128 * 128 - 512) / 512).toNat = b.toNat - 33 := by
  rw [UInt64.toNat_div, uint64_toNat_sub, entriesBelow_toNat (by omega) hlt]
  simp only [uint64_toNat_ofNat, Nat.reducePow, Nat.reduceMod]
  omega

/-- **GPT geometry.** On every size `pure64_init` accepts, with `n` the size
in sectors rounded up over the integers, the fields it computes in 64-bit
arithmetic put the backup header in sector `n - 1`, the usable range at
`34 .. n - 34` and the backup entry array at sector `n - 33`. With the MBR,
the primary header and the primary array in sectors `0`, `1` and `2 .. 33`
they tile the `n` sectors in order. This includes the sizes within 512 of
`2^64`, whose in-place padding wraps to `0`. -/
theorem primaryHeader_geometry (diskUuid : Pure64Uuid) {diskSize : UInt64}
    (hmin : ¬ diskSize < minimumSize) :
    let n := (diskSize.toNat + 511) / 512
    let h := primaryHeader (padDiskSize diskSize) diskUuid
    let backupEntries := (h.backupLba * 512 - 128 * 128).toNat
    h.currentLba.toNat = 1 ∧ h.partitionHeadersLba.toNat = 2 ∧ h.firstUsableLba.toNat = 34 ∧
      h.lastUsableLba.toNat = n - 34 ∧ backupEntries = (n - 33) * 512 ∧ h.backupLba.toNat = n - 1 ∧
      h.currentLba.toNat + 1 = h.partitionHeadersLba.toNat ∧
      h.partitionHeadersLba.toNat + 128 * 128 / 512 = h.firstUsableLba.toNat ∧
      h.firstUsableLba.toNat ≤ h.lastUsableLba.toNat ∧
      h.lastUsableLba.toNat + 1 = backupEntries / 512 ∧
      backupEntries / 512 + 128 * 128 / 512 = h.backupLba.toNat ∧ h.backupLba.toNat + 1 = n := by
  intro n h backupEntries
  have hb : h.backupLba.toNat = n - 1 := backupLba_toNat diskUuid hmin
  have hn : 193 ≤ n ∧ n ≤ 2 ^ 55 := by
    rw [uint64_lt_iff, show minimumSize.toNat = 98488 from rfl] at hmin
    have := uint64_toNat_lt diskSize
    omega
  have he : backupEntries = (h.backupLba.toNat - 32) * 512 := entriesBelow_toNat (by omega) (by omega)
  have hl : h.lastUsableLba.toNat = h.backupLba.toNat - 33 :=
    @usableBelow_toNat h.backupLba (by omega) (by omega)
  have hf : h.firstUsableLba.toNat = 34 := rfl
  have hc : h.currentLba.toNat = 1 := rfl
  have hph : h.partitionHeadersLba.toNat = 2 := rfl
  rw [he, hl, hb, hf, hc, hph]
  omega

/-- The largest size: its padding wraps to `0`, and the fields still place
the backup header in sector `2^55 - 1` of the `2^55`-sector disk. -/
theorem primaryHeader_geometry_wrap :
    let h := primaryHeader (padDiskSize 18446744073709551615) ⟨List.replicate 16 0, rfl⟩
    padDiskSize 18446744073709551615 = 0 ∧ h.backupLba.toNat = 2 ^ 55 - 1 ∧
      h.lastUsableLba.toNat = 2 ^ 55 - 34 ∧
      (h.backupLba * 512 - 128 * 128).toNat = (2 ^ 55 - 33) * 512 := by
  have g := primaryHeader_geometry ⟨List.replicate 16 0, rfl⟩
    (show ¬ (18446744073709551615 : UInt64) < minimumSize by decide)
  exact ⟨by decide, g.2.2.2.2.2.1, g.2.2.2.1, g.2.2.2.2.1⟩

/-! ## The image before the checksum pass -/

/-- What `pure64_init` has written when it calls `calculate_checksums`: both
header sectors and both zeroed entry arrays, in a file that ends with the
backup header. -/
structure LaidOut (d : Disk) (header : GptHeader) : Prop where
  lba_bounds : 192 ≤ header.backupLba.toNat ∧ header.backupLba.toNat * 512 < 2 ^ 63
  size_eq : d.size = header.backupLba.toNat * 512 + 512
  primary : d.region 512 512 = gptHeaderBytes header
  primary_entries : d.region 1024 (128 * 128) = List.replicate (128 * 128) 0
  backup_entries : d.region (header.backupLba.toNat * 512 - 128 * 128) (128 * 128) =
    List.replicate (128 * 128) 0
  backup : d.region (header.backupLba.toNat * 512) 512 = gptHeaderBytes (backupHeader header)

namespace LaidOut

variable {d : Disk} {header : GptHeader}

theorem backupLba_field (hl : LaidOut d header) :
    leValue (d.region (512 + 32) 8) = header.backupLba.toNat := by
  rw [Disk.region_sub hl.primary (by omega : 32 + 8 ≤ 512), (gptHeaderBytes_fields header).2.2.1,
    leValue_le64]

theorem primary_checksum_zero (hl : LaidOut d header) : d.region (512 + 16) 4 = [0, 0, 0, 0] :=
  (Disk.region_sub hl.primary (by omega : 16 + 4 ≤ 512)).trans (gptHeaderBytes_fields header).1

theorem backup_checksum_zero (hl : LaidOut d header) :
    d.region (header.backupLba.toNat * 512 + 16) 4 = [0, 0, 0, 0] :=
  (Disk.region_sub hl.backup (by omega : 16 + 4 ≤ 512)).trans (gptHeaderBytes_fields _).1

/-- `calculate_checksums` on the laid-out image succeeds, makes both
headers' checksums right and leaves every other header field as written. -/
theorem calculateChecksums_spec (hl : LaidOut d header) :
    ∃ d', calculateChecksums d = some d' ∧ ChecksumsHold d' 512 1024 ∧
      ChecksumsHold d' (header.backupLba.toNat * 512) (header.backupLba.toNat * 512 - 128 * 128) ∧
      headerView d' 512 = header.view ∧
      headerView d' (header.backupLba.toNat * 512) = (backupHeader header).view := by
  have hb := hl.lba_bounds
  obtain ⟨d1, d2, d3, d4, hd1, hd2, hd3, hd4, hc⟩ :=
    calculateChecksums_eq hl.backupLba_field (by rw [hl.size_eq]; omega) (by omega) (by omega)
  obtain ⟨c1, c2⟩ :=
    checksumsHold_of_writes (by omega) hl.primary_checksum_zero hl.backup_checksum_zero hd1 hd2 hd3 hd4
  refine ⟨d4, hc, c1, c2, ?_, ?_⟩
  · rw [headerView, region_of_checksum_writes hd1 hd2 hd3 hd4 (by omega) (by omega) (by omega)
      (by omega)]
    exact headerView_of_region hl.primary
  · rw [headerView, region_of_checksum_writes hd1 hd2 hd3 hd4 (by omega) (by omega) (by omega)
      (by omega)]
    exact headerView_of_region hl.backup

theorem size_le32_write {e : Disk} {p : Nat} (v : UInt32) (h : p + 4 ≤ e.size) :
    ((e.setPos p).write (le32 v)).size = e.size := by
  rw [Disk.size_write_of_length_pos _ (by simp), Disk.size_setPos, Disk.pos_setPos, le32_length]
  omega

/-- `calculate_checksums` on the laid-out image keeps its length and both
entry arrays. -/
theorem calculateChecksums_frame (hl : LaidOut d header) {d' : Disk}
    (hc : calculateChecksums d = some d') :
    d'.size = d.size ∧ d'.region 1024 (128 * 128) = d.region 1024 (128 * 128) ∧
      d'.region (header.backupLba.toNat * 512 - 128 * 128) (128 * 128) =
        d.region (header.backupLba.toNat * 512 - 128 * 128) (128 * 128) := by
  have hb := hl.lba_bounds
  have hs := hl.size_eq
  obtain ⟨d1, d2, d3, d4, hd1, hd2, hd3, hd4, hc'⟩ :=
    calculateChecksums_eq hl.backupLba_field (by rw [hl.size_eq]; omega) (by omega) (by omega)
  obtain rfl : d' = d4 := Option.some_injective _ (hc.symm.trans hc')
  have s1 : d1.size = d.size := by rw [hd1, size_le32_write _ (by omega)]
  have s2 : d2.size = d.size := by rw [hd2, size_le32_write _ (by omega), s1]
  have s3 : d3.size = d.size := by rw [hd3, size_le32_write _ (by omega), s2]
  exact ⟨by rw [hd4, size_le32_write _ (by omega), s3],
    region_of_checksum_writes hd1 hd2 hd3 hd4 (by omega) (by omega) (by omega) (by omega),
    region_of_checksum_writes hd1 hd2 hd3 hd4 (by omega) (by omega) (by omega) (by omega)⟩

end LaidOut

section Init

variable {mbrData : List UInt8} {diskSize : UInt64} {diskUuid : Pure64Uuid}

/-- `pure64_init` up to `calculate_checksums`, on a size whose backup header
it can seek to. -/
theorem pure64Init_eq (hmbr : mbrData.length = 512) (hmin : ¬ diskSize < minimumSize)
    (hB : (primaryHeader (padDiskSize diskSize) diskUuid).backupLba.toNat * 512 < 2 ^ 63) :
    ∃ d0, LaidOut d0 (primaryHeader (padDiskSize diskSize) diskUuid) ∧
      pure64Init mbrData diskSize diskUuid = calculateChecksums d0 := by
  have hb := backupLba_bounds diskUuid hmin (by rw [toLong_lba_mul hB]; omega)
  simp only [pure64Init, hmin, hmbr, if_false, ne_eq, not_true_eq_false, Option.pure_def,
    Option.bind_eq_bind, Option.some_bind, zeroFileData_eq, exportGptHeader]
  generalize primaryHeader (padDiskSize diskSize) diskUuid = H at hb hB ⊢
  rw [toLong_lba_mul_sub (by omega) hB, Disk.seek_natCast, Option.some_bind, toLong_lba_mul hB,
    Disk.seek_natCast, Option.some_bind]
  obtain ⟨e0, he0⟩ : ∃ e, e = Disk.empty.write mbrData := ⟨_, rfl⟩
  obtain ⟨e1, he1⟩ : ∃ e, e = e0.write (gptHeaderBytes H) := ⟨_, rfl⟩
  obtain ⟨e2, he2⟩ : ∃ e, e = e1.write (List.replicate (128 * 128) 0) := ⟨_, rfl⟩
  obtain ⟨e3, he3⟩ : ∃ e, e = (e2.setPos (H.backupLba.toNat * 512 - 128 * 128)).write
      (List.replicate (128 * 128) 0) := ⟨_, rfl⟩
  have p0 : e0.pos = 512 := by rw [he0, Disk.pos_write, Disk.pos_empty, hmbr]
  have s0 : e0.size = 512 := by rw [he0, Disk.size_write_of_length_pos _ (by omega), hmbr]; rfl
  have p1 : e1.pos = 1024 := by rw [he1, Disk.pos_write, p0, gptHeaderBytes_length]
  have s1 : e1.size = 1024 := by
    rw [he1, Disk.size_write_of_length_pos _ (by simp), s0, p0, gptHeaderBytes_length]; rfl
  have s2 : e2.size = 17408 := by
    rw [he2, Disk.size_write_of_length_pos _ (by rw [List.length_replicate]; decide), s1, p1, List.length_replicate]; rfl
  have s3 : e3.size = H.backupLba.toNat * 512 := by
    rw [he3, Disk.size_write_of_length_pos _ (by rw [List.length_replicate]; decide), Disk.size_setPos, Disk.pos_setPos, s2,
      List.length_replicate]
    omega
  refine ⟨(e3.setPos (H.backupLba.toNat * 512)).write (gptHeaderBytes (backupHeader H)),
    ⟨hb, ?_, ?_, ?_, ?_, ?_⟩, by rw [he3, he2, he1, he0]⟩
  · rw [Disk.size_write_of_length_pos _ (by simp), Disk.size_setPos, Disk.pos_setPos, s3,
      gptHeaderBytes_length]
    omega
  · rw [Disk.region_write_setPos_of_disjoint (by omega), he3,
      Disk.region_write_setPos_of_disjoint (by omega), he2, Disk.region_write_of_disjoint (by omega),
      he1, Disk.region_write_of_pos p0 (gptHeaderBytes_length H)]
  · rw [Disk.region_write_setPos_of_disjoint (by omega), he3,
      Disk.region_write_setPos_of_disjoint (by omega), he2,
      Disk.region_write_of_pos p1 (List.length_replicate _ _)]
  · rw [Disk.region_write_setPos_of_disjoint (by omega), he3,
      Disk.region_write_of_pos (Disk.pos_setPos _ _) (List.length_replicate _ _)]
  · exact Disk.region_write_of_pos (Disk.pos_setPos _ _) (gptHeaderBytes_length _)

/-- `pure64_init` succeeds only past its two guards and on a size whose
backup header it can seek to. -/
theorem pure64Init_guards {d : Disk} (h : pure64Init mbrData diskSize diskUuid = some d) :
    mbrData.length = 512 ∧ ¬ diskSize < minimumSize ∧
      (primaryHeader (padDiskSize diskSize) diskUuid).backupLba.toNat * 512 < 2 ^ 63 := by
  unfold pure64Init at h
  by_cases hmin : diskSize < minimumSize
  · simp [hmin] at h
  by_cases hmbr : mbrData.length = 512
  · simp only [hmin, hmbr, if_false, ne_eq, not_true_eq_false, Option.pure_def,
      Option.bind_eq_bind, Option.some_bind] at h
    obtain ⟨_, -, h⟩ := Option.bind_eq_some.mp h
    obtain ⟨_, hs, -⟩ := Option.bind_eq_some.mp h
    exact ⟨hmbr, hmin, (backupLba_bounds diskUuid hmin (Disk.nonneg_of_seek_eq_some hs)).2⟩
  · simp [hmbr] at h

theorem pure64Init_laidOut {d : Disk} (h : pure64Init mbrData diskSize diskUuid = some d) :
    ∃ d0, LaidOut d0 (primaryHeader (padDiskSize diskSize) diskUuid) ∧ calculateChecksums d0 = some d := by
  obtain ⟨hmbr, hmin, hB⟩ := pure64Init_guards h
  obtain ⟨d0, hl, he⟩ := pure64Init_eq hmbr hmin hB
  exact ⟨d0, hl, he ▸ h⟩

/-- Past the guards, `pure64_init` returns `EXIT_SUCCESS`. -/
theorem pure64Init_isSome (hmbr : mbrData.length = 512) (hmin : ¬ diskSize < minimumSize)
    (hB : (primaryHeader (padDiskSize diskSize) diskUuid).backupLba.toNat * 512 < 2 ^ 63) :
    ∃ d, pure64Init mbrData diskSize diskUuid = some d := by
  obtain ⟨d0, hl, he⟩ := pure64Init_eq hmbr hmin hB
  obtain ⟨d, hc, -⟩ := hl.calculateChecksums_spec
  exact ⟨d, he.trans hc⟩

/-- Every image `pure64_init` leaves has correct checksums in both headers;
the backup header is found where a reader looks for it, through the
primary header's backup-LBA field. -/
theorem pure64Init_checksums {d : Disk} (h : pure64Init mbrData diskSize diskUuid = some d) :
    ChecksumsHold d 512 1024 ∧
      ChecksumsHold d ((headerView d 512).backupLba * 512)
        ((headerView d 512).backupLba * 512 - 128 * 128) := by
  obtain ⟨d0, hl, hc⟩ := pure64Init_laidOut h
  obtain ⟨d', hc', c1, c2, v1, -⟩ := hl.calculateChecksums_spec
  obtain rfl : d = d' := Option.some_injective _ (hc.symm.trans hc')
  rw [v1]
  exact ⟨c1, c2⟩

theorem pure64Init_checksums_oneMiB : ∃ d,
    pure64Init (List.replicate 512 0) 1048576 ⟨List.replicate 16 0, rfl⟩ = some d ∧
      ChecksumsHold d 512 1024 ∧
      ChecksumsHold d ((headerView d 512).backupLba * 512)
        ((headerView d 512).backupLba * 512 - 128 * 128) := by
  obtain ⟨d, hd⟩ := @pure64Init_isSome (List.replicate 512 0) 1048576 ⟨List.replicate 16 0, rfl⟩
    (List.length_replicate _ _) (by decide) (by decide)
  exact ⟨d, hd, pure64Init_checksums hd⟩

/-- The backup header of every image `pure64_init` leaves mirrors the
primary one, except that its entry-array LBA is the primary's
`last_usable_lba`: one sector below the backup array that `pure64_init`
zeroed and `calculate_partition_headers_checksum` covers. -/
theorem pure64Init_backup_mirror {d : Disk} (h : pure64Init mbrData diskSize diskUuid = some d) :
    let primary := headerView d 512
    let backup := headerView d (primary.backupLba * 512)
    backup.currentLba = primary.backupLba ∧ backup.backupLba = primary.currentLba ∧
      backup.firstUsableLba = primary.firstUsableLba ∧
      backup.lastUsableLba = primary.lastUsableLba ∧ backup.diskUuid = primary.diskUuid ∧
      backup.partitionHeaderCount = primary.partitionHeaderCount ∧
      backup.partitionHeaderSize = primary.partitionHeaderSize ∧
      backup.partitionHeadersLba = primary.lastUsableLba ∧
      backup.partitionHeadersLba * 512 + 512 = primary.backupLba * 512 - 128 * 128 := by
  obtain ⟨d0, hl, hc⟩ := pure64Init_laidOut h
  obtain ⟨d', hc', -, -, v1, v2⟩ := hl.calculateChecksums_spec
  obtain rfl : d = d' := Option.some_injective _ (hc.symm.trans hc')
  have hb := hl.lba_bounds
  simp only [v1, GptHeader.view] 
  rw [v2]
  simp only [backupHeader, GptHeader.view, primaryHeader, true_and] at hb ⊢
  generalize (padDiskSize diskSize - 512) / 512 = v at hb ⊢
  simp only [UInt64.toNat_div, uint64_toNat_sub, uint64_toNat_mul, uint64_toNat_ofNat,
    Nat.reducePow, Nat.reduceMod, Nat.reduceMul]
  omega

theorem pure64Init_backup_mirror_oneMiB : ∃ d,
    pure64Init (List.replicate 512 0) 1048576 ⟨List.replicate 16 0, rfl⟩ = some d ∧
      let primary := headerView d 512
      let backup := headerView d (primary.backupLba * 512)
      backup.currentLba = primary.backupLba ∧ backup.backupLba = primary.currentLba ∧
        backup.firstUsableLba = primary.firstUsableLba ∧
        backup.lastUsableLba = primary.lastUsableLba ∧ backup.diskUuid = primary.diskUuid ∧
        backup.partitionHeaderCount = primary.partitionHeaderCount ∧
        backup.partitionHeaderSize = primary.partitionHeaderSize ∧
        backup.partitionHeadersLba = primary.lastUsableLba ∧
        backup.partitionHeadersLba * 512 + 512 = primary.backupLba * 512 - 128 * 128 := by
  obtain ⟨d, hd⟩ := @pure64Init_isSome (List.replicate 512 0) 1048576 ⟨List.replicate 16 0, rfl⟩
    (List.length_replicate _ _) (by decide) (by decide)
  exact ⟨d, hd, pure64Init_backup_mirror hd⟩

/-- **The image holds the headers `pure64_init` computed.** On every image
`pure64_init` leaves, a reader decodes from LBA 1 the fields of the primary
header computed for the padded size, and from the sector that header's
backup-LBA field names the fields of the backup header: the checksum pass
changes no other field. -/
theorem pure64Init_headerView {d : Disk} (h : pure64Init mbrData diskSize diskUuid = some d) :
    headerView d 512 = (primaryHeader (padDiskSize diskSize) diskUuid).view ∧
      headerView d ((headerView d 512).backupLba * 512) =
        (backupHeader (primaryHeader (padDiskSize diskSize) diskUuid)).view := by
  obtain ⟨d0, hl, hc⟩ := pure64Init_laidOut h
  obtain ⟨d', hc', -, -, v1, v2⟩ := hl.calculateChecksums_spec
  obtain rfl : d = d' := Option.some_injective _ (hc.symm.trans hc')
  rw [v1]
  exact ⟨rfl, v2⟩

theorem pure64Init_headerView_oneMiB : ∃ d,
    pure64Init (List.replicate 512 0) 1048576 ⟨List.replicate 16 0, rfl⟩ = some d ∧
      headerView d 512 = (primaryHeader (padDiskSize 1048576) ⟨List.replicate 16 0, rfl⟩).view ∧
      headerView d ((headerView d 512).backupLba * 512) =
        (backupHeader (primaryHeader (padDiskSize 1048576) ⟨List.replicate 16 0, rfl⟩)).view := by
  obtain ⟨d, hd⟩ := @pure64Init_isSome (List.replicate 512 0) 1048576 ⟨List.replicate 16 0, rfl⟩
    (List.length_replicate _ _) (by decide) (by decide)
  exact ⟨d, hd, pure64Init_headerView hd⟩

/-- **The disk `pure64_init` writes has no partitions.** Every image it
leaves ends with the sector its primary header's backup-LBA field names,
and both partition-entry arrays, below the backup header and after the
primary one, are all zero. -/
theorem pure64Init_image {d : Disk} (h : pure64Init mbrData diskSize diskUuid = some d) :
    d.size = (headerView d 512).backupLba * 512 + 512 ∧
      d.region 1024 (128 * 128) = List.replicate (128 * 128) 0 ∧
      d.region ((headerView d 512).backupLba * 512 - 128 * 128) (128 * 128) =
        List.replicate (128 * 128) 0 := by
  obtain ⟨d0, hl, hc⟩ := pure64Init_laidOut h
  obtain ⟨d', hc', -, -, v1, -⟩ := hl.calculateChecksums_spec
  obtain rfl : d = d' := Option.some_injective _ (hc.symm.trans hc')
  obtain ⟨hsize, harr, hbarr⟩ := hl.calculateChecksums_frame hc
  rw [v1]
  exact ⟨hsize.trans hl.size_eq, harr.trans hl.primary_entries, hbarr.trans hl.backup_entries⟩

theorem pure64Init_image_oneMiB : ∃ d,
    pure64Init (List.replicate 512 0) 1048576 ⟨List.replicate 16 0, rfl⟩ = some d ∧
      d.size = (headerView d 512).backupLba * 512 + 512 ∧
      d.region 1024 (128 * 128) = List.replicate (128 * 128) 0 ∧
      d.region ((headerView d 512).backupLba * 512 - 128 * 128) (128 * 128) =
        List.replicate (128 * 128) 0 := by
  obtain ⟨d, hd⟩ := @pure64Init_isSome (List.replicate 512 0) 1048576 ⟨List.replicate 16 0, rfl⟩
    (List.length_replicate _ _) (by decide) (by decide)
  exact ⟨d, hd, pure64Init_image hd⟩

end Init

end Pure64

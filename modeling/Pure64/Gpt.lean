import Pure64.Disk
import Pure64.Crc32

/-!
# GPT headers and the checksum pass of `src/util/pure64.c`

`export_gpt_header` writes the fields of a `struct gpt_header` one `fwrite`
at a time, least significant byte first as on x86-64 (`le64`, `le32`), and
pads the sector with zeros. `calculate_checksums` then patches the four
checksum fields in place, reading back what was written: each entry array's
CRC into its header (offset 88), then each header's CRC (offset 16), whose
92 bytes include the array checksum written just before.

`headerView` is what a GPT reader decodes from a header sector and
`ChecksumsHold` what a checksum-validating reader checks.

Main result:

> `checksumsHold_of_writes`: the four writes of the pass, in its order, leave
> both headers' checksums right when both checksum fields were zero: no later
> write lands in bytes an earlier CRC covered.
-/

namespace Pure64

/-- `struct pure64_uuid`: the sixteen bytes `pure64_uuid_parse` fills in. -/
structure Pure64Uuid where
  bytes : List UInt8
  length_bytes : bytes.length = 16

/-- `struct gpt_header`, the short version `pure64.c` keeps. -/
structure GptHeader where
  currentLba : UInt64
  backupLba : UInt64
  firstUsableLba : UInt64
  lastUsableLba : UInt64
  diskUuid : Pure64Uuid
  partitionHeadersLba : UInt64
  partitionHeaderCount : UInt32

/-- A 64-bit field as `fwrite(&field, 1, 8, file)` writes it. -/
def le64 (v : UInt64) : List UInt8 := leBytes 8 v.toNat

/-- A 32-bit field as `fwrite(&field, 1, 4, file)` writes it. -/
def le32 (v : UInt32) : List UInt8 := leBytes 4 v.toNat

/-- The 92 bytes of fields `export_gpt_header` writes, in the order of its `fwrite`s. -/
def gptHeaderFields (h : GptHeader) : List UInt8 :=
  [0x45, 0x46, 0x49, 0x20, 0x50, 0x41, 0x52, 0x54] ++  -- signature
  [0x00, 0x00, 0x01, 0x00] ++  -- version
  [0x5c, 0x00, 0x00, 0x00] ++  -- header size
  [0x00, 0x00, 0x00, 0x00] ++  -- crc32 of header (zero during calculation)
  [0x00, 0x00, 0x00, 0x00] ++  -- reserved
  le64 h.currentLba ++ le64 h.backupLba ++ le64 h.firstUsableLba ++ le64 h.lastUsableLba ++
  h.diskUuid.bytes ++ le64 h.partitionHeadersLba ++ le32 h.partitionHeaderCount ++
  [0x80, 0x00, 0x00, 0x00] ++  -- partition entry size
  [0x00, 0x00, 0x00, 0x00]  -- crc32 of partition header array

/-- The sector `export_gpt_header` writes: the fields, then zeros to 512 bytes. -/
def gptHeaderBytes (h : GptHeader) : List UInt8 := gptHeaderFields h ++ List.replicate (512 - 92) 0

/-- `export_gpt_header`: the header sector at the position. The count check
never fires, since writes complete. -/
def exportGptHeader (file : Disk) (header : GptHeader) : Disk := file.write (gptHeaderBytes header)

/-- `calculate_header_checksum`: the CRC of the 92 header bytes at
`headerLocation`, written at offset 16. -/
def calculateHeaderChecksum (file : Disk) (headerLocation : Int) : Option Disk := do
  let file ← file.seek headerLocation
  let (buf, file) ← file.read 92
  let checksum := crc32 buf
  let file ← file.seek (headerLocation + 16)
  pure (file.write (le32 checksum))

/-- `calculate_partition_headers_checksum`: the CRC of each entry array,
written at offset 88 of its header; the backup's place comes from the
primary header's backup-LBA field. -/
def calculatePartitionHeadersChecksum (file : Disk) : Option Disk := do
  let file ← file.seek 1024
  let (buf, file) ← file.read (128 * 128)
  let checksum := crc32 buf
  let file ← file.seek (512 + 88)
  let file := file.write (le32 checksum)
  let file ← file.seek (512 + 32)
  let (lba, file) ← file.read 8
  let backupLba : UInt64 := (leValue lba).toUInt64
  let file ← file.seek (toLong (backupLba * 512 - 128 * 128))
  let (buf, file) ← file.read (128 * 128)
  let checksum := crc32 buf
  let file ← file.seek (toLong (backupLba * 512 + 88))
  pure (file.write (le32 checksum))

/-- `calculate_checksums`: both array checksums first, then both header
checksums. -/
def calculateChecksums (file : Disk) : Option Disk := do
  let file ← calculatePartitionHeadersChecksum file
  let file ← calculateHeaderChecksum file 512
  let file ← file.seek (512 + 32)
  let (lba, file) ← file.read 8
  let backupLba : UInt64 := (leValue lba).toUInt64
  calculateHeaderChecksum file (toLong (backupLba * 512))

/-! ## Reading an image back -/

/-- The 92 bytes the checksum of the header at `loc` covers, its own checksum field read as zero. -/
def headerForChecksum (d : Disk) (loc : Nat) : List UInt8 :=
  d.region loc 16 ++ [0, 0, 0, 0] ++ d.region (loc + 20) 72

/-- The header at `loc` holds the CRC of the entry array at `arr` (offset 88) and its own CRC (offset 16). -/
def ChecksumsHold (d : Disk) (loc arr : Nat) : Prop :=
  leValue (d.region (loc + 88) 4) = (crc32 (d.region arr (128 * 128))).toNat ∧
    leValue (d.region (loc + 16) 4) = (crc32 (headerForChecksum d loc)).toNat

/-- The fields of a header sector from offset 24 to 88 as a GPT reader
decodes them: all but the signature, revision, header size and the checksums. -/
structure HeaderView where
  currentLba : Nat
  backupLba : Nat
  firstUsableLba : Nat
  lastUsableLba : Nat
  diskUuid : List UInt8
  partitionHeadersLba : Nat
  partitionHeaderCount : Nat
  partitionHeaderSize : Nat
  deriving DecidableEq, Repr

/-- The 64 field bytes from offset 24, decoded. -/
def decodeHeaderFields (bs : List UInt8) : HeaderView :=
  let field k n := (bs.drop k).take n
  { currentLba := leValue (field 0 8)
    backupLba := leValue (field 8 8)
    firstUsableLba := leValue (field 16 8)
    lastUsableLba := leValue (field 24 8)
    diskUuid := field 32 16
    partitionHeadersLba := leValue (field 48 8)
    partitionHeaderCount := leValue (field 56 4)
    partitionHeaderSize := leValue (field 60 4) }

/-- The header at `loc` of an image, as a reader sees it. -/
def headerView (d : Disk) (loc : Nat) : HeaderView := decodeHeaderFields (d.region (loc + 24) 64)

/-- What a reader sees of a header `export_gpt_header` wrote. -/
def GptHeader.view (h : GptHeader) : HeaderView where
  currentLba := h.currentLba.toNat
  backupLba := h.backupLba.toNat
  firstUsableLba := h.firstUsableLba.toNat
  lastUsableLba := h.lastUsableLba.toNat
  diskUuid := h.diskUuid.bytes
  partitionHeadersLba := h.partitionHeadersLba.toNat
  partitionHeaderCount := h.partitionHeaderCount.toNat
  partitionHeaderSize := 128

/-! ## Header bytes -/

@[simp] theorem le64_length (v : UInt64) : (le64 v).length = 8 := leBytes_length 8 _

@[simp] theorem le32_length (v : UInt32) : (le32 v).length = 4 := leBytes_length 4 _

theorem gptHeaderFields_length (h : GptHeader) : (gptHeaderFields h).length = 92 := by
  simp [gptHeaderFields, h.diskUuid.length_bytes]

@[simp] theorem gptHeaderBytes_length (h : GptHeader) : (gptHeaderBytes h).length = 512 := by
  rw [gptHeaderBytes, List.length_append, List.length_replicate, gptHeaderFields_length]

/-- The fields of a header sector, at their offsets. -/
theorem gptHeaderBytes_fields (h : GptHeader) :
    ((gptHeaderBytes h).drop 16).take 4 = [0, 0, 0, 0] ∧
      ((gptHeaderBytes h).drop 24).take 8 = le64 h.currentLba ∧
      ((gptHeaderBytes h).drop 32).take 8 = le64 h.backupLba ∧
      ((gptHeaderBytes h).drop 40).take 8 = le64 h.firstUsableLba ∧
      ((gptHeaderBytes h).drop 48).take 8 = le64 h.lastUsableLba ∧
      ((gptHeaderBytes h).drop 56).take 16 = h.diskUuid.bytes ∧
      ((gptHeaderBytes h).drop 72).take 8 = le64 h.partitionHeadersLba ∧
      ((gptHeaderBytes h).drop 80).take 4 = le32 h.partitionHeaderCount ∧
      ((gptHeaderBytes h).drop 84).take 4 = [0x80, 0, 0, 0] := by
  simp only [gptHeaderBytes, gptHeaderFields, List.append_assoc, List.cons_append, List.nil_append,
    List.drop_succ_cons, List.drop_zero, List.take_succ_cons, List.take_zero,
    List.drop_append_eq_append_drop, List.drop_eq_nil_of_le, List.take_left', le64_length, le32_length,
    h.diskUuid.length_bytes, Nat.reduceSub, Nat.reduceLeDiff, and_self]

theorem leValue_le32 (v : UInt32) : leValue (le32 v) = v.toNat := by
  rw [le32, leValue_leBytes]
  exact Nat.mod_eq_of_lt (UInt32.toNat_lt_size v)

theorem leValue_le64 (v : UInt64) : leValue (le64 v) = v.toNat := by
  rw [le64, leValue_leBytes]
  exact Nat.mod_eq_of_lt (UInt64.toNat_lt_size v)

/-- A written header sector reads back as the header. -/
theorem headerView_of_region {d : Disk} {loc : Nat} {h : GptHeader}
    (hd : d.region loc 512 = gptHeaderBytes h) : headerView d loc = h.view := by
  obtain ⟨-, f24, f32, f40, f48, f56, f72, f80, f84⟩ := gptHeaderBytes_fields h
  rw [headerView, Disk.region_sub hd (by omega : 24 + 64 ≤ 512)]
  simp only [decodeHeaderFields, List.drop_take, List.take_take, List.drop_drop]
  simp [f24, f32, f40, f48, f56, f72, f80, f84, leValue_le64, leValue_le32]
  rfl

/-! ## Sector offsets in 64 bits -/

theorem toLong_lba_mul_add {v k : UInt64} (h : v.toNat * 512 + k.toNat < 2 ^ 63) :
    toLong (v * 512 + k) = ((v.toNat * 512 + k.toNat : Nat) : Int) := by
  have : (v * 512 + k).toNat = v.toNat * 512 + k.toNat := by
    simp only [uint64_toNat_add, uint64_toNat_mul, uint64_toNat_ofNat, Nat.reducePow, Nat.reduceMod]
    omega
  rw [toLong_of_lt (by omega), this]

theorem toLong_lba_mul {v : UInt64} (h : v.toNat * 512 < 2 ^ 63) :
    toLong (v * 512) = ((v.toNat * 512 : Nat) : Int) := by
  have : (v * 512).toNat = v.toNat * 512 := by
    simp only [uint64_toNat_mul, uint64_toNat_ofNat, Nat.reducePow, Nat.reduceMod]
    omega
  rw [toLong_of_lt (by omega), this]

theorem toLong_lba_mul_sub {v : UInt64} (h1 : 32 ≤ v.toNat) (h2 : v.toNat * 512 < 2 ^ 63) :
    toLong (v * 512 - 128 * 128) = ((v.toNat * 512 - 128 * 128 : Nat) : Int) := by
  have : (v * 512 - 128 * 128).toNat = v.toNat * 512 - 128 * 128 := by
    simp only [uint64_toNat_sub, uint64_toNat_mul, uint64_toNat_ofNat, Nat.reducePow,
      Nat.reduceMod, Nat.reduceMul]
    omega
  rw [toLong_of_lt (by omega), this]

/-! ## The checksum pass -/

theorem calculateHeaderChecksum_eq {d : Disk} {loc : Nat} (h : loc + 92 ≤ d.size) :
    calculateHeaderChecksum d loc =
      some ((d.setPos (loc + 16)).write (le32 (crc32 (d.region loc 92)))) := by
  have h16 : (loc : Int) + 16 = ((loc + 16 : Nat) : Int) := by omega
  simp only [calculateHeaderChecksum, Disk.seek_natCast, Option.bind_eq_bind, Option.some_bind,
    Disk.read_setPos h, h16, Disk.setPos_setPos, Option.pure_def]

theorem calculatePartitionHeadersChecksum_eq {d : Disk} {B : Nat}
    (hB : leValue (d.region (512 + 32) 8) = B) (hsize : B * 512 + 92 ≤ d.size)
    (hlo : 17408 + 16384 ≤ B * 512) (hhi : B * 512 + 88 < 2 ^ 63) :
    calculatePartitionHeadersChecksum d =
      some ((((d.setPos 600).write (le32 (crc32 (d.region 1024 (128 * 128))))).setPos
        (B * 512 + 88)).write (le32 (crc32 (d.region (B * 512 - 128 * 128) (128 * 128))))) := by
  have hv : B.toUInt64.toNat = B := uint64_toNat_toUInt64_of_lt (by omega)
  have hsub : toLong (B.toUInt64 * 512 - 128 * 128) = ((B * 512 - 128 * 128 : Nat) : Int) := by
    rw [toLong_lba_mul_sub (by omega) (by omega), hv]
  have hadd : toLong (B.toUInt64 * 512 + 88) = ((B * 512 + 88 : Nat) : Int) := by
    rw [toLong_lba_mul_add (by rw [hv, show (88 : UInt64).toNat = 88 from rfl]; omega), hv]
    rfl
  have hw1 : ((d.setPos 600).write (le32 (crc32 (d.region 1024 (128 * 128))))).region 544 8 =
      d.region 544 8 := Disk.region_write_of_disjoint (by simp)
  have hw2 : ((d.setPos 600).write (le32 (crc32 (d.region 1024 (128 * 128))))).region
      (B * 512 - 128 * 128) (128 * 128) = d.region (B * 512 - 128 * 128) (128 * 128) :=
    Disk.region_write_of_disjoint (by simp; omega)
  have hw3 : ((d.setPos 600).write (le32 (crc32 (d.region 1024 (128 * 128))))).size = d.size := by
    rw [Disk.size_write_of_length_pos _ (by simp)]; simp; omega
  simp only [Nat.reduceAdd] at hB
  simp only [calculatePartitionHeadersChecksum, Int.reduceAdd, Disk.seek_ofNat, Option.bind_eq_bind,
    Option.some_bind]
  rw [Disk.read_setPos (by omega)]
  rw [Option.some_bind]
  dsimp only
  rw [Disk.setPos_setPos, Disk.read_setPos (by rw [hw3]; omega), Option.some_bind]
  dsimp only
  rw [hw1, hB, hsub, Disk.seek_natCast, Option.some_bind, Disk.read_setPos (by rw [Disk.size_setPos, hw3]; omega), Option.some_bind]
  dsimp only
  rw [hadd, Disk.seek_natCast, Option.some_bind, Disk.region_setPos, hw2, Disk.setPos_setPos,
    Disk.setPos_setPos]
  rfl

theorem region_le32_write (d : Disk) (p : Nat) (v : UInt32) :
    leValue (((d.setPos p).write (le32 v)).region p 4) = v.toNat := by
  rw [@Disk.region_write_of_pos (d.setPos p) _ p 4 rfl (le32_length v), leValue_le32]

theorem headerForChecksum_write_of_disjoint {d : Disk} {loc p : Nat} {bs : List UInt8}
    (h : loc + 92 ≤ p ∨ p + bs.length ≤ loc) :
    headerForChecksum ((d.setPos p).write bs) loc = headerForChecksum d loc := by
  rw [headerForChecksum, Disk.region_write_setPos_of_disjoint (by omega),
    Disk.region_write_setPos_of_disjoint (by omega), headerForChecksum]

/-- Writing the header checksum does not change what it is computed over. -/
theorem headerForChecksum_write_checksum {d : Disk} {loc : Nat} (v : UInt32)
    (hz : d.region (loc + 16) 4 = [0, 0, 0, 0]) :
    headerForChecksum ((d.setPos (loc + 16)).write (le32 v)) loc = d.region loc 92 := by
  rw [headerForChecksum, Disk.region_write_setPos_of_disjoint (by simp),
    Disk.region_write_setPos_of_disjoint (by simp), ← hz, show 92 = 16 + 4 + 72 from rfl,
    Disk.region_add, Disk.region_add]

section ChecksumPass

variable {d d1 d2 d3 d4 : Disk} {B : Nat}

/-- A checksum write leaves every range it misses. -/
theorem region_le32_write_of_disjoint {e : Disk} {p off n : Nat} (v : UInt32)
    (h : off + n ≤ p ∨ p + 4 ≤ off) : ((e.setPos p).write (le32 v)).region off n = e.region off n :=
  Disk.region_write_setPos_of_disjoint (by simpa using h)

/-- The four writes of `calculate_checksums` leave both headers with correct
checksums, given that both checksum fields were zero: the arrays are read
before any write, the array checksums land inside the 92 header bytes before
the header checksums are taken, and no write hits a range an earlier CRC covered. -/
theorem checksumsHold_of_writes (hlo : 17408 + 16384 ≤ B * 512)
    (hz1 : d.region (512 + 16) 4 = [0, 0, 0, 0]) (hz2 : d.region (B * 512 + 16) 4 = [0, 0, 0, 0])
    (hd1 : d1 = (d.setPos (512 + 88)).write (le32 (crc32 (d.region 1024 (128 * 128)))))
    (hd2 : d2 = (d1.setPos (B * 512 + 88)).write
      (le32 (crc32 (d.region (B * 512 - 128 * 128) (128 * 128)))))
    (hd3 : d3 = (d2.setPos (512 + 16)).write (le32 (crc32 (d2.region 512 92))))
    (hd4 : d4 = (d3.setPos (B * 512 + 16)).write (le32 (crc32 (d3.region (B * 512) 92)))) :
    ChecksumsHold d4 512 1024 ∧ ChecksumsHold d4 (B * 512) (B * 512 - 128 * 128) := by
  have arr1 : d4.region 1024 (128 * 128) = d.region 1024 (128 * 128) := by
    rw [hd4, region_le32_write_of_disjoint _ (by omega), hd3, region_le32_write_of_disjoint _ (by omega),
      hd2, region_le32_write_of_disjoint _ (by omega), hd1, region_le32_write_of_disjoint _ (by omega)]
  have arr2 : d4.region (B * 512 - 128 * 128) (128 * 128) =
      d.region (B * 512 - 128 * 128) (128 * 128) := by
    rw [hd4, region_le32_write_of_disjoint _ (by omega), hd3, region_le32_write_of_disjoint _ (by omega),
      hd2, region_le32_write_of_disjoint _ (by omega), hd1, region_le32_write_of_disjoint _ (by omega)]
  have zero1 : d2.region (512 + 16) 4 = [0, 0, 0, 0] := by
    rw [hd2, region_le32_write_of_disjoint _ (by omega), hd1,
      region_le32_write_of_disjoint _ (by omega), hz1]
  have zero2 : d3.region (B * 512 + 16) 4 = [0, 0, 0, 0] := by
    rw [hd3, region_le32_write_of_disjoint _ (by omega), hd2,
      region_le32_write_of_disjoint _ (by omega), hd1, region_le32_write_of_disjoint _ (by omega), hz2]
  refine ⟨⟨?_, ?_⟩, ⟨?_, ?_⟩⟩
  · rw [arr1, hd4, region_le32_write_of_disjoint _ (by omega), hd3,
      region_le32_write_of_disjoint _ (by omega), hd2, region_le32_write_of_disjoint _ (by omega), hd1,
      region_le32_write]
  · rw [hd4, headerForChecksum_write_of_disjoint (by simp; omega),
      region_le32_write_of_disjoint _ (by omega), hd3, headerForChecksum_write_checksum _ zero1,
      region_le32_write]
  · rw [arr2, hd4, region_le32_write_of_disjoint _ (by omega), hd3,
      region_le32_write_of_disjoint _ (by omega), hd2, region_le32_write]
  · rw [hd4, headerForChecksum_write_checksum _ zero2, region_le32_write]

/-- `calculate_checksums` on a disk whose primary header names backup LBA `B`:
the four writes of `checksumsHold_of_writes`, in that order. -/
theorem calculateChecksums_eq (hB : leValue (d.region (512 + 32) 8) = B)
    (hsize : B * 512 + 92 ≤ d.size) (hlo : 17408 + 16384 ≤ B * 512) (hhi : B * 512 + 88 < 2 ^ 63) :
    ∃ d1 d2 d3 d4, d1 = (d.setPos (512 + 88)).write (le32 (crc32 (d.region 1024 (128 * 128)))) ∧
      d2 = (d1.setPos (B * 512 + 88)).write
        (le32 (crc32 (d.region (B * 512 - 128 * 128) (128 * 128)))) ∧
      d3 = (d2.setPos (512 + 16)).write (le32 (crc32 (d2.region 512 92))) ∧
      d4 = (d3.setPos (B * 512 + 16)).write (le32 (crc32 (d3.region (B * 512) 92))) ∧
      calculateChecksums d = some d4 := by
  obtain ⟨d1, hd1⟩ : ∃ e, e = (d.setPos (512 + 88)).write
      (le32 (crc32 (d.region 1024 (128 * 128)))) := ⟨_, rfl⟩
  obtain ⟨d2, hd2⟩ : ∃ e, e = (d1.setPos (B * 512 + 88)).write
      (le32 (crc32 (d.region (B * 512 - 128 * 128) (128 * 128)))) := ⟨_, rfl⟩
  obtain ⟨d3, hd3⟩ : ∃ e, e = (d2.setPos (512 + 16)).write (le32 (crc32 (d2.region 512 92))) :=
    ⟨_, rfl⟩
  refine ⟨d1, d2, d3, _, hd1, hd2, hd3, rfl, ?_⟩
  have s1 : d.size ≤ d1.size := by rw [hd1]; exact Disk.size_le_size_write _ _ _
  have s2 : d1.size ≤ d2.size := by rw [hd2]; exact Disk.size_le_size_write _ _ _
  have s3 : d2.size ≤ d3.size := by rw [hd3]; exact Disk.size_le_size_write _ _ _
  have r3 : d3.region (512 + 32) 8 = d.region (512 + 32) 8 := by
    rw [hd3, region_le32_write_of_disjoint _ (by omega), hd2,
      region_le32_write_of_disjoint _ (by omega), hd1, region_le32_write_of_disjoint _ (by omega)]
  have hv : B.toUInt64.toNat = B := uint64_toNat_toUInt64_of_lt (by omega)
  have hloc : toLong (B.toUInt64 * 512) = ((B * 512 : Nat) : Int) := by
    rw [toLong_lba_mul (by omega), hv]
  have e2 : calculatePartitionHeadersChecksum d = some d2 := by
    rw [calculatePartitionHeadersChecksum_eq hB hsize hlo hhi, hd2, hd1]
  have e3 : calculateHeaderChecksum d2 512 = some d3 := by
    rw [hd3, ← calculateHeaderChecksum_eq (by omega)]
    rfl
  simp only [calculateChecksums, e2, e3, Option.bind_eq_bind, Option.some_bind, Int.reduceAdd,
    Disk.seek_ofNat]
  rw [Disk.read_setPos (by omega), Option.some_bind]
  dsimp only
  rw [r3, hB, hloc, calculateHeaderChecksum_eq (by simp; omega)]
  rfl

/-- Outside the four checksum fields the checksum pass changes nothing. -/
theorem region_of_checksum_writes {off n : Nat}
    (hd1 : d1 = (d.setPos (512 + 88)).write (le32 (crc32 (d.region 1024 (128 * 128)))))
    (hd2 : d2 = (d1.setPos (B * 512 + 88)).write
      (le32 (crc32 (d.region (B * 512 - 128 * 128) (128 * 128)))))
    (hd3 : d3 = (d2.setPos (512 + 16)).write (le32 (crc32 (d2.region 512 92))))
    (hd4 : d4 = (d3.setPos (B * 512 + 16)).write (le32 (crc32 (d3.region (B * 512) 92))))
    (h1 : off + n ≤ 512 + 88 ∨ 512 + 88 + 4 ≤ off) (h2 : off + n ≤ B * 512 + 88 ∨ B * 512 + 88 + 4 ≤ off)
    (h3 : off + n ≤ 512 + 16 ∨ 512 + 16 + 4 ≤ off) (h4 : off + n ≤ B * 512 + 16 ∨ B * 512 + 16 + 4 ≤ off) :
    d4.region off n = d.region off n := by
  rw [hd4, region_le32_write_of_disjoint _ h4, hd3, region_le32_write_of_disjoint _ h3, hd2,
    region_le32_write_of_disjoint _ h2, hd1, region_le32_write_of_disjoint _ h1]

end ChecksumPass

end Pure64

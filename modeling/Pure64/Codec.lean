import Mathlib.Data.List.Basic
import Mathlib.Algebra.Group.Nat.Basic

/-!
# Byte streams, the fixed-width integer codec and the file codec

`src/lib/dir.c` reads and writes the directory tree through three helpers
whose sources are not in the repository: `pure64_stream_read` and
`pure64_stream_write` (`stream.c`), `encode_uint64` and `decode_uint64`
(`misc.h`), and `pure64_file_export`/`pure64_file_import` (`file.c`).
This file fixes what the model assumes of each.

* The stream is the list of unread bytes. `pure64_stream_read` transfers
  exactly the requested count or fails (spec §4.1: no partial success), so
  a read is a guarded `take`/`drop`; writing appends. The tool's stream,
  `fstream_read`, is an `fread` that has already copied what was left into
  the buffer when it fails: the heap decoder (`Heap.lean`) writes those
  bytes before it reports the failure.
* The spec (§4.3, §9) fixes the integer codec's width — every count is a
  64-bit unsigned integer on eight bytes — but not its byte order, which is
  the host's. `UInt64Codec` keeps the width and leaves the order abstract:
  `decodeUint64` reads eight bytes and hands them to `ofBytes`,
  `encodeUint64` writes `toBytes`. The round trips of the tree encoding
  rest on two laws of the integer codec, `UInt64Codec.RoundTrip` and
  `UInt64Codec.Canonical`; `leCodec`, the little-endian order of x86-64,
  satisfies both.
* `struct pure64_file` is declared in `file.h`; the model keeps the two
  fields the spec names (the name and the data buffer). `FileCodec` is the
  export/import pair with the same two laws.

A 64-bit field can hold `2^64 - 1` at most, so a list the C code counts in
a `uint64_t` is shorter than `2^64`: `File.Fits` says so of a file.
-/

namespace Pure64

/-! ## 64-bit arithmetic through `toNat` -/

@[simp] theorem uint64_toNat_toUInt64 (n : Nat) : n.toUInt64.toNat = n % 2 ^ 64 := by
  simp [Nat.toUInt64, UInt64.toNat, UInt64.ofNat]

@[simp] theorem toUInt64_toNat (v : UInt64) : v.toNat.toUInt64 = v :=
  UInt64.toNat.inj (by simp [Nat.mod_eq_of_lt (UInt64.toNat_lt_size v)])

@[simp] theorem uint64_toNat_ofNat (n : Nat) :
    (no_index (OfNat.ofNat n : UInt64)).toNat = n % 2 ^ 64 := by
  simp [UInt64.toNat, UInt64.toBitVec_ofNat]

theorem uint64_lt_iff (a b : UInt64) : a < b ↔ a.toNat < b.toNat := by
  simp [UInt64.lt_def, BitVec.lt_def, UInt64.toNat]

theorem uint64_toNat_sub (a b : UInt64) : (a - b).toNat = (2 ^ 64 - b.toNat + a.toNat) % 2 ^ 64 := by
  simp [UInt64.sub_def, UInt64.toNat, BitVec.toNat_sub]

theorem uint64_toNat_mul (a b : UInt64) : (a * b).toNat = a.toNat * b.toNat % 2 ^ 64 := by
  simp [UInt64.mul_def, UInt64.toNat, BitVec.toNat_mul]

theorem uint64_toNat_add (a b : UInt64) : (a + b).toNat = (a.toNat + b.toNat) % 2 ^ 64 := by
  simp [UInt64.add_def, UInt64.toNat, BitVec.toNat_add]

theorem uint64_toNat_lt (v : UInt64) : v.toNat < 2 ^ 64 := UInt64.toNat_lt_size v

theorem uint64_toNat_toUInt64_of_lt {n : Nat} (h : n < 2 ^ 64) : n.toUInt64.toNat = n := by
  rw [uint64_toNat_toUInt64, Nat.mod_eq_of_lt h]

/-! ## The stream -/

/-- `pure64_stream_read` on the unread bytes `bs`: exactly `n` bytes and the
rest, or a short read. -/
def pure64StreamRead (n : Nat) (bs : List UInt8) : Option (List UInt8 × List UInt8) :=
  if n ≤ bs.length then some (bs.take n, bs.drop n) else none

@[simp] theorem pure64StreamRead_append {n : Nat} {b : List UInt8} (r : List UInt8)
    (h : b.length = n) : pure64StreamRead n (b ++ r) = some (b, r) := by
  subst h
  simp [pure64StreamRead]

/-- A successful read split the stream at `n`. -/
theorem pure64StreamRead_eq_some {n : Nat} {bs b r : List UInt8}
    (h : pure64StreamRead n bs = some (b, r)) : b.length = n ∧ bs = b ++ r := by
  unfold pure64StreamRead at h
  split at h
  · cases h
    exact ⟨by simp; omega, (List.take_append_drop n bs).symm⟩
  · cases h

/-! ## The integer codec of `misc.h` -/

/-- The byte order of `encode_uint64`/`decode_uint64`: the eight bytes a value
is written as, and the value eight bytes are read as. -/
structure UInt64Codec where
  toBytes : UInt64 → List UInt8
  ofBytes : List UInt8 → UInt64

/-- `encode_uint64`: the bytes written for `v`. -/
def encodeUint64 (c : UInt64Codec) (v : UInt64) : List UInt8 := c.toBytes v

/-- `decode_uint64`: one fixed-width read, then the codec's byte order. -/
def decodeUint64 (c : UInt64Codec) (bs : List UInt8) : Option (UInt64 × List UInt8) :=
  (pure64StreamRead 8 bs).map fun p => (c.ofBytes p.1, p.2)

/-- Decoding what was encoded gives the value back and stops right after it. -/
def UInt64Codec.RoundTrip (c : UInt64Codec) : Prop :=
  ∀ v r, decodeUint64 c (encodeUint64 c v ++ r) = some (v, r)

/-- Encoding a decoded value gives back exactly the bytes that were read. -/
def UInt64Codec.Canonical (c : UInt64Codec) : Prop :=
  ∀ b r v, decodeUint64 c (b ++ r) = some (v, r) → encodeUint64 c v = b

/-- A successful decode read eight bytes. -/
theorem decodeUint64_eq_some {c : UInt64Codec} {bs r : List UInt8} {v : UInt64}
    (h : decodeUint64 c bs = some (v, r)) : ∃ b, b.length = 8 ∧ bs = b ++ r := by
  unfold decodeUint64 at h
  cases hr : pure64StreamRead 8 bs with
  | none => simp [hr] at h
  | some p =>
    obtain ⟨b, r'⟩ := p
    simp only [hr, Option.map_some', Option.some.injEq, Prod.mk.injEq] at h
    obtain ⟨hl, hbs⟩ := pure64StreamRead_eq_some hr
    exact ⟨b, hl, h.2 ▸ hbs⟩

/-- Under a canonical codec a decode consumed exactly the encoding of its value. -/
theorem decodeUint64_split {c : UInt64Codec} (hc : c.Canonical) {bs r : List UInt8}
    {v : UInt64} (h : decodeUint64 c bs = some (v, r)) : bs = encodeUint64 c v ++ r := by
  obtain ⟨b, -, rfl⟩ := decodeUint64_eq_some h
  rw [hc b r v h]

/-- Fewer than eight bytes left: the decode fails. -/
theorem decodeUint64_of_length_lt (c : UInt64Codec) {bs : List UInt8} (h : bs.length < 8) :
    decodeUint64 c bs = none := by
  simp [decodeUint64, pure64StreamRead, Nat.not_le.mpr h]

/-- A round-tripping codec writes eight bytes. -/
theorem encodeUint64_length {c : UInt64Codec} (hc : c.RoundTrip) (v : UInt64) :
    (encodeUint64 c v).length = 8 := by
  obtain ⟨b, hb, he⟩ := decodeUint64_eq_some (hc v [])
  rw [List.append_nil, List.append_nil] at he
  rw [he, hb]

/-! ## The x86-64 byte order -/

@[simp] theorem uint8_toNat_toUInt8 (n : Nat) : n.toUInt8.toNat = n % 256 := by
  simp [Nat.toUInt8, UInt8.toNat, UInt8.ofNat]

theorem toUInt8_toNat (b : UInt8) : b.toNat.toUInt8 = b :=
  UInt8.toNat.inj (by simp [Nat.mod_eq_of_lt (UInt8.toNat_lt_size b)])

/-- The low `w` bytes of `n`, least significant first. -/
def leBytes : Nat → Nat → List UInt8
  | 0, _ => []
  | w + 1, n => (n % 256).toUInt8 :: leBytes w (n / 256)

/-- The number whose little-endian bytes are `bs`. -/
def leValue : List UInt8 → Nat
  | [] => 0
  | b :: bs => b.toNat + 256 * leValue bs

@[simp] theorem leBytes_length (w n : Nat) : (leBytes w n).length = w := by
  induction w generalizing n <;> simp [leBytes, *]

theorem leValue_leBytes (w n : Nat) : leValue (leBytes w n) = n % 256 ^ w := by
  induction w generalizing n with
  | zero => simp [leBytes, leValue, Nat.mod_one]
  | succ w ih =>
    rw [leBytes, leValue, ih, uint8_toNat_toUInt8, Nat.mod_mod, Nat.pow_succ', Nat.mod_mul]

theorem leBytes_leValue (bs : List UInt8) : leBytes bs.length (leValue bs) = bs := by
  induction bs with
  | nil => rfl
  | cons b bs ih =>
    have hb : b.toNat < 256 := UInt8.toNat_lt_size b
    have hmod : (b.toNat + 256 * leValue bs) % 256 = b.toNat := by omega
    have hdiv : (b.toNat + 256 * leValue bs) / 256 = leValue bs := by omega
    simp only [List.length_cons, leBytes, leValue, hmod, hdiv, ih, toUInt8_toNat]

theorem leValue_lt (bs : List UInt8) : leValue bs < 256 ^ bs.length := by
  induction bs with
  | nil => simp [leValue]
  | cons b bs ih =>
    have hb := UInt8.toNat_lt_size b
    rw [leValue, List.length_cons, Nat.pow_succ']
    change b.toNat < 256 at hb
    omega

/-- Modelled from the spec: the host byte order of `encode_uint64` and
`decode_uint64` on x86-64, least significant byte first. -/
def leCodec : UInt64Codec where
  toBytes v := leBytes 8 v.toNat
  ofBytes bs := (leValue bs).toUInt64

theorem leCodec_roundTrip : leCodec.RoundTrip := by
  intro v r
  simp only [decodeUint64, encodeUint64, leCodec]
  rw [pure64StreamRead_append r (leBytes_length 8 _)]
  simp [leValue_leBytes, Nat.mod_eq_of_lt (UInt64.toNat_lt_size v)]

theorem leCodec_canonical : leCodec.Canonical := by
  intro b r v h
  obtain ⟨b', hb', he⟩ := decodeUint64_eq_some h
  obtain rfl := List.append_cancel_right he
  simp only [decodeUint64, pure64StreamRead_append r hb', Option.map_some',
    Option.some.injEq, Prod.mk.injEq, and_true] at h
  have hlt : leValue b < 2 ^ 64 := by simpa [hb'] using leValue_lt b
  simp only [encodeUint64, leCodec, ← h, uint64_toNat_toUInt64, Nat.mod_eq_of_lt hlt]
  exact hb' ▸ leBytes_leValue b

/-! ## The file codec of `file.c` -/

/-- `struct pure64_file`, with the fields the spec names: the name and the data. -/
structure File where
  name : List UInt8
  data : List UInt8
deriving DecidableEq, Repr

/-- The file's two sizes fit the 64-bit fields they are counted in. -/
def File.Fits (f : File) : Prop := f.name.length < 2 ^ 64 ∧ f.data.length < 2 ^ 64

/-- `pure64_file_export` and `pure64_file_import`. -/
structure FileCodec where
  pure64FileExport : File → List UInt8
  pure64FileImport : List UInt8 → Option (File × List UInt8)

/-- Every representable file decodes from its encoding, leaving the suffix. -/
def FileCodec.RoundTrip (fc : FileCodec) : Prop :=
  ∀ f, f.Fits → ∀ r, fc.pure64FileImport (fc.pure64FileExport f ++ r) = some (f, r)

/-- Exporting an imported file writes exactly the bytes that were read: the
stream is read front to back, so what was read is the input less the
unread rest. -/
def FileCodec.Canonical (fc : FileCodec) : Prop :=
  ∀ bs f r, fc.pure64FileImport bs = some (f, r) → bs = fc.pure64FileExport f ++ r

/-- Modelled from the spec: `pure64_file_export` (`file.c` is not in the
sources) mirrors the directory header — the name size and the data size —
then writes the name and the data. -/
def pure64FileExportSpec (c : UInt64Codec) (f : File) : List UInt8 :=
  encodeUint64 c f.name.length.toUInt64 ++ encodeUint64 c f.data.length.toUInt64 ++
    f.name ++ f.data

/-- Modelled from the spec: `pure64_file_import`, the inverse reads. -/
def pure64FileImportSpec (c : UInt64Codec) (bs : List UInt8) : Option (File × List UInt8) := do
  let (nameSize, bs) ← decodeUint64 c bs
  let (dataSize, bs) ← decodeUint64 c bs
  let (name, bs) ← pure64StreamRead nameSize.toNat bs
  let (data, bs) ← pure64StreamRead dataSize.toNat bs
  pure (⟨name, data⟩, bs)

/-- The file codec the spec describes, over an integer codec. -/
def specFileCodec (c : UInt64Codec) : FileCodec := ⟨pure64FileExportSpec c, pure64FileImportSpec c⟩

theorem specFileCodec_roundTrip {c : UInt64Codec} (hc : c.RoundTrip) :
    (specFileCodec c).RoundTrip := by
  rintro ⟨name, data⟩ ⟨hn, hd⟩ r
  simp [specFileCodec, pure64FileExportSpec, pure64FileImportSpec, hc _ _,
    uint64_toNat_toUInt64_of_lt hn, uint64_toNat_toUInt64_of_lt hd]

theorem specFileCodec_canonical {c : UInt64Codec} (hc : c.Canonical) :
    (specFileCodec c).Canonical := by
  intro bs f r h
  simp only [specFileCodec, pure64FileImportSpec, Option.bind_eq_bind, Option.bind_eq_some,
    Option.pure_def, Option.some.injEq] at h
  obtain ⟨⟨ns, bs1⟩, h1, ⟨ds, bs2⟩, h2, ⟨name, bs3⟩, h3, ⟨data, bs4⟩, h4, he⟩ := h
  obtain ⟨rfl, rfl⟩ := Prod.mk.inj he
  obtain ⟨hn, rfl⟩ := pure64StreamRead_eq_some h3
  obtain ⟨hd, rfl⟩ := pure64StreamRead_eq_some h4
  dsimp only at h1 h2 hn hd ⊢
  rw [decodeUint64_split hc h1, decodeUint64_split hc h2]
  simp only [specFileCodec, pure64FileExportSpec, hn, hd, toUInt64_toNat, List.append_assoc]

end Pure64

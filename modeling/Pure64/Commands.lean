import Pure64.Cli
import Pure64.Image

/-!
# The commands of `main` and the image between runs

After its options (`Cli.lean`), `main` (`src/util/pure64.c`) hands `init`
and `mkfs` the image file. Every other command imports the file system with
`ramfs_import`, runs on it in memory (`pure64_cat`, `pure64_cp`,
`pure64_ls`, `pure64_mkdir`; `rm` and `rmdir` are empty branches) and, only
when the command succeeded, writes it back with `ramfs_export`.

`fs.c` is not in the sources: its calls are the parameters `FsOps`, the
operations the spec lists for the command line, and a pointer one of them
returns is a `Handle`: the value it points at and the file system after a
store through it. The host's files map names to `Disk`s. `pure64Main`
returns the exit status, what the commands wrote to `stdout` (the usage
text of `--help` and the messages to `stderr` are left out), and the files.
A writer that fails leaves the image as it was: `ramfs_export`, and
`pure64_init` with a one-sector MBR, fail only before they open it
(`ramfsExport_eq_none_iff`, `Env.pure64InitCommand_eq_none_iff`). So a run
writes at most its image, and one that fails changes no file
(`pure64Main_frame`, from the inversion lemma `pure64Main_cases`).

The in-memory reading is `memMain`: the same commands on a file system that
stays in memory, `mkfs` starting a new one. `pure64Main_imageView` is the
step: on an image `ramfs_export` wrote for `fs`, a run of `main` is the run
of `memMain` on `fs`, with the image rewritten from the file system it
leaves.

Main results:

> `pure64Runs_memRuns`: on a build that reads back what it writes (both
> stages fit, the file system is read where it is written, the file-system
> codec round-trips), any sequence of runs of `main` on one image, none of
> them `init`, prints what the same command lines print on the file system
> kept in memory, where a command that succeeds replaces it and one that
> fails changes nothing. Between runs the image is the `ramfs_export` of
> that file system, and no other file changes.

> `pure64Main_rm`: `rm` and `rmdir`, which `--help` lists as removing a
> file and a directory, remove nothing: on an image `main` wrote they
> succeed and leave every file as it was.

> `pure64Runs_not_gpt_and_boot`: every file `main` writes, over any
> sequence of runs, is a GPT disk from `init` (the signature at LBA 1, the
> partition array zero over stage 2's sector) or a boot image (LBA 1 zero,
> stage 2 at `0x2000`), so none is both, as the spec's image would be.
-/

namespace Pure64

/-! ## The file-system calls and the host -/

/-- Modelled from the spec: a pointer into the file system, as the value it
points at and the file system after a store through it. -/
structure Handle (Fs α : Type) where
  get : α
  set : α → Fs

/-- Modelled from the spec: the calls of the commands into `fs.c`, which is
not in the sources: `pure64_fs_init`, `pure64_fs_open_file` and
`pure64_fs_open_dir` (`none` is `NULL`), `pure64_fs_make_file` and
`pure64_fs_make_dir` (`none` is a nonzero error). -/
structure FsOps (Fs : Type) where
  pure64FsInit : Fs
  pure64FsOpenFile : Fs → List UInt8 → Option (Handle Fs File)
  pure64FsOpenDir : Fs → List UInt8 → Option Dir
  pure64FsMakeFile : Fs → List UInt8 → Option Fs
  pure64FsMakeDir : Fs → List UInt8 → Option Fs

/-- What `main` runs with besides its arguments and the host's files: the
code of `mbr.c` and `fs.c`, the build's three boot binaries and
`PURE64_FS_SECTOR`, and `sscanf`, `pure64_uuid_parse` and `malloc`. The
MBR binary is one boot sector. -/
structure Env (Fs : Type) where
  mbr : MbrPatch
  fsc : FsCodec Fs
  ops : FsOps Fs
  mbrData : List UInt8
  pure64Data : List UInt8
  stageThreeData : List UInt8
  fsSector : Nat
  scan : List UInt8 → ScanResult
  uuidParse : List UInt8 → Option Pure64Uuid
  alloc : Nat → Bool
  mbrData_length : mbrData.length = 512

/-- The host's files by name: what `fopen` opens. -/
abbrev HostFiles := List UInt8 → Option Disk

variable {Fs : Type}

namespace Env

/-- `ramfs_export` with the build's MBR code, codec and boot binaries. -/
def ramfsExport (e : Env Fs) (fs : Fs) : Option Disk :=
  Pure64.ramfsExport e.mbr e.fsc e.mbrData e.pure64Data e.stageThreeData fs

/-- `ramfs_import` of the build. -/
def ramfsImport (e : Env Fs) (file : Disk) : Option Fs :=
  Pure64.ramfsImport e.fsc e.fsSector file

end Env

/-! ## The commands -/

/-- The loop `pure64_cat` and `pure64_ls` share: open each path in turn and
print what `render` makes of it; `false` (`EXIT_FAILURE`) at the first path
that does not open, after what the earlier ones printed. -/
def printPaths {α : Type} (lookup : List UInt8 → Option α) (render : List UInt8 → α → List UInt8) :
    List (List UInt8) → Bool × List UInt8
  | [] => (true, [])
  | path :: argv =>
    match lookup path with
    | none => (false, [])
    | some a =>
      let (ok, out) := printPaths lookup render argv
      (ok, render path a ++ out)

/-- `pure64_cat(fs, argc, argv)`: `fwrite` of each file's `data_size` bytes
of `data`. -/
def pure64Cat (ops : FsOps Fs) (fs : Fs) (argv : List (List UInt8)) : Bool × List UInt8 :=
  printPaths (ops.pure64FsOpenFile fs) (fun _ file => file.get.data) argv

/-- What `pure64_ls` prints for one directory: `"%s:\n"` with the path, then
`"dir  : %s\n"` for each subdirectory and `"file : %s\n"` for each file, the
`%s` of a name stopping at its first zero byte. -/
def lsListing (path : List UInt8) (d : Dir) : List UInt8 :=
  path ++ ascii ":\n" ++
    (d.subdirs.map fun s => ascii "dir  : " ++ Heap.cString s.name ++ ascii "\n").flatten ++
    (d.files.map fun f => ascii "file : " ++ Heap.cString f.name ++ ascii "\n").flatten

/-- `pure64_ls(fs, argc, argv)`: with no path it calls itself on `"/"`. -/
def pure64Ls (ops : FsOps Fs) (fs : Fs) (argv : List (List UInt8)) : Bool × List UInt8 :=
  printPaths (ops.pure64FsOpenDir fs) lsListing (if argv = [] then [ascii "/"] else argv)

/-- `pure64_mkdir(fs, argc, argv)`: each directory in turn; `none`
(`EXIT_FAILURE`) at the first that `pure64_fs_make_dir` refuses. -/
def pure64Mkdir (ops : FsOps Fs) (fs : Fs) (argv : List (List UInt8)) : Option Fs :=
  argv.foldlM ops.pure64FsMakeDir fs

/-- `pure64_cp(fs, argc, argv)`: `none` is `EXIT_FAILURE`. The source is read
whole: `fseek` to its end, `ftell`, back to the start, then, once the
destination is made and opened and `malloc(src_size)` has returned a
buffer, `fread` of `src_size` bytes into it; the buffer becomes the
destination's data. -/
def pure64Cp (alloc : Nat → Bool) (files : HostFiles) (ops : FsOps Fs) (fs : Fs) :
    List (List UInt8) → Option Fs
  | srcPath :: dstPath :: _ => do
    let src ← files srcPath
    let src ← src.seek src.size
    let srcSize := src.pos
    let src ← src.seek 0
    let fs ← ops.pure64FsMakeFile fs dstPath
    let dst ← ops.pure64FsOpenFile fs dstPath
    if !alloc srcSize then none
    let (data, _) ← src.read srcSize
    pure (dst.set { dst.get with data := data })
  | _ => none

/-- A command other than `init` and `mkfs` on the imported file system:
`none` for an unknown command; otherwise the file system it leaves on
`EXIT_SUCCESS` (`none` on `EXIT_FAILURE`) and what it printed. `rm` and
`rmdir` are empty branches: `err` still holds the `EXIT_SUCCESS` of
`ramfs_import`. -/
def runCommand (e : Env Fs) (files : HostFiles) (cmd : List UInt8) (args : List (List UInt8))
    (fs : Fs) : Option (Option Fs × List UInt8) :=
  if strEq cmd (ascii "cat") then
    let (ok, out) := pure64Cat e.ops fs args
    some (if ok then some fs else none, out)
  else if strEq cmd (ascii "cp") then some (pure64Cp e.alloc files e.ops fs args, [])
  else if strEq cmd (ascii "ls") then
    let (ok, out) := pure64Ls e.ops fs args
    some (if ok then some fs else none, out)
  else if strEq cmd (ascii "mkdir") then some (pure64Mkdir e.ops fs args, [])
  else if strEq cmd (ascii "rm") then some (some fs, [])
  else if strEq cmd (ascii "rmdir") then some (some fs, [])
  else none

/-! ## `main` -/

/-- The host's files after a writer of `filename`: unchanged when it failed,
otherwise `filename` holds the image it wrote. -/
def saveImage (files : HostFiles) (filename out : List UInt8) :
    Option Disk → Bool × List UInt8 × HostFiles
  | none => (false, out, files)
  | some d => (true, out, Function.update files filename (some d))

/-- `main(argc, argv)` from `argv[1]` on the host's files: `EXIT_SUCCESS` or
not, what the command wrote to `stdout`, and the files it leaves. -/
def pure64Main (e : Env Fs) (files : HostFiles) (argv : List (List UInt8)) :
    Bool × List UInt8 × HostFiles :=
  match mainCommandLine argv with
  | none => (false, [], files)
  | some (filename, cmd, args) =>
    if strEq cmd (ascii "init") then
      saveImage files filename [] (pure64InitCommand e.scan e.uuidParse e.mbrData args)
    else if strEq cmd (ascii "mkfs") then
      saveImage files filename [] (e.ramfsExport e.ops.pure64FsInit)
    else
      match (files filename).bind e.ramfsImport with
      | none => (false, [], files)
      | some fs =>
        match runCommand e files cmd args fs with
        | none => (false, [], files)
        | some (none, out) => (false, out, files)
        | some (some fs', out) => saveImage files filename out (e.ramfsExport fs')

/-- `main` run on each command line in turn: the exit status and output of
each run, and the files at the end. -/
def pure64Runs (e : Env Fs) : HostFiles → List (List (List UInt8)) → List (Bool × List UInt8) × HostFiles
  | files, [] => ([], files)
  | files, argv :: argvs =>
    let (ok, out, files) := pure64Main e files argv
    let (rs, files) := pure64Runs e files argvs
    ((ok, out) :: rs, files)

/-! ## The commands' results -/

/-- `printPaths` succeeds exactly when every path opens, and then prints
each path's rendering in order. -/
theorem printPaths_eq_true_iff {α : Type} {lookup : List UInt8 → Option α}
    {render : List UInt8 → α → List UInt8} :
    ∀ {argv : List (List UInt8)} {out : List UInt8}, printPaths lookup render argv = (true, out) ↔
      ∃ as, argv.mapM lookup = some as ∧ out = (List.zipWith render argv as).flatten
  | [], out => by
    simp only [printPaths, Prod.mk.injEq, true_and, List.mapM_nil, Option.pure_def,
      Option.some.injEq, exists_eq_left, List.zipWith_nil_left, List.flatten_nil, eq_comm]
  | path :: argv, out => by
    simp only [List.mapM_cons, Option.bind_eq_bind, Option.pure_def, Option.bind_eq_some,
      Option.some.injEq]
    cases ha : lookup path with
    | none => simp [printPaths, ha]
    | some a =>
      rcases hp : printPaths lookup render argv with ⟨ok, out'⟩
      simp only [printPaths, ha, hp, Prod.mk.injEq, Option.some.injEq, exists_eq_left']
      constructor
      · rintro ⟨rfl, rfl⟩
        obtain ⟨as, has, rfl⟩ := printPaths_eq_true_iff.mp hp
        exact ⟨a :: as, ⟨as, has, rfl⟩, by simp⟩
      · rintro ⟨_, ⟨as, has, rfl⟩, rfl⟩
        obtain ⟨rfl, rfl⟩ := Prod.mk.inj (hp.symm.trans (printPaths_eq_true_iff.mpr ⟨as, has, rfl⟩))
        simp

/-! ## The writers fail before they open the image -/

/-- `ramfs_export` fails exactly when a boot stage is over the BIOS limit,
which it checks before `fopen`. -/
theorem ramfsExport_eq_none_iff {mbr : MbrPatch} {fsc : FsCodec Fs}
    {mbrData pure64Data stageThreeData : List UInt8} {fs : Fs} :
    ramfsExport mbr fsc mbrData pure64Data stageThreeData fs = none ↔
      0x7f < (pure64Data.length + 511) / 512 ∨ 0x7f < (stageThreeData.length + 511) / 512 := by
  constructor
  · intro h
    by_contra hfit
    obtain ⟨_, -, he⟩ := @ramfsExport_eq Fs mbr fsc mbrData pure64Data stageThreeData fs
      (by omega) (by omega)
    simp [he] at h
  · rintro hbig
    cases hd : ramfsExport mbr fsc mbrData pure64Data stageThreeData fs with
    | none => rfl
    | some d => have := ramfsExport_guards hd; omega

/-- With the build's one-sector MBR, `pure64_init` fails only in its option
loop or on the UUID, before `fopen`: the disk it then builds is 1 MiB, whose
backup header lies well below `2^63`. -/
theorem Env.pure64InitCommand_eq_none_iff (e : Env Fs) (argv : List (List UInt8)) :
    pure64InitCommand e.scan e.uuidParse e.mbrData argv = none ↔
      ∀ o, initOptionsLoop e.scan ⟨none, 1 * 1024 * 1024⟩ argv = some o →
        e.uuidParse (o.diskUuidStr.getD pure64DefaultDiskUuid) = none := by
  constructor
  · intro h ⟨diskUuidStr, diskSize⟩ ho
    cases hu : e.uuidParse (diskUuidStr.getD pure64DefaultDiskUuid) with
    | none => rfl
    | some diskUuid =>
      have hsize : diskSize = 1048576 := initOptionsLoop_diskSize e.scan _ argv ho
      subst hsize
      have hB : (primaryHeader (padDiskSize 1048576) diskUuid).backupLba.toNat * 512 < 2 ^ 63 :=
        show ((padDiskSize 1048576 - 512) / 512).toNat * 512 < 2 ^ 63 by decide
      obtain ⟨d, hd⟩ := pure64Init_isSome e.mbrData_length (by decide) hB
      rw [pure64InitCommand_eq ho hu, hd] at h
      cases h
  · intro h
    simp only [pure64InitCommand, Option.bind_eq_bind, Option.bind_eq_none]
    exact fun o ho u hu => absurd hu (by simp [h o ho])

/-- A build to run the theorems on: a zero MBR that the patch keeps zero,
one-byte stages (the file system at sector 17, where `PURE64_FS_SECTOR` 17
reads it), and a file system that counts the directories made, written as
that many ones and a zero: no file opens, and the root lists each
directory as `d`. -/
def countEnv : Env Nat where
  mbr := ⟨fun _ _ _ => List.replicate 512 0, fun _ _ _ => List.length_replicate _ _⟩
  fsc := ⟨fun n => List.replicate n 1 ++ [0], fun bs => some (bs.takeWhile (· == 1)).length⟩
  ops := ⟨0, fun _ _ => none, fun n _ => some (.mk [] (List.replicate n (.mk (ascii "d") [] [])) []),
    fun _ _ => none, fun n _ => some (n + 1)⟩
  mbrData := List.replicate 512 0
  pure64Data := [1]
  stageThreeData := [1]
  fsSector := 17
  scan _ := .noMatch
  uuidParse _ := none
  alloc _ := true
  mbrData_length := List.length_replicate _ _

theorem countEnv_roundTrip (n : Nat) (r : List UInt8) :
    countEnv.fsc.pure64FsImport (countEnv.fsc.pure64FsExport n ++ r) = some n := by
  suffices h : (List.replicate n (1 : UInt8) ++ [0] ++ r).takeWhile (· == 1) = List.replicate n 1 by
    have himport (bs : List UInt8) :
        countEnv.fsc.pure64FsImport bs = some (bs.takeWhile (· == 1)).length := rfl
    rw [himport, show countEnv.fsc.pure64FsExport n = List.replicate n 1 ++ [0] from rfl, h,
      List.length_replicate]
  induction n with
  | zero => rfl
  | succ n ih => simp [List.replicate_succ, List.takeWhile_cons, ih]

/-! ## The images `main` writes -/

/-- `"EFI PART"`, the signature `export_gpt_header` writes first. -/
def gptSignature : List UInt8 := [0x45, 0x46, 0x49, 0x20, 0x50, 0x41, 0x52, 0x54]

/-- What a reader finds in an image `pure64_init` writes: the GPT signature at
LBA 1, and zeros over the primary partition array, from byte 1024 to 17408. -/
def GptDisk (d : Disk) : Prop :=
  d.region 512 8 = gptSignature ∧ d.region 1024 (128 * 128) = List.replicate (128 * 128) 0

/-- What a reader finds in an image `ramfs_export` writes: LBA 1 zero, and
stage 2 at `0x2000`. -/
def BootImage (e : Env Fs) (d : Disk) : Prop :=
  d.region 512 512 = List.replicate 512 0 ∧ d.region 0x2000 e.pure64Data.length = e.pure64Data

theorem pure64Init_gptDisk {mbrData : List UInt8} {diskSize : UInt64} {diskUuid : Pure64Uuid}
    {d : Disk} (h : pure64Init mbrData diskSize diskUuid = some d) : GptDisk d := by
  obtain ⟨d0, hl, hc⟩ := pure64Init_laidOut h
  have hb := hl.lba_bounds
  obtain ⟨d1, d2, d3, d4, hd1, hd2, hd3, hd4, hc'⟩ :=
    calculateChecksums_eq hl.backupLba_field (by rw [hl.size_eq]; omega) (by omega) (by omega)
  obtain rfl : d = d4 := Option.some_injective _ (hc.symm.trans hc')
  refine ⟨?_, (hl.calculateChecksums_frame hc).2.1.trans hl.primary_entries⟩
  rw [region_of_checksum_writes hd1 hd2 hd3 hd4 (by omega) (by omega) (by omega) (by omega)]
  exact Disk.region_sub hl.primary (by omega : 0 + 8 ≤ 512)

theorem pure64InitCommand_gptDisk {scan : List UInt8 → ScanResult}
    {uuidParse : List UInt8 → Option Pure64Uuid} {mbrData : List UInt8} {argv : List (List UInt8)}
    {d : Disk} (h : pure64InitCommand scan uuidParse mbrData argv = some d) : GptDisk d := by
  simp only [pure64InitCommand, Option.bind_eq_bind, Option.bind_eq_some] at h
  obtain ⟨_, -, _, -, hd⟩ := h
  exact pure64Init_gptDisk hd

/-- `ramfs_export` with a one-sector MBR writes nothing over LBA 1: the MBR
sector lies below it, the stages and the file system from `0x2000` on. -/
theorem ramfsExport_bootImage {e : Env Fs} {fs : Fs} {d : Disk} (h : e.ramfsExport fs = some d) :
    BootImage e d := by
  have hstage2 := (ramfsExport_image h).1
  obtain ⟨h2, h3⟩ := ramfsExport_guards h
  obtain ⟨d4, hd4, he⟩ :=
    @ramfsExport_eq Fs e.mbr e.fsc e.mbrData e.pure64Data e.stageThreeData fs h2 h3
  rw [Env.ramfsExport, he, Option.some_inj] at h
  subst h
  have hs := ramfsOffsets_spec e.pure64Data.length e.stageThreeData.length
  dsimp only at hs hd4 hstage2 ⊢
  generalize ramfsOffsets e.pure64Data.length e.stageThreeData.length = o at hs hd4 hstage2 ⊢
  obtain ⟨o2, o3, of⟩ := o
  dsimp only at hs hd4 hstage2 ⊢
  obtain ⟨rfl, -, -, -, h23, -, h3f, -⟩ := hs
  refine ⟨?_, hstage2⟩
  have hpos : 1024 ≤ d4.pos := by rw [hd4]; simp only [Disk.pos_write, Disk.pos_setPos]; omega
  rw [Disk.region_write_setPos_of_disjoint (by rw [e.mbr.length_patch]; omega),
    region_padImage (by omega), hd4, Disk.region_write_setPos_of_disjoint (by omega),
    Disk.region_write_setPos_of_disjoint (by omega), Disk.region_write_setPos_of_disjoint (by omega),
    Disk.region_write_of_disjoint (by rw [e.mbrData_length]; simp)]
  simp [Disk.region, Disk.empty]

/-- A writer of `filename` that fails changes no file, and none writes
another file. -/
theorem saveImage_frame (files : HostFiles) (filename out : List UInt8) :
    ∀ x : Option Disk,
      ((saveImage files filename out x).1 = false → (saveImage files filename out x).2.2 = files) ∧
        ∀ name, (saveImage files filename out x).2.2 name ≠ files name → name = filename
  | none => ⟨fun _ => rfl, fun _ h => absurd rfl h⟩
  | some _ => ⟨nofun, fun _ h => by_contra fun hne => h (Function.update_noteq hne _ _)⟩

/-- Under every name a writer leaves what was there or an image it wrote. -/
theorem saveImage_writes {P : Disk → Prop} (files : HostFiles) (filename out name : List UInt8) :
    ∀ x : Option Disk, (∀ d, x = some d → P d) →
      (saveImage files filename out x).2.2 name = files name ∨
        ∃ d, (saveImage files filename out x).2.2 name = some d ∧ P d
  | none, _ => .inl rfl
  | some d, hx => by
    by_cases hn : name = filename
    · subst hn
      exact .inr ⟨d, Function.update_same _ _ _, hx d rfl⟩
    · exact .inl (Function.update_noteq hn _ _)

/-- Everything a run of `main` can do to the host's files: nothing, with
`EXIT_FAILURE`, or write the image of its command line through one of its
writers, whose images are `init`'s GPT disks and `ramfs_export`'s boot
images. -/
theorem pure64Main_cases (e : Env Fs) (files : HostFiles) (argv : List (List UInt8)) :
    (∃ out, pure64Main e files argv = (false, out, files)) ∨
      ∃ filename cmd args out x, mainCommandLine argv = some (filename, cmd, args) ∧
        pure64Main e files argv = saveImage files filename out x ∧
          ∀ d, x = some d → GptDisk d ∨ BootImage e d := by
  unfold pure64Main
  cases hcl : mainCommandLine argv with
  | none => exact .inl ⟨[], rfl⟩
  | some cl =>
    obtain ⟨filename, cmd, args⟩ := cl
    dsimp only
    split
    · exact .inr ⟨_, _, _, _, _, rfl, rfl, fun _ hd => .inl (pure64InitCommand_gptDisk hd)⟩
    split
    · exact .inr ⟨_, _, _, _, _, rfl, rfl, fun _ hd => .inr (ramfsExport_bootImage hd)⟩
    split
    · exact .inl ⟨_, rfl⟩
    split
    · exact .inl ⟨_, rfl⟩
    · exact .inl ⟨_, rfl⟩
    · exact .inr ⟨_, _, _, _, _, rfl, rfl, fun _ hd => .inr (ramfsExport_bootImage hd)⟩

/-- **`main` writes at most its image.** Whatever it runs, a file other
than the image of its command line is as it was, and a run that fails
changes no file. -/
theorem pure64Main_frame (e : Env Fs) (files : HostFiles) (argv : List (List UInt8)) :
    ((pure64Main e files argv).1 = false → (pure64Main e files argv).2.2 = files) ∧
      ∀ name, (pure64Main e files argv).2.2 name ≠ files name →
        ∃ cmd args, mainCommandLine argv = some (name, cmd, args) := by
  rcases pure64Main_cases e files argv with ⟨out, h⟩ | ⟨filename, cmd, args, out, x, hcl, h, -⟩
  · rw [h]
    exact ⟨fun _ => rfl, fun _ hn => absurd rfl hn⟩
  · rw [h]
    have hx := saveImage_frame files filename out x
    exact ⟨hx.1, fun name hn => ⟨cmd, args, by rw [hcl, hx.2 name hn]⟩⟩

/-- Whatever `main` leaves under a name is what was there, or an image of one
of the two kinds. -/
theorem pure64Main_writes (e : Env Fs) (files : HostFiles) (argv : List (List UInt8))
    (name : List UInt8) :
    (pure64Main e files argv).2.2 name = files name ∨
      ∃ d, (pure64Main e files argv).2.2 name = some d ∧ (GptDisk d ∨ BootImage e d) := by
  rcases pure64Main_cases e files argv with ⟨out, h⟩ | ⟨filename, -, -, out, x, -, h, hx⟩
  · exact .inl (by rw [h])
  · rw [h]
    exact saveImage_writes files filename out name x hx

/-- Over any sequence of runs, whatever `main` leaves under a name is what was
there, or an image of one of the two kinds. -/
theorem pure64Runs_writes (e : Env Fs) (name : List UInt8) :
    ∀ (files : HostFiles) (argvs : List (List (List UInt8))),
      (pure64Runs e files argvs).2 name = files name ∨
        ∃ d, (pure64Runs e files argvs).2 name = some d ∧ (GptDisk d ∨ BootImage e d)
  | _, [] => .inl rfl
  | files, argv :: argvs => by
    simp only [pure64Runs]
    rcases pure64Runs_writes e name (pure64Main e files argv).2.2 argvs with h | h
    · rw [h]
      exact pure64Main_writes e files argv name
    · exact .inr h

/-- **No image is both a GPT disk and bootable.** The spec's image is at
once GPT-partitioned and carries the boot stages; over any sequence of runs,
no file `main` writes has both the GPT signature at LBA 1 and stage 2 at
`0x2000`, when stage 2 has a nonzero byte among its first 9216, the bytes
that `pure64_init` zeroes as the primary partition array. -/
theorem pure64Runs_not_gpt_and_boot {e : Env Fs}
    (hnz : ∃ i < 9216, e.pure64Data.getD i 0 ≠ 0) (files : HostFiles)
    (argvs : List (List (List UInt8))) (name : List UInt8) {d : Disk}
    (hd : (pure64Runs e files argvs).2 name = some d) (hnew : files name ≠ some d) :
    ¬ (d.region 512 8 = gptSignature ∧ d.region 0x2000 e.pure64Data.length = e.pure64Data) := by
  rintro ⟨hsig, hstage2⟩
  rcases pure64Runs_writes e name files argvs with h | ⟨d', h, hkind⟩
  · exact hnew (h ▸ hd)
  obtain rfl : d = d' := Option.some_injective _ (hd.symm.trans h)
  rcases hkind with ⟨-, hzero⟩ | ⟨hlba1, -⟩
  · obtain ⟨i, hi, hne⟩ := hnz
    have hlen : i < e.pure64Data.length := by
      by_contra hle
      exact hne (List.getD_eq_default _ _ (Nat.le_of_not_lt hle))
    have h0 := Disk.byte_of_region hzero (by omega : 7168 + i < 128 * 128)
    have hrep : (List.replicate (128 * 128) (0 : UInt8)).getD (7168 + i) 0 = 0 := by
      rw [List.getD_eq_getElem?_getD, List.getElem?_getD_replicate_default_eq]
    rw [← Nat.add_assoc, Disk.byte_of_region hstage2 hlen, hrep] at h0
    exact hne h0
  · have := Disk.region_sub hlba1 (by omega : 0 + 8 ≤ 512)
    rw [hsig] at this
    exact absurd this (by decide)

/-- `pure64 mkfs` with the one-byte stage 2 `[1]`. -/
theorem pure64Runs_not_gpt_and_boot_mkfs : ∃ d, (∃ i < 9216, countEnv.pure64Data.getD i 0 ≠ 0) ∧
    (pure64Runs countEnv (fun _ => none) [[ascii "mkfs"]]).2 defaultFilename = some d ∧
    (fun _ => none : HostFiles) defaultFilename ≠ some d ∧
    ¬ (d.region 512 8 = gptSignature ∧
      d.region 0x2000 countEnv.pure64Data.length = countEnv.pure64Data) := by
  obtain ⟨d, hd⟩ : ∃ d, countEnv.ramfsExport countEnv.ops.pure64FsInit = some d :=
    Option.ne_none_iff_exists'.mp (ramfsExport_eq_none_iff.not.mpr (by decide))
  have hcl : mainCommandLine [ascii "mkfs"] = some (defaultFilename, ascii "mkfs", []) := rfl
  have hmain : pure64Main countEnv (fun _ => none) [ascii "mkfs"] =
      (true, [], Function.update (fun _ => none) defaultFilename (some d)) := by
    rw [pure64Main, hcl]
    dsimp only
    rw [if_neg (by decide), if_pos (by decide), hd, saveImage]
  have hrun : (pure64Runs countEnv (fun _ => none) [[ascii "mkfs"]]).2 defaultFilename = some d := by
    simp only [pure64Runs, hmain, Function.update_same]
  have hnz : ∃ i < 9216, countEnv.pure64Data.getD i 0 ≠ 0 := ⟨0, by decide, by decide⟩
  exact ⟨d, hnz, hrun, nofun, pure64Runs_not_gpt_and_boot hnz _ _ _ hrun nofun⟩

/-! ## The file system in memory -/

/-- The host's files when the image `filename` is what `ramfs_export`
writes for `fs`. -/
def imageView (e : Env Fs) (filename : List UInt8) (files : HostFiles) (fs : Fs) : HostFiles :=
  Function.update files filename (e.ramfsExport fs)

/-- A command line run on a file system that stays in memory: `mkfs` starts
a new one, a command that succeeds replaces it, and anything else leaves
it. -/
def memMain (e : Env Fs) (files : HostFiles) (fs : Fs) (argv : List (List UInt8)) :
    Bool × List UInt8 × Fs :=
  match mainCommandLine argv with
  | none => (false, [], fs)
  | some (_, cmd, args) =>
    if strEq cmd (ascii "mkfs") then (true, [], e.ops.pure64FsInit)
    else
      match runCommand e files cmd args fs with
      | none => (false, [], fs)
      | some (none, out) => (false, out, fs)
      | some (some fs', out) => (true, out, fs')

/-- The command lines `memMain` stands for: those run on the image
`filename` with a command other than `init`, and those refused before the
command. -/
def onImage (filename : List UInt8) (argv : List (List UInt8)) : Bool :=
  match mainCommandLine argv with
  | none => true
  | some (name, cmd, _) => name == filename && !strEq cmd (ascii "init")

/-- `memMain` on each command line in turn, the commands reading the host's
files with the image `filename` written from the file system of the
moment. -/
def memRuns (e : Env Fs) (filename : List UInt8) (files : HostFiles) :
    Fs → List (List (List UInt8)) → List (Bool × List UInt8) × Fs
  | fs, [] => ([], fs)
  | fs, argv :: argvs =>
    let (ok, out, fs') := memMain e (imageView e filename files fs) fs argv
    let (rs, fs'') := memRuns e filename files fs' argvs
    ((ok, out) :: rs, fs'')

/-- A build whose images `main` reads back: both stages fit the BIOS read,
`PURE64_DISK_LOCATION` is the build's `fs_offset`, and the file-system codec
reads back what it writes, whatever follows it. -/
structure Env.Consistent (e : Env Fs) : Prop where
  stage2 : (e.pure64Data.length + 511) / 512 ≤ 0x7f
  stage3 : (e.stageThreeData.length + 511) / 512 ≤ 0x7f
  location : pure64DiskLocation e.fsSector =
    (ramfsOffsets e.pure64Data.length e.stageThreeData.length).2.2
  roundTrip : ∀ fs r, e.fsc.pure64FsImport (e.fsc.pure64FsExport fs ++ r) = some fs

theorem countEnv_consistent : countEnv.Consistent :=
  ⟨by decide, by decide, by decide, countEnv_roundTrip⟩

section Consistent

variable {e : Env Fs}

theorem Env.Consistent.ramfsExport_ne_none (hc : e.Consistent) (fs : Fs) :
    e.ramfsExport fs ≠ none := fun h => by
  have := ramfsExport_eq_none_iff.mp h
  have := hc.stage2
  have := hc.stage3
  omega

/-- The image `imageView` holds reads back as its file system. -/
theorem Env.Consistent.ramfsImport_imageView (hc : e.Consistent) (filename : List UInt8)
    (files : HostFiles) (fs : Fs) :
    (imageView e filename files fs filename).bind e.ramfsImport = some fs := by
  obtain ⟨d, hd⟩ := Option.ne_none_iff_exists'.mp (hc.ramfsExport_ne_none fs)
  rw [imageView, Function.update_same, hd, Option.some_bind, Env.ramfsImport]
  exact ramfsImport_ramfsExport hd hc.location (hc.roundTrip fs)

/-- Writing the export of `fs'` over an image succeeds and leaves the view
of `fs'`. -/
theorem saveImage_imageView (hc : e.Consistent) (filename : List UInt8) (files : HostFiles)
    (fs fs' : Fs) (out : List UInt8) :
    saveImage (imageView e filename files fs) filename out (e.ramfsExport fs') =
      (true, out, imageView e filename files fs') := by
  obtain ⟨d, hd⟩ := Option.ne_none_iff_exists'.mp (hc.ramfsExport_ne_none fs')
  rw [hd, saveImage, imageView, imageView, hd, Function.update_idem]

/-- **One run of `main`.** On an image `ramfs_export` wrote for `fs`, a
command line `memMain` stands for prints what it prints on `fs` in memory,
and the image is then the export of the file system it leaves. -/
theorem pure64Main_imageView (hc : e.Consistent) {filename : List UInt8}
    {argv : List (List UInt8)} (h : onImage filename argv = true) (files : HostFiles) (fs : Fs) :
    pure64Main e (imageView e filename files fs) argv =
      let r := memMain e (imageView e filename files fs) fs argv
      (r.1, r.2.1, imageView e filename files r.2.2) := by
  unfold pure64Main memMain
  unfold onImage at h
  cases hcl : mainCommandLine argv with
  | none => rfl
  | some cl =>
    obtain ⟨name, cmd, args⟩ := cl
    simp only [hcl, Bool.and_eq_true, beq_iff_eq, Bool.not_eq_true'] at h
    obtain ⟨rfl, hinit⟩ := h
    simp only [hinit, Bool.false_eq_true, if_false]
    by_cases hmkfs : strEq cmd (ascii "mkfs") = true
    · simp only [hmkfs, if_true, saveImage_imageView hc]
    simp only [hmkfs, Bool.false_eq_true, if_false, hc.ramfsImport_imageView]
    cases runCommand e (imageView e name files fs) cmd args fs with
    | none => rfl
    | some r =>
      obtain ⟨_ | fs', out⟩ := r
      · rfl
      · exact saveImage_imageView hc _ _ _ _ _

/-- **Runs of `main` on one image.** On a build that reads back what it
writes, starting from an image `ramfs_export` wrote for `fs`, runs of
`main` on command lines `memMain` stands for print what they print on the
file system kept in memory; at the end the image is the export of the file
system they leave there, and every other file is as it was. -/
theorem pure64Runs_memRuns (hc : e.Consistent) (filename : List UInt8) (files : HostFiles) :
    ∀ (fs : Fs) (argvs : List (List (List UInt8))), argvs.all (onImage filename) = true →
      pure64Runs e (imageView e filename files fs) argvs =
        ((memRuns e filename files fs argvs).1,
          imageView e filename files (memRuns e filename files fs argvs).2)
  | _, [], _ => rfl
  | fs, argv :: argvs, h => by
    simp only [List.all_cons, Bool.and_eq_true] at h
    simp only [pure64Runs, memRuns, pure64Main_imageView hc h.1]
    obtain ⟨ok, out, fs'⟩ := memMain e (imageView e filename files fs) fs argv
    simp only [pure64Runs_memRuns hc filename files fs' argvs h.2]

/-- `pure64 mkfs`, `pure64 mkdir a`, `pure64 cat a`, `pure64 mkdir b` and
`pure64 ls` on `pure64.img`, each run reading the image the one before
wrote: `cat` finds no file, and `ls` lists the two directories made. -/
theorem pure64Runs_memRuns_count :
    countEnv.Consistent ∧
      [[ascii "mkfs"], [ascii "mkdir", ascii "a"], [ascii "cat", ascii "a"], [ascii "mkdir", ascii "b"],
        [ascii "ls"]].all (onImage defaultFilename) = true ∧
      memRuns countEnv defaultFilename (fun _ => none) 0
          [[ascii "mkfs"], [ascii "mkdir", ascii "a"], [ascii "cat", ascii "a"],
            [ascii "mkdir", ascii "b"], [ascii "ls"]] =
        ([(true, []), (true, []), (false, []), (true, []),
          (true, ascii "/:\ndir  : d\ndir  : d\n")], 2) ∧
      pure64Runs countEnv (imageView countEnv defaultFilename (fun _ => none) 0)
          [[ascii "mkfs"], [ascii "mkdir", ascii "a"], [ascii "cat", ascii "a"],
            [ascii "mkdir", ascii "b"], [ascii "ls"]] =
        ((memRuns countEnv defaultFilename (fun _ => none) 0
            [[ascii "mkfs"], [ascii "mkdir", ascii "a"], [ascii "cat", ascii "a"],
              [ascii "mkdir", ascii "b"], [ascii "ls"]]).1,
          imageView countEnv defaultFilename (fun _ => none)
            (memRuns countEnv defaultFilename (fun _ => none) 0
              [[ascii "mkfs"], [ascii "mkdir", ascii "a"], [ascii "cat", ascii "a"],
                [ascii "mkdir", ascii "b"], [ascii "ls"]]).2) := by
  have h := pure64Runs_memRuns countEnv_consistent defaultFilename (fun _ => none) 0
    [[ascii "mkfs"], [ascii "mkdir", ascii "a"], [ascii "cat", ascii "a"], [ascii "mkdir", ascii "b"],
      [ascii "ls"]] (by decide)
  exact ⟨countEnv_consistent, by decide, rfl, h⟩

/-- **`rm` and `rmdir` remove nothing.** `--help` lists them as removing a
file and a directory; on an image `ramfs_export` wrote, either command
succeeds, prints nothing and leaves every file as it was. -/
theorem pure64Main_rm (hc : e.Consistent) {argv : List (List UInt8)} {filename cmd : List UInt8}
    {args : List (List UInt8)} (hcl : mainCommandLine argv = some (filename, cmd, args))
    (hrm : cmd = ascii "rm" ∨ cmd = ascii "rmdir") (files : HostFiles) (fs : Fs) :
    pure64Main e (imageView e filename files fs) argv = (true, [], imageView e filename files fs) := by
  have h : onImage filename argv = true := by
    rcases hrm with rfl | rfl <;> simp only [onImage, hcl, beq_self_eq_true, Bool.true_and] <;> decide
  rw [pure64Main_imageView hc h]
  rcases hrm with rfl | rfl <;> simp only [memMain, hcl] <;> rfl

/-- `pure64 rm a` on `pure64.img` holding one directory. -/
theorem pure64Main_rm_count :
    countEnv.Consistent ∧
      mainCommandLine [ascii "rm", ascii "a"] = some (defaultFilename, ascii "rm", [ascii "a"]) ∧
      pure64Main countEnv (imageView countEnv defaultFilename (fun _ => none) 1) [ascii "rm", ascii "a"] =
        (true, [], imageView countEnv defaultFilename (fun _ => none) 1) :=
  have hcl : mainCommandLine [ascii "rm", ascii "a"] = some (defaultFilename, ascii "rm", [ascii "a"]) :=
    rfl
  ⟨countEnv_consistent, hcl, pure64Main_rm countEnv_consistent hcl (.inl rfl) _ _⟩

end Consistent

end Pure64

import Pure64.Init
import Pure64.StoreRuns

/-!
# The command line

`main` (`src/util/pure64.c`) reads its options with `check_opt` and
`is_opt`: `--help` or `-h` fails, `--file` or `-f` takes the next argument
as the image file, any other argument starting with `-` is refused, and the
first argument left is the command. `pure64_init` reads its own options the
same way: `--disk-uuid` takes the next argument, `--disk-size` hands it to
`sscanf`.

An argument is the bytes of the string before its terminator. `strcmp` is
compared through `pure64_strcmp`, which has its sign. `sscanf` and
`pure64_uuid_parse` (not in the sources) are parameters.

Main results:

> `mainCommandLine_iff`: `main` goes on to a command exactly on the command
> lines made of `--file` options, each with its value, then a word that does
> not start with `-`; the image file is the last value given, or
> `pure64.img`.

> `pure64InitCommand_oneMiB`: `--disk-size` never takes effect. `sscanf`
> stores a value only when it returns `1`, and the loop refuses that; so
> every image `pure64 init` writes is the one of the default 1 MiB disk.
-/

namespace Pure64

open Heap

/-! ## Strings -/

/-- The bytes of an ASCII literal of the source. -/
def ascii (s : String) : List UInt8 := s.toList.map Char.toUInt8

/-- `strcmp(a, b) == 0`. -/
def strEq (a b : List UInt8) : Bool := pure64Strcmp a b == 0

/-- `arg[k]`: the byte after the last one is the terminator. -/
def argByte (arg : List UInt8) (k : Nat) : UInt8 := arg.getD k 0

/-- `check_opt(arg, opt, s_opt)`: `arg` is `-` then `s_opt`, or `--` then
`opt`. -/
def checkOpt (arg opt : List UInt8) (sOpt : UInt8) : Bool :=
  strEq ['-'.toUInt8, sOpt, 0] arg ||
    (argByte arg 0 == '-'.toUInt8 && argByte arg 1 == '-'.toUInt8 && strEq (arg.drop 2) opt)

/-- `is_opt(argv)`: the argument starts with `-`. -/
def isOpt (arg : List UInt8) : Bool := argByte arg 0 == '-'.toUInt8

@[simp] theorem dash_toUInt8 : '-'.toUInt8 = 45 := rfl

theorem strEq_iff {a b : List UInt8} (ha : 0 ∉ a) (hb : 0 ∉ b) : strEq a b = true ↔ a = b := by
  rw [strEq, beq_iff_eq, pure64Strcmp_eq_zero_iff_cString, cString_of_zero_not_mem ha,
    cString_of_zero_not_mem hb]

/-- `check_opt` accepts exactly the short and the long spelling. -/
theorem checkOpt_iff {arg opt : List UInt8} {sOpt : UInt8} (hs : sOpt ≠ 0) (ha : 0 ∉ arg)
    (ho : 0 ∉ opt) : checkOpt arg opt sOpt = true ↔ arg = [45, sOpt] ∨ arg = 45 :: 45 :: opt := by
  have hshort : strEq ['-'.toUInt8, sOpt, 0] arg = true ↔ arg = [45, sOpt] := by
    rw [strEq, beq_iff_eq, pure64Strcmp_eq_zero_iff_cString, cString_of_zero_not_mem ha, eq_comm]
    simp [cString_cons, hs]
  have hlong : (argByte arg 0 == '-'.toUInt8 && argByte arg 1 == '-'.toUInt8 &&
      strEq (arg.drop 2) opt) = true ↔ arg = 45 :: 45 :: opt := by
    rcases arg with _ | ⟨a, _ | ⟨b, rest⟩⟩
    · simp [argByte]
    · simp [argByte]
    · have hrest : 0 ∉ rest := fun h => ha (by simp [h])
      simp [argByte, strEq_iff hrest ho, and_assoc]
  rw [checkOpt, Bool.or_eq_true, hshort, hlong]

theorem isOpt_of_checkOpt {arg opt : List UInt8} {sOpt : UInt8} (h : checkOpt arg opt sOpt = true) :
    isOpt arg = true := by
  rcases arg with _ | ⟨a, rest⟩
  · simp [checkOpt, strEq, pure64Strcmp, argByte] at h
  · simp only [checkOpt, strEq, Bool.or_eq_true, Bool.and_eq_true, beq_iff_eq] at h
    rcases h with h | ⟨⟨h, -⟩, -⟩
    · rw [pure64Strcmp_eq_zero_iff_cString] at h
      by_cases ha : a = 0 <;> simp_all [cString_cons, isOpt, argByte]
    · simpa [isOpt] using h

/-! ## The options of `main` -/

/-- `"pure64.img"`, the image file of `main` when no `--file` is given. -/
def defaultFilename : List UInt8 := ascii "pure64.img"

/-- The option loop of `main`, from `argv[1]`. `--help` and an unknown
option end it with `EXIT_FAILURE` (`none`); `--file` takes the next
argument, `NULL` after the last one; the first argument not starting with
`-` ends it. It returns `filename` and the arguments from there on. -/
def mainOptions (filename : Option (List UInt8)) :
    List (List UInt8) → Option (Option (List UInt8) × List (List UInt8))
  | [] => some (filename, [])
  | arg :: args =>
    if checkOpt arg (ascii "help") 'h'.toUInt8 then none
    else if checkOpt arg (ascii "file") 'f'.toUInt8 then
      match args with
      | [] => some (none, [])
      | v :: args => mainOptions (some v) args
    else if isOpt arg then none
    else some (filename, arg :: args)

/-- `main` up to the command: `none` when it returns `EXIT_FAILURE` first
(help, an unknown option, no file name after `--file`, no command);
otherwise the image file, the command and the command's arguments. -/
def mainCommandLine (argv : List (List UInt8)) :
    Option (List UInt8 × List UInt8 × List (List UInt8)) := do
  let (filename, rest) ← mainOptions (some defaultFilename) argv
  let filename ← filename
  match rest with
  | [] => none
  | cmd :: args => some (filename, cmd, args)

/-- A `--file` option as written: `-f` (`short`) or `--file`, then its value. -/
def fileOption (o : Bool × List UInt8) : List (List UInt8) :=
  [if o.1 then ascii "-f" else ascii "--file", o.2]

/-- The file a list of `--file` options leaves: the last value. -/
def lastFile (filename : List UInt8) (opts : List (Bool × List UInt8)) : List UInt8 :=
  opts.foldl (fun _ o => o.2) filename

theorem mainOptions_fileOptions (rest : List (List UInt8)) :
    ∀ (opts : List (Bool × List UInt8)) (filename : List UInt8),
      mainOptions (some filename) ((opts.map fileOption).flatten ++ rest) =
        mainOptions (some (lastFile filename opts)) rest
  | [], _ => rfl
  | (short, v) :: opts, filename => by
    have ih := mainOptions_fileOptions rest opts v
    cases short <;> simpa [fileOption, mainOptions, lastFile] using ih

theorem mainOptions_command {filename : Option (List UInt8)} {cmd : List UInt8}
    (args : List (List UInt8)) (h : isOpt cmd = false) :
    mainOptions filename (cmd :: args) = some (filename, cmd :: args) := by
  have hhelp : checkOpt cmd (ascii "help") 'h'.toUInt8 = false :=
    Bool.eq_false_iff.mpr fun hc => by simp [isOpt_of_checkOpt hc] at h
  have hfile : checkOpt cmd (ascii "file") 'f'.toUInt8 = false :=
    Bool.eq_false_iff.mpr fun hc => by simp [isOpt_of_checkOpt hc] at h
  cases args <;> simp [mainOptions, hhelp, hfile, h]

/-- What `main` reads as options: `--file` options, then either nothing
or a word that does not start with `-`. -/
theorem mainOptions_sound : ∀ (argv : List (List UInt8)) (filename : List UInt8)
    {filename' : List UInt8} {rest : List (List UInt8)}, (∀ a ∈ argv, 0 ∉ a) →
    mainOptions (some filename) argv = some (some filename', rest) →
      ∃ opts, argv = (opts.map fileOption).flatten ++ rest ∧ filename' = lastFile filename opts ∧
        ∀ cmd args, rest = cmd :: args → isOpt cmd = false
  | [], filename, _, _, _, h => by
    simp only [mainOptions, Option.some.injEq, Prod.mk.injEq] at h
    obtain ⟨rfl, rfl⟩ := h
    exact ⟨[], rfl, rfl, by simp⟩
  | [arg], filename, filename', rest, hnul, h => by
    simp only [mainOptions] at h
    split_ifs at h with hhelp hfile hopt
    · simp at h
    simp only [Option.some.injEq, Prod.mk.injEq] at h
    obtain ⟨rfl, rfl⟩ := h
    refine ⟨[], rfl, rfl, ?_⟩
    rintro cmd args ⟨rfl, -⟩
    simpa using hopt
  | arg :: v :: args, filename, filename', rest, hnul, h => by
    simp only [mainOptions] at h
    split_ifs at h with hhelp hfile hopt
    · obtain ⟨opts, rfl, rfl, hcmd⟩ := mainOptions_sound args v
        (fun a ha => hnul a (by simp [ha])) h
      have hshort : arg = ascii "-f" ∨ arg = ascii "--file" :=
        (checkOpt_iff (by decide) (hnul arg (List.mem_cons_self _ _)) (by decide)).mp hfile
      rcases hshort with rfl | rfl
      · exact ⟨(true, v) :: opts, by simp [fileOption], rfl, hcmd⟩
      · exact ⟨(false, v) :: opts, by simp [fileOption], rfl, hcmd⟩
    · simp only [Option.some.injEq, Prod.mk.injEq] at h
      obtain ⟨rfl, rfl⟩ := h
      refine ⟨[], rfl, rfl, ?_⟩
      rintro cmd args' ⟨rfl, -⟩
      simpa using hopt

/-- **The command line of `main`.** On arguments without a NUL byte,
`main` goes on to run `cmd` with `args` on the image `filename` exactly
when the command line is a list of `--file` or `-f` options, each with
its value, followed by `cmd`, which does not start with `-`, and `args`;
`filename` is the last value given, or `pure64.img`. -/
theorem mainCommandLine_iff {argv : List (List UInt8)} (hnul : ∀ a ∈ argv, 0 ∉ a)
    (filename cmd : List UInt8) (args : List (List UInt8)) :
    mainCommandLine argv = some (filename, cmd, args) ↔
      ∃ opts, argv = (opts.map fileOption).flatten ++ cmd :: args ∧ isOpt cmd = false ∧
        filename = lastFile defaultFilename opts := by
  constructor
  · intro h
    simp only [mainCommandLine, Option.bind_eq_bind, Option.bind_eq_some] at h
    obtain ⟨⟨f, rest⟩, ho, filename', hf, h⟩ := h
    subst hf
    rcases rest with _ | ⟨c, rest⟩
    · cases h
    simp only [Option.some.injEq, Prod.mk.injEq] at h
    obtain ⟨rfl, rfl, rfl⟩ := h
    obtain ⟨opts, rfl, rfl, hcmd⟩ := mainOptions_sound argv _ hnul ho
    exact ⟨opts, rfl, hcmd _ _ rfl, rfl⟩
  · rintro ⟨opts, rfl, hcmd, rfl⟩
    simp [mainCommandLine, mainOptions_fileOptions, mainOptions_command _ hcmd]

/-- `pure64 -f disk.img ls /`. -/
theorem mainCommandLine_ls :
    (∀ a ∈ [ascii "-f", ascii "disk.img", ascii "ls", ascii "/"], 0 ∉ a) ∧
      (mainCommandLine [ascii "-f", ascii "disk.img", ascii "ls", ascii "/"] =
          some (ascii "disk.img", ascii "ls", [ascii "/"]) ↔
        ∃ opts, [ascii "-f", ascii "disk.img", ascii "ls", ascii "/"] =
            (opts.map fileOption).flatten ++ ascii "ls" :: [ascii "/"] ∧ isOpt (ascii "ls") = false ∧
          ascii "disk.img" = lastFile defaultFilename opts) :=
  ⟨by decide, mainCommandLine_iff (by decide) _ _ _⟩

/-! ## The options of `pure64_init` -/

/-- What `sscanf(s, "%llu", &disk_size)` does: it returns `EOF` when `s`
ends before a conversion, `0` when `s` does not start with a number, and
`1` after storing the number it read. -/
inductive ScanResult
  | eof
  | noMatch
  | stored (v : UInt64)

/-- The value `sscanf` returns. -/
def ScanResult.count : ScanResult → Int
  | .eof => -1
  | .noMatch => 0
  | .stored _ => 1

/-- `disk_size` after the call. -/
def ScanResult.store : ScanResult → UInt64 → UInt64
  | .stored v, _ => v
  | _, diskSize => diskSize

theorem ScanResult.store_of_count {r : ScanResult} (h : r.count = 0) (diskSize : UInt64) :
    r.store diskSize = diskSize := by
  cases r <;> simp_all [ScanResult.count, ScanResult.store]

/-- The variables the option loop of `pure64_init` sets: `disk_uuid_str`
(`none` for `NULL`) and `disk_size`. -/
structure InitOptions where
  diskUuidStr : Option (List UInt8)
  diskSize : UInt64

/-- The option loop of `pure64_init`. `--disk-uuid` takes the next
argument, `NULL` after the last one. `--disk-size` fails without a next
argument or when `sscanf` on it does not return `0`; when it returns `0`,
the loop goes on at the next argument, which it reads as an option. -/
def initOptionsLoop (scan : List UInt8 → ScanResult) :
    InitOptions → List (List UInt8) → Option InitOptions
  | o, [] => some o
  | o, arg :: args =>
    if strEq arg (ascii "--disk-uuid") then
      match args with
      | [] => some { o with diskUuidStr := none }
      | v :: args => initOptionsLoop scan { o with diskUuidStr := some v } args
    else if strEq arg (ascii "--disk-size") then
      match args with
      | [] => none
      | v :: _ =>
        let r := scan v
        let o := { o with diskSize := r.store o.diskSize }
        if r.count ≠ 0 then none else initOptionsLoop scan o args
    else none

/-- `PURE64_DEFAULT_DISK_UUID`. -/
def pure64DefaultDiskUuid : List UInt8 := ascii "74a7c14a-711d-4293-a731-569ca656799e"

/-- `pure64_init(filename, argc, argv)`: the option loop from `disk_size`
of 1 MiB and no UUID, `pure64_uuid_parse` (`uuidParse`) of the UUID or of
the default, then the image. The source parses the UUID after the size
guard and the padding; each of the two only returns `EXIT_FAILURE` before
the file is opened, so the order changes nothing. -/
def pure64InitCommand (scan : List UInt8 → ScanResult) (uuidParse : List UInt8 → Option Pure64Uuid)
    (mbrData : List UInt8) (argv : List (List UInt8)) : Option Disk := do
  let o ← initOptionsLoop scan ⟨none, 1 * 1024 * 1024⟩ argv
  let diskUuid ← uuidParse (o.diskUuidStr.getD pure64DefaultDiskUuid)
  pure64Init mbrData o.diskSize diskUuid

theorem pure64InitCommand_eq {scan : List UInt8 → ScanResult}
    {uuidParse : List UInt8 → Option Pure64Uuid} {mbrData : List UInt8} {argv : List (List UInt8)}
    {diskUuidStr : Option (List UInt8)} {diskSize : UInt64} {diskUuid : Pure64Uuid}
    (h : initOptionsLoop scan ⟨none, 1 * 1024 * 1024⟩ argv = some ⟨diskUuidStr, diskSize⟩)
    (hu : uuidParse (diskUuidStr.getD pure64DefaultDiskUuid) = some diskUuid) :
    pure64InitCommand scan uuidParse mbrData argv = pure64Init mbrData diskSize diskUuid := by
  simp only [pure64InitCommand, h, hu, Option.bind_eq_bind, Option.some_bind]

/-- No run of the loop that succeeds changes `disk_size`. -/
theorem initOptionsLoop_diskSize (scan : List UInt8 → ScanResult) :
    ∀ (o : InitOptions) (argv : List (List UInt8)) {o' : InitOptions},
      initOptionsLoop scan o argv = some o' → o'.diskSize = o.diskSize
  | o, [], _, h => by
    cases h
    rfl
  | o, [arg], _, h => by
    simp only [initOptionsLoop] at h
    split_ifs at h
    cases h
    rfl
  | o, arg :: v :: args, _, h => by
    simp only [initOptionsLoop] at h
    split_ifs at h with huuid hsize hcount
    · exact (initOptionsLoop_diskSize scan _ args h).trans rfl
    · rw [initOptionsLoop_diskSize scan _ (v :: args) h]
      exact ScanResult.store_of_count (not_not.mp hcount) _

/-- **`--disk-size` never takes effect.** Whatever `sscanf` and
`pure64_uuid_parse` do, every image `pure64 init` writes is the image of
the default 1 MiB disk for the UUID it parsed. -/
theorem pure64InitCommand_oneMiB {scan : List UInt8 → ScanResult}
    {uuidParse : List UInt8 → Option Pure64Uuid} {mbrData : List UInt8} {argv : List (List UInt8)}
    {d : Disk} (h : pure64InitCommand scan uuidParse mbrData argv = some d) :
    ∃ diskUuid, pure64Init mbrData 1048576 diskUuid = some d := by
  simp only [pure64InitCommand, Option.bind_eq_bind, Option.bind_eq_some] at h
  obtain ⟨o, ho, diskUuid, -, hd⟩ := h
  rw [initOptionsLoop_diskSize scan _ _ ho] at hd
  exact ⟨diskUuid, hd⟩

/-- `pure64 init --disk-size --disk-uuid x`, with an `sscanf` that matches
nothing: the size argument is read as the next option. -/
theorem pure64InitCommand_noMatch : ∃ d,
    pure64InitCommand (fun _ => .noMatch) (fun _ => some ⟨List.replicate 16 0, rfl⟩)
        (List.replicate 512 0) [ascii "--disk-size", ascii "--disk-uuid", ascii "x"] = some d ∧
      ∃ diskUuid, pure64Init (List.replicate 512 0) 1048576 diskUuid = some d := by
  obtain ⟨d, hd⟩ := @pure64Init_isSome (List.replicate 512 0) 1048576 ⟨List.replicate 16 0, rfl⟩
    (List.length_replicate _ _) (by decide) (by decide)
  have hloop : initOptionsLoop (fun _ => .noMatch) ⟨none, 1 * 1024 * 1024⟩
      [ascii "--disk-size", ascii "--disk-uuid", ascii "x"] = some ⟨some (ascii "x"), 1048576⟩ := rfl
  have h : pure64InitCommand (fun _ => .noMatch) (fun _ => some ⟨List.replicate 16 0, rfl⟩)
      (List.replicate 512 0) [ascii "--disk-size", ascii "--disk-uuid", ascii "x"] = some d :=
    (pure64InitCommand_eq hloop rfl).trans hd
  exact ⟨d, h, pure64InitCommand_oneMiB h⟩

end Pure64

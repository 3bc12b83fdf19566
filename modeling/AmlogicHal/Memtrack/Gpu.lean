import AmlogicHal.Lib.Stdio

/-!
# GPU memory of a process

`Memtrack::getMemory` (`Memtrack.cpp`) reports the GPU memory of a process for the GL type.
`memtrack_get_gpuMem` (`GpuSysfsReader.cpp`) adds up three readers of sysfs files: the pages the
process uses, the pages the device caches, which are counted for pid 0, and the pages cached for the
process. The readers return `size_t`, but the sum is an `unsigned int`, and a reader that cannot
open its file returns `-errno`.

* `glBytes` is what should be reported: the pages of the first line of the pid in each file, times
  the page size, with nothing for a file that cannot be opened.
* `reportsExactly_iff`: it is reported exactly if the pid is not negative, `gpu_memory` and
  `ctx_mem_pool_size` can be opened, and the total is below 4 GiB.
* `unreadable_reportsErrno`, `fourGiB_reportsZero`: two reports that are wrong.

Files are texts, which the readers take apart with `fgets` and `sscanf`. The theorem is about files
without lines of 1024 characters or more and without numbers that do not fit their type. A longer
line is scanned in pieces of 1023 characters, any of which can look like an entry. A pid beyond
`int` is compared as `Conversion` stores it, and can be taken for another one.
-/

namespace AmlogicHal.Memtrack

open Stdio BitVec List

/-! ## 1. The readers -/

def PAGE_SIZE : BitVec 64 := 4096

def CHAR_BUFFER_SIZE : Nat := 1024

/-- The number of an error, which is positive. -/
structure Errno where
  code : Nat
  pos : 0 < code
  le : code < 0x1000

abbrev File := Except Errno (List Char)

/-- How `sscanf` stores a number in an `int` and a `size_t`. C only says what becomes of numbers in
the range of `int` and `ssize_t`. -/
structure Conversion where
  int : Int → BitVec 32
  ssize : Int → BitVec 64
  int_exact : ∀ n, -0x80000000 ≤ n → n < 0x80000000 → int n = BitVec.ofInt 32 n
  ssize_exact : ∀ n, -0x8000000000000000 ≤ n → n < 0x8000000000000000 → ssize n = BitVec.ofInt 64 n

/-- `"%*x %d %d"`: the pid and the pages of a line. -/
def scanClient (line : List Char) : Option (Int × Int) := do
  let (_, rest) ← scanHex line
  let (pid, rest) ← scanInt rest
  let (pages, _) ← scanInt rest
  return (pid, pages)

/-- `"%zd %*d"`: the first count of a line. -/
def scanCount (line : List Char) : Option Int := (scanInt line).map Prod.fst

variable (conv : Conversion)

/-- What the loop over a file of clients finds in a line: the pages, if it is a line of the pid. -/
def pagesInLine (pid : BitVec 32) (line : List Char) : Option (BitVec 32) :=
  match scanClient line with
  | some (allocPid, pages) => if pid = conv.int allocPid then some (conv.int pages) else none
  | none => none

/-- `read_pid_gl_used_memory` and `sysfs_read_gl_app_cached_memory`. The pages are an `int`, the
result is a `size_t`. -/
def readClientMemory (pid : BitVec 32) : File → BitVec 64
  | .error errno => BitVec.ofInt 64 (-errno.code)
  | .ok content =>
    match (fgetsAll CHAR_BUFFER_SIZE content).findSome? (pagesInLine conv pid) with
    | some pages => pages.signExtend 64 * PAGE_SIZE
    | none => 0

def readPidGlUsedMemory (pid : BitVec 32) (gpuMemory : File) : BitVec 64 :=
  readClientMemory conv pid gpuMemory

def sysfsReadGlAppCachedMemory (pid : BitVec 32) (ctxMemPoolSize : File) :
    BitVec 64 :=
  readClientMemory conv pid ctxMemPoolSize

def readGlDeviceCachedMemory (pid : BitVec 32) (memPoolSize : File) :
    BitVec 64 :=
  if pid = 0 then
    match memPoolSize with
    | .error _ => 0
    | .ok content =>
      match (fgetsAll CHAR_BUFFER_SIZE content).findSome? scanCount with
      | some count => conv.ssize count * PAGE_SIZE
      | none => 0
  else 0

/-- The files under `kSysfsDevicePath`. -/
structure GpuFiles where
  gpuMemory : File
  memPoolSize : File
  ctxMemPoolSize : File

/-- `memtrack_get_gpuMem`. The sum is an `unsigned int`. -/
def memtrackGetGpuMem (files : GpuFiles) (pid : BitVec 32) : BitVec 64 :=
  let result : BitVec 32 := (readPidGlUsedMemory conv pid files.gpuMemory).setWidth 32
  let resultCache : BitVec 32 := (readGlDeviceCachedMemory conv pid files.memPoolSize).setWidth 32
  let result := result + resultCache
  let resultCtxCache : BitVec 32 :=
    (sysfsReadGlAppCachedMemory conv pid files.ctxMemPoolSize).setWidth 32
  let result := result + resultCtxCache
  result.setWidth 64

/-! ## 2. The service -/

inductive MemtrackType
  | OTHER
  | GL
  | GRAPHICS
  | MULTIMEDIA
  | CAMERA
  /-- A value that is none of these. -/
  | unknown
  deriving DecidableEq

inductive Status
  | ok
  | EX_ILLEGAL_ARGUMENT
  | EX_UNSUPPORTED_OPERATION
  deriving DecidableEq

/-- The flag of the records this service makes. -/
inductive MemtrackFlag
  | FLAG_SMAPS_UNACCOUNTED
  deriving DecidableEq

structure MemtrackRecord where
  flags : MemtrackFlag
  sizeInBytes : BitVec 64
  deriving DecidableEq

def getMemory (files : GpuFiles) (pid : BitVec 32) (type : MemtrackType)
    (aidlReturn : List MemtrackRecord) : Status × List MemtrackRecord :=
  if pid.toInt < 0 then (.EX_ILLEGAL_ARGUMENT, aidlReturn)
  else if type ≠ .OTHER ∧ type ≠ .GL ∧ type ≠ .GRAPHICS ∧ type ≠ .MULTIMEDIA ∧ type ≠ .CAMERA then
    (.EX_UNSUPPORTED_OPERATION, aidlReturn)
  else if type ≠ .GL ∧ type ≠ .GRAPHICS then (.ok, [])
  else if pid = 0 ∧ type ≠ .GL then (.ok, [])
  else
    let size : BitVec 64 :=
      match type with
      | .GL => memtrackGetGpuMem conv files pid
      | _ => 0
    (.ok, [⟨.FLAG_SMAPS_UNACCOUNTED, size⟩])

/-! ## 3. What should be reported -/

def linePages (pid : Int) (line : List Char) : Option Int :=
  match scanClient line with
  | some (p, pages) => if p = pid then some pages else none
  | none => none

def pagesOf (pid : Int) : File → Int
  | .error _ => 0
  | .ok content => ((lines content).findSome? (linePages pid)).getD 0

def poolPages (pid : Int) : File → Int
  | .error _ => 0
  | .ok content => if pid = 0 then ((lines content).findSome? scanCount).getD 0 else 0

def glBytes (files : GpuFiles) (pid : Int) : Int :=
  4096 * (pagesOf pid files.gpuMemory + pagesOf pid files.ctxMemPoolSize +
    poolPages pid files.memPoolSize)

/-- `getMemory` reports the GPU memory of the process. -/
def ReportsExactly (files : GpuFiles) (pid : BitVec 32)
    (aidlReturn : List MemtrackRecord) : Prop :=
  ∃ record, getMemory conv files pid .GL aidlReturn = (.ok, [record]) ∧
    record.sizeInBytes.toInt = glBytes files pid.toInt

/-- The lines of a file of clients fit the buffer, its pids are `int`s and its counts are not
negative. -/
def ClientFile : File → Prop
  | .error _ => True
  | .ok content => ∀ line ∈ lines content, line.length < CHAR_BUFFER_SIZE ∧
      ∀ r ∈ scanClient line, -0x80000000 ≤ r.1 ∧ r.1 < 0x80000000 ∧ 0 ≤ r.2

instance : ∀ file, Decidable (ClientFile file)
  | .error _ => .isTrue trivial
  | .ok content => inferInstanceAs (Decidable (∀ line ∈ lines content, _))

/-- The lines of a file of counts fit the buffer, and the counts are not negative. -/
def CountFile : File → Prop
  | .error _ => True
  | .ok content =>
    ∀ line ∈ lines content, line.length < CHAR_BUFFER_SIZE ∧ ∀ count ∈ scanCount line, 0 ≤ count

instance : ∀ file, Decidable (CountFile file)
  | .error _ => .isTrue trivial
  | .ok content => inferInstanceAs (Decidable (∀ line ∈ lines content, _))

/-- The files hold what the kernel writes. -/
structure WellFormed (files : GpuFiles) : Prop where
  gpuMemory : ClientFile files.gpuMemory
  memPoolSize : CountFile files.memPoolSize
  ctxMemPoolSize : ClientFile files.ctxMemPoolSize

def Readable (file : File) : Prop := ∃ content, file = .ok content

/-! ## 4. The readers' values -/

variable {conv : Conversion} {pid : BitVec 32}

theorem conv_int_eq_iff {p : Int} (hlo : -0x80000000 ≤ p) (hhi : p < 0x80000000) :
    pid = conv.int p ↔ p = pid.toInt := by
  rw [conv.int_exact p hlo hhi]
  constructor
  · rintro rfl
    exact (toInt_ofInt_eq_self (by decide) hlo hhi).symm
  · rintro rfl
    exact ofInt_toInt.symm

theorem pagesInLine_eq {line : List Char}
    (h : ∀ r ∈ scanClient line, -0x80000000 ≤ r.1 ∧ r.1 < 0x80000000 ∧ 0 ≤ r.2) :
    pagesInLine conv pid line = (linePages pid.toInt line).map conv.int := by
  rw [pagesInLine, linePages]
  cases hscan : scanClient line with
  | none => rfl
  | some r =>
    obtain ⟨p, pages⟩ := r
    obtain ⟨hlo, hhi, -⟩ := h _ hscan
    have hiff : pid = conv.int p ↔ p = pid.toInt := conv_int_eq_iff hlo hhi
    dsimp only
    by_cases hp : p = pid.toInt
    · rw [if_pos hp, if_pos (hiff.mpr hp)]
      rfl
    · rw [if_neg hp, if_neg (mt hiff.mp hp)]
      rfl

theorem findSome_pagesInLine {ls : List (List Char)} (h : ∀ line ∈ ls, ∀ r ∈ scanClient line,
      -0x80000000 ≤ r.1 ∧ r.1 < 0x80000000 ∧ 0 ≤ r.2) :
    ls.findSome? (pagesInLine conv pid) = (ls.findSome? (linePages pid.toInt)).map conv.int := by
  induction ls with
  | nil => rfl
  | cons line ls ih =>
    rw [findSome?_cons, findSome?_cons, pagesInLine_eq (h line mem_cons_self)]
    cases linePages pid.toInt line with
    | some pages => rfl
    | none => exact ih fun l hl => h l (mem_cons_of_mem _ hl)

theorem linePages_nonneg {p n : Int} {line : List Char} (h : ∀ r ∈ scanClient line, 0 ≤ r.2)
    (hn : linePages p line = some n) : 0 ≤ n := by
  rw [linePages] at hn
  split at hn
  · next q pages hscan =>
    split at hn
    · cases hn
      exact h _ hscan
    · cases hn
  · cases hn

variable {file : File}

theorem pagesOf_nonneg (h : ClientFile file) (p : Int) : 0 ≤ pagesOf p file := by
  cases file with
  | error errno => exact Int.le_refl 0
  | ok content =>
    rw [pagesOf]
    cases hfound : (lines content).findSome? _ with
    | none => exact Int.le_refl 0
    | some n =>
      obtain ⟨line, hline, hn⟩ := exists_of_findSome?_eq_some hfound
      exact linePages_nonneg (fun r hr => ((h line hline).2 r hr).2.2) hn

theorem poolPages_nonneg (h : CountFile file) (p : Int) : 0 ≤ poolPages p file := by
  cases file with
  | error errno => exact Int.le_refl 0
  | ok content =>
    rw [poolPages]
    split
    · cases hfound : (lines content).findSome? scanCount with
      | none => exact Int.le_refl 0
      | some n =>
        obtain ⟨line, hline, hn⟩ := exists_of_findSome?_eq_some hfound
        exact (h line hline).2 n hn
    · exact Int.le_refl 0

theorem ofInt_mul_pageSize {n : Int} (h0 : 0 ≤ n) (h : n < 0x100000) :
    ((BitVec.ofInt 64 n * PAGE_SIZE).toNat : Int) = 4096 * n := by
  have hn : (BitVec.ofInt 64 n).toNat = n.toNat := by
    rw [toNat_ofInt]
    omega
  have hpage : PAGE_SIZE.toNat = 4096 := rfl
  rw [toNat_mul, hn, hpage]
  omega

section

variable (conv)

theorem readClientMemory_toNat (pid : BitVec 32) {content : List Char}
    (h : ClientFile (.ok content)) (hsmall : pagesOf pid.toInt (.ok content) < 0x100000) :
    ((readClientMemory conv pid (.ok content)).toNat : Int) =
      4096 * pagesOf pid.toInt (.ok content) := by
  have hnonneg := pagesOf_nonneg h pid.toInt
  rw [readClientMemory, fgetsAll_eq_lines fun line hline => (h line hline).1,
    findSome_pagesInLine fun line hline => (h line hline).2]
  rw [pagesOf] at hsmall hnonneg ⊢
  cases hfound : (lines content).findSome? _ with
  | none => rfl
  | some n =>
    rw [hfound, Option.getD_some] at hsmall hnonneg
    have hlo : -0x80000000 ≤ n := Int.le_trans (by decide) hnonneg
    have hhi : n < 0x80000000 := Int.lt_trans hsmall (by decide)
    have hint : (conv.int n).toInt = n := by
      rw [conv.int_exact n hlo hhi]
      exact toInt_ofInt_eq_self (by decide) hlo hhi
    simp only [Option.map_some, Option.getD_some, BitVec.signExtend, hint]
    exact ofInt_mul_pageSize hnonneg hsmall

/-- What a reader returns is too small by an error code, which is zero if the file can be opened. -/
theorem readClientMemory_spec (pid : BitVec 32) (h : ClientFile file)
    (hsmall : pagesOf pid.toInt file < 0x100000) :
    ∃ code < 0x1000, (code = 0 ↔ Readable file) ∧
      (((readClientMemory conv pid file).toNat : Int) + (code : Nat)) % 0x100000000 =
        4096 * pagesOf pid.toInt file := by
  have hnonneg := pagesOf_nonneg h pid.toInt
  cases file with
  | error errno =>
    have hpos := errno.pos
    have hle := errno.le
    refine ⟨errno.code, hle, ?_, ?_⟩
    · simp [Readable, Nat.ne_of_gt hpos]
    · rw [readClientMemory, toNat_ofInt, pagesOf]
      omega
  | ok content =>
    refine ⟨0, by decide, by simp [Readable], ?_⟩
    rw [readClientMemory_toNat conv pid h hsmall]
    omega

theorem pid_eq_zero_iff : pid = 0 ↔ pid.toInt = 0 := by
  rw [← toInt_inj]
  rfl

theorem readGlDeviceCachedMemory_toNat (pid : BitVec 32) (h : CountFile file)
    (hsmall : poolPages pid.toInt file < 0x100000) :
    ((readGlDeviceCachedMemory conv pid file).toNat : Int) = 4096 * poolPages pid.toInt file := by
  have hnonneg := poolPages_nonneg h pid.toInt
  rw [readGlDeviceCachedMemory.eq_def]
  by_cases hpid : pid = 0
  · rw [if_pos hpid]
    have hzero := pid_eq_zero_iff.mp hpid
    cases file with
    | error errno => rfl
    | ok content =>
      dsimp only
      rw [poolPages, if_pos hzero] at hsmall hnonneg ⊢
      rw [fgetsAll_eq_lines fun line hline => (h line hline).1]
      cases hfound : (lines content).findSome? scanCount with
      | none => rfl
      | some n =>
        rw [hfound, Option.getD_some] at hsmall hnonneg
        dsimp only
        rw [conv.ssize_exact n (Int.le_trans (by decide) hnonneg) (Int.lt_trans hsmall (by decide))]
        exact ofInt_mul_pageSize hnonneg hsmall
  · rw [if_neg hpid]
    have hzero := mt pid_eq_zero_iff.mpr hpid
    cases file with
    | error errno => rfl
    | ok content =>
      rw [poolPages, if_neg hzero]
      rfl

end

/-! ## 5. The report -/

theorem memtrackGetGpuMem_toNat (files : GpuFiles) :
    (memtrackGetGpuMem conv files pid).toNat =
      ((readClientMemory conv pid files.gpuMemory).toNat +
        (readGlDeviceCachedMemory conv pid files.memPoolSize).toNat +
        (readClientMemory conv pid files.ctxMemPoolSize).toNat) % 0x100000000 := by
  simp only [memtrackGetGpuMem, readPidGlUsedMemory, sysfsReadGlAppCachedMemory, toNat_setWidth,
    toNat_add]
  omega

theorem reportsExactly_iff_gpuMem {files : GpuFiles} {aidlReturn : List MemtrackRecord} :
    ReportsExactly conv files pid aidlReturn ↔ 0 ≤ pid.toInt ∧
      ((memtrackGetGpuMem conv files pid).toNat : Int) = glBytes files pid.toInt := by
  have hlt : (memtrackGetGpuMem conv files pid).toNat < 0x100000000 := by
    exact Nat.mod_lt _ (by decide)
  have hsign :
      (memtrackGetGpuMem conv files pid).toInt = (memtrackGetGpuMem conv files pid).toNat :=
    toInt_eq_toNat_of_lt (by omega)
  by_cases hpid : pid.toInt < 0
  · refine iff_of_false ?_ fun h => absurd hpid (Int.not_lt.mpr h.1)
    rintro ⟨record, hget, -⟩
    rw [getMemory, if_pos hpid] at hget
    cases hget
  · have hget : getMemory conv files pid .GL aidlReturn =
        (.ok, [⟨.FLAG_SMAPS_UNACCOUNTED, memtrackGetGpuMem conv files pid⟩]) := by
      simp [getMemory, hpid]
    constructor
    · rintro ⟨record, hrecord, hbytes⟩
      rw [hget] at hrecord
      cases hrecord
      exact ⟨Int.not_lt.mp hpid, hsign.symm.trans hbytes⟩
    · rintro ⟨-, hbytes⟩
      exact ⟨_, hget, hsign.trans hbytes⟩

theorem reportsExactly_iff {files : GpuFiles} (h : WellFormed files) (conv : Conversion)
    (pid : BitVec 32) (aidlReturn : List MemtrackRecord) :
    ReportsExactly conv files pid aidlReturn ↔
      0 ≤ pid.toInt ∧ Readable files.gpuMemory ∧ Readable files.ctxMemPoolSize ∧
        glBytes files pid.toInt < 0x100000000 := by
  rw [reportsExactly_iff_gpuMem, memtrackGetGpuMem_toNat]
  refine and_congr_right fun _ => ?_
  have hcached := pagesOf_nonneg h.ctxMemPoolSize pid.toInt
  have hpool := poolPages_nonneg h.memPoolSize pid.toInt
  by_cases htotal : glBytes files pid.toInt < 0x100000000
  · -- no count is too large for its type, and only error codes can spoil the sum
    rw [glBytes] at htotal ⊢
    obtain ⟨code, hcode, hgpu, hgpuSum⟩ :=
      readClientMemory_spec conv pid h.gpuMemory (by omega)
    obtain ⟨code', hcode', hctx, hctxSum⟩ :=
      readClientMemory_spec conv pid h.ctxMemPoolSize (by omega)
    have hdevice := readGlDeviceCachedMemory_toNat conv pid h.memPoolSize (by omega)
    rw [← hgpu, ← hctx]
    omega
  · -- an unsigned int cannot hold the total
    refine iff_of_false (fun heq => htotal ?_) fun hall => htotal hall.2.2
    omega

def wrapping : Conversion where
  int := BitVec.ofInt 32
  ssize := BitVec.ofInt 64
  int_exact _ _ _ := rfl
  ssize_exact _ _ _ := rfl

/-- Files as the comments in the readers show them. -/
def sampleFiles : GpuFiles where
  gpuMemory := .ok "kctx pid used_pages\n----\nf0cd5000 4370 1511\n".toList
  memPoolSize := .ok "7610 0 0 0\n".toList
  ctxMemPoolSize := .ok "kctx pid cached_pages\n----\n9e078926 4370 116\n".toList

theorem reportsExactly_sample :
    ReportsExactly wrapping sampleFiles 4370 [] ∧ ReportsExactly wrapping sampleFiles 0 [] := by
  have hfiles : WellFormed sampleFiles :=
    ⟨by decide +kernel, by decide +kernel, by decide +kernel⟩
  constructor
  · exact (reportsExactly_iff hfiles wrapping 4370 []).mpr
      ⟨by decide, ⟨_, rfl⟩, ⟨_, rfl⟩, by decide +kernel⟩
  · exact (reportsExactly_iff hfiles wrapping 0 []).mpr
      ⟨by decide, ⟨_, rfl⟩, ⟨_, rfl⟩, by decide +kernel⟩

/-- `ENOENT`. -/
def noSuchFile : Errno := ⟨2, by decide, by decide⟩

/-- The process is charged with the error code of `gpu_memory`, just below 4 GiB. -/
theorem unreadable_reportsErrno :
    ¬ ReportsExactly wrapping ⟨.error noSuchFile, .ok [], .ok []⟩ 1 [] := by
  rw [reportsExactly_iff_gpuMem]
  decide +kernel

theorem fourGiB_reportsZero :
    ¬ ReportsExactly wrapping ⟨.ok "f0cd5000 1 1048576\n".toList, .ok [], .ok []⟩ 1 [] := by
  rw [reportsExactly_iff_gpuMem]
  decide +kernel

end AmlogicHal.Memtrack

import AmlogicHal.Lib.Machine
import AmlogicHal.Lib.Ring
import Mathlib.Algebra.Order.Ring.Rat

/-!
# The IEC 958 output

`spdif_api.c` writes packed frames to the DMA buffer of the S/PDIF device, a ring: the hardware
plays it from its read offset on, the library keeps the write offset. The offsets are 32-bit
unsigned numbers and the free space is an `int`, so for large buffers both computations can wrap
around.

* `Iec958.unread`: the bytes that the hardware has still to play.
* `bufSpaceSize_spec`: a frame that the space query lets through fits before the read offset,
  `align` bytes away.
* `copyFrame_contents`: such a frame is stored behind the unread bytes, in one or two pieces.
* `frames_behind_unread`: this is so at every write of every run on which the hardware does not play
  beyond the write offset.

That the sums do not wrap around is an invariant of whole runs (`Valid.large`): with a buffer of
`2 ^ 31 + latency` bytes or more, the `int` is negative while at most `latency` bytes are unread,
and no frame gets through.
-/

namespace AmlogicHal.Amadec

open Memory List

/-- `4 * 48000 * IEC958_LATENCY / 1000`, the delay of the output in bytes. -/
def latency : Nat := 4 * 48000 * 20 / 1000

def align : Nat := 4096

/-- The static variables of `spdif_api.c`, with the DMA buffer of the device. -/
structure Iec958 (α : Type) where
  memory : Memory α
  hwRdOffset : Nat
  wrOffset : Nat
  bufferSize : Nat
  firstWrite : Bool

/-- The result of a call, and the pieces that it writes to the buffer, each with its offset. A piece
goes to the offset that the `ioctl` before the `write` has set. -/
structure WriteResult (α : Type) where
  ret : Int
  pieces : List (Nat × List α)

namespace Iec958

variable {α : Type}

/-! ## The model of the source -/

/-- `iec958_init`, with the answers of `open` and `mmap` and the size of the buffer. -/
def init (memory : Memory α) (opened mapped : Bool) (size : Nat) : Iec958 α × Int :=
  if ¬ opened then (⟨memory, 0, 0, 0, true⟩, -1)
  else
    (⟨memory, 0, if latency ≥ size then size else latency, size, true⟩, if mapped then 0 else -2)

/-- `hw_rd_offset + 4 * 48000 * IEC958_LATENCY / 1000`, taken back by one round at the end of the
buffer. -/
def delayed (rd : Nat) (s : Iec958 α) : Nat :=
  let wr := (rd + latency) % 2 ^ 32
  if wr ≥ s.bufferSize then wr - s.bufferSize else wr

/-- The first part of `iec958_buf_space_size`: the read offset of the hardware is taken over, and
the first query moves the write offset away from it. -/
def query (rd : Nat) (s : Iec958 α) : Iec958 α :=
  { s with
    hwRdOffset := rd
    wrOffset :=
      if s.firstWrite ∧ (rd ≥ s.wrOffset ∨ s.wrOffset - rd < latency) then s.delayed rd
      else s.wrOffset
    firstWrite := false }

/-- The second part of `iec958_buf_space_size`. The unsigned result is stored in an `int`. -/
def bufSpaceSize (s : Iec958 α) : Int :=
  let space :=
    if s.wrOffset > s.hwRdOffset then
      ((s.bufferSize + s.hwRdOffset - s.wrOffset : Int)).bmod (2 ^ 32)
    else ((s.hwRdOffset - s.wrOffset : Int)).bmod (2 ^ 32)
  if space > align then space - align else 0

def copyOnce (frame : List α) (s : Iec958 α) : Iec958 α × WriteResult α :=
  ({ s with
    memory := s.memory.store s.wrOffset frame
    wrOffset := (s.wrOffset + frame.length) % 2 ^ 32 }, ⟨0, [(s.wrOffset, frame)]⟩)

/-- A frame that does: `tail` bytes up to the end, the others from the start on. -/
def copyTwice (frame : List α) (s : Iec958 α) : Iec958 α × WriteResult α :=
  let tail := s.bufferSize - s.wrOffset
  ({ s with
    memory := (s.memory.store s.wrOffset (frame.take tail)).store 0 (frame.drop tail)
    wrOffset := frame.length - tail }, ⟨0, [(s.wrOffset, frame.take tail), (0, frame.drop tail)]⟩)

/-- `if (wr_offset == iec958_buffer_size) wr_offset = 0`. -/
def wrapEnd (s : Iec958 α) : Iec958 α :=
  { s with wrOffset := if s.wrOffset = s.bufferSize then 0 else s.wrOffset }

def copyFrame (frame : List α) (s : Iec958 α) : Iec958 α × WriteResult α :=
  let s := s.wrapEnd
  if (frame.length + s.wrOffset) % 2 ^ 32 > s.bufferSize then s.copyTwice frame
  else s.copyOnce frame

/-- `iec958_packed_frame_write_958buf`, with the answers of the device: whether the S/PDIF and the
I2S output are enabled, and the read offset. -/
def packedFrameWrite (status958 statusI2s : Bool) (rd : Nat) (frame : List α) (s : Iec958 α) :
    Iec958 α × WriteResult α :=
  if ¬ status958 ∧ ¬ statusI2s then (s, ⟨0, []⟩)
  else
    let s := s.query rd
    if s.bufSpaceSize < frame.length then (s, ⟨-1, []⟩) else s.copyFrame frame

/-- `iec958_check_958buf_level`. -/
def checkBufLevel (status958 : Bool) (rd : Nat) (s : Iec958 α) : Iec958 α × WriteResult α :=
  if ¬ status958 then (s, ⟨1, []⟩)
  else
    let s := s.query rd
    let level := (s.bufferSize - s.bufSpaceSize).bmod (2 ^ 32)
    (s, ⟨if level < 4096 then 0 else 1, []⟩)

end Iec958

open Iec958

inductive SpdifCall (α : Type)
  | write (status958 statusI2s : Bool) (rd : Nat) (frame : List α)
  | checkLevel (status958 : Bool) (rd : Nat)

/-- The read offset that the hardware gives at a call. -/
def SpdifCall.rd {α : Type} : SpdifCall α → Nat
  | .write _ _ rd _ => rd
  | .checkLevel _ rd => rd

def spdifMachine (α : Type) : Machine (Iec958 α) (SpdifCall α) (WriteResult α) where
  step s
    | .write status958 statusI2s rd frame => s.packedFrameWrite status958 statusI2s rd frame
    | .checkLevel status958 rd => s.checkBufLevel status958 rd

/-! ## What a write has to do -/

namespace Iec958

variable {α : Type}

def unread (s : Iec958 α) : Nat := Memory.gap s.bufferSize s.hwRdOffset s.wrOffset

def contents (s : Iec958 α) : List α :=
  s.memory.window 0 s.bufferSize s.hwRdOffset s.unread

/-- How far the hardware has played when its read offset is `rd`. -/
def played (rd : Nat) (s : Iec958 α) : Nat := Memory.gap s.bufferSize s.hwRdOffset rd

def Unread (s : Iec958 α) (cell : Nat) : Prop :=
  ∃ i < s.unread, cell = (s.hwRdOffset + i) % s.bufferSize

/-- The cell is in the free region, which goes from the write offset up to `align` bytes before the
read offset. -/
def Free (s : Iec958 α) (cell : Nat) : Prop :=
  ∃ i, i + align < s.bufferSize - s.unread ∧ cell = (s.wrOffset + i) % s.bufferSize

end Iec958

/-- The cells that are written, in the order of the bytes. -/
def WriteResult.cells {α : Type} (r : WriteResult α) : List Nat :=
  r.pieces.flatMap fun x => (range x.2.length).map fun i => x.1 + i

/-- The read offset is in the buffer, and the hardware has not played beyond the write offset.
Before the first query there is nothing to play yet. -/
def NotOvertaken {α : Type} (s : Iec958 α) (c : SpdifCall α) : Prop :=
  c.rd < s.bufferSize ∧ (s.firstWrite ∨ s.played c.rd ≤ s.unread)

instance {α : Type} (s : Iec958 α) (c : SpdifCall α) : Decidable (NotOvertaken s c) :=
  inferInstanceAs (Decidable (_ ∧ _))

/-- What a call does from the state `s`. The write offset stays in the buffer. What the hardware has
not played stays as it is. A write that returns 0 with the output enabled puts the frame into free
cells that follow one another around the ring, behind the unread bytes; no other call writes. -/
def WritesBehind {α : Type} (s : Iec958 α) (c : SpdifCall α) : Prop :=
  let q := s.query c.rd
  let r := (spdifMachine α).step s c
  r.1.wrOffset ≤ r.1.bufferSize ∧
  (¬ s.firstWrite → q.contents = s.contents.drop (s.played c.rd)) ∧
  match c with
  | .write status958 statusI2s _ frame =>
    if (status958 ∨ statusI2s) ∧ r.2.ret = 0 then
      r.2.cells = (range frame.length).map (fun i => (q.wrOffset + i) % q.bufferSize) ∧
      (∀ cell ∈ r.2.cells, q.Free cell ∧ ¬ q.Unread cell) ∧
      r.1.contents = q.contents ++ frame
    else r.2.pieces = [] ∧ r.1.memory = s.memory
  | .checkLevel _ _ => r.2.pieces = [] ∧ r.1.memory = s.memory

namespace Iec958

variable {α : Type}

/-! ## The space query -/

/-- What every run keeps. `large` is what keeps the 32-bit sums exact. -/
structure Valid (s : Iec958 α) : Prop where
  size_gt : align < s.bufferSize
  size_lt : s.bufferSize < 2 ^ 32
  rd_lt : s.hwRdOffset < s.bufferSize
  wr_le : s.wrOffset ≤ s.bufferSize
  first : s.firstWrite → s.wrOffset = latency
  large : 2 ^ 31 + latency ≤ s.bufferSize → s.unread ≤ latency

namespace Valid

variable {s : Iec958 α}

theorem size_pos (h : s.Valid) : 0 < s.bufferSize := Nat.zero_lt_of_lt h.size_gt

theorem unread_lt (h : s.Valid) : s.unread < s.bufferSize := gap_lt _ _ h.size_pos

theorem add_unread (h : s.Valid) :
    (s.hwRdOffset + s.unread) % s.bufferSize = s.wrOffset % s.bufferSize :=
  add_gap _ (Nat.le_of_lt h.rd_lt)

end Valid

variable {s : Iec958 α} {rd : Nat}

section

variable (hv : s.Valid)
include hv

theorem delayed_spec (hrd : rd < s.bufferSize) :
    s.delayed rd ≤ s.bufferSize ∧ gap s.bufferSize rd (s.delayed rd) ≤ latency := by
  obtain ⟨hgt, hlt, -, -, -, -⟩ := hv
  have hsmall : latency < s.bufferSize := Nat.lt_trans (by decide) hgt
  rcases Nat.lt_or_ge _ (2 ^ 32) with hsum | hsum
  · rw [delayed, Nat.mod_eq_of_lt hsum]
    rcases Nat.lt_or_ge (rd + latency) s.bufferSize with hin | hover
    · rw [if_neg (Nat.not_le.mpr hin)]
      exact ⟨Nat.le_of_lt hin, Nat.le_of_eq (gap_unique (Nat.le_of_lt hrd) (by omega) rfl)⟩
    · rw [if_pos hover]
      exact ⟨by omega,
        Nat.le_of_eq (gap_unique (Nat.le_of_lt hrd) (by omega) (Nat.mod_eq_sub_mod hover))⟩
  · -- the sum wraps around and the offset is not taken back: it is nearer than intended
    obtain ⟨wr, hwr⟩ := Nat.exists_eq_add_of_le' hsum
    obtain ⟨k, hk⟩ : ∃ k, latency + s.bufferSize = k + 2 ^ 32 := Nat.exists_eq_add_of_le' (by omega)
    have hlt' : wr < 2 ^ 32 := by omega
    have hin : wr < s.bufferSize := by omega
    have hgap : gap s.bufferSize rd wr = k := by
      refine gap_unique (Nat.le_of_lt hrd) (by omega) ?_
      have hround : rd + k = wr + s.bufferSize := by omega
      rw [hround, Nat.add_mod_right]
    rw [delayed, hwr, Nat.add_mod_right, Nat.mod_eq_of_lt hlt', if_neg (Nat.not_le.mpr hin), hgap]
    exact ⟨Nat.le_of_lt hin, by omega⟩

/-- After the first query the write offset is at most `latency` bytes before the hardware. -/
theorem query_first (hfirst : s.firstWrite) (hrd : rd < s.bufferSize) :
    (s.query rd).wrOffset ≤ s.bufferSize ∧ (s.query rd).unread ≤ latency := by
  by_cases hmove : rd ≥ s.wrOffset ∨ s.wrOffset - rd < latency
  · have hwr : (s.query rd).wrOffset = s.delayed rd := if_pos ⟨hfirst, hmove⟩
    rw [unread, hwr]
    exact delayed_spec hv hrd
  · -- the offset of `init` is kept only for a hardware that has not started
    have hwr : (s.query rd).wrOffset = s.wrOffset := if_neg fun h => hmove h.2
    have hw := hv.first hfirst
    have hzero : rd = 0 := by omega
    subst hzero
    rw [unread, hwr, hw]
    have hlt : latency < s.bufferSize := Nat.lt_trans (by decide) hv.size_gt
    exact ⟨Nat.le_of_lt hlt, Nat.le_of_eq (gap_unique (Nat.zero_le _) hlt
      (congrArg (· % s.bufferSize) (Nat.zero_add latency)))⟩

omit hv in
theorem query_later (hlater : ¬ s.firstWrite) (rd : Nat) :
    (s.query rd).wrOffset = s.wrOffset :=
  if_neg fun h => hlater h.1

theorem query_unread (hlater : ¬ s.firstWrite) (hrd : rd < s.bufferSize)
    (hplayed : s.played rd ≤ s.unread) :
    (s.query rd).unread = s.unread - s.played rd := by
  have hstart : (s.hwRdOffset + s.played rd) % s.bufferSize = rd % s.bufferSize :=
    add_gap _ (Nat.le_of_lt hv.rd_lt)
  rw [unread, query_later hlater]
  refine gap_unique (Nat.le_of_lt hrd) (Nat.lt_of_le_of_lt (Nat.sub_le _ _) hv.unread_lt) ?_
  change (rd + (s.unread - s.played rd)) % s.bufferSize = s.wrOffset % s.bufferSize
  rw [← Nat.mod_add_mod, ← hstart, Nat.mod_add_mod, Nat.add_assoc, Nat.add_sub_of_le hplayed,
    hv.add_unread]

theorem query_contents (hlater : ¬ s.firstWrite) (hrd : rd < s.bufferSize)
    (hplayed : s.played rd ≤ s.unread) :
    (s.query rd).contents = s.contents.drop (s.played rd) := by
  rw [contents, query_unread hv hlater hrd hplayed, contents, drop_window _ _ _ _ hplayed,
    ← window_mod _ _ _ (s.hwRdOffset + s.played rd), played,
    add_gap _ (Nat.le_of_lt hv.rd_lt), Nat.mod_eq_of_lt hrd]
  rfl

theorem Valid.query (hrd : rd < s.bufferSize)
    (hplayed : s.firstWrite ∨ s.played rd ≤ s.unread) : (s.query rd).Valid := by
  by_cases hfirst : s.firstWrite = true
  · obtain ⟨hwr, hunread⟩ := query_first hv hfirst hrd
    exact ⟨hv.size_gt, hv.size_lt, hrd, hwr, nofun, fun _ => hunread⟩
  · have hplayed := hplayed.resolve_left hfirst
    refine ⟨hv.size_gt, hv.size_lt, hrd, ?_, nofun, fun hlarge => ?_⟩
    · rw [query_later hfirst]
      exact hv.wr_le
    · rw [query_unread hv hfirst hrd hplayed]
      exact Nat.le_trans (Nat.sub_le _ _) (hv.large hlarge)

omit hv in
/-- An unsigned number that is stored in an `int`: if the result is positive, it is the number. -/
theorem bmod_eq_of_pos {x : Nat} (hx : x < 2 ^ 32) (hpos : 0 < (x : Int).bmod (2 ^ 32)) :
    (x : Int).bmod (2 ^ 32) = x ∧ x < 2 ^ 31 := by
  rw [Int.bmod_def] at hpos ⊢
  omega

/-- A frame that gets through the query is empty, or leaves `align` bytes before the unread ones,
and then the free space is a number that an `int` holds. -/
theorem bufSpaceSize_spec {n : Nat} (hn : (n : Int) ≤ s.bufSpaceSize) :
    n = 0 ∨ n + align + s.unread ≤ s.bufferSize ∧ s.bufferSize < 2 ^ 31 + s.unread := by
  obtain ⟨hgt, hlt, hrd, hwr, -, -⟩ := hv
  rw [bufSpaceSize] at hn
  split at hn
  next hafter =>
    have hcast : (s.bufferSize + s.hwRdOffset - s.wrOffset : Int) =
        ((s.bufferSize + s.hwRdOffset - s.wrOffset : Nat) : Int) := by omega
    rw [hcast] at hn
    split at hn
    next hspace =>
      obtain ⟨heq, hsmall⟩ := bmod_eq_of_pos (by omega) (Int.lt_trans (by decide) hspace)
      have hgap : s.unread = s.wrOffset - s.hwRdOffset := by
        refine gap_unique (Nat.le_of_lt hrd) (by omega) ?_
        rw [Nat.add_sub_of_le (Nat.le_of_lt hafter)]
      omega
    next => omega
  next hbefore =>
    have hcast : (s.hwRdOffset - s.wrOffset : Int) = ((s.hwRdOffset - s.wrOffset : Nat) : Int) := by
      omega
    rw [hcast] at hn
    split at hn
    next hspace =>
      obtain ⟨heq, hsmall⟩ := bmod_eq_of_pos (by omega) (Int.lt_trans (by decide) hspace)
      have hgap : s.unread = s.bufferSize - (s.hwRdOffset - s.wrOffset) := by
        refine gap_unique (Nat.le_of_lt hrd) (by omega) ?_
        have hround : s.hwRdOffset + (s.bufferSize - (s.hwRdOffset - s.wrOffset)) =
            s.wrOffset + s.bufferSize := by omega
        rw [hround, Nat.add_mod_right]
      omega
    next => omega

end

/-! ## The copies -/

/-- The frame fits behind the unread bytes, and the sum of its size and the write offset is
exact. -/
structure Fits (frame : List α) (s : Iec958 α) : Prop where
  room : frame.length = 0 ∨ frame.length + align + s.unread ≤ s.bufferSize
  sum_lt : frame.length + s.wrOffset < 2 ^ 32
  large : 2 ^ 31 + latency ≤ s.bufferSize → frame.length = 0

variable {frame : List α}

section

variable (hv : s.Valid)
include hv

theorem fits_of_space (h : ¬ s.bufSpaceSize < frame.length) : Fits frame s := by
  have hl : latency = 3840 := rfl
  have ha : align = 4096 := rfl
  have hwr := hv.wr_le
  have hsize := hv.size_lt
  have hlarge := hv.large
  rcases bufSpaceSize_spec hv (Int.not_lt.mp h) with hzero | ⟨hroom, hint⟩
  · exact ⟨.inl hzero, by omega, fun _ => hzero⟩
  · exact ⟨.inr hroom, by omega, fun hlg => by have := hlarge hlg; omega⟩

theorem Fits.total_lt (h : Fits frame s) : s.unread + frame.length < s.bufferSize := by
  have ha : align = 4096 := rfl
  have hunread := hv.unread_lt
  rcases h.room with hzero | hroom <;> omega

omit hv in
@[simp] theorem wrapEnd_bufferSize : s.wrapEnd.bufferSize = s.bufferSize := rfl

theorem wrapEnd_wr : s.wrapEnd.wrOffset = s.wrOffset % s.bufferSize := by
  rw [wrapEnd]
  rcases Nat.lt_or_eq_of_le hv.wr_le with hlt | heq
  · rw [if_neg (Nat.ne_of_lt hlt), Nat.mod_eq_of_lt hlt]
  · rw [if_pos heq, heq, Nat.mod_self]

section

variable (hf : Fits frame s)
include hf

theorem copyFrame_cases :
    (s.wrapEnd.wrOffset + frame.length ≤ s.bufferSize ∧
      s.copyFrame frame = s.wrapEnd.copyOnce frame) ∨
    (s.bufferSize < s.wrapEnd.wrOffset + frame.length ∧
      s.copyFrame frame = s.wrapEnd.copyTwice frame) := by
  have hle : s.wrapEnd.wrOffset ≤ s.wrOffset := wrapEnd_wr hv ▸ Nat.mod_le _ _
  have hsum : frame.length + s.wrapEnd.wrOffset < 2 ^ 32 :=
    Nat.lt_of_le_of_lt (Nat.add_le_add_left hle _) hf.sum_lt
  rw [copyFrame, Nat.mod_eq_of_lt hsum, Nat.add_comm]
  split
  next hover => exact .inr ⟨hover, rfl⟩
  next hin => exact .inl ⟨Nat.not_lt.mp hin, rfl⟩

theorem copyFrame_wr :
    (s.copyFrame frame).1.wrOffset ≤ s.bufferSize ∧
      (s.copyFrame frame).1.wrOffset % s.bufferSize =
        (s.wrOffset + frame.length) % s.bufferSize := by
  have hwr := wrapEnd_wr hv
  have hmod : (s.wrapEnd.wrOffset + frame.length) % s.bufferSize =
      (s.wrOffset + frame.length) % s.bufferSize := by rw [hwr, Nat.mod_add_mod]
  rcases copyFrame_cases hv hf with ⟨hin, heq⟩ | ⟨hover, heq⟩
  · have hexact : (s.wrapEnd.wrOffset + frame.length) % 2 ^ 32 =
        s.wrapEnd.wrOffset + frame.length :=
      Nat.mod_eq_of_lt (Nat.lt_of_le_of_lt hin hv.size_lt)
    rw [heq]
    simp only [copyOnce]
    rw [hexact]
    exact ⟨hin, hmod⟩
  · have hlt : s.wrapEnd.wrOffset < s.bufferSize := hwr ▸ Nat.mod_lt _ hv.size_pos
    have hfit := hf.total_lt hv
    have hround : s.wrapEnd.wrOffset + frame.length =
        frame.length - (s.bufferSize - s.wrapEnd.wrOffset) + s.bufferSize := by omega
    rw [heq, ← hmod, hround, Nat.add_mod_right]
    exact ⟨by simp only [copyTwice, wrapEnd]; omega, rfl⟩

omit hf in
omit hv in
theorem copyFrame_frame (frame : List α) (s : Iec958 α) :
    (s.copyFrame frame).1.bufferSize = s.bufferSize ∧
    (s.copyFrame frame).1.hwRdOffset = s.hwRdOffset ∧
    (s.copyFrame frame).1.firstWrite = s.firstWrite ∧ (s.copyFrame frame).2.ret = 0 := by
  rw [copyFrame]
  split <;> exact ⟨rfl, rfl, rfl, rfl⟩

theorem copyFrame_unread : (s.copyFrame frame).1.unread = s.unread + frame.length := by
  obtain ⟨hsize, hrd, -, -⟩ := copyFrame_frame frame s
  rw [unread, hsize, hrd]
  refine gap_unique (Nat.le_of_lt hv.rd_lt) (hf.total_lt hv) ?_
  rw [(copyFrame_wr hv hf).2, ← Nat.add_assoc, ← Nat.mod_add_mod, hv.add_unread, Nat.mod_add_mod]

theorem copyFrame_contents : (s.copyFrame frame).1.contents = s.contents ++ frame := by
  have hwr : s.wrapEnd.wrOffset = (s.hwRdOffset + s.unread) % s.bufferSize :=
    (wrapEnd_wr hv).trans hv.add_unread.symm
  have hfit := hf.total_lt hv
  rw [contents, copyFrame_unread hv hf]
  rcases copyFrame_cases hv hf with ⟨hin, heq⟩ | ⟨hover, heq⟩
  · have hone := window_store s.memory 0 hwr hin (Nat.le_of_lt hfit)
    rw [heq, contents, ← hone, Nat.zero_add]
    rfl
  · -- only a write offset after the read offset can lead over the end
    have hlt : s.hwRdOffset + s.unread < s.bufferSize := by
      refine Nat.lt_of_not_le fun hge => ?_
      have hrd := hv.rd_lt
      rw [Nat.mod_eq_sub_mod hge, Nat.mod_eq_of_lt (by omega)] at hwr
      omega
    rw [Nat.mod_eq_of_lt hlt] at hwr
    have hlength : (frame.take (s.bufferSize - s.wrapEnd.wrOffset)).length =
        s.bufferSize - s.wrapEnd.wrOffset := by
      rw [length_take]
      omega
    have htotal := congrArg length (take_append_drop (s.bufferSize - s.wrapEnd.wrOffset) frame)
    rw [length_append] at htotal
    have hfirst : s.hwRdOffset + s.unread +
        (frame.take (s.bufferSize - s.wrapEnd.wrOffset)).length = s.bufferSize := by omega
    have htwo := window_stores s.memory 0 hlt hfirst (htotal.symm ▸ Nat.le_of_lt hfit)
    rw [htotal, take_append_drop, ← hwr, Nat.zero_add] at htwo
    rw [heq, contents, ← htwo]
    rfl

/-- The written cells follow one another around the ring, from the write offset on. -/
theorem copyFrame_cells :
    (s.copyFrame frame).2.cells = (range frame.length).map fun i =>
    (s.wrOffset + i) % s.bufferSize := by
  have hwindow : window id 0 s.bufferSize s.wrapEnd.wrOffset frame.length =
      (range frame.length).map fun i => (s.wrOffset + i) % s.bufferSize := by
    rw [wrapEnd_wr hv, window_mod]
    exact map_congr_left fun i _ => Nat.zero_add _
  rw [← hwindow]
  rcases copyFrame_cases hv hf with ⟨hin, heq⟩ | ⟨hover, heq⟩
  · rw [heq, window_eq_slice _ _ hin, Nat.zero_add]
    exact append_nil _
  · have hlt : s.wrapEnd.wrOffset < s.bufferSize := wrapEnd_wr hv ▸ Nat.mod_lt _ hv.size_pos
    have hfit := hf.total_lt hv
    have htake : (frame.take (s.bufferSize - s.wrapEnd.wrOffset)).length =
        s.bufferSize - s.wrapEnd.wrOffset := by
      rw [length_take]
      omega
    rw [heq, window_eq_slices _ _ (Nat.le_of_lt hlt) (by omega) (Nat.le_of_lt hover), Nat.zero_add]
    simp only [WriteResult.cells, copyTwice, wrapEnd_bufferSize, flatMap_cons, flatMap_nil,
      append_nil, length_drop]
    rw [htake]
    rfl

theorem free_of_fits {i : Nat} (hi : i < frame.length) :
    s.Free ((s.wrOffset + i) % s.bufferSize) ∧ ¬ s.Unread ((s.wrOffset + i) % s.bufferSize) := by
  have hroom := hf.room.resolve_left (Nat.ne_of_gt (Nat.zero_lt_of_lt hi))
  constructor
  · exact ⟨i, by omega, rfl⟩
  · rintro ⟨j, hj, hcell⟩
    rw [← Nat.mod_add_mod, ← hv.add_unread, Nat.mod_add_mod, Nat.add_assoc] at hcell
    have := position_inj (by omega) (by omega) hcell
    omega

end

theorem Valid.copyFrame (hlater : s.firstWrite = false) (hf : Fits frame s) :
    (s.copyFrame frame).1.Valid := by
  obtain ⟨hsize, hrd, hfirst, -⟩ := copyFrame_frame frame s
  refine ⟨hsize ▸ hv.size_gt, hsize ▸ hv.size_lt, ?_, hsize ▸ (copyFrame_wr hv hf).1, ?_, ?_⟩
  · rw [hsize, hrd]
    exact hv.rd_lt
  · rw [hfirst, hlater]
    exact fun hfalse => absurd hfalse Bool.false_ne_true
  · intro hlarge
    rw [hsize] at hlarge
    rw [copyFrame_unread hv hf, hf.large hlarge]
    exact hv.large hlarge

end

/-! ## Whole runs -/

theorem init_valid (memory : Memory α) {size : Nat} (hgt : align < size) (hlt : size < 2 ^ 32) :
    (init memory true true size).1.Valid := by
  have hl : latency < size := Nat.lt_trans (by decide) hgt
  have hwr : (init memory true true size).1.wrOffset = latency := if_neg (Nat.not_le.mpr hl)
  refine ⟨hgt, hlt, Nat.zero_lt_of_lt hgt, hwr ▸ Nat.le_of_lt hl, fun _ => hwr, fun _ => ?_⟩
  rw [unread, hwr]
  exact Nat.le_of_eq (gap_unique (Nat.zero_le _) hl (congrArg (· % size) (Nat.zero_add latency)))

end Iec958

theorem step_writesBehind {α : Type} {s : Iec958 α} {c : SpdifCall α} (hv : s.Valid)
    (hc : NotOvertaken s c) :
    WritesBehind s c ∧ ((spdifMachine α).step s c).1.Valid := by
  have hplayed : ¬ s.firstWrite → (s.query c.rd).contents = s.contents.drop (s.played c.rd) :=
    fun hlater => query_contents hv hlater hc.1 (hc.2.resolve_left hlater)
  cases c with
  | write status958 statusI2s rd frame =>
    have hq : (s.query rd).Valid := hv.query hc.1 hc.2
    rw [WritesBehind]
    by_cases hoff : ¬ status958 = true ∧ ¬ statusI2s = true
    · have hstep : (spdifMachine α).step s (.write status958 statusI2s rd frame) = (s, ⟨0, []⟩) :=
        if_pos hoff
      rw [hstep, if_neg fun h => (not_or.mpr hoff) h.1]
      exact ⟨⟨hv.wr_le, hplayed, rfl, rfl⟩, hv⟩
    · by_cases hspace : (s.query rd).bufSpaceSize < frame.length
      · have hstep : (spdifMachine α).step s (.write status958 statusI2s rd frame) =
            (s.query rd, ⟨-1, []⟩) := (if_neg hoff).trans (if_pos hspace)
        rw [hstep, if_neg fun h => absurd h.2 (show ¬ (-1 : Int) = 0 by decide)]
        exact ⟨⟨hq.wr_le, hplayed, rfl, rfl⟩, hq⟩
      · have hf := fits_of_space hq hspace
        have hstep : (spdifMachine α).step s (.write status958 statusI2s rd frame) =
            (s.query rd).copyFrame frame := (if_neg hoff).trans (if_neg hspace)
        have hnext := hq.copyFrame rfl hf
        rw [hstep, if_pos ⟨by tauto, (copyFrame_frame frame _).2.2.2⟩]
        refine ⟨⟨hnext.wr_le, hplayed, copyFrame_cells hq hf, ?_, copyFrame_contents hq hf⟩, hnext⟩
        intro cell hcell
        rw [copyFrame_cells hq hf] at hcell
        obtain ⟨i, hi, rfl⟩ := mem_map.mp hcell
        exact free_of_fits hq hf (mem_range.mp hi)
  | checkLevel status958 rd =>
    have hq : (s.query rd).Valid := hv.query hc.1 hc.2
    rw [WritesBehind]
    by_cases hoff : ¬ status958 = true
    · have hstep : (spdifMachine α).step s (.checkLevel status958 rd) = (s, ⟨1, []⟩) := if_pos hoff
      rw [hstep]
      exact ⟨⟨hv.wr_le, hplayed, rfl, rfl⟩, hv⟩
    · have hstep : ((spdifMachine α).step s (.checkLevel status958 rd)).1 = s.query rd ∧
          ((spdifMachine α).step s (.checkLevel status958 rd)).2.pieces = [] := by
        rw [show (spdifMachine α).step s (.checkLevel status958 rd) = _ from if_neg hoff]
        exact ⟨rfl, rfl⟩
      rw [hstep.1, hstep.2]
      exact ⟨⟨hq.wr_le, hplayed, rfl, rfl⟩, hq⟩

theorem frames_behind_unread {α : Type} (memory : Memory α) {size : Nat} (hgt : 4096 < size)
    (hlt : size < 2 ^ 32) {calls : List (SpdifCall α)}
    (hcalls : (spdifMachine α).Always NotOvertaken (Iec958.init memory true true size).1 calls) :
    (spdifMachine α).Always WritesBehind (Iec958.init memory true true size).1 calls :=
  Machine.Always.of_invariant (fun _ _ hv hc => step_writesBehind hv hc)
    (init_valid memory hgt hlt) hcalls

/-- The hardware has started before the first write. Its frame goes over the end of the buffer, to
the cells 8190, 8191 and 0. -/
theorem frames_behind_unread_overEnd :
    (spdifMachine Nat).Always WritesBehind (Iec958.init (fun _ => 0) true true 8192).1
      [.write true false 4350 [1, 2, 3], .checkLevel true 8190, .write false true 1 [4]] :=
  frames_behind_unread _ (by decide) (by decide) (by decide)

end AmlogicHal.Amadec

import AmlogicHal.Lib.Machine
import AmlogicHal.Amadec.MediaSource

/-!
# The DTS-HD media source

`Dtshd_MediaSource::read` reads a first block of 10 KiB, estimates the frame size from the distance
of two equal sync words in it, and cuts the block and the rest of the stream into frames of this
size. The model keeps the ranges that each call accesses in the block and in the output buffer;
`Access.InBounds` says that a range is inside.

* `estimate_cases`: the estimate for a block with no sync word, with one that is not repeated, and
  with one that is.
* `estimate_right_iff`: when it is the distance of two sync words. After a repetition that is too
  close it need not be.
* `accesses_inBounds`: all ranges of all calls are inside if the block is `Usable`: it has a sync
  word, and the first one is repeated or leaves space for the default frame size.
* `unusable_outOfBounds`: otherwise the first call that gets the block and a buffer goes outside.
-/

namespace AmlogicHal.Amadec

open List

/-! ## The estimate -/

/-- `AML_DCA_INPUT_DATA_LEN_PTIME`, the size of the block and of the output buffer. -/
def inputDataLen : Nat := 10 * 1024

def matchSyncWord (w0 w1 : BitVec 32) : Prop :=
  w0 ∈ [0xfe7f0180, 0xff1f00e8, 0x7ffe8001, 0x1fffe800, 0x58642520, 0x64582025] ∨
    (w0 &&& 0xffffff00 = 0x80fe7f01 &&& 0xffffff00 ∧ (w1 >>> 16) &&& 0xff = 0x80fe7f01 &&& 0xff)

instance (w0 w1 : BitVec 32) : Decidable (matchSyncWord w0 w1) :=
  inferInstanceAs (Decidable (_ ∨ _))

variable (buf : Memory Byte)

def SyncWordAt (i : Nat) : Prop := matchSyncWord (u32At buf i) (u32At buf (i + 4))

instance (i : Nat) : Decidable (SyncWordAt buf i) :=
  inferInstanceAs (Decidable (matchSyncWord _ _))

/-- The variables of `AML_DCA_Estimate_Frame_size`. -/
structure Estimate where
  firstSyncDetected : Bool
  firstSyncPos : Int
  sword0Save : BitVec 32
  frameSize : Int

def estimateTurn (i : Nat) (e : Estimate) : Estimate × Bool :=
  if SyncWordAt buf i then
    if ¬ e.firstSyncDetected then
      ({ e with firstSyncDetected := true, firstSyncPos := i, sword0Save := u32At buf i }, false)
    else if e.sword0Save = u32At buf i then
      let frameSize := i - e.firstSyncPos
      if frameSize < 95 then ({ e with frameSize := frameSize, firstSyncPos := frameSize }, false)
      else ({ e with frameSize := frameSize }, true)
    else (e, false)
  else (e, false)

/-- The positions from `i` on, `n` of them. Each turn reads eight bytes. -/
def estimateLoop (buf : Memory Byte) : (n i : Nat) → Estimate → Estimate × List (Int × Int)
  | 0, _, e => (e, [])
  | n + 1, i, e =>
    let (e, leave) := estimateTurn buf i e
    if leave then (e, [(i, 8)])
    else
      let r := estimateLoop buf n (i + 1) e
      (r.1, (i, 8) :: r.2)

/-- `AML_DCA_Estimate_Frame_size`: the frame size, the position of the sync word, and what is
read. -/
def estimateFrameSize (size : Nat) : Int × Int × List (Int × Int) :=
  let r := estimateLoop buf (size - 7) 0 ⟨false, -1, 0, 0⟩
  (if r.1.frameSize = 0 then 1024 else r.1.frameSize + 4, r.1.firstSyncPos, r.2)

/-! ## The source -/

inductive DtshdBuffer
  | firFraBuf
  | output

/-- A range of one of the buffers that is read or written. -/
structure Access where
  buffer : DtshdBuffer
  start : Int
  size : Int

def Access.InBounds (a : Access) : Prop :=
  0 ≤ a.start ∧ 0 ≤ a.size ∧ a.start + a.size ≤ inputDataLen

instance (a : Access) : Decidable a.InBounds := inferInstanceAs (Decidable (_ ∧ _))

structure DtshdSource where
  feed : Feed
  frameSizeDetectFlag : Bool
  firFraBuf : Memory Byte
  firFraBufLen : Int
  firFraBufOffset : Int
  frameSize : Int
  frameNumReaded : Nat

/-- What a call gets from outside: whether there is memory for the block, the answers of the
callback for the block and for the rest of a frame, whether there is an output buffer, and the
sample rate that has been set. -/
structure DtshdCall where
  memory : Bool
  block : List Nat
  acquired : Bool
  body : List Nat
  sampleRate : Nat

/-- How a call ends. A frame has a size, which `set_range` gets. -/
inductive DtshdResult
  | endOfStream
  | noBuffer
  | frame (size : Int)

structure DtshdOutput where
  accesses : List Access
  result : DtshdResult

namespace DtshdSource

def init (stream : Memory Byte) : DtshdSource := ⟨⟨stream, 0⟩, false, fun _ => 0, 0, 0, 0, 0⟩

def preSuspendBytes (offset : Int) : Int :=
  let redunt := offset.tmod 4
  if redunt ≠ 0 then 4 - redunt else 0

def readFirstFrame (s : DtshdSource) : DtshdSource × DtshdOutput :=
  let offset := s.firFraBufOffset
  let pad := preSuspendBytes offset
  ({ s with firFraBufOffset := offset + s.frameSize, frameNumReaded := s.frameNumReaded + 1 },
    ⟨[⟨.firFraBuf, 0, offset⟩, ⟨.output, 0, offset⟩, ⟨.output, offset, pad⟩,
      ⟨.firFraBuf, offset, s.frameSize⟩, ⟨.output, offset + pad, s.frameSize⟩, ⟨.firFraBuf, 0, 32⟩],
      .frame (pad + offset + s.frameSize)⟩)

/-- The reading at the end of a call: `n` bytes to the output buffer from `start` on. -/
def readBody (c : DtshdCall) (copied : List Access) (start n : Int) (s : DtshdSource) :
    DtshdSource × DtshdOutput :=
  let f := mediaSourceReadBuffer 0 n c.body (fun _ => 0) s.feed
  let s := { s with feed := f.feed }
  let accesses := copied ++ [⟨.output, start, f.readsum⟩]
  if (f.readsum : Int) ≠ n then (s, ⟨accesses, .endOfStream⟩)
  else ({ s with frameNumReaded := s.frameNumReaded + 1 }, ⟨accesses, .frame s.frameSize⟩)

def readFrame (c : DtshdCall) (s : DtshdSource) : DtshdSource × DtshdOutput :=
  if s.frameNumReaded = 0 ∧ s.firFraBufOffset > 0 then s.readFirstFrame
  else if s.firFraBufOffset < s.firFraBufLen then
    let byteReaded :=
      if s.firFraBufLen - s.firFraBufOffset ≥ s.frameSize then s.frameSize
      else s.firFraBufLen - s.firFraBufOffset
    readBody c [⟨.firFraBuf, s.firFraBufOffset, byteReaded⟩, ⟨.output, 0, byteReaded⟩] byteReaded
      (s.frameSize - byteReaded) { s with firFraBufOffset := s.firFraBufOffset + byteReaded }
  else
    let frameSize : Int := if c.sampleRate = 96000 then inputDataLen else s.frameSize
    readBody c [] 0 frameSize { s with frameSize := frameSize }

/-- The first block and the estimate. The result is `none` if the call goes on. -/
def detect (c : DtshdCall) (s : DtshdSource) : DtshdSource × List Access × Option DtshdResult :=
  if ¬ c.memory then (s, [], some .endOfStream)
  else
    let f := mediaSourceReadBuffer 0 inputDataLen c.block (fun _ => 0) s.feed
    let s := { s with feed := f.feed, firFraBuf := f.buffer, firFraBufLen := inputDataLen }
    let filled : Access := ⟨.firFraBuf, 0, f.readsum⟩
    if f.readsum ≠ inputDataLen then (s, [filled], some .endOfStream)
    else
      let (frameSize, offset, reads) := estimateFrameSize f.buffer inputDataLen
      let accesses := filled :: reads.map fun x => ⟨.firFraBuf, x.1, x.2⟩
      let s := { s with frameSize := frameSize, firFraBufOffset := offset }
      if frameSize = 0 then (s, accesses, some .endOfStream)
      else ({ s with frameSizeDetectFlag := true }, accesses, none)

def finish (c : DtshdCall) (accesses : List Access) (s : DtshdSource) : DtshdSource × DtshdOutput :=
  if ¬ c.acquired then (s, ⟨accesses, .noBuffer⟩)
  else
    let r := s.readFrame c
    (r.1, ⟨accesses ++ r.2.accesses, r.2.result⟩)

def read (c : DtshdCall) (s : DtshdSource) : DtshdSource × DtshdOutput :=
  if s.frameSizeDetectFlag then s.finish c []
  else
    match s.detect c with
    | (s, accesses, some result) => (s, ⟨accesses, result⟩)
    | (s, accesses, none) => s.finish c accesses

end DtshdSource

open DtshdSource

def dtshdMachine : Machine DtshdSource DtshdCall DtshdOutput where
  step s c := s.read c

/-! ## What the estimate finds -/

def FirstSync (p : Nat) : Prop := SyncWordAt buf p ∧ ∀ q < p, ¬ SyncWordAt buf q

/-- The sync word at `p` is repeated before the position `n`. -/
def RepeatedBefore (p n : Nat) : Prop :=
  ∃ q, p < q ∧ q < n ∧ SyncWordAt buf q ∧ u32At buf q = u32At buf p

def syncPositions : Nat := inputDataLen - 7

def Usable : Prop :=
  ∃ p < syncPositions, FirstSync buf p ∧
    (p + 1024 ≤ inputDataLen ∨ RepeatedBefore buf p syncPositions)

def SameSync (p q : Nat) : Prop := SyncWordAt buf q ∧ u32At buf q = u32At buf p

instance (p q : Nat) : Decidable (SameSync buf p q) := inferInstanceAs (Decidable (_ ∧ _))

/-- Where distances are measured from at the position `i`: at first from the first sync word `p`,
and after each repetition of it from the distance that was measured there. -/
def reference (buf : Memory Byte) (p : Nat) : Nat → Nat
  | 0 => p
  | i + 1 => if p < i ∧ SameSync buf p i then i - reference buf p i else reference buf p i

/-- The distances of all repetitions before `i` are too short. -/
def AllClose (buf : Memory Byte) (p i : Nat) : Prop :=
  ∀ q, p < q → q < i → SameSync buf p q → q < reference buf p q + 95

/-- The loop is left at `i`. -/
structure FirstFar (buf : Memory Byte) (p i : Nat) : Prop where
  after : p < i
  same : SameSync buf p i
  far : reference buf p i + 95 ≤ i
  close : AllClose buf p i

/-- The variables after the positions before `i`. A distance below 95 is taken for the position of
the first sync word, and the search goes on. -/
inductive Scanned (buf : Memory Byte) (i : Nat) : Estimate → Prop
  | none {w : BitVec 32} : (∀ q < i, ¬ SyncWordAt buf q) → Scanned buf i ⟨false, -1, w, 0⟩
  | single {p : Nat} : p < i → FirstSync buf p → ¬ RepeatedBefore buf p i →
      Scanned buf i ⟨true, p, u32At buf p, 0⟩
  | short {p d : Nat} : p < i → FirstSync buf p → RepeatedBefore buf p i → 0 < d → d < 95 → d < i →
      reference buf p i = d → AllClose buf p i → Scanned buf i ⟨true, d, u32At buf p, d⟩

/-- The variables when the loop is left at `i`. -/
inductive Measured (buf : Memory Byte) (i : Nat) : Estimate → Prop
  | mk {p pos : Nat} : FirstSync buf p → RepeatedBefore buf p (i + 1) → pos < i →
      reference buf p i = pos → FirstFar buf p i → Measured buf i ⟨true, pos, u32At buf p, i - pos⟩

variable {buf : Memory Byte} {i : Nat} {e : Estimate}

theorem RepeatedBefore.mono {p m n : Nat} (h : RepeatedBefore buf p m) (hmn : m ≤ n) :
    RepeatedBefore buf p n := by
  obtain ⟨q, hpq, hq, hsync, hword⟩ := h
  exact ⟨q, hpq, Nat.lt_of_lt_of_le hq hmn, hsync, hword⟩

theorem not_repeated_succ {p : Nat} (h : ¬ RepeatedBefore buf p i)
    (hi : ¬ (SyncWordAt buf i ∧ u32At buf i = u32At buf p)) : ¬ RepeatedBefore buf p (i + 1) := by
  rintro ⟨q, hpq, hq, hsync, hword⟩
  rcases Nat.lt_or_eq_of_le (Nat.le_of_lt_succ hq) with hlt | rfl
  · exact h ⟨q, hpq, hlt, hsync, hword⟩
  · exact hi ⟨hsync, hword⟩

theorem reference_eq {p : Nat} (h : ¬ RepeatedBefore buf p i) : reference buf p i = p := by
  induction i with
  | zero => rfl
  | succ i ih =>
    rw [reference, if_neg fun hi => h ⟨i, hi.1, Nat.lt_succ_self i, hi.2⟩]
    exact ih fun hrep => h (hrep.mono (Nat.le_succ i))

theorem reference_succ {p : Nat} (h : ¬ SameSync buf p i) :
    reference buf p (i + 1) = reference buf p i :=
  if_neg fun hi => h hi.2

theorem AllClose.succ {p : Nat} (h : AllClose buf p i)
    (hi : SameSync buf p i → i < reference buf p i + 95) : AllClose buf p (i + 1) := by
  intro q hpq hq hsame
  rcases Nat.lt_or_eq_of_le (Nat.le_of_lt_succ hq) with hlt | rfl
  · exact h q hpq hlt hsame
  · exact hi hsame

theorem FirstFar.unique {p j k : Nat} (hj : FirstFar buf p j) (hk : FirstFar buf p k) : j = k := by
  rcases Nat.lt_trichotomy j k with hlt | rfl | hlt
  · exact absurd (hk.close j hj.after hlt hj.same) (Nat.not_lt.mpr hj.far)
  · rfl
  · exact absurd (hj.close k hk.after hlt hk.same) (Nat.not_lt.mpr hk.far)

section

variable (h : Scanned buf i e)
include h

theorem Scanned.pass
    (hi : SyncWordAt buf i → e.firstSyncDetected ∧ e.sword0Save ≠ u32At buf i) :
    Scanned buf (i + 1) e := by
  cases h with
  | none hnone =>
    refine .none fun q hq => ?_
    rcases Nat.lt_or_eq_of_le (Nat.le_of_lt_succ hq) with hlt | rfl
    · exact hnone q hlt
    · exact fun hsync => nomatch (hi hsync).1
  | single hp hfirst hnot =>
    exact .single (Nat.lt_succ_of_lt hp) hfirst
      (not_repeated_succ hnot fun h => (hi h.1).2 h.2.symm)
  | @short p _ hp hfirst hrep hpos hlt hd href hclose =>
    have hnot : ¬ SameSync buf p i := fun hsame => (hi hsame.1).2 hsame.2.symm
    exact .short (Nat.lt_succ_of_lt hp) hfirst (hrep.mono (Nat.le_succ i)) hpos hlt
      (Nat.lt_succ_of_lt hd) ((reference_succ hnot).trans href)
        (hclose.succ fun hsame => absurd hsame hnot)

/-- A position with the sync word: the distance is a position before it. -/
theorem Scanned.measure (hdetected : e.firstSyncDetected)
    (hsync : SyncWordAt buf i) (hword : e.sword0Save = u32At buf i) :
    ∃ p pos : Nat, p < i ∧ FirstSync buf p ∧ RepeatedBefore buf p (i + 1) ∧ pos < i ∧
      e.firstSyncPos = pos ∧ e.sword0Save = u32At buf p ∧ reference buf p i = pos ∧
        AllClose buf p i := by
  cases h with
  | none => exact nomatch hdetected
  | @single p hp hfirst hnot =>
    exact ⟨p, p, hp, hfirst, ⟨i, hp, Nat.lt_succ_self i, hsync, hword.symm⟩, hp, rfl, rfl,
      reference_eq hnot, fun q hpq hq hsame => absurd ⟨q, hpq, hq, hsame⟩ hnot⟩
  | @short p d hp hfirst hrep _ _ hd href hclose =>
    exact ⟨p, d, hp, hfirst, hrep.mono (Nat.le_succ i), hd, rfl, rfl, href, hclose⟩

theorem estimateTurn_spec :
    ((estimateTurn buf i e).2 = false ∧ Scanned buf (i + 1) (estimateTurn buf i e).1) ∨
      ((estimateTurn buf i e).2 = true ∧ Measured buf i (estimateTurn buf i e).1) := by
  rw [estimateTurn]
  split
  next hsync =>
    split
    next hdetected =>
      left
      cases h with
      | none hnone =>
        refine ⟨rfl, .single (Nat.lt_succ_self i) ⟨hsync, hnone⟩ ?_⟩
        rintro ⟨q, hiq, hq, -, -⟩
        exact absurd hiq (Nat.not_lt.mpr (Nat.le_of_lt_succ hq))
      | single => exact absurd rfl hdetected
      | short => exact absurd rfl hdetected
    next hdetected =>
      split
      next hword =>
        obtain ⟨p, pos, hp, hfirst, hrep, hpos, heq, hsave, href, hclose⟩ :=
          h.measure (not_not.mp hdetected) hsync hword
        have hsame : SameSync buf p i := ⟨hsync, hword.symm.trans hsave⟩
        have hcast : (i : Int) - pos = ((i - pos : Nat) : Int) := by omega
        obtain ⟨detected, firstSyncPos, sword0Save, frameSize⟩ := e
        dsimp only at heq hsave hdetected ⊢
        obtain rfl : detected = true := not_not.mp hdetected
        subst heq hsave
        split
        next hshort =>
          rw [hcast] at hshort ⊢
          refine .inl ⟨rfl,
            .short (Nat.lt_succ_of_lt hp) hfirst hrep (by omega) (by omega) (by omega) ?_
            (hclose.succ fun _ => by omega)⟩
          rw [reference, if_pos ⟨hp, hsame⟩, href]
        next hlong => exact .inr ⟨rfl, .mk hfirst hrep hpos href ⟨hp, hsame, by omega, hclose⟩⟩
      next hword => exact .inl ⟨rfl, h.pass fun _ => ⟨not_not.mp hdetected, hword⟩⟩
  next hsync => exact .inl ⟨rfl, h.pass fun h => absurd h hsync⟩

omit h in
/-- The loop: it looks at all positions, or it is left at one of them. All its reads are of eight
bytes from one of the positions on. -/
theorem estimateLoop_spec : ∀ {n i : Nat} {e : Estimate}, Scanned buf i e →
    (Scanned buf (i + n) (estimateLoop buf n i e).1 ∨ ∃ k < i + n,
      Measured buf k (estimateLoop buf n i e).1) ∧
    ∀ x ∈ (estimateLoop buf n i e).2, 0 ≤ x.1 ∧ x.1 < i + n ∧ x.2 = 8 := by
  intro n
  induction n with
  | zero => exact fun h => ⟨.inl h, nofun⟩
  | succ n ih =>
    intro i e h
    rw [estimateLoop]
    rcases estimateTurn_spec h with ⟨hleave, hnext⟩ | ⟨hleave, hfound⟩
    · obtain ⟨hend, hreads⟩ := ih hnext
      have hcount : i + 1 + n = i + (n + 1) := by omega
      rw [hcount] at hend
      simp only [hleave, Bool.false_eq_true, if_false]
      refine ⟨hend, fun x hx => ?_⟩
      rcases mem_cons.mp hx with rfl | hx
      · exact ⟨Int.natCast_nonneg i, by omega, rfl⟩
      · have := hreads x hx
        omega
    · simp only [hleave, if_true]
      refine ⟨.inr ⟨i, by omega, hfound⟩, fun x hx => ?_⟩
      rw [mem_singleton.mp hx]
      exact ⟨Int.natCast_nonneg i, by omega, rfl⟩

omit h in
theorem scanned_start (buf : Memory Byte) : Scanned buf 0 ⟨false, -1, 0, 0⟩ :=
  .none fun q hq => absurd hq (Nat.not_lt_zero q)

/-! ### The distance of two sync words -/

/-- The result is the default, or 4 more than a distance of two positions with the first sync word,
the first of which is reported; and not the default if two neighbouring positions with it are far
enough apart. -/
def EstimateRight (buf : Memory Byte) (size : Nat) : Prop :=
  ((estimateFrameSize buf size).1 = 1024 ∨
    ∃ p a b : Nat, FirstSync buf p ∧ SameSync buf p a ∧ SameSync buf p b ∧ a + 95 ≤ b ∧
      b + 7 < size ∧ (estimateFrameSize buf size).1 = b - a + 4 ∧
        (estimateFrameSize buf size).2.1 = a) ∧
  ∀ p a b, FirstSync buf p → SameSync buf p a → SameSync buf p b → a + 95 ≤ b → b + 7 < size →
    ¬ RepeatedBefore buf a b → (estimateFrameSize buf size).1 ≠ 1024

end

theorem FirstSync.unique {p q : Nat} (hp : FirstSync buf p) (hq : FirstSync buf q) : p = q :=
  Nat.le_antisymm (Nat.not_lt.mp fun h => hp.2 q h hq.1) (Nat.not_lt.mp fun h => hq.2 p h hp.1)

theorem estimate_cases (buf : Memory Byte) :
    ((∀ p < syncPositions, ¬ SyncWordAt buf p) ∧
      (estimateFrameSize buf inputDataLen).1 = 1024 ∧
      (estimateFrameSize buf inputDataLen).2.1 = -1) ∨
    (∃ p < syncPositions, FirstSync buf p ∧ ¬ RepeatedBefore buf p syncPositions ∧
      (estimateFrameSize buf inputDataLen).1 = 1024 ∧
      (estimateFrameSize buf inputDataLen).2.1 = p) ∨
    (∃ p < syncPositions, FirstSync buf p ∧ RepeatedBefore buf p syncPositions ∧
      ∃ size pos : Nat, (estimateFrameSize buf inputDataLen).1 = size ∧
        (estimateFrameSize buf inputDataLen).2.1 = pos ∧ 0 < size ∧
        pos + size + 3 < inputDataLen) := by
  have hlast : syncPositions = inputDataLen - 7 := rfl
  have hlen : inputDataLen = 10240 := rfl
  obtain ⟨hend, -⟩ := estimateLoop_spec (scanned_start buf)
  rw [estimateFrameSize, ← hlast]
  generalize (estimateLoop buf syncPositions 0 ⟨false, -1, 0, 0⟩).1 = e at hend
  rcases hend with hscanned | ⟨k, hk, hmeasured⟩
  · cases hscanned with
    | none hnone => exact .inl ⟨hnone, rfl, rfl⟩
    | single hp hfirst hnot => exact .inr (.inl ⟨_, hp, hfirst, hnot, rfl, rfl⟩)
    | @short p d hp hfirst hrep hpos hlt hd _ _ =>
      refine .inr (.inr ⟨p, hp, hfirst, hrep, d + 4, d, ?_, rfl, by omega, by omega⟩)
      dsimp only
      rw [if_neg (by omega)]
      rfl
  · cases hmeasured with
    | @mk p pos hfirst hrep hpos _ hfar =>
      refine .inr (.inr
        ⟨p, Nat.lt_trans hfar.after hk, hfirst, hrep.mono hk, k - pos + 4, pos, ?_, rfl,
        by omega, by omega⟩)
      dsimp only
      omega

theorem estimate_reads (buf : Memory Byte) :
    ∀ x ∈ (estimateFrameSize buf inputDataLen).2.2, 0 ≤ x.1 ∧ x.1 + 8 ≤ inputDataLen ∧ x.2 = 8 := by
  obtain ⟨-, hreads⟩ := estimateLoop_spec (scanned_start buf)
  intro x hx
  have hlast : (syncPositions : Int) = 10233 := rfl
  have hlen : (inputDataLen : Int) = 10240 := rfl
  have := hreads x hx
  omega

/-! ### Only the bytes of the block matter -/

theorem syncWordAt_congr {buf' : Memory Byte} (h : ∀ i < inputDataLen, buf i = buf' i) {p : Nat}
    (hp : p < syncPositions) :
    u32At buf p = u32At buf' p ∧ (SyncWordAt buf p ↔ SyncWordAt buf' p) := by
  have hlast : syncPositions + 7 = inputDataLen := rfl
  have hword : ∀ k ≤ 4, u32At buf (p + k) = u32At buf' (p + k) := by
    intro k hk
    rw [u32At, u32At, h (p + k) (by omega), h _ (by omega), h (p + k + 2) (by omega),
      h (p + k + 3) (by omega)]
  have hfirst := hword 0 (by decide)
  rw [Nat.add_zero] at hfirst
  exact ⟨hfirst, by rw [SyncWordAt, SyncWordAt, hfirst, hword 4 (by decide)]⟩

theorem Usable.congr {buf' : Memory Byte} (h : ∀ i < inputDataLen, buf i = buf' i)
    (hu : Usable buf) : Usable buf' := by
  obtain ⟨p, hp, ⟨hsync, hnone⟩, hroom⟩ := hu
  refine ⟨p, hp, ⟨(syncWordAt_congr h hp).2.mp hsync, fun q hq => ?_⟩, hroom.imp_right ?_⟩
  · exact fun hq' => hnone q hq ((syncWordAt_congr h (Nat.lt_trans hq hp)).2.mpr hq')
  · rintro ⟨q, hpq, hq, hsync, hword⟩
    exact ⟨q, hpq, hq, (syncWordAt_congr h hq).2.mp hsync, by
      rw [← (syncWordAt_congr h hq).1, hword, (syncWordAt_congr h hp).1]⟩

/-! ## The calls -/

namespace DtshdSource

def ahead (s : DtshdSource) : Memory Byte := fun i => s.feed.stream (s.feed.pos + i)

theorem preSuspendBytes_spec {offset : Int} (h : 0 ≤ offset) :
    0 ≤ preSuspendBytes offset ∧ preSuspendBytes offset ≤ 3 ∧
    (offset + preSuspendBytes offset) % 4 = 0 := by
  rw [preSuspendBytes, Int.tmod_eq_emod_of_nonneg h]
  split <;> omega

structure Detected (s : DtshdSource) : Prop where
  len : s.firFraBufLen = inputDataLen
  size_pos : 0 < s.frameSize
  size_le : s.frameSize ≤ inputDataLen
  offset_nonneg : 0 ≤ s.firFraBufOffset
  first : s.frameNumReaded = 0 →
    s.firFraBufOffset + preSuspendBytes s.firFraBufOffset + s.frameSize ≤ inputDataLen

def Valid (s : DtshdSource) : Prop :=
  if s.frameSizeDetectFlag then s.Detected else s.frameNumReaded = 0

theorem usable_room (h : Usable buf) :
    let size := (estimateFrameSize buf inputDataLen).1
    let offset := (estimateFrameSize buf inputDataLen).2.1
    0 < size ∧ 0 ≤ offset ∧ offset + preSuspendBytes offset + size ≤ inputDataLen := by
  have hlen : (inputDataLen : Int) = 10240 := rfl
  obtain ⟨p, hp, hfirst, hroom⟩ := h
  rcases estimate_cases buf with ⟨hnone, -⟩ | ⟨q, hq, hfirst', hnot, hsize, hoffset⟩ |
      ⟨q, hq, -, -, size, pos, hsize, hoffset, hpos, hfits⟩
  · exact absurd hfirst.1 (hnone p hp)
  · -- the two first sync words are the same one
    obtain rfl : p = q := by
      rcases Nat.lt_trichotomy p q with hlt | heq | hlt
      · exact absurd hfirst.1 (hfirst'.2 p hlt)
      · exact heq
      · exact absurd hfirst'.1 (hfirst.2 q hlt)
    have hroom := hroom.resolve_right hnot
    have hpad := preSuspendBytes_spec (Int.natCast_nonneg p)
    rw [hsize, hoffset]
    omega
  · have hpad := preSuspendBytes_spec (Int.natCast_nonneg pos)
    rw [hsize, hoffset]
    omega

variable (c : DtshdCall)

theorem readBody_spec {copied : List Access} (hcopied : ∀ a ∈ copied, a.InBounds) {start n : Int}
    (hstart : 0 ≤ start) (hend : start + n ≤ inputDataLen) (hn : 0 ≤ n) (s : DtshdSource) :
    (∀ a ∈ (s.readBody c copied start n).2.accesses, a.InBounds) ∧
      ∃ feed k, (n = 0 → k = 1) ∧ (s.readBody c copied start n).1 =
        { s with feed := feed, frameNumReaded := s.frameNumReaded + k } := by
  have hcount := readCount_le n c.body
  have haccesses : ∀ a ∈ copied ++ [⟨.output, start, readCount n c.body⟩], a.InBounds := by
    intro a ha
    rcases mem_append.mp ha with ha | ha
    · exact hcopied a ha
    · rw [mem_singleton.mp ha]
      refine ⟨hstart, Int.natCast_nonneg _, ?_⟩
      dsimp only
      omega
  rw [readBody, readBuffer_eq]
  dsimp only
  split
  next hshort => exact ⟨haccesses, _, 0, fun h => by omega, rfl⟩
  next => exact ⟨haccesses, _, 1, fun _ => rfl, rfl⟩

variable {s : DtshdSource}

/-- A call after the detection: what it accesses is inside, and there is no first frame any more. -/
theorem readFrame_spec (h : s.Detected) :
    (∀ a ∈ (s.readFrame c).2.accesses, a.InBounds) ∧ (s.readFrame c).1.Detected ∧
      (s.readFrame c).1.frameSizeDetectFlag = s.frameSizeDetectFlag := by
  have hlen : (inputDataLen : Int) = 10240 := rfl
  obtain ⟨hl, hpos, hle, hoffset, hfirst⟩ := h
  rw [readFrame]
  split
  next hbegin =>
    have hpad := preSuspendBytes_spec hoffset
    refine ⟨?_, ⟨hl, hpos, hle, ?_, fun h => absurd h (Nat.succ_ne_zero _)⟩, rfl⟩
    · simp only [readFirstFrame, forall_mem_cons, Access.InBounds]
      refine ⟨?_, ?_, ?_, ?_, ?_, ?_, nofun⟩ <;> omega
    · simp only [readFirstFrame]
      omega
  next hbegin =>
    split
    next hblock =>
      have hbyte : ∀ b : Int,
          b = (if s.firFraBufLen - s.firFraBufOffset ≥ s.frameSize then s.frameSize
            else s.firFraBufLen - s.firFraBufOffset) →
          0 ≤ b ∧ b ≤ s.frameSize ∧ s.firFraBufOffset + b ≤ inputDataLen ∧
            (s.frameNumReaded = 0 → s.frameSize - b = 0) := by
        rintro b rfl
        split <;> omega
      generalize hb : (if s.firFraBufLen - s.firFraBufOffset ≥ s.frameSize then s.frameSize
        else s.firFraBufLen - s.firFraBufOffset) = b
      obtain ⟨hb0, hbs, hbl, hbn⟩ := hbyte b hb.symm
      have hcopied : ∀ a ∈ [⟨.firFraBuf, s.firFraBufOffset, b⟩, ⟨.output, 0, b⟩],
          Access.InBounds a := by
        simp only [forall_mem_cons, Access.InBounds]
        refine ⟨?_, ?_, nofun⟩ <;> omega
      obtain ⟨hin, feed, k, hk, heq⟩ := readBody_spec c hcopied hb0 (n := s.frameSize - b)
        (by omega) (by omega) { s with firFraBufOffset := s.firFraBufOffset + b }
      refine ⟨hin, ?_, by rw [heq]⟩
      rw [heq]
      refine ⟨hl, hpos, hle, ?_, fun hnum => ?_⟩
      · dsimp only
        omega
      · dsimp only at hnum
        omega
    next hblock =>
      have hsize : ∀ n : Int,
          n = (if c.sampleRate = 96000 then (inputDataLen : Int) else s.frameSize) →
          0 < n ∧ n ≤ inputDataLen := by
        rintro n rfl
        split <;> omega
      generalize hn : (if c.sampleRate = 96000 then (inputDataLen : Int) else s.frameSize) = n
      obtain ⟨hn0, hnl⟩ := hsize n hn.symm
      obtain ⟨hin, feed, k, -, heq⟩ := readBody_spec c (forall_mem_nil _) (Int.le_refl 0) (n := n)
        (by omega) (by omega) { s with frameSize := n }
      refine ⟨hin, ?_, by rw [heq]⟩
      rw [heq]
      exact ⟨hl, hn0, hnl, hoffset, fun h => absurd h (by dsimp only; omega)⟩

/-- The first half of a call. If it goes on, the estimate is that of the next bytes of the
stream. -/
theorem detect_spec (s : DtshdSource) :
    (∀ a ∈ (s.detect c).2.1, a.InBounds) ∧ (s.detect c).1.frameNumReaded = s.frameNumReaded ∧
      match (s.detect c).2.2 with
      | some _ => (s.detect c).1.frameSizeDetectFlag = s.frameSizeDetectFlag
      | none => (s.detect c).1.frameSizeDetectFlag = true ∧
        (s.detect c).1.firFraBufLen = inputDataLen ∧
        ∃ buf : Memory Byte, (∀ i < inputDataLen, s.ahead i = buf i) ∧
          (s.detect c).1.frameSize = (estimateFrameSize buf inputDataLen).1 ∧
          (s.detect c).1.firFraBufOffset = (estimateFrameSize buf inputDataLen).2.1 := by
  rw [detect, readBuffer_eq]
  dsimp only
  have hcount := readCount_le inputDataLen c.block
  have hfilled : Access.InBounds ⟨.firFraBuf, 0, readCount inputDataLen c.block⟩ :=
    ⟨Int.le_refl 0, Int.natCast_nonneg _, by dsimp only; omega⟩
  split
  · exact ⟨nofun, rfl, rfl⟩
  · split
    · exact ⟨forall_mem_singleton.mpr hfilled, rfl, rfl⟩
    next hfull =>
      have hfull := not_not.mp hfull
      generalize hbuf : Memory.store (fun _ => 0) 0 (s.feed.next _) = buf
      have haccesses : ∀ a ∈ (⟨.firFraBuf, 0, readCount inputDataLen c.block⟩ : Access) ::
          (estimateFrameSize buf inputDataLen).2.2.map fun x => ⟨.firFraBuf, x.1, x.2⟩,
          a.InBounds := by
        refine forall_mem_cons.mpr ⟨hfilled, fun a ha => ?_⟩
        obtain ⟨x, hx, rfl⟩ := mem_map.mp ha
        have hread := estimate_reads buf x hx
        refine ⟨hread.1, ?_, ?_⟩ <;> dsimp only <;> omega
      have hahead : ∀ i < inputDataLen, s.ahead i = buf i := by
        intro i hi
        have hlt : i < (s.feed.next (readCount inputDataLen c.block)).length := by
          rw [Feed.length_next, hfull]
          exact hi
        have hcell := Memory.store_inside (fun _ => (0 : Byte)) 0 hlt
        rw [Nat.zero_add, hbuf] at hcell
        rw [hcell]
        simp [ahead, Feed.next, Memory.slice]
      split
      · exact ⟨haccesses, rfl, rfl⟩
      · exact ⟨haccesses, rfl, rfl, rfl, buf, hahead, rfl, rfl⟩

theorem Detected.of_usable (hlen : s.firFraBufLen = inputDataLen)
    (hu : Usable buf) (hsize : s.frameSize = (estimateFrameSize buf inputDataLen).1)
    (hoffset : s.firFraBufOffset = (estimateFrameSize buf inputDataLen).2.1) : s.Detected := by
  obtain ⟨hpos, hnonneg, hroom⟩ := usable_room hu
  rw [← hsize, ← hoffset] at *
  have hpad := preSuspendBytes_spec hnonneg
  exact ⟨hlen, hpos, by omega, hnonneg, fun _ => hroom⟩

theorem finish_spec {accesses : List Access} (ha : ∀ a ∈ accesses, a.InBounds)
    (hflag : s.frameSizeDetectFlag) (h : s.Detected) :
    (∀ a ∈ (s.finish c accesses).2.accesses, a.InBounds) ∧ (s.finish c accesses).1.Valid := by
  obtain ⟨hin, hnext, hflag'⟩ := s.readFrame_spec c h
  rw [finish]
  split
  · refine ⟨ha, ?_⟩
    rw [Valid, if_pos hflag]
    exact h
  · refine ⟨fun a hmem => (mem_append.mp hmem).elim (ha a) (hin a), ?_⟩
    rw [Valid, if_pos (hflag'.trans hflag)]
    exact hnext

theorem read_spec (hv : s.Valid) (hu : s.frameSizeDetectFlag ∨ Usable s.ahead) :
    (∀ a ∈ (s.read c).2.accesses, a.InBounds) ∧ (s.read c).1.Valid := by
  rw [read]
  split
  next hflag =>
    rw [Valid, if_pos hflag] at hv
    exact finish_spec c (forall_mem_nil _) hflag hv
  next hflag =>
    rw [Valid, if_neg hflag] at hv
    obtain ⟨hin, hnum, hresult⟩ := s.detect_spec c
    generalize s.detect c = d at hin hnum hresult ⊢
    obtain ⟨next, accesses, result⟩ := d
    cases result with
    | some result =>
      refine ⟨hin, ?_⟩
      rw [Valid, if_neg (hresult ▸ hflag)]
      exact hnum.trans hv
    | none =>
      obtain ⟨hset, hlen, buf, hahead, hsize, hoffset⟩ := hresult
      exact finish_spec c hin hset
        (.of_usable hlen ((hu.resolve_left hflag).congr hahead) hsize hoffset)

theorem estimate_pos (buf : Memory Byte) : 0 < (estimateFrameSize buf inputDataLen).1 := by
  rcases estimate_cases buf with
    ⟨-, hsize, -⟩ | ⟨_, -, -, -, hsize, -⟩ | ⟨_, -, -, -, _, _, hsize, -, hpos, -⟩
  all_goals rw [hsize]; omega

theorem detect_full {c : DtshdCall} (hmemory : c.memory) (hblock : inputDataLen ≤ c.block.sum)
    (s : DtshdSource) : (s.detect c).2.2 = none := by
  have hcount : readCount inputDataLen c.block = inputDataLen := Nat.min_eq_left hblock
  rw [detect, readBuffer_eq]
  dsimp only
  rw [if_neg (not_not.mpr hmemory), if_neg (not_not.mpr hcount),
    if_neg (Int.ne_of_gt (estimate_pos _))]

theorem readFrame_outOfBounds (hlen : s.firFraBufLen = inputDataLen) (hnum : s.frameNumReaded = 0)
    (hsize : s.frameSize = 1024)
    (hoffset : s.firFraBufOffset = -1 ∨ inputDataLen < s.firFraBufOffset + 1024) :
    ∃ a ∈ (s.readFrame c).2.accesses, ¬ a.InBounds := by
  have hl : (inputDataLen : Int) = 10240 := rfl
  refine ⟨⟨.firFraBuf, s.firFraBufOffset, s.frameSize⟩, ?_, ?_⟩
  · rw [readFrame]
    rcases hoffset with hoffset | hoffset
    · -- no sync word: the position is -1
      have hbyte : (if s.firFraBufLen - s.firFraBufOffset ≥ s.frameSize then s.frameSize
          else s.firFraBufLen - s.firFraBufOffset) = s.frameSize := if_pos (by omega)
      rw [if_neg (by omega), if_pos (by omega)]
      rw [hbyte, readBody]
      split <;> exact mem_cons_self
    · rw [if_pos ⟨hnum, by omega⟩]
      simp [readFirstFrame]
  · rintro ⟨hstart, -, hend⟩
    dsimp only at hstart hend
    omega

theorem unusable_outOfBounds (hflag : s.frameSizeDetectFlag = false) (hnum : s.frameNumReaded = 0)
    (hu : ¬ Usable s.ahead) (hmemory : c.memory)
    (hblock : inputDataLen ≤ c.block.sum) (hacquired : c.acquired) :
    ∃ a ∈ (s.read c).2.accesses, ¬ a.InBounds := by
  have hnone := detect_full hmemory hblock s
  obtain ⟨-, hnum', hresult⟩ := s.detect_spec c
  rw [read, if_neg (by simp [hflag])]
  generalize s.detect c = d at hnone hnum' hresult ⊢
  obtain ⟨next, accesses, result⟩ := d
  cases hnone
  obtain ⟨-, hlen, buf, hahead, hsize, hoffset⟩ := hresult
  have hu : ¬ Usable buf := fun h => hu (h.congr fun i hi => (hahead i hi).symm)
  have hout : ∃ a ∈ (next.readFrame c).2.accesses, ¬ a.InBounds := by
    rcases estimate_cases buf with
      ⟨-, hs, ho⟩ | ⟨p, hp, hfirst, -, hs, ho⟩ | ⟨p, hp, hfirst, hrep, -⟩
    · exact readFrame_outOfBounds c hlen (hnum'.trans hnum) (hsize.trans hs)
        (.inl (hoffset.trans ho))
    · refine readFrame_outOfBounds c hlen (hnum'.trans hnum) (hsize.trans hs) (.inr ?_)
      have hroom : ¬ p + 1024 ≤ inputDataLen := fun h => hu ⟨p, hp, hfirst, .inl h⟩
      dsimp only at hoffset
      omega
    · exact absurd ⟨p, hp, hfirst, .inr hrep⟩ hu
  obtain ⟨a, ha, hnot⟩ := hout
  refine ⟨a, ?_, hnot⟩
  dsimp only
  rw [finish, if_neg (not_not.mpr hacquired)]
  exact mem_append_right _ ha

end DtshdSource

def AccessesInBounds (s : DtshdSource) (c : DtshdCall) : Prop :=
  ∀ a ∈ (s.read c).2.accesses, a.InBounds

/-- The frame size is known, or the block that the next call reads is usable. -/
def BlockUsable (s : DtshdSource) (_ : DtshdCall) : Prop := s.frameSizeDetectFlag ∨ Usable s.ahead

theorem accesses_inBounds (stream : Memory Byte) {calls : List DtshdCall}
    (hcalls : dtshdMachine.Always BlockUsable (DtshdSource.init stream) calls) :
    dtshdMachine.Always AccessesInBounds (DtshdSource.init stream) calls :=
  Machine.Always.of_invariant (fun _ c hv hu => read_spec c hv hu)
    (I := Valid) rfl hcalls

/-- Sync words at 4, 104, 204, ... -/
def syncWords : Memory Byte := fun i => [0, 0, 0, 0, 0x7f, 0xfe, 0x80, 0x01].getD (i % 100) 0

/-- A call without memory, one that gets 100 bytes, and one that gets a block. -/
theorem accesses_inBounds_shortRead :
    dtshdMachine.Always AccessesInBounds (DtshdSource.init syncWords)
      [⟨false, [], true, [], 48000⟩, ⟨true, [100], true, [], 48000⟩,
        ⟨true, [10240], true, [], 48000⟩] := by
  have husable : Usable syncWords := ⟨4, by decide, ⟨by decide, by decide⟩, .inl (by decide)⟩
  have hfeed {s : DtshdSource} {n : Nat} (h : s.feed = ⟨syncWords, 100 * n⟩) : Usable s.ahead :=
    husable.congr fun i _ => by simp [ahead, h, syncWords]
  exact accesses_inBounds _
    ⟨.inr (hfeed (n := 0) rfl), .inr (hfeed (n := 0) rfl), .inr (hfeed (n := 1) rfl), trivial⟩

/-- A stream of zeros has no sync word, and the first frame is copied from the address before the
block. -/
theorem noSyncWord_outOfBounds :
    ¬ dtshdMachine.Always AccessesInBounds (DtshdSource.init fun _ => 0)
      [⟨true, [10240], true, [], 48000⟩] := by
  rintro ⟨hin, -⟩
  have hunusable : ¬ Usable (init fun _ => 0).ahead := by
    rintro ⟨p, -, ⟨hsync, -⟩, -⟩
    have hzero : ∀ q, u32At (init fun _ => 0).ahead q = 0 := fun _ =>
      show (0#8 ++ 0#8 ++ 0#8 ++ 0#8 : BitVec 32) = 0 by decide
    rw [SyncWordAt, hzero, hzero] at hsync
    exact absurd hsync (by decide)
  obtain ⟨a, ha, hnot⟩ := unusable_outOfBounds rfl rfl hunusable
    (c := ⟨true, [10240], true, [], 48000⟩) rfl (by decide) rfl
  exact hnot (hin a ha)

end AmlogicHal.Amadec

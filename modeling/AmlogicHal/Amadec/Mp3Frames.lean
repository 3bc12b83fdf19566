import AmlogicHal.Amadec.Mp3Source

/-!
# The frames of the MP3 media source

What `MP3_MediaSource::read` emits are the frames of the stream, one after the other, as long as the
stream is unbroken from its first valid header on: all headers valid, and of the same kind as the
first one (`Unbroken`). Then `Resync` runs once, and the three frames it collects are the first
three.

* `FramesFrom`: a list of buffers is a segment of the stream, cut into frames.
* `frames_consecutive`: all that is emitted on a run over an unbroken stream is such a list, while
  the frames of the look-ahead fit into the scan buffer.
* `staleHeader_emitted`: after one frame of another kind, its header is put in front of the rest of
  a later one.
-/

namespace AmlogicHal.Amadec

open Memory Option List

/-! ## Frames of a stream -/

variable (stream : Memory Byte)

def frameLen (pos : Nat) : Nat := (getMPEGAudioFrameSize (u32At stream pos)).getD 0

/-- The length of the first `n` frames from `p` on. -/
def span (stream : Memory Byte) (p : Nat) : Nat → Nat
  | 0 => 0
  | n + 1 => span stream p n + frameLen stream (p + span stream p n)

def FirstHeader (p : Nat) : Prop :=
  (getMPEGAudioFrameSize (u32At stream p)).isSome ∧
    ∀ q < p, getMPEGAudioFrameSize (u32At stream q) = none

def Unbroken : Prop :=
  ∀ p, FirstHeader stream p → ∀ n,
    (getMPEGAudioFrameSize (u32At stream (p + span stream p n))).isSome ∧
      u32At stream (p + span stream p n) &&& kMask = u32At stream p &&& kMask

def headerOf (bytes : List Byte) : BitVec 32 := u32At (fun i => bytes.getD i 0) 0

def FramesFrom (stream : Memory Byte) : Nat → List (List Byte) → Prop
  | _, [] => True
  | p, frame :: frames =>
    frame = stream.slice p frame.length ∧
      getMPEGAudioFrameSize (headerOf frame) = some frame.length ∧
      FramesFrom stream (p + frame.length) frames

def Mp3Output.emitted (o : Mp3Output) : List (List Byte) :=
  match o.result with
  | .frame bytes => [bytes]
  | _ => []

/-- The frame after the first `k` ones. -/
def frameAt (p k : Nat) : List Byte :=
  stream.slice (p + span stream p k) (frameLen stream (p + span stream p k))

theorem span_le (p : Nat) {i j : Nat} (h : i ≤ j) : span stream p i ≤ span stream p j := by
  induction h with
  | refl => exact Nat.le_refl _
  | step _ ih => exact Nat.le_trans ih (Nat.le_add_right _ _)

variable {stream : Memory Byte} {p : Nat}

theorem Unbroken.size (h : Unbroken stream) (hp : FirstHeader stream p) (n : Nat) :
    getMPEGAudioFrameSize (u32At stream (p + span stream p n)) =
      some (frameLen stream (p + span stream p n)) := by
  obtain ⟨size, hsize⟩ := isSome_iff_exists.mp (h p hp n).1
  rw [frameLen, hsize, getD_some]

theorem firstHeader_unique {q : Nat} (hp : FirstHeader stream p) (hq : FirstHeader stream q) :
    p = q := by
  rcases Nat.lt_trichotomy p q with hlt | heq | hlt
  · rw [FirstHeader, hq.2 p hlt] at hp
    exact absurd hp.1 Bool.false_ne_true
  · exact heq
  · rw [FirstHeader, hp.2 q hlt] at hq
    exact absurd hq.1 Bool.false_ne_true

theorem u32At_eq_of_slice {m m' : Memory Byte} {i j : Nat} (h : m.slice i 4 = m'.slice j 4) :
    u32At m i = u32At m' j := by
  have hcell (k : Nat) (hk : k < 4) : m (i + k) = m' (j + k) := eq_of_slice_eq h hk
  rw [u32At, u32At, hcell 1 (by decide), hcell 2 (by decide), hcell 3 (by decide)]
  exact congrArg (· ++ m' (j + 1) ++ m' (j + 2) ++ m' (j + 3)) (hcell 0 (by decide))

theorem headerOf_slice (m : Memory Byte) (start : Nat) {n : Nat} (hn : 4 ≤ n) :
    headerOf (m.slice start n) = u32At m start := by
  refine u32At_eq_of_slice (slice_congr fun i hi => ?_)
  rw [getD_eq_getElem?_getD, Nat.zero_add, getElem?_slice m (Nat.lt_of_lt_of_le hi hn)]
  rfl

theorem Unbroken.four_lt (h : Unbroken stream) (hp : FirstHeader stream p) (n : Nat) :
    4 < frameLen stream (p + span stream p n) :=
  (frameSize_bounds (h.size hp n)).1

theorem copy_next {m : Memory Byte} {f : Feed} {n : Nat} (hs : f.stream = stream)
    (h : m.slice 0 n = stream.slice p n) (hpos : f.pos = p + n) (l : Nat) :
    (m.store n (f.next l)).slice 0 (n + l) = stream.slice p (n + l) := by
  have happend := slice_store_append m 0 n (f.next l)
  rw [Feed.length_next, Nat.zero_add, h, Feed.next, hs, hpos, slice_append] at happend
  rw [Feed.next, hs, hpos]
  exact happend

theorem front_copy (m header : Memory Byte) :
    (m.store 0 (header.slice 0 4)).slice 0 4 = header.slice 0 4 :=
  slice_store m 0 _

theorem framesFrom_snoc {frame : List Byte} :
    ∀ {frames : List (List Byte)} {p : Nat}, FramesFrom stream p frames →
      frame = stream.slice (p + frames.flatten.length) frame.length →
      getMPEGAudioFrameSize (headerOf frame) = some frame.length →
      FramesFrom stream p (frames ++ [frame])
  | [], _, _, hslice, hsize => ⟨hslice, hsize, trivial⟩
  | first :: rest, p, ⟨hfirst, hfirstSize, hrest⟩, hslice, hsize => by
    refine ⟨hfirst, hfirstSize, framesFrom_snoc hrest ?_ hsize⟩
    rw [flatten_cons, length_append, ← Nat.add_assoc] at hslice
    exact hslice

/-! ## Steps that emit nothing -/

theorem storedFrameSize_ne_four (header : BitVec 32) : storedFrameSize header ≠ 4 := by
  rw [storedFrameSize]
  cases hsize : getMPEGAudioFrameSize header with
  | none => exact (by decide : ((0 : Nat) : Int) ≠ 4)
  | some n =>
    have := (frameSize_bounds hsize).1
    rw [getD_some]
    omega

namespace Mp3Source

variable {s : Mp3Source} {e : Mp3Event}

/-- A step that emits nothing. It keeps the stream, and the stop flag if it is set. No frame has
four bytes, so a read of nothing is never the rest of a frame. -/
structure Quiet (s : Mp3Source) (r : Mp3Source × Mp3Output) : Prop where
  emitted : r.2.emitted = []
  stream : r.1.feed.stream = s.feed.stream
  size : s.frameSize ≠ 4 → r.1.frameSize ≠ 4
  stop : s.stop = true → r.1.stop = true

variable {r : Mp3Source × Mp3Output}

theorem Quiet.trans {t : Mp3Source} (h : Quiet t r) (hstream : t.feed.stream = s.feed.stream)
    (hsize : s.frameSize ≠ 4 → t.frameSize ≠ 4) (hstop : s.stop = true → t.stop = true) :
    Quiet s r :=
  ⟨h.emitted, h.stream.trans hstream, fun hs => h.size (hsize hs), fun hs => h.stop (hstop hs)⟩

theorem mediaRead_stop {stop : Bool} {n m : Nat} (h : stop = false → s.stop = false ∧ n = m)
    (hs : s.stop = true) : stop = true := by
  cases stop with
  | false => exact absurd (h rfl).1 (Bool.eq_false_iff.not.mpr (not_not.mpr hs))
  | true => rfl

variable (caller : FindCaller) (eos : BitVec 32)

theorem findReturn_quiet (header : Option (Memory Byte)) (s : Mp3Source) :
    Quiet s (s.findReturn caller header) := by
  cases caller <;> exact ⟨rfl, rfl, id, id⟩

theorem resyncReturn_quiet (value : BitVec 32) (writes : List (Int × Int)) (s : Mp3Source) :
    Quiet s (s.resyncReturn value writes) := by
  rw [resyncReturn]
  split <;> exact ⟨rfl, rfl, id, id⟩

theorem loopEnd_quiet (writes : List (Int × Int)) (s : Mp3Source) : Quiet s (s.loopEnd writes) := by
  rw [loopEnd]
  split
  · exact ⟨rfl, rfl, id, id⟩
  · exact (resyncReturn_quiet _ _ _).trans rfl id id

theorem stepIdle_quiet (e : Mp3Event) (s : Mp3Source) : Quiet s (s.stepIdle e) := by
  have hzero : (0 : Int) ≠ 4 := by decide
  rw [stepIdle]
  split
  · exact ⟨rfl, rfl, fun _ => hzero, id⟩
  · split <;> exact ⟨rfl, rfl, fun _ => hzero, id⟩

theorem stepAcquire_quiet (e : Mp3Event) (s : Mp3Source) : Quiet s (s.stepAcquire e) := by
  rw [stepAcquire]
  split <;> exact ⟨rfl, rfl, id, id⟩

theorem stepFindStart_quiet (e : Mp3Event) (s : Mp3Source) :
    Quiet s (s.stepFindStart caller e) := by
  obtain ⟨n, stop, -, hstop, hread⟩ := s.mediaRead_spec e 0 4 e.junk
  rw [stepFindStart, hread]
  dsimp only
  split
  · exact (findReturn_quiet _ _ _).trans rfl id (mediaRead_stop hstop)
  · exact ⟨rfl, rfl, id, mediaRead_stop hstop⟩

theorem setFrameSize_quiet (header : BitVec 32) (s : Mp3Source) :
    (s.setFrameSize caller (storedFrameSize header)).feed = s.feed ∧
      (s.setFrameSize caller (storedFrameSize header)).stop = s.stop ∧
      (s.frameSize ≠ 4 → (s.setFrameSize caller (storedFrameSize header)).frameSize ≠ 4) := by
  cases caller with
  | read => exact ⟨rfl, rfl, fun _ => storedFrameSize_ne_four header⟩
  | resync => exact ⟨rfl, rfl, id⟩

theorem stepFindHeader_quiet (header : Memory Byte) (e : Mp3Event) (s : Mp3Source) :
    Quiet s (s.stepFindHeader caller header e) := by
  obtain ⟨hfeed, hstopped, hsize⟩ := setFrameSize_quiet caller _ s
  rw [stepFindHeader]
  generalize s.setFrameSize caller _ = t at hfeed hstopped hsize ⊢
  have hback {r : Mp3Source × Mp3Output} (h : Quiet t r) : Quiet s r :=
    h.trans (congrArg Feed.stream hfeed) hsize hstopped.trans
  obtain ⟨n, stop, -, hstop, hread⟩ := t.mediaRead_spec e 4 1 header
  rw [hread]
  dsimp only
  split
  · exact hback (findReturn_quiet _ _ _)
  · split
    · exact hback ((findReturn_quiet _ _ _).trans rfl id (mediaRead_stop hstop))
    · exact hback ⟨rfl, rfl, id, mediaRead_stop hstop⟩

theorem stepBeginResync_quiet (s : Mp3Source) : Quiet s s.stepBeginResync := by
  rw [stepBeginResync]
  split <;> exact ⟨rfl, rfl, id, id⟩

theorem stepReadFirst_quiet (e : Mp3Event) (s : Mp3Source) : Quiet s (s.stepReadFirst eos e) := by
  obtain ⟨n, stop, -, hstop, hread⟩ := s.mediaRead_spec e 4 _ s.buf
  rw [stepReadFirst]
  rw [hread]
  dsimp only
  split
  · exact (resyncReturn_quiet _ _ _).trans rfl id (mediaRead_stop hstop)
  · exact ⟨rfl, rfl, id, mediaRead_stop hstop⟩

theorem stepLookAhead_quiet (e : Mp3Event) (s : Mp3Source) : Quiet s (s.stepLookAhead e) := by
  obtain ⟨n, stop, -, hstop, hread⟩ := s.mediaRead_spec e 0 4 s.resync.headerBuffer
  rw [stepLookAhead, hread]
  exact ⟨rfl, rfl, id, mediaRead_stop hstop⟩

theorem accept_quiet (e : Mp3Event) (framesize : Int) (s : Mp3Source) :
    Quiet s (s.accept e framesize) := by
  rw [accept]
  dsimp only
  split
  · exact (resyncReturn_quiet _ _ _).trans rfl id id
  · split
    · generalize hread : mediaRead _ _ _ _ _ = r
      obtain ⟨n, stop, -, hstop, rfl⟩ := mediaRead_cases hread
      exact (loopEnd_quiet _ _).trans rfl id (mediaRead_stop hstop)
    · split
      · exact ⟨rfl, rfl, id, id⟩
      · exact (loopEnd_quiet _ _).trans rfl id id

theorem stepCompare_quiet (e : Mp3Event) (s : Mp3Source) : Quiet s (s.stepCompare e) := by
  rw [stepCompare]
  split
  · exact ⟨rfl, rfl, id, id⟩
  · exact (accept_quiet _ _ _).trans rfl id id

theorem restart_quiet (e : Mp3Event) (readbytes : Int) (s : Mp3Source) :
    Quiet s (s.restart e readbytes) := by
  rw [restart]
  split
  · generalize hread : mediaRead _ _ _ _ _ = r
    obtain ⟨n, stop, -, hstop, rfl⟩ := mediaRead_cases hread
    exact (loopEnd_quiet _ _).trans rfl id (mediaRead_stop hstop)
  · exact ⟨rfl, rfl, id, id⟩

theorem stepRefind_quiet (readedbytes : Int) (e : Mp3Event) (s : Mp3Source) :
    Quiet s (s.stepRefind readedbytes e) := by
  rw [stepRefind]
  split
  · dsimp only
    split
    · exact (restart_quiet _ _ _).trans rfl id id
    · split <;> exact ⟨rfl, rfl, id, id⟩
  · exact ⟨rfl, rfl, id, id⟩

theorem stepReadData_quiet (hstop : s.stop = true) : Quiet s s.stepReadData := by
  rw [stepReadData]
  split
  · exact ⟨rfl, rfl, id, id⟩
  · exact ⟨rfl, rfl, id, id⟩

theorem stepCheckHeader_quiet (hstop : s.stop = true) (hsize : s.frameSize ≠ 4) :
    Quiet s (s.stepCheckHeader e) := by
  have hshort : ((s.mediaRead e 4 (s.frameSize - 4)
      (s.data.store 0 (s.headerBuffer.slice 0 4))).2.1 : Int) ≠
      s.frameSize - 4 := by
    rw [mediaRead, if_pos hstop]
    show ((0 : Nat) : Int) ≠ _
    omega
  obtain ⟨n, stop, -, hkeep, hread⟩ := s.mediaRead_spec e 4 _ _
  rw [hread] at hshort
  rw [stepCheckHeader]
  split
  · exact ⟨rfl, rfl, id, id⟩
  · split
    · exact ⟨rfl, rfl, id, id⟩
    · rw [hread]
      dsimp only
      rw [if_pos hshort]
      exact ⟨rfl, rfl, id, mediaRead_stop hkeep⟩

/-! ## A run over an unbroken stream -/

def FirstSizes (stream : Memory Byte) (p j : Nat) (sizes : Nat → Int) : Prop :=
  ∀ i < 3, sizes i = if i < j then (frameLen stream (p + span stream p i) : Int) else 0

theorem FirstSizes.update {p j : Nat} {sizes : Nat → Int}
    (h : FirstSizes stream p j sizes) :
    FirstSizes stream p (j + 1)
      (Function.update sizes j (frameLen stream (p + span stream p j) : Int)) := by
  intro i hi
  rcases eq_or_ne i j with rfl | hne
  · rw [Function.update_self, if_pos (Nat.lt_succ_self i)]
  · rw [Function.update_of_ne hne, h i hi]
    exact if_congr (by omega) rfl rfl

/-- `Resync` has `j` frames and `n` bytes of the next one in the scan buffer. -/
structure Collected (stream : Memory Byte) (p j n : Nat) (s : Mp3Source) : Prop where
  first : FirstHeader stream p
  started : s.startFlag = true
  flag : s.resyncedFlag = j
  some_lt : 1 ≤ j ∧ j < 3
  header : s.resync.firstHeader = u32At stream p
  pos : s.feed.pos = p + (span stream p j + n)
  offset : s.resync.offset = (span stream p j + n : Nat)
  buf : s.buf.slice 0 (span stream p j + n) = stream.slice p (span stream p j + n)
  sizes : FirstSizes stream p j s.resyncFramesize

/-- `k` of the three frames in the scan buffer have been emitted. -/
structure Buffered (stream : Memory Byte) (p k : Nat) (s : Mp3Source) : Prop where
  first : FirstHeader stream p
  started : s.startFlag = false
  fixed : s.mFixedHeader = u32At stream p
  flag : s.resyncedFlag = 3 - k
  pos : s.feed.pos = p + span stream p 3
  resyncPos : s.resyncPos = span stream p k
  buf : s.buf.slice 0 (span stream p 3) = stream.slice p (span stream p 3)
  sizes : FirstSizes stream p 3 s.resyncFramesize

/-- `k` frames have been emitted, and `n` bytes of the next one have been read. -/
structure Reading (stream : Memory Byte) (p k n : Nat) (s : Mp3Source) : Prop where
  first : FirstHeader stream p
  started : s.startFlag = false
  fixed : s.mFixedHeader = u32At stream p
  flag : s.resyncedFlag = 0
  pos : s.feed.pos = p + span stream p k + n

/-- `Find_header` has found no header before `q`. -/
structure Searching (stream : Memory Byte) (q : Nat) (header : Memory Byte) (s : Mp3Source) :
    Prop where
  pos : s.feed.pos = q + 4
  window : header.slice 0 4 = stream.slice q 4
  none_before : ∀ i < q, getMPEGAudioFrameSize (u32At stream i) = none

def Playing (stream : Memory Byte) (p k : Nat) (s : Mp3Source) : Prop :=
  k < 3 ∧ Buffered stream p k s ∨ Reading stream p k 0 s

/-- Where the source is after `k` frames. -/
def OnTrack (stream : Memory Byte) (p k : Nat) (s : Mp3Source) : Prop :=
  match s.loc with
  | .idle => (k = 0 ∧ s.startFlag = true ∧ s.feed.pos = 0) ∨ s.Playing stream p k
  | .acquire => s.Playing stream p k
  | .readData => s.Playing stream p k
  | .checkHeader =>
    Reading stream p k 4 s ∧ s.headerBuffer.slice 0 4 = stream.slice (p + span stream p k) 4 ∧
      s.frameSize = frameLen stream (p + span stream p k)
  | .findStart .read => Reading stream p k 0 s
  | .findHeader .read header =>
    Reading stream p k 4 s ∧ header.slice 0 4 = stream.slice (p + span stream p k) 4
  | .beginResync => k = 0 ∧ s.startFlag = true ∧ s.feed.pos = 0 ∧ s.resync.position = 0
  | .findStart .resync =>
    k = 0 ∧ s.startFlag = true ∧ s.feed.pos = 0 ∧ s.resync.offset = 0 ∧
      FirstSizes stream p 0 s.resyncFramesize
  | .findHeader .resync header =>
    k = 0 ∧ s.startFlag = true ∧ s.resync.offset = 0 ∧ FirstSizes stream p 0 s.resyncFramesize ∧
      ∃ q, Searching stream q header s
  | .readFirst =>
    k = 0 ∧ FirstHeader stream p ∧ s.startFlag = true ∧ s.feed.pos = p + 4 ∧ s.resync.offset = 0 ∧
      s.resync.firstHeader = u32At stream p ∧ s.resync.framesize = frameLen stream p ∧
      s.buf.slice 0 4 = stream.slice p 4 ∧ FirstSizes stream p 1 s.resyncFramesize
  | .lookAhead => k = 0 ∧ ∃ j, Collected stream p j 0 s
  | .compare =>
    k = 0 ∧ ∃ j, Collected stream p j 4 s ∧ s.resync.testHeader = u32At stream (p + span stream p j)
  | .refind _ => False

variable {stream : Memory Byte} {p k : Nat}

theorem stepIdle_onTrack (hloc : s.loc = .idle) (hstop : s.stop = false)
    (h : s.OnTrack stream p k) : (s.stepIdle e).1.OnTrack stream p k := by
  rw [OnTrack, hloc] at h
  have hrun : ¬ s.stop = true := Bool.eq_false_iff.mp hstop
  rw [stepIdle]
  rw [if_neg hrun]
  rcases h with ⟨hk, hstart, hpos⟩ | ⟨hk, h⟩ | h
  · rw [if_pos hstart]
    exact ⟨hk, hstart, hpos, rfl⟩
  · rw [if_neg (Bool.eq_false_iff.mp h.started)]
    exact .inl ⟨hk, { h with }⟩
  · rw [if_neg (Bool.eq_false_iff.mp h.started)]
    exact .inr { h with }

theorem stepAcquire_onTrack (hloc : s.loc = .acquire) (h : s.OnTrack stream p k) :
    (s.stepAcquire e).1.OnTrack stream p k := by
  rw [OnTrack, hloc] at h
  rw [stepAcquire]
  rcases h with ⟨hk, h⟩ | h
  · split
    · exact .inr (.inl ⟨hk, { h with }⟩)
    · exact .inl ⟨hk, { h with }⟩
  · split
    · exact .inr (.inr { h with })
    · exact .inr { h with }

def Tracked (stream : Memory Byte) (p k : Nat) (s : Mp3Source) : Prop :=
  s.feed.stream = stream ∧ s.frameSize ≠ 4 ∧ (s.stop = true ∨ s.OnTrack stream p k)

def Advances (stream : Memory Byte) (p k : Nat) (r : Mp3Source × Mp3Output) : Prop :=
  r.2.emitted = [] ∧ r.1.Tracked stream p k ∨
    FirstHeader stream p ∧ r.2.emitted = [frameAt stream p k] ∧ r.1.Tracked stream p (k + 1)

theorem Quiet.advances (h : Quiet s r) (hs : s.feed.stream = stream) (hsize : s.frameSize ≠ 4)
    (hr : r.1.stop = true ∨ r.1.OnTrack stream p k) :
    Advances stream p k r :=
  .inl ⟨h.emitted, h.stream.trans hs, h.size hsize, hr⟩

theorem stepReadData_onTrack (hu : Unbroken stream) (hs : s.feed.stream = stream)
    (hsize : s.frameSize ≠ 4) (hloc : s.loc = .readData) (hstop : s.stop = false)
    (h : s.OnTrack stream p k) : Advances stream p k s.stepReadData := by
  rw [OnTrack, hloc] at h
  rw [stepReadData]
  rcases h with ⟨hk, h⟩ | h
  · have hflag : s.resyncedFlag ≠ 0 := h.flag ▸ Nat.sub_ne_zero_of_lt hk
    have hindex : 3 - s.resyncedFlag = k := by
      rw [h.flag]
      omega
    have hlen := hu.four_lt h.first k
    have hend : span stream p k + frameLen stream (p + span stream p k) ≤ span stream p 3 :=
      span_le stream p hk
    have hslice : s.buf.slice (span stream p k) (frameLen stream (p + span stream p k)) =
        frameAt stream p k := by
      refine slice_congr fun i hi => ?_
      have hcell := eq_of_slice_eq h.buf (i := span stream p k + i) (by omega)
      rw [Nat.zero_add, ← Nat.add_assoc] at hcell
      exact hcell
    rw [if_pos hflag, if_neg (Bool.eq_false_iff.mp hstop), hindex, h.sizes k hk, if_pos hk,
      h.resyncPos]
    dsimp only
    rw [Int.toNat_natCast, Int.toNat_natCast, hslice]
    refine .inr ⟨h.first, rfl, hs, ?_, .inr (.inr ?_)⟩
    · show (frameLen stream (p + span stream p k) : Int) ≠ 4
      omega
    · have hflag' : s.resyncedFlag - 1 = 3 - (k + 1) := by
        rw [h.flag]
        omega
      rcases Nat.lt_or_ge (k + 1) 3 with hlt | hge
      · exact .inl ⟨hlt, { h with flag := hflag', resyncPos := rfl }⟩
      · obtain rfl : k = 2 := by omega
        exact .inr ⟨h.first, h.started, h.fixed, hflag', h.pos⟩
  · rw [if_neg (not_not.mpr h.flag)]
    exact .inl ⟨rfl, hs, hsize, .inr { h with }⟩

theorem stepFindStart_onTrack {caller : FindCaller} (hs : s.feed.stream = stream)
    (hloc : s.loc = .findStart caller) (h : s.OnTrack stream p k) :
    (s.stepFindStart caller e).1.stop = true ∨ (s.stepFindStart caller e).1.OnTrack stream p k := by
  obtain ⟨n, stop, -, hstop, hread⟩ := s.mediaRead_spec e 0 4 e.junk
  rw [OnTrack, hloc] at h
  rw [stepFindStart, hread]
  dsimp only
  cases stop with
  | true =>
    left
    split
    · exact (findReturn_quiet _ _ _).stop rfl
    · rfl
  | false =>
    obtain rfl : n = 4 := (hstop rfl).2
    have hwindow : (e.junk.store 0 (s.feed.next 4)).slice 0 4 = s.feed.next 4 :=
      slice_store e.junk 0 _
    have hnext : s.feed.next 4 = stream.slice s.feed.pos 4 := hs ▸ rfl
    right
    cases caller with
    | read =>
      refine ⟨{ h with pos := congrArg (· + 4) h.pos }, ?_⟩
      rw [hwindow, hnext, h.pos, Nat.add_zero]
    | resync =>
      obtain ⟨hk, hstart, hpos, hoffset, hsizes⟩ := h
      refine ⟨hk, hstart, hoffset, hsizes, 0, ?_, ?_, fun _ hi => absurd hi (Nat.not_lt_zero _)⟩
      · exact congrArg (· + 4) hpos
      · rw [hwindow, hnext, hpos]

variable {header : Memory Byte}

theorem stepFindHeader_read_onTrack (hu : Unbroken stream) (hloc : s.loc = .findHeader .read header)
    (h : s.OnTrack stream p k) :
    (s.stepFindHeader .read header e).1.OnTrack stream p k := by
  rw [OnTrack, hloc] at h
  obtain ⟨h, hwindow⟩ := h
  have hsize : getMPEGAudioFrameSize (u32At header 0) =
      some (frameLen stream (p + span stream p k)) :=
    u32At_eq_of_slice hwindow ▸ hu.size h.first k
  rw [stepFindHeader]
  rw [hsize, if_pos isSome_some]
  refine ⟨{ h with }, (front_copy _ _).trans hwindow, ?_⟩
  show storedFrameSize (u32At header 0) = _
  rw [storedFrameSize, hsize, getD_some]

theorem stepFindHeader_resync_onTrack (hfirst : ∀ q, FirstHeader stream q → q = p)
    (hs : s.feed.stream = stream) (hloc : s.loc = .findHeader .resync header)
    (h : s.OnTrack stream p k) :
    (s.stepFindHeader .resync header e).1.stop = true ∨
      (s.stepFindHeader .resync header e).1.OnTrack stream p k := by
  rw [OnTrack, hloc] at h
  obtain ⟨hk, hstart, hoffset, hsizes, q, h⟩ := h
  have hword : u32At header 0 = u32At stream q := u32At_eq_of_slice h.window
  rw [stepFindHeader]
  cases hsize : getMPEGAudioFrameSize _ with
  | some size =>
    have hq : FirstHeader stream q := ⟨hword ▸ hsize ▸ rfl, h.none_before⟩
    obtain rfl := hfirst q hq
    have hcopy := (front_copy s.resync.headerBuffer header).trans h.window
    have hlen : storedFrameSize (u32At header 0) = frameLen stream q := by
      rw [storedFrameSize, hword, frameLen]
    right
    refine ⟨hk, hq, hstart, h.pos, hoffset, u32At_eq_of_slice hcopy, hlen, ?_, ?_⟩
    · exact (front_copy _ _).trans hcopy
    · show FirstSizes stream q 1
        (Function.update s.resyncFramesize 0 (storedFrameSize (u32At header 0)))
      rw [hlen]
      exact hsizes.update
  | none =>
    obtain ⟨n, stop, -, hstop, hread⟩ := (s.setFrameSize .resync _).mediaRead_spec e 4 1 header
    rw [if_neg (by decide), hread]
    dsimp only
    cases stop with
    | true =>
      left
      rw [if_pos rfl]
      exact (findReturn_quiet _ _ _).stop rfl
    | false =>
      obtain rfl : n = 1 := (hstop rfl).2
      right
      rw [if_neg Bool.false_ne_true]
      refine ⟨hk, hstart, hoffset, hsizes, q + 1, ?_, ?_, ?_⟩
      · exact congrArg (· + 1) h.pos
      · have hfive := congrArg (drop 1) (copy_next hs h.window h.pos 1)
        rw [slice_move]
        rwa [drop_slice _ _ (by decide), drop_slice _ _ (by decide)] at hfive
      · intro i hi
        rcases Nat.lt_succ_iff_lt_or_eq.mp hi with hlt | rfl
        · exact h.none_before i hlt
        · exact hword ▸ hsize

theorem stepCheckHeader_onTrack (hu : Unbroken stream) (hs : s.feed.stream = stream)
    (hsize : s.frameSize ≠ 4) (hloc : s.loc = .checkHeader) (h : s.OnTrack stream p k) :
    Advances stream p k (s.stepCheckHeader e) := by
  rw [OnTrack, hloc] at h
  obtain ⟨h, hwindow, hlen⟩ := h
  have hfour := hu.four_lt h.first k
  have hmask : ¬ u32At s.headerBuffer 0 &&& kMask ≠ s.mFixedHeader &&& kMask := by
    rw [u32At_eq_of_slice hwindow, h.fixed]
    exact not_not.mpr (hu p h.first k).2
  obtain ⟨n, stop, hle, hstop, hread⟩ := s.mediaRead_spec e 4 _ _
  rw [stepCheckHeader, if_neg hmask, if_neg (by omega), hread]
  dsimp only
  split
  next hshort =>
    refine .inl ⟨rfl, hs, hsize, .inl ?_⟩
    cases stop with
    | true => rfl
    | false => exact absurd ((hstop rfl).2) (by omega)
  next hall =>
    have hframe := copy_next hs ((front_copy s.data s.headerBuffer).trans hwindow) h.pos n
    have hn : 4 + n = frameLen stream (p + span stream p k) := by omega
    have htoNat : s.frameSize.toNat = 4 + n := by omega
    rw [htoNat, hframe, hn]
    refine .inr ⟨h.first, rfl, hs, hsize, .inr (.inr (.inr { h with pos := ?_ }))⟩
    show s.feed.pos + n = _
    rw [h.pos, span, ← hn]
    omega

theorem stepBeginResync_onTrack (hloc : s.loc = .beginResync) (h : s.OnTrack stream p k) :
    s.stepBeginResync.1.OnTrack stream p k := by
  rw [OnTrack, hloc] at h
  obtain ⟨hk, hstart, hpos, hposition⟩ := h
  rw [stepBeginResync]
  rw [if_pos hposition]
  exact ⟨hk, hstart, hpos, rfl, fun _ _ => rfl⟩

theorem stepReadFirst_onTrack (hu : Unbroken stream) (hs : s.feed.stream = stream)
    (hloc : s.loc = .readFirst) (h : s.OnTrack stream p k) :
    (s.stepReadFirst eos e).1.stop = true ∨ (s.stepReadFirst eos e).1.OnTrack stream p k := by
  rw [OnTrack, hloc] at h
  obtain ⟨hk, hfirst, hstart, hpos, hoffset, hheader, hlen, hbuf, hsizes⟩ := h
  have hfour := hu.four_lt hfirst 0
  rw [span, Nat.add_zero] at hfour
  obtain ⟨n, stop, hle, hstop, hread⟩ := s.mediaRead_spec e 4 _ s.buf
  rw [stepReadFirst]
  rw [hread]
  dsimp only
  cases stop with
  | true =>
    left
    split
    · exact (resyncReturn_quiet _ _ _).stop rfl
    · rfl
  | false =>
    have hn := (hstop rfl).2
    have hspan : span stream p 1 = 4 + n := by
      rw [span, span, Nat.zero_add, Nat.add_zero]
      omega
    right
    rw [if_neg (by omega)]
    refine ⟨hk, 1, hfirst, hstart, rfl, ⟨Nat.le_refl 1, by decide⟩, hheader, ?_, ?_, ?_, hsizes⟩
    · show s.feed.pos + n = _
      omega
    · show s.resync.offset + s.resync.framesize = _
      omega
    · have hcopy := copy_next hs hbuf hpos n
      rwa [← hspan] at hcopy

theorem stepLookAhead_onTrack (hs : s.feed.stream = stream) (hloc : s.loc = .lookAhead)
    (h : s.OnTrack stream p k) :
    (s.stepLookAhead e).1.stop = true ∨ (s.stepLookAhead e).1.OnTrack stream p k := by
  rw [OnTrack, hloc] at h
  obtain ⟨hk, j, h⟩ := h
  obtain ⟨n, stop, -, hstop, hread⟩ := s.mediaRead_spec e 0 4 s.resync.headerBuffer
  rw [stepLookAhead, hread]
  cases stop with
  | true => exact .inl rfl
  | false =>
    obtain rfl : n = 4 := (hstop rfl).2
    have hpos := h.pos
    have hheader : (s.resync.headerBuffer.store 0 (s.feed.next 4)).slice 0 4 = s.feed.next 4 :=
      slice_store _ 0 _
    have hbuf := copy_next hs h.buf hpos 4
    right
    refine ⟨hk, j, { h with pos := ?_, offset := ?_, buf := ?_ }, ?_⟩
    · exact congrArg (· + 4) hpos
    · show s.resync.offset + 4 = _
      rw [h.offset]
      rfl
    · show (s.buf.store s.resync.offset.toNat _).slice 0 _ = _
      rw [hheader, h.offset, Int.toNat_natCast]
      exact hbuf
    · rw [Feed.next, hs, hpos]
      rfl

theorem Collected.left_eq_zero {j : Nat} (h : Collected stream p j 4 s) :
    s.resync.offset - 4 - s.resyncFramesize 0 - s.resyncFramesize 1 = 0 := by
  obtain ⟨hone, hthree⟩ := h.some_lt
  rw [h.offset, h.sizes 0 (by decide), h.sizes 1 (by decide),
    if_pos (Nat.lt_of_lt_of_le Nat.zero_lt_one hone)]
  have hzero : span stream p 0 = 0 := rfl
  have hnext (n : Nat) : span stream p (n + 1) =
      span stream p n + frameLen stream (p + span stream p n) := rfl
  obtain rfl | rfl : j = 1 ∨ j = 2 := by omega
  · rw [if_neg (by decide), hnext 0]
    omega
  · rw [if_pos (by decide), hnext 1, hnext 0]
    omega

theorem stepCompare_onTrack (hu : Unbroken stream) (hs : s.feed.stream = stream)
    (hloc : s.loc = .compare) (h : s.OnTrack stream p k) :
    (s.stepCompare e).1.stop = true ∨ (s.stepCompare e).1.OnTrack stream p k := by
  rw [OnTrack, hloc] at h
  obtain ⟨hk, j, h, htest⟩ := h
  have hsize := hu.size h.first j
  have hfits : ¬ (getMPEGAudioFrameSize s.resync.testHeader = none ∨
      s.resync.testHeader &&& kMask ≠ s.resync.firstHeader &&& kMask) := by
    rw [htest, hsize, h.header]
    exact not_or.mpr ⟨nofun, not_not.mpr (hu p h.first j).2⟩
  have hstored : storedFrameSize s.resync.testHeader = frameLen stream (p + span stream p j) := by
    rw [storedFrameSize, htest, hsize, getD_some]
  rw [stepCompare]
  rw [if_neg hfits, hstored, accept]
  dsimp only
  obtain ⟨hone, hthree⟩ := h.some_lt
  have hflag := h.flag
  have hfour := hu.four_lt h.first j
  rw [if_neg (by omega), h.left_eq_zero, if_pos (.inl rfl)]
  generalize hread : mediaRead _ _ _ _ _ = r
  obtain ⟨n, stop, -, hstop, rfl⟩ := mediaRead_cases hread
  cases stop with
  | true => exact .inl ((loopEnd_quiet _ _).stop rfl)
  | false =>
    have hn := (hstop rfl).2
    have hspan : span stream p (j + 1) = span stream p j + 4 + n := by
      rw [span]
      omega
    have hpos : s.feed.pos + n = p + span stream p (j + 1) := by
      rw [h.pos]
      omega
    have hoffset : s.resync.offset + (frameLen stream (p + span stream p j) - 0 - 4) =
        (span stream p (j + 1) : Nat) := by
      rw [h.offset]
      omega
    have hbuf := copy_next hs h.buf h.pos n
    have hsizes := h.sizes.update
    rw [← hspan] at hbuf
    right
    rw [loopEnd]
    dsimp only
    rw [h.flag, Nat.add_sub_cancel, h.offset, Int.toNat_natCast]
    rw [h.offset] at hoffset
    obtain rfl | rfl : j = 1 ∨ j = 2 := by omega
    · exact ⟨hk, 2, h.first, h.started, rfl, by decide, h.header, hpos, hoffset, hbuf, hsizes⟩
    · rw [if_neg (by decide), resyncReturn]
      rw [if_pos h.started]
      exact .inl ⟨by omega, h.first, rfl, h.header, by rw [hk], hpos, by rw [hk]; rfl, hbuf, hsizes⟩

theorem step_quiet_of_stop (hstop : (s.stop || e.stop) = true) (hsize : s.frameSize ≠ 4) :
    Quiet { s with stop := s.stop || e.stop } (s.step eos e) := by
  have hsize : ({ s with stop := s.stop || e.stop } : Mp3Source).frameSize ≠ 4 := hsize
  have hstop : ({ s with stop := s.stop || e.stop } : Mp3Source).stop = true := hstop
  rw [step]
  generalize ({ s with stop := s.stop || e.stop } : Mp3Source) = s at hsize hstop ⊢
  cases hloc : s.loc <;> simp only
  case idle => exact stepIdle_quiet e s
  case acquire => exact stepAcquire_quiet e s
  case readData => exact stepReadData_quiet hstop
  case checkHeader => exact stepCheckHeader_quiet hstop hsize
  case findStart caller => exact stepFindStart_quiet caller e s
  case findHeader caller header => exact stepFindHeader_quiet caller header e s
  case beginResync => exact stepBeginResync_quiet s
  case readFirst => exact stepReadFirst_quiet eos e s
  case lookAhead => exact stepLookAhead_quiet e s
  case compare => exact stepCompare_quiet e s
  case refind readedbytes => exact stepRefind_quiet readedbytes e s

theorem step_advances_of_running (hu : Unbroken stream) (hfirst : ∀ q, FirstHeader stream q → q = p)
    (eos : BitVec 32) (hs : s.feed.stream = stream) (hsize : s.frameSize ≠ 4)
    (hstop : (s.stop || e.stop) = false) (h : s.OnTrack stream p k) :
    Advances stream p k (s.step eos e) := by
  obtain ⟨hrunning, -⟩ := Bool.or_eq_false_iff.mp hstop
  have hsame : ({ s with stop := s.stop || e.stop } : Mp3Source) = s := by
    rw [hstop, ← hrunning]
  rw [step, hsame]
  cases hloc : s.loc with
  | idle => exact (stepIdle_quiet e s).advances hs hsize (.inr (stepIdle_onTrack hloc hrunning h))
  | acquire => exact (stepAcquire_quiet e s).advances hs hsize (.inr (stepAcquire_onTrack hloc h))
  | readData => exact stepReadData_onTrack hu hs hsize hloc hrunning h
  | checkHeader => exact stepCheckHeader_onTrack hu hs hsize hloc h
  | findStart caller =>
    exact (stepFindStart_quiet caller e s).advances hs hsize (stepFindStart_onTrack hs hloc h)
  | findHeader caller header =>
    refine (stepFindHeader_quiet caller header e s).advances hs hsize ?_
    cases caller with
    | read => exact .inr (stepFindHeader_read_onTrack hu hloc h)
    | resync => exact stepFindHeader_resync_onTrack hfirst hs hloc h
  | beginResync =>
    exact (stepBeginResync_quiet s).advances hs hsize (.inr (stepBeginResync_onTrack hloc h))
  | readFirst =>
    exact (stepReadFirst_quiet eos e s).advances hs hsize (stepReadFirst_onTrack eos hu hs hloc h)
  | lookAhead => exact (stepLookAhead_quiet e s).advances hs hsize (stepLookAhead_onTrack hs hloc h)
  | compare => exact (stepCompare_quiet e s).advances hs hsize (stepCompare_onTrack hu hs hloc h)
  | refind readedbytes =>
    rw [OnTrack, hloc] at h
    exact h.elim

theorem step_advances (hu : Unbroken stream) (hfirst : ∀ q, FirstHeader stream q → q = p)
    (eos : BitVec 32) (h : s.Tracked stream p k) : Advances stream p k (s.step eos e) := by
  obtain ⟨hs, hsize, h⟩ := h
  cases hstop : s.stop || e.stop with
  | true =>
    have hquiet := step_quiet_of_stop eos hstop hsize
    exact hquiet.advances hs hsize (.inl (hquiet.stop hstop))
  | false =>
    refine step_advances_of_running hu hfirst eos hs hsize hstop (h.resolve_left ?_)
    rw [(Bool.or_eq_false_iff.mp hstop).1]
    exact Bool.false_ne_true

end Mp3Source

def emitted (h : List (Mp3Event × Mp3Output)) : List (List Byte) :=
  Machine.total Mp3Output.emitted h

theorem emitted_snoc (h : List (Mp3Event × Mp3Output)) (x : Mp3Event × Mp3Output) :
    emitted (h ++ [x]) = emitted h ++ x.2.emitted :=
  Machine.total_snoc _ h x

theorem framesFrom_frameAt (hu : Unbroken stream) (hp : FirstHeader stream p)
    {frames : List (List Byte)} (h : FramesFrom stream p frames)
    (hlength : frames.flatten.length = span stream p frames.length) :
    FramesFrom stream p (frames ++ [frameAt stream p frames.length]) ∧
      (frames ++ [frameAt stream p frames.length]).flatten.length =
        span stream p (frames.length + 1) := by
  have hlen : (frameAt stream p frames.length).length =
      frameLen stream (p + span stream p frames.length) :=
    length_slice _ _ _
  refine ⟨framesFrom_snoc h ?_ ?_, ?_⟩
  · rw [hlength, hlen, frameAt]
  · rw [hlen, frameAt, headerOf_slice stream _ (Nat.le_of_lt (hu.four_lt hp _))]
    exact hu.size hp _
  · rw [flatten_append, length_append, hlength, flatten_singleton, hlen, span]

/-- The look-ahead must fit into the scan buffer for the run to be one of the code. -/
theorem frames_consecutive {stream : Memory Byte} (hstream : Unbroken stream) (eos : BitVec 32)
    (buf : Memory Byte) (resyncPos : Int) (events : List Mp3Event)
    (hfit : (mp3Machine eos).Always FramesFit (Mp3Source.init stream buf resyncPos) events) :
    (mp3Machine eos).Always (WritesInside eos) (Mp3Source.init stream buf resyncPos) events ∧
      ∃ p, FramesFrom stream p
        (emitted ((mp3Machine eos).exec (Mp3Source.init stream buf resyncPos) events).1) := by
  refine ⟨Mp3Source.always_inside eos (Mp3Source.init_inv stream buf resyncPos) hfit, ?_⟩
  obtain ⟨p, hfirst⟩ : ∃ p, ∀ q, FirstHeader stream q → q = p := by
    by_cases hex : ∃ p, FirstHeader stream p
    · obtain ⟨p, hp⟩ := hex
      exact ⟨p, fun q hq => firstHeader_unique hq hp⟩
    · exact ⟨0, fun q hq => (hex ⟨q, hq⟩).elim⟩
  have hrun : (mp3Machine eos).Run (fun _ _ => True) (Mp3Source.init stream buf resyncPos) _ _ :=
    Machine.run_exec events (Machine.always_of_mem fun _ _ => trivial)
  have hinv := hrun.invariant
    (fun h s => FramesFrom stream p (emitted h) ∧
      (emitted h).flatten.length = span stream p (emitted h).length ∧
      s.Tracked stream p (emitted h).length)
    ⟨trivial, rfl, rfl, (by decide : (0 : Int) ≠ 4), .inr (.inl ⟨rfl, rfl, rfl⟩)⟩ ?_
  · exact ⟨p, hinv.1⟩
  · rintro h s e ⟨hframes, hlength, htracked⟩ -
    rw [emitted_snoc]
    rcases Mp3Source.step_advances hstream hfirst eos htracked with
      ⟨hnone, htracked'⟩ | ⟨hp, hsome, htracked'⟩
    · have hnone : ((mp3Machine eos).step s e).2.emitted = [] := hnone
      rw [hnone, append_nil]
      exact ⟨hframes, hlength, htracked'⟩
    · have hsome : ((mp3Machine eos).step s e).2.emitted = [frameAt stream p (emitted h).length] :=
        hsome
      obtain ⟨hframes', hlength'⟩ := framesFrom_frameAt hstream hp hframes hlength
      rw [hsome, length_append, length_singleton]
      exact ⟨hframes', hlength', htracked'⟩

theorem equalFrames_unbroken {header : List Byte} {filler : Byte} {size : Nat}
    (hsize : getMPEGAudioFrameSize (u32At (equalFrames header filler size) 0) = some size) :
    Unbroken (equalFrames header filler size) := by
  have hword (n : Nat) :
      u32At (equalFrames header filler size) (size * n) =
        u32At (equalFrames header filler size) 0 := by
    refine u32At_eq_of_slice (slice_congr fun i _ => ?_)
    rw [equalFrames, equalFrames, Nat.mul_add_mod, Nat.zero_add]
  have hzero : FirstHeader (equalFrames header filler size) 0 :=
    ⟨hsize ▸ rfl, fun _ hi => absurd hi (Nat.not_lt_zero _)⟩
  intro p hp
  obtain rfl := firstHeader_unique hp hzero
  have hspan (n : Nat) : span (equalFrames header filler size) 0 n = size * n := by
    induction n with
    | zero => rfl
    | succ n ih =>
      rw [span, ih, Nat.zero_add, frameLen, hword, hsize]
      rfl
  intro n
  rw [hspan, Nat.zero_add, hword]
  exact ⟨hsize ▸ rfl, rfl⟩

/-- Five frames of 312 bytes: three from the scan buffer and two that are read. -/
theorem frames_consecutive_layerOne :
    let stream := equalFrames [0xff, 0xff, 0x90, 0x90] 0x90 312
    let start := Mp3Source.init stream (fun _ => 0) 0
    let events := replicate 29 (delivers 312)
    (emitted ((mp3Machine 0).exec start events).1).length = 5 ∧
      (mp3Machine 0).Always (WritesInside 0) start events ∧
      ∃ p, FramesFrom stream p (emitted ((mp3Machine 0).exec start events).1) := by
  intro stream start events
  have hfit : (mp3Machine 0).Always FramesFit start events := by decide +kernel
  exact ⟨by decide +kernel, frames_consecutive (equalFrames_unbroken (by decide)) 0 _ 0 _ hfit⟩

/-- Three frames of 24 bytes, one of 26 bytes at another sampling rate, four bytes and three frames
of 24 bytes. -/
def oneOtherFrame : List Byte :=
  let frame : List Byte := [0xff, 0xf3, 0x14, 0x00] ++ replicate 20 0x00
  let other : List Byte := [0xff, 0xf3, 0x10, 0x00] ++ replicate 22 0x00
  frame ++ frame ++ frame ++ other ++ replicate 4 0x00 ++ frame ++ frame ++ frame

/-- A buffer of 24 bytes whose header is that of a frame of 26 bytes. -/
theorem staleHeader_emitted :
    ∃ frame ∈ emitted ((mp3Machine 0).exec
        (Mp3Source.init (fun i => oneOtherFrame.getD i 0x00) (fun _ => 0) 0)
        (replicate 70 (delivers 26))).1,
      frame.length = 24 ∧ getMPEGAudioFrameSize (headerOf frame) = some 26 := by
  decide +kernel

end AmlogicHal.Amadec

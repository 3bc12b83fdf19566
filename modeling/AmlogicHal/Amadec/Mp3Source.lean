import AmlogicHal.Lib.Machine
import AmlogicHal.Amadec.MediaSource

/-!
# The MP3 media source

`MP3_MediaSource::read` emits one frame per call. When it starts, and when a header does not fit the
ones before it, `Resync` searches for three frames in a row, in a buffer of 4096 bytes from which
the next calls take them.

A step of the machine goes from one place in the code to the next one (`Mp3Loc`), with at most one
read from the callback, so a run covers every way through the code, up to any point.

* `getMPEGAudioFrameSize`: which headers are valid, and the size of their frames.
* `Mp3Source.step`: the code of `read`, `Find_header`, `Resync` and `refind_header`, place by place.
* `writes_inside`: while the frames that the look-ahead accepts fit into the buffer, nothing is
  written outside of it.
* `threeFrames_overflow`: three frames of 1440 bytes do not.
-/

namespace AmlogicHal.Amadec

open Function List

/-! ## Headers -/

def kMask : BitVec 32 := 0xfffe0c00

def kSamplingRateV1 : List Nat := [44100, 48000, 32000]

def samplingRate (version index : Nat) : Nat :=
  let rate := kSamplingRateV1.getD index 0
  if version = 2 then rate / 2 else if version = 0 then rate / 4 else rate

def frameSizeOf (version layer bitrateIndex samplingRateIndex padding : Nat) : Nat :=
  let rate := samplingRate version samplingRateIndex
  let lookup (table : List Nat) := table.getD (bitrateIndex - 1) 0
  if layer = 3 then
    let bitrate :=
      if version = 3 then lookup [32, 64, 96, 128, 160, 192, 224, 256, 288, 320, 352, 384, 416, 448]
      else lookup [32, 48, 56, 64, 80, 96, 112, 128, 144, 160, 176, 192, 224, 256]
    (12000 * bitrate / rate + padding) * 4
  else if version = 3 then
    let bitrate :=
      if layer = 2 then lookup [32, 48, 56, 64, 80, 96, 112, 128, 160, 192, 224, 256, 320, 384]
      else lookup [32, 40, 48, 56, 64, 80, 96, 112, 128, 160, 192, 224, 256, 320]
    144000 * bitrate / rate + padding
  else
    let bitrate := lookup [8, 16, 24, 32, 40, 48, 56, 64, 80, 96, 112, 128, 144, 160]
    (if layer = 1 then 72000 else 144000) * bitrate / rate + padding

/-- `GetMPEGAudioFrameSize`: the frame size of a valid header. -/
def getMPEGAudioFrameSize (header : BitVec 32) : Option Nat :=
  let version := ((header >>> 19) &&& 3).toNat
  let layer := ((header >>> 17) &&& 3).toNat
  let bitrateIndex := ((header >>> 12) &&& 0x0f).toNat
  let samplingRateIndex := ((header >>> 10) &&& 3).toNat
  let padding := ((header >>> 9) &&& 1).toNat
  if header &&& 0xffe00000 ≠ 0xffe00000 then none
  else if version = 1 then none
  else if layer = 0 then none
  else if bitrateIndex = 0 ∨ bitrateIndex = 0x0f then none
  else if samplingRateIndex = 3 then none
  else some (frameSizeOf version layer bitrateIndex samplingRateIndex padding)

/-- What the function stores in `*frame_size`. -/
def storedFrameSize (header : BitVec 32) : Int := ((getMPEGAudioFrameSize header).getD 0 : Nat)

/-! ## The state -/

/-- Who has called `Find_header`. -/
inductive FindCaller
  | read
  | resync

/-- A place in the code. The header of `findHeader` is the local array of `Find_header`. -/
inductive Mp3Loc
  | idle
  | acquire
  | readData
  | checkHeader
  | findStart (caller : FindCaller)
  | findHeader (caller : FindCaller) (header : Memory Byte)
  | beginResync
  | readFirst
  | lookAhead
  | compare
  | refind (readedbytes : Int)

structure ResyncLocals where
  headerBuffer : Memory Byte
  firstHeader : BitVec 32
  testHeader : BitVec 32
  offset : Int
  framesize : Int
  position : Nat

/-- The members of the source, the local variables of a call that is not finished, and the place in
the code. `buf` is the scan buffer, `data` the output buffer and `headerBuffer` the array of `read`.
Once the stop flag is set it stays set. -/
structure Mp3Source where
  feed : Feed
  stop : Bool
  buf : Memory Byte
  data : Memory Byte
  frameSize : Int
  resyncedFlag : Nat
  resyncFramesize : Nat → Int
  resyncPos : Int
  mFixedHeader : BitVec 32
  startFlag : Bool
  headerBuffer : Memory Byte
  resync : ResyncLocals
  loc : Mp3Loc

/-- What a step gets from outside: whether the stop flag is set before it or after its read, the
answers of the callback, whether there is an output buffer, and what is in the local arrays that are
not initialised. -/
structure Mp3Event where
  stop : Bool
  answers : List Nat
  stopLate : Bool
  acquired : Bool
  junk : Memory Byte

inductive Mp3Result
  | working
  | endOfStream
  | noBuffer
  | frame (bytes : List Byte)

/-- The ranges of the scan buffer that a step writes, and how it ends. -/
structure Mp3Output where
  writes : List (Int × Int)
  result : Mp3Result

variable (caller : FindCaller)

variable (e : Mp3Event)

namespace Mp3Source

/-- The source after the constructor; `buf` is what `malloc` gives, and `Resync_pos` is not
initialised. The local variables have no value yet, so theirs does not matter. -/
def init (stream buf : Memory Byte) (resyncPos : Int) : Mp3Source where
  feed := ⟨stream, 0⟩
  stop := false
  buf := buf
  data := fun _ => 0
  frameSize := 0
  resyncedFlag := 0
  resyncFramesize := fun _ => 0
  resyncPos := resyncPos
  mFixedHeader := 0
  startFlag := true
  headerBuffer := buf
  resync := ⟨buf, 0, 0, 0, 0, 0⟩
  loc := .idle

/-! ## The code -/

def goto (loc : Mp3Loc) (s : Mp3Source) : Mp3Source × Mp3Output :=
  ({ s with loc := loc }, ⟨[], .working⟩)

def stopWith (result : Mp3Result) (s : Mp3Source) : Mp3Source × Mp3Output :=
  ({ s with loc := .idle }, ⟨[], result⟩)

/-- `MediaSourceRead_buffer`, with the buffer and the result, and the source after it. -/
def mediaRead (dst : Nat) (size : Int) (buffer : Memory Byte) (s : Mp3Source) :
    Memory Byte × Nat × Mp3Source :=
  let f := mediaSourceReadBuffer dst size (if s.stop then [] else e.answers) buffer s.feed
  (f.buffer, f.readsum,
    { s with feed := f.feed, stop := s.stop || e.stopLate || decide ((f.readsum : Int) < size) })

/-- `read`, up to the call of `Resync` at the start of the stream. -/
def stepIdle (s : Mp3Source) : Mp3Source × Mp3Output :=
  let s := { s with frameSize := 0, headerBuffer := e.junk }
  if s.stop then s.stopWith .endOfStream
  else if s.startFlag then
    { s with
      resync :=
        { s.resync with
          headerBuffer := fun i => e.junk (i + 5)
          framesize := 0
          position := 0 } }.goto .beginResync
  else s.goto .acquire

def stepAcquire (s : Mp3Source) : Mp3Source × Mp3Output :=
  if ¬ e.acquired then s.stopWith .noBuffer else s.goto .readData

/-- `Read_data`: a frame from the scan buffer, or the next header. -/
def stepReadData (s : Mp3Source) : Mp3Source × Mp3Output :=
  if s.resyncedFlag ≠ 0 then
    if s.stop then s.stopWith .endOfStream
    else
      let frameSize := s.resyncFramesize (3 - s.resyncedFlag)
      { s with
        frameSize := frameSize
        data := s.data.store 0 (s.buf.slice s.resyncPos.toNat frameSize.toNat)
        resyncPos := s.resyncPos + frameSize
        resyncedFlag := s.resyncedFlag - 1 }.stopWith
        (.frame (s.buf.slice s.resyncPos.toNat frameSize.toNat))
  else s.goto (.findStart .read)

/-- `Find_header` returns. With a header, it is copied to the array of the caller. -/
def findReturn (header : Option (Memory Byte)) (s : Mp3Source) :
    Mp3Source × Mp3Output :=
  match caller with
  | .read =>
    { s with
      headerBuffer :=
        (header.elim s.headerBuffer fun h => s.headerBuffer.store 0 (h.slice 0 4)) }.goto
      .checkHeader
  | .resync =>
    -- the rest of `if (position == 0)`
    let headerBuffer :=
      header.elim s.resync.headerBuffer fun h => s.resync.headerBuffer.store 0 (h.slice 0 4)
    ({ s with
      buf := s.buf.store 0 (headerBuffer.slice 0 4)
      resyncFramesize := Function.update s.resyncFramesize 0 s.resync.framesize
      resync := { s.resync with
        headerBuffer := headerBuffer, firstHeader := u32At headerBuffer 0, position := 0 }
      loc := .readFirst }, ⟨[(0, 4)], .working⟩)

/-- The first read of `Find_header`. -/
def stepFindStart (s : Mp3Source) : Mp3Source × Mp3Output :=
  let (header, readedbytes, s) := s.mediaRead e 0 4 e.junk
  if readedbytes < 4 then s.findReturn caller none else s.goto (.findHeader caller header)

def setFrameSize (size : Int) (s : Mp3Source) : Mp3Source :=
  match caller with
  | .read => { s with frameSize := size }
  | .resync => { s with resync := { s.resync with framesize := size } }

/-- A turn of the loop in `Find_header`. -/
def stepFindHeader (header : Memory Byte) (e : Mp3Event) (s : Mp3Source) :
    Mp3Source × Mp3Output :=
  let s := s.setFrameSize caller (storedFrameSize (u32At header 0))
  if (getMPEGAudioFrameSize (u32At header 0)).isSome then s.findReturn caller (some header)
  else
    let (header, _, s) := s.mediaRead e 4 1 header
    if s.stop then s.findReturn caller none else s.goto (.findHeader caller (header.move 0 1 4))

/-- The rest of `read`, after `Find_header`. -/
def stepCheckHeader (s : Mp3Source) : Mp3Source × Mp3Output :=
  if u32At s.headerBuffer 0 &&& kMask ≠ s.mFixedHeader &&& kMask then
    if s.stop then s.stopWith .endOfStream
    else
      { s with
        resync := { s.resync with headerBuffer := e.junk, framesize := 0, position := 4 } }.goto
        .beginResync
  else if s.frameSize ≤ 0 then s.stopWith .endOfStream
  else
    let (data, readsum, s) :=
      s.mediaRead e 4 (s.frameSize - 4) (s.data.store 0 (s.headerBuffer.slice 0 4))
    let s := { s with data := data }
    if (readsum : Int) ≠ s.frameSize - 4 then s.stopWith .endOfStream
    else s.stopWith (.frame (data.slice 0 s.frameSize.toNat))

/-- `Resync` returns to `read`. In the middle of the stream the header that `read` has found is
copied to the scan buffer. -/
def resyncReturn (value : BitVec 32) (writes : List (Int × Int)) (s : Mp3Source) :
    Mp3Source × Mp3Output :=
  let s := { s with mFixedHeader := value }
  if s.startFlag then ({ s with startFlag := false, loc := .acquire }, ⟨writes, .working⟩)
  else
    ({ s with buf := s.buf.store 0 (s.headerBuffer.slice 0 4), loc := .readData },
      ⟨writes ++ [(0, 4)], .working⟩)

def stepBeginResync (s : Mp3Source) : Mp3Source × Mp3Output :=
  let s := { s with resyncFramesize := fun _ => 0, resync := { s.resync with offset := 0 } }
  if s.resync.position = 0 then s.goto (.findStart .resync)
  else
    { s with
      resyncFramesize := Function.update s.resyncFramesize 0 s.frameSize
      resync :=
        { s.resync with
          framesize := s.frameSize
          firstHeader := u32At s.resync.headerBuffer 0
          position := 0 } }.goto .readFirst

def stepReadFirst (errorEndOfStream : BitVec 32) (e : Mp3Event) (s : Mp3Source) :
    Mp3Source × Mp3Output :=
  let size := s.resync.framesize
  let (buf, readsum, s) := s.mediaRead e 4 (size - 4) s.buf
  let s := { s with buf := buf }
  if (readsum : Int) ≠ size - 4 then s.resyncReturn errorEndOfStream [(4, readsum)]
  else
    ({ s with
      resyncedFlag := 1
      resync := { s.resync with offset := s.resync.offset + size }
      loc := .lookAhead }, ⟨[(4, readsum)], .working⟩)

def stepLookAhead (s : Mp3Source) : Mp3Source × Mp3Output :=
  let (headerBuffer, _, s) := s.mediaRead e 0 4 s.resync.headerBuffer
  let offset := s.resync.offset
  ({ s with
    buf := s.buf.store offset.toNat (headerBuffer.slice 0 4)
    resync :=
      { s.resync with
        headerBuffer := headerBuffer
        testHeader := u32At headerBuffer 0
        offset := offset + 4 }
    loc := .compare }, ⟨[(offset, 4)], .working⟩)

/-- The end of the loop: `while (Resynced_flag != 3)`. -/
def loopEnd (writes : List (Int × Int)) (s : Mp3Source) : Mp3Source × Mp3Output :=
  if s.resyncedFlag ≠ 3 then ({ s with loc := .lookAhead }, ⟨writes, .working⟩)
  else { s with resyncPos := 0 }.resyncReturn s.resync.firstHeader writes

/-- A header in the look-ahead that fits: the rest of its frame is read, as far as it is not there
yet. -/
def accept (framesize : Int) (s : Mp3Source) : Mp3Source × Mp3Output :=
  let s := { s with resyncedFlag := s.resyncedFlag + 1 }
  if s.resyncedFlag > 3 then
    { s with resyncedFlag := 3, resyncPos := 0 }.resyncReturn s.resync.firstHeader []
  else
    let offset := s.resync.offset
    let left := offset - 4 - s.resyncFramesize 0 - s.resyncFramesize 1
    let s :=
      { s with resyncFramesize := Function.update s.resyncFramesize (s.resyncedFlag - 1) framesize }
    if left = 0 ∨ (left < framesize ∧ left > 0) then
      -- the two branches that read differ by `left` only
      let (buf, readsum, s) := s.mediaRead e offset.toNat (framesize - left - 4) s.buf
      { s with
        buf := buf
        resync := { s.resync with offset := offset + (framesize - left - 4) } }.loopEnd
          [(offset, readsum)]
    else if left > framesize then
      { s with
        resync :=
          { s.resync with
            testHeader :=
              u32At s.buf (framesize + s.resyncFramesize (s.resyncedFlag - 2)).toNat } }.goto
        .compare
    else s.loopEnd []

def stepCompare (s : Mp3Source) : Mp3Source × Mp3Output :=
  let framesize := storedFrameSize s.resync.testHeader
  let s := { s with resync := { s.resync with framesize := framesize } }
  if getMPEGAudioFrameSize s.resync.testHeader = none ∨
      s.resync.testHeader &&& kMask ≠ s.resync.firstHeader &&& kMask then
    -- `refind_header`, up to its loop
    { s with
      resync :=
        { s.resync with headerBuffer := s.resync.headerBuffer.store 0 (s.buf.slice 4 4) } }.goto
      (.refind 4)
  else s.accept e framesize

/-- `refind_header` has found a header: what comes from there on becomes the start of the buffer. -/
def restart (readbytes : Int) (s : Mp3Source) : Mp3Source × Mp3Output :=
  let framesize := s.resync.framesize
  let offset := s.resync.offset - readbytes
  let s :=
    { s with
      resyncedFlag := 1
      resyncFramesize := Function.update (Function.update s.resyncFramesize 0 framesize) 1 0
      buf := s.buf.move 0 readbytes.toNat offset.toNat
      resync := { s.resync with firstHeader := u32At s.resync.headerBuffer 0, offset := offset } }
  if framesize > offset then
    let (buf, readsum, s) := s.mediaRead e offset.toNat (framesize - offset) s.buf
    { s with
      buf := buf
      resync := { s.resync with offset := framesize } }.loopEnd [(0, offset), (offset, readsum)]
  else
    ({ s with
      resync := { s.resync with testHeader := u32At s.buf framesize.toNat }
      loc := .compare }, ⟨[(0, offset)], .working⟩)

/-- A turn of the loop in `refind_header`, which is called with `buffer + 4` and `offset - 4`. -/
def stepRefind (readedbytes : Int) (e : Mp3Event) (s : Mp3Source) : Mp3Source × Mp3Output :=
  if readedbytes < s.resync.offset - 4 then
    let header := u32At s.resync.headerBuffer 0
    let s := { s with resync := { s.resync with framesize := storedFrameSize header } }
    if (getMPEGAudioFrameSize header).isSome then s.restart e readedbytes
    else
      let next := s.resync.headerBuffer.store 4 (s.buf.slice (readedbytes + 4).toNat 1)
      let s := { s with resync := { s.resync with headerBuffer := next.move 0 1 4 } }
      if s.stop then s.goto .beginResync else s.goto (.refind (readedbytes + 1))
  else s.goto .beginResync

def step (errorEndOfStream : BitVec 32) (e : Mp3Event) (s : Mp3Source) : Mp3Source × Mp3Output :=
  let s := { s with stop := s.stop || e.stop }
  match s.loc with
  | .idle => s.stepIdle e
  | .acquire => s.stepAcquire e
  | .readData => s.stepReadData
  | .checkHeader => s.stepCheckHeader e
  | .findStart caller => s.stepFindStart caller e
  | .findHeader caller header => s.stepFindHeader caller header e
  | .beginResync => s.stepBeginResync
  | .readFirst => s.stepReadFirst errorEndOfStream e
  | .lookAhead => s.stepLookAhead e
  | .compare => s.stepCompare e
  | .refind readedbytes => s.stepRefind readedbytes e

end Mp3Source

/-- `errorEndOfStream` is the value of `ERROR_END_OF_STREAM`, which `Resync` also returns as a
header. -/
def mp3Machine (errorEndOfStream : BitVec 32) : Machine Mp3Source Mp3Event Mp3Output where
  step s e := s.step errorEndOfStream e

/-! ## The writes -/

def InsideScanBuffer (w : Int × Int) : Prop := 0 ≤ w.1 ∧ 0 ≤ w.2 ∧ w.1 + w.2 ≤ 4096

instance (w : Int × Int) : Decidable (InsideScanBuffer w) := inferInstanceAs (Decidable (_ ∧ _))

variable (eos : BitVec 32)

def WritesInside (s : Mp3Source) (e : Mp3Event) : Prop :=
  ∀ w ∈ (s.step eos e).2.writes, InsideScanBuffer w

instance (s : Mp3Source) (e : Mp3Event) : Decidable (WritesInside eos s e) :=
  inferInstanceAs (Decidable (∀ w ∈ (s.step eos e).2.writes, InsideScanBuffer w))

/-- `Compare` accepts a header as the second or the third one. -/
def Mp3Source.Accepts (s : Mp3Source) : Prop :=
  match s.loc with
  | .compare => s.resyncedFlag < 3 ∧ getMPEGAudioFrameSize s.resync.testHeader ≠ none ∧
      s.resync.testHeader &&& kMask = s.resync.firstHeader &&& kMask
  | _ => False

instance (s : Mp3Source) : Decidable s.Accepts := by
  unfold Mp3Source.Accepts
  cases s.loc <;> infer_instance

/-- A header is accepted only if the frames before it and its own fit into the scan buffer. Behind
the second frame there must be room for two headers: the one that is there already is read once more
if `refind_header` has left exactly two frames and four bytes. -/
def FramesFit (s : Mp3Source) (_ : Mp3Event) : Prop :=
  s.Accepts → s.resyncFramesize 0 + s.resyncFramesize 1 + storedFrameSize s.resync.testHeader ≤
    if s.resyncedFlag = 1 then 4088 else 4096

instance (s : Mp3Source) (e : Mp3Event) : Decidable (FramesFit s e) :=
  inferInstanceAs (Decidable (_ → _))

theorem frameSizeOf_bounds :
    ∀ version ∈ [0, 2, 3], ∀ layer ∈ [1, 2, 3], ∀ bitrateIndex ∈ List.range' 1 14,
      ∀ samplingRateIndex ∈ [0, 1, 2], ∀ padding ∈ [0, 1],
        4 < frameSizeOf version layer bitrateIndex samplingRateIndex padding ∧
          frameSizeOf version layer bitrateIndex samplingRateIndex padding ≤ 2881 := by
  decide +kernel

/-- The shortest frame has more than the four bytes of its header, the longest one 2881 bytes. -/
theorem frameSize_bounds {header : BitVec 32} {n : Nat}
    (h : getMPEGAudioFrameSize header = some n) : 4 < n ∧ n ≤ 2881 := by
  have hfield (x : BitVec 32) : (x &&& 3).toNat ≤ 3 := Nat.and_le_right
  have hversion := hfield (header >>> 19)
  have hlayer := hfield (header >>> 17)
  have hsampling := hfield (header >>> 10)
  have hbitrate : ((header >>> 12) &&& 0x0f).toNat ≤ 15 := Nat.and_le_right
  have hpadding : ((header >>> 9) &&& 1).toNat ≤ 1 := Nat.and_le_right
  unfold getMPEGAudioFrameSize at h
  dsimp only at h
  split_ifs at h with _ hv hl hb hs
  rw [← Option.some.inj h]
  generalize ((header >>> 19) &&& 3).toNat = version at *
  generalize ((header >>> 17) &&& 3).toNat = layer at *
  generalize ((header >>> 12) &&& 0x0f).toNat = bitrateIndex at *
  generalize ((header >>> 10) &&& 3).toNat = samplingRateIndex at *
  generalize ((header >>> 9) &&& 1).toNat = padding at *
  refine frameSizeOf_bounds version ?_ layer ?_ bitrateIndex ?_ samplingRateIndex ?_ padding ?_
  all_goals
    simp only [List.mem_cons, List.not_mem_nil, or_false, List.mem_range'_1]
    omega

namespace Mp3Source

/-- A read changes the buffer, the position in the stream and the stop flag. It is complete unless
the flag is set then. -/
theorem mediaRead_spec (dst : Nat) (size : Int) (buffer : Memory Byte) (s : Mp3Source) :
    ∃ (n : Nat) (stop : Bool), n ≤ size.toNat ∧ (stop = false → s.stop = false ∧ n = size.toNat) ∧
      s.mediaRead e dst size buffer =
        (buffer.store dst (s.feed.next n), n,
          { s with feed := s.feed.advance n, stop := stop }) := by
  have hle := readCount_le size (if s.stop then [] else e.answers)
  refine ⟨readCount size _,
    s.stop || e.stopLate ||
      decide ((readCount size (if s.stop then [] else e.answers) : Int) < size),
    hle, ?_, ?_⟩
  · intro hstop
    rw [Bool.or_eq_false_iff, Bool.or_eq_false_iff, decide_eq_false_iff_not] at hstop
    exact ⟨hstop.1.1, by omega⟩
  · rw [mediaRead, readBuffer_eq]

theorem mediaRead_cases {e : Mp3Event} {dst : Nat} {size : Int} {buffer : Memory Byte}
    {s : Mp3Source} {r : Memory Byte × Nat × Mp3Source} (h : s.mediaRead e dst size buffer = r) :
    ∃ (n : Nat) (stop : Bool), n ≤ size.toNat ∧ (stop = false → s.stop = false ∧ n = size.toNat) ∧
      r = (buffer.store dst (s.feed.next n), n,
        { s with feed := s.feed.advance n, stop := stop }) :=
  h ▸ mediaRead_spec e dst size buffer s

def FrameSize (n : Int) : Prop := 0 ≤ n ∧ n ≤ 2881

def Sizes (s : Mp3Source) : Prop :=
  (∀ i, FrameSize (s.resyncFramesize i)) ∧ FrameSize s.frameSize ∧ FrameSize s.resync.framesize

/-- `Resync` has just begun. -/
def Fresh (s : Mp3Source) : Prop := s.resync.offset = 0 ∧ s.resyncFramesize 1 = 0

/-- In the look-ahead there is room for a header. Only one frame has been accepted in the first
turn. -/
def Place (s : Mp3Source) : Prop :=
  match s.loc with
  | .findStart caller => caller = .resync → s.Fresh
  | .findHeader caller _ => caller = .resync → s.Fresh
  | .readFirst => s.Fresh
  | .lookAhead =>
    0 ≤ s.resync.offset ∧ s.resync.offset ≤ 4092 ∧
      (s.resyncedFlag = 1 ∧ s.resyncFramesize 1 = 0 ∨ s.resyncedFlag = 2)
  | .compare =>
    0 ≤ s.resync.offset ∧ s.resync.offset ≤ 4096 ∧
      (s.resyncedFlag = 1 ∧ s.resyncFramesize 1 = 0 ∨ s.resyncedFlag = 2 ∨ s.resyncedFlag = 3)
  | .refind readedbytes => 4 ≤ readedbytes ∧ s.resync.offset ≤ 4096
  | _ => True

def Inv (s : Mp3Source) : Prop := s.Sizes ∧ s.Place

def StepInside (r : Mp3Source × Mp3Output) : Prop :=
  (∀ w ∈ r.2.writes, InsideScanBuffer w) ∧ r.1.Inv

variable {s : Mp3Source} {e : Mp3Event}

theorem frameSize_zero : FrameSize 0 := ⟨Int.le_refl 0, by decide⟩

theorem frameSize_update {fs : Nat → Int} (hfs : ∀ i, FrameSize (fs i)) {n : Int} (hn : FrameSize n)
    (k : Nat) : ∀ i, FrameSize (update fs k n i) := by
  intro i
  rcases eq_or_ne i k with rfl | hne
  · rw [update_self]
    exact hn
  · rw [update_of_ne hne]
    exact hfs i

theorem frameSize_stored (header : BitVec 32) : FrameSize (storedFrameSize header) := by
  rw [storedFrameSize]
  cases hsize : getMPEGAudioFrameSize header with
  | none => exact frameSize_zero
  | some n =>
    have := frameSize_bounds hsize
    rw [Option.getD_some]
    exact ⟨Int.natCast_nonneg n, by omega⟩

theorem goto_inside {loc : Mp3Loc} (hs : s.Sizes) (hp : ({ s with loc := loc } : Mp3Source).Place) :
    StepInside (s.goto loc) :=
  ⟨nofun, hs, hp⟩

theorem stopWith_inside (result : Mp3Result) (hs : s.Sizes) : StepInside (s.stopWith result) :=
  ⟨nofun, hs, trivial⟩

theorem stepIdle_inside (hs : s.Sizes) : StepInside (s.stepIdle e) := by
  obtain ⟨hfs, -, hframesize⟩ := hs
  rw [stepIdle]
  split
  · exact stopWith_inside _ ⟨hfs, frameSize_zero, hframesize⟩
  · split
    · exact goto_inside ⟨hfs, frameSize_zero, frameSize_zero⟩ trivial
    · exact goto_inside ⟨hfs, frameSize_zero, hframesize⟩ trivial

theorem stepAcquire_inside (hs : s.Sizes) : StepInside (s.stepAcquire e) := by
  rw [stepAcquire]
  split
  · exact stopWith_inside _ hs
  · exact goto_inside hs trivial

theorem stepReadData_inside (hs : s.Sizes) : StepInside s.stepReadData := by
  obtain ⟨hfs, hsize, hframesize⟩ := hs
  rw [stepReadData]
  split
  · split
    · exact stopWith_inside _ ⟨hfs, hsize, hframesize⟩
    · exact stopWith_inside _ ⟨hfs, hfs _, hframesize⟩
  · exact goto_inside ⟨hfs, hsize, hframesize⟩ nofun

theorem inside_front : InsideScanBuffer (0, 4) := by decide

theorem findReturn_inside (header : Option (Memory Byte)) (hs : s.Sizes)
    (ho : caller = .resync → s.Fresh) : StepInside (s.findReturn caller header) := by
  cases caller with
  | read => exact goto_inside hs trivial
  | resync =>
    refine ⟨forall_mem_singleton.mpr inside_front, ⟨frameSize_update hs.1 hs.2.2 0, hs.2⟩,
      (ho rfl).1, ?_⟩
    exact (update_of_ne Nat.one_ne_zero s.resync.framesize s.resyncFramesize).trans (ho rfl).2

variable {caller : FindCaller} {writes : List (Int × Int)}

theorem stepFindStart_inside (hs : s.Sizes) (ho : caller = .resync → s.Fresh) :
    StepInside (s.stepFindStart caller e) := by
  obtain ⟨n, stop, -, -, hread⟩ := s.mediaRead_spec e 0 4 e.junk
  rw [stepFindStart, hread]
  dsimp only
  split
  · exact findReturn_inside caller _ hs ho
  · exact goto_inside hs ho

theorem setFrameSize_inside {n : Int} (hn : FrameSize n) (hs : s.Sizes)
    (ho : caller = .resync → s.Fresh) :
    (s.setFrameSize caller n).Sizes ∧ (caller = .resync → (s.setFrameSize caller n).Fresh) := by
  cases caller with
  | read => exact ⟨⟨hs.1, hn, hs.2.2⟩, nofun⟩
  | resync => exact ⟨⟨hs.1, hs.2.1, hn⟩, ho⟩

theorem stepFindHeader_inside (header : Memory Byte) (hs : s.Sizes)
    (ho : caller = .resync → s.Fresh) : StepInside (s.stepFindHeader caller header e) := by
  obtain ⟨hs, ho⟩ := setFrameSize_inside (frameSize_stored (u32At header 0)) hs ho
  rw [stepFindHeader]
  generalize s.setFrameSize caller _ = s at hs ho ⊢
  obtain ⟨n, stop, -, -, hread⟩ := s.mediaRead_spec e 4 1 header
  rw [hread]
  dsimp only
  split
  · exact findReturn_inside caller _ hs ho
  · split
    · exact findReturn_inside caller _ hs ho
    · exact goto_inside hs ho

theorem stepCheckHeader_inside (hs : s.Sizes) : StepInside (s.stepCheckHeader e) := by
  obtain ⟨n, stop, -, -, hread⟩ := s.mediaRead_spec e 4 _ _
  rw [stepCheckHeader, hread]
  dsimp only
  split
  · split
    · exact stopWith_inside _ hs
    · exact goto_inside ⟨hs.1, hs.2.1, frameSize_zero⟩ trivial
  · split
    · exact stopWith_inside _ hs
    · split <;> exact stopWith_inside _ hs

theorem resyncReturn_inside (value : BitVec 32) (hw : ∀ w ∈ writes, InsideScanBuffer w)
    (hs : s.Sizes) : StepInside (s.resyncReturn value writes) := by
  rw [resyncReturn]
  split
  · exact ⟨hw, hs, trivial⟩
  · refine ⟨?_, hs, trivial⟩
    intro w hmem
    rcases mem_append.mp hmem with hmem | hmem
    · exact hw w hmem
    · rw [mem_singleton.mp hmem]
      exact inside_front

theorem stepBeginResync_inside (hs : s.Sizes) : StepInside s.stepBeginResync := by
  obtain ⟨-, hsize, hframesize⟩ := hs
  have hone : update (fun _ : Nat => (0 : Int)) 0 s.frameSize 1 = 0 :=
    update_of_ne Nat.one_ne_zero ..
  rw [stepBeginResync]
  split
  · exact goto_inside ⟨fun _ => frameSize_zero, hsize, hframesize⟩ fun _ => ⟨rfl, rfl⟩
  · exact goto_inside ⟨frameSize_update (fun _ => frameSize_zero) hsize 0, hsize, hsize⟩ ⟨rfl, hone⟩

theorem stepReadFirst_inside (hs : s.Sizes) (ho : s.Fresh) :
    StepInside (s.stepReadFirst eos e) := by
  obtain ⟨hpos, hle⟩ := hs.2.2
  obtain ⟨n, stop, hn, -, hread⟩ := s.mediaRead_spec e 4 (s.resync.framesize - 4) s.buf
  have hw : ∀ w ∈ [((4 : Int), (n : Int))], InsideScanBuffer w := by
    refine forall_mem_singleton.mpr ⟨Int.natCast_nonneg 4, Int.natCast_nonneg n, ?_⟩
    omega
  rw [stepReadFirst, hread]
  dsimp only
  split
  · exact resyncReturn_inside eos hw hs
  · refine ⟨hw, hs, ?_, ?_, .inl ⟨rfl, ho.2⟩⟩
    all_goals
      dsimp only
      rw [ho.1]
      omega

theorem stepLookAhead_inside (h : s.Inv) (hloc : s.loc = .lookAhead) :
    StepInside (s.stepLookAhead e) := by
  obtain ⟨hs, hp⟩ := h
  rw [Place, hloc] at hp
  obtain ⟨hpos, hle, hflag⟩ := hp
  obtain ⟨n, stop, -, -, hread⟩ := s.mediaRead_spec e 0 4 s.resync.headerBuffer
  rw [stepLookAhead, hread]
  refine ⟨forall_mem_singleton.mpr ⟨hpos, Int.natCast_nonneg 4, by dsimp only; omega⟩, hs, ?_, ?_,
    hflag.imp_right .inl⟩
  all_goals
    dsimp only
    omega

theorem loopEnd_inside (hw : ∀ w ∈ writes, InsideScanBuffer w) (hs : s.Sizes)
    (hp : s.resyncedFlag ≠ 3 → ({ s with loc := .lookAhead } : Mp3Source).Place) :
    StepInside (s.loopEnd writes) := by
  rw [loopEnd]
  split
  next hflag => exact ⟨hw, hs, hp hflag⟩
  next => exact resyncReturn_inside _ hw hs

theorem accept_inside {framesize : Int} (hsize : FrameSize framesize) (hs : s.Sizes)
    (hpos : 0 ≤ s.resync.offset) (hle : s.resync.offset ≤ 4096)
    (hflag : s.resyncedFlag = 1 ∧ s.resyncFramesize 1 = 0 ∨ s.resyncedFlag = 2 ∨ s.resyncedFlag = 3)
    (hfit : s.resyncedFlag < 3 → s.resyncFramesize 0 + s.resyncFramesize 1 + framesize ≤
      if s.resyncedFlag = 1 then 4088 else 4096) :
    StepInside (s.accept e framesize) := by
  obtain ⟨hfs, hframes⟩ := hs
  obtain ⟨h0, h0'⟩ := hfs 0
  obtain ⟨h1, -⟩ := hfs 1
  have hn := hsize.1
  rw [accept]
  dsimp only
  split
  · exact resyncReturn_inside _ nofun ⟨hfs, hframes⟩
  next hthree =>
    have hfs' := frameSize_update hfs hsize (s.resyncedFlag + 1 - 1)
    have hflag' : s.resyncedFlag + 1 ≠ 3 → s.resyncedFlag + 1 = 2 ∧ s.resyncFramesize 1 = 0 := by
      omega
    have hfit := hfit (by omega)
    have hroom : s.resyncedFlag + 1 = 2 →
        s.resyncFramesize 0 + s.resyncFramesize 1 + framesize ≤ 4088 := by
      intro htwo
      rwa [if_pos (by omega)] at hfit
    have hfit : s.resyncFramesize 0 + s.resyncFramesize 1 + framesize ≤ 4096 := by
      split at hfit <;> omega
    generalize hleft : s.resync.offset - 4 - s.resyncFramesize 0 - s.resyncFramesize 1 = left
    split
    next =>
      -- the end of the read is the end of the frames
      generalize hread : mediaRead _ _ _ _ _ = r
      obtain ⟨n, stop, hcount, -, rfl⟩ := mediaRead_cases hread
      refine loopEnd_inside (forall_mem_singleton.mpr ⟨hpos, Int.natCast_nonneg n, ?_⟩)
        ⟨hfs', hframes⟩ fun hne => ?_
      · dsimp only
        omega
      · obtain ⟨htwo, hnone⟩ := hflag' hne
        have hroom := hroom htwo
        refine ⟨?_, ?_, .inr htwo⟩ <;> dsimp only <;> omega
    next =>
      split
      · exact goto_inside ⟨hfs', hframes⟩ ⟨hpos, hle, by dsimp only; omega⟩
      next hmore =>
        refine loopEnd_inside nofun ⟨hfs', hframes⟩ fun hne => ?_
        obtain ⟨htwo, hnone⟩ := hflag' hne
        have hroom := hroom htwo
        exact ⟨hpos, by dsimp only; omega, .inr htwo⟩

theorem stepCompare_inside (h : s.Inv) (hloc : s.loc = .compare) (hfit : FramesFit s e) :
    StepInside (s.stepCompare e) := by
  obtain ⟨⟨hfs, hsize, -⟩, hp⟩ := h
  rw [Place, hloc] at hp
  obtain ⟨hpos, hle, hflag⟩ := hp
  have hstored := frameSize_stored s.resync.testHeader
  rw [stepCompare]
  split
  · exact goto_inside ⟨hfs, hsize, hstored⟩ ⟨Int.le_refl 4, hle⟩
  next haccept =>
    rw [not_or, not_not] at haccept
    refine accept_inside hstored ⟨hfs, hsize, hstored⟩ hpos hle hflag fun hlt => hfit ?_
    rw [Accepts, hloc]
    exact ⟨hlt, haccept⟩

theorem restart_inside {readbytes : Int} (hs : s.Sizes) (hread : 4 ≤ readbytes)
    (hlt : readbytes < s.resync.offset - 4) (hle : s.resync.offset ≤ 4096) :
    StepInside (s.restart e readbytes) := by
  obtain ⟨hfs, hsize, hn, hn'⟩ := hs
  have hfs' : ∀ i, FrameSize
      (update (update s.resyncFramesize 0 s.resync.framesize) 1 0 i) :=
    frameSize_update (frameSize_update hfs ⟨hn, hn'⟩ 0) frameSize_zero 1
  have hone : update (update s.resyncFramesize 0 s.resync.framesize) 1 0 1 = 0 := update_self ..
  have hmoved : InsideScanBuffer (0, s.resync.offset - readbytes) :=
    ⟨Int.le_refl 0, by dsimp only; omega, by dsimp only; omega⟩
  rw [restart]
  split
  next hmore =>
    generalize hread : mediaRead _ _ _ _ _ = r
    obtain ⟨n, stop, hcount, -, rfl⟩ := mediaRead_cases hread
    refine loopEnd_inside ?_ ⟨hfs', hsize, hn, hn'⟩
      fun _ => ⟨hn, by dsimp only; omega, .inl ⟨rfl, hone⟩⟩
    refine forall_mem_cons.mpr ⟨hmoved, forall_mem_singleton.mpr ⟨?_, Int.natCast_nonneg n, ?_⟩⟩
    all_goals
      omega
  next =>
    refine ⟨forall_mem_singleton.mpr hmoved, ⟨hfs', hsize, hn, hn'⟩, ?_, ?_, .inl ⟨rfl, hone⟩⟩
    all_goals
      dsimp only
      omega

theorem stepRefind_inside {readedbytes : Int} (hs : s.Sizes) (hread : 4 ≤ readedbytes)
    (hle : s.resync.offset ≤ 4096) : StepInside (s.stepRefind readedbytes e) := by
  have hsizes : Sizes { s with
      resync := { s.resync with framesize := storedFrameSize (u32At s.resync.headerBuffer 0) } } :=
    ⟨hs.1, hs.2.1, frameSize_stored _⟩
  rw [stepRefind]
  split
  next hlt =>
    dsimp only
    split
    · exact restart_inside hsizes hread hlt hle
    · split
      · exact goto_inside hsizes trivial
      · exact goto_inside hsizes ⟨by omega, hle⟩
  next => exact goto_inside hs trivial

theorem init_inv (stream buf : Memory Byte) (resyncPos : Int) : (init stream buf resyncPos).Inv :=
  ⟨⟨fun _ => frameSize_zero, frameSize_zero, frameSize_zero⟩, trivial⟩

theorem step_inside (h : s.Inv) (hfit : FramesFit s e) : StepInside (s.step eos e) := by
  have h : ({ s with stop := s.stop || e.stop } : Mp3Source).Inv := h
  have hfit : FramesFit { s with stop := s.stop || e.stop } e := hfit
  rw [step]
  generalize ({ s with stop := s.stop || e.stop } : Mp3Source) = s at h hfit ⊢
  obtain ⟨hs, hp⟩ := id h
  cases hloc : s.loc <;> rw [Place, hloc] at hp <;> simp only
  case idle => exact stepIdle_inside hs
  case acquire => exact stepAcquire_inside hs
  case readData => exact stepReadData_inside hs
  case checkHeader => exact stepCheckHeader_inside hs
  case findStart caller => exact stepFindStart_inside hs hp
  case findHeader caller header => exact stepFindHeader_inside header hs hp
  case beginResync => exact stepBeginResync_inside hs
  case readFirst => exact stepReadFirst_inside eos hs hp
  case lookAhead => exact stepLookAhead_inside h hloc
  case compare => exact stepCompare_inside h hloc hfit
  case refind readedbytes => exact stepRefind_inside hs hp.1 hp.2

theorem always_inside (h : s.Inv) {events : List Mp3Event}
    (hfit : (mp3Machine eos).Always FramesFit s events) :
    (mp3Machine eos).Always (WritesInside eos) s events := by
  refine Machine.Always.of_invariant ?_ h hfit
  intro s e hinv hc
  exact step_inside eos hinv hc

end Mp3Source

/-- For every stream, every content of the arrays that are not initialised, and every way the
callback and the stop flag behave. -/
theorem writes_inside (eos : BitVec 32) (stream buf : Memory Byte) (resyncPos : Int)
    (events : List Mp3Event)
    (hfit : (mp3Machine eos).Always FramesFit (Mp3Source.init stream buf resyncPos) events) :
    (mp3Machine eos).Always (WritesInside eos) (Mp3Source.init stream buf resyncPos) events :=
  Mp3Source.always_inside eos (Mp3Source.init_inv stream buf resyncPos) hfit

/-- A stream of equal frames: a header and then one byte, again and again. -/
def equalFrames (header : List Byte) (filler : Byte) (size : Nat) : Memory Byte :=
  fun i => header.getD (i % size) filler

/-- An event in which the callback delivers up to `n` bytes. -/
def delivers (n : Nat) : Mp3Event := ⟨false, [n], false, true, fun _ => 0xff⟩

/-- Frames of 1044 bytes, 320 kbit/s at 44.1 kHz, from the first search to the third frame. -/
theorem writes_inside_layerThree :
    (mp3Machine 0).Always (WritesInside 0)
      (Mp3Source.init (equalFrames [0xff, 0xfb, 0xe0, 0x00] 0x55 1044) (fun _ => 0xff) 0)
      (List.replicate 9 (delivers 1044)) :=
  writes_inside 0 _ _ 0 _ (by decide +kernel)

/-- Three frames of 1440 bytes, 320 kbit/s at 32 kHz. The third one ends at 4320. -/
theorem threeFrames_overflow :
    ¬ (mp3Machine 0).Always (WritesInside 0)
      (Mp3Source.init (equalFrames [0xff, 0xfb, 0xe8, 0x00] 0x00 1440) (fun _ => 0) 0)
      (List.replicate 9 (delivers 1440)) := by
  decide +kernel

end AmlogicHal.Amadec

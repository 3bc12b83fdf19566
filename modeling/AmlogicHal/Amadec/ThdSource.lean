import AmlogicHal.Lib.BitField
import AmlogicHal.Lib.Machine
import AmlogicHal.Amadec.MediaSource

/-!
# The TrueHD media source

`THD_MediaSource::read` emits one access unit per call. The first unit is found by its main sync
word; the bytes up to its end are collected in two integers, which are copied to the front of the
output. Every later unit is taken from where the one before it ended.

* `read_synced`: a unit of a source that is synchronised is what the stream has there.
* `read_unsynced`: the unit of the call that finds the sync word never is: on a little-endian
  machine the two integers have their bytes in reverse, and the sync word is not the same in
  reverse.
* `units_adjacent_exact`: both over every run, and that consecutive units are adjacent in the
  stream.
-/

namespace AmlogicHal.Amadec

open BitField Feed Memory

/-! ## The model of the source -/

/-- `TRUEHDSYNC`. -/
def truehdSync : BitVec 32 := 0xf8726fba

def maxAusize : Nat := 4000

def minAusize : Nat := 6

/-- What an integer is in the memory of a little-endian machine. -/
def leBytes (w : BitVec 32) : List Byte :=
  [getField 0 8 w, getField 8 8 w, getField 16 8 w, getField 24 8 w]

/-- The state of the source. `data` is the memory of the one buffer in `mGroup`. -/
structure ThdSource where
  feed : Feed
  data : Memory Byte
  mSyncMain : Bool

/-- What a call gets from outside: the answers of the callback to the reads of single bytes, to the
read of the two bytes of a header and to the read of the body, and whether there is a buffer. -/
structure ThdCall where
  scan : List (List Nat)
  header : List Nat
  body : List Nat
  acquired : Bool

/-- How a call ends. A unit comes with the position of its header in the stream, which is before the
start of the stream if the sync word came too early. -/
inductive ThdResult
  | endOfStream
  | unsupported
  | noBuffer
  | unit (start : Int) (bytes : List Byte)

structure ThdScan where
  feed : Feed
  fourheader : BitVec 32
  syncheader : BitVec 32

def findSyncMain : List (List Nat) → ThdScan → Bool × ThdScan
  | [], r => (false, r)
  | answers :: rest, r =>
    let f := mediaSourceReadBuffer 0 1 answers (fun _ => 0) r.feed
    if f.readsum < 1 then (false, { r with feed := f.feed })
    else
      let byte := f.buffer 0
      let r : ThdScan :=
        { feed := f.feed
          fourheader := (r.fourheader <<< 8) ||| (r.syncheader >>> 24)
          syncheader := (r.syncheader <<< 8) ||| byte.setWidth 32 }
      if r.syncheader = truehdSync then (true, r) else findSyncMain rest r

/-- `(x & 0x0fff) << 1` for the first two bytes of a header. -/
def auSize (x : BitVec 16) : Nat := (x &&& 0x0fff).toNat * 2

namespace ThdSource

def init (stream data : Memory Byte) : ThdSource := ⟨⟨stream, 0⟩, data, false⟩

/-- The second half of a call: `head` has been read already and is copied to the buffer. -/
def readUnit (head : List Byte) (ausize : Nat) (c : ThdCall) (s : ThdSource) :
    ThdSource × ThdResult :=
  if ausize < minAusize ∨ ausize > maxAusize then (s, .unsupported)
  else if ¬ c.acquired then (s, .noBuffer)
  else
    let f := mediaSourceReadBuffer head.length (ausize - head.length) c.body
      (s.data.store 0 head) s.feed
    let next := { s with feed := f.feed, data := f.buffer }
    if f.readsum ≠ (ausize - head.length : Int) then (next, .endOfStream)
    else (next, .unit (s.feed.pos - head.length) (f.buffer.slice 0 ausize))

def readFirst (c : ThdCall) (s : ThdSource) : ThdSource × ThdResult :=
  let (found, r) := findSyncMain c.scan ⟨s.feed, 0, 0⟩
  if ¬ found then ({ s with feed := r.feed }, .endOfStream)
  else
    readUnit (leBytes r.fourheader ++ leBytes r.syncheader)
      (auSize ((r.fourheader >>> 16).setWidth 16)) c { s with feed := r.feed, mSyncMain := true }

def readNext (c : ThdCall) (s : ThdSource) : ThdSource × ThdResult :=
  let f := mediaSourceReadBuffer 0 2 c.header (fun _ => 0) s.feed
  if f.readsum < 2 then ({ s with feed := f.feed }, .endOfStream)
  else readUnit (f.buffer.slice 0 2) (auSize (f.buffer 0 ++ f.buffer 1)) c { s with feed := f.feed }

def read (c : ThdCall) (s : ThdSource) : ThdSource × ThdResult :=
  if s.mSyncMain then s.readNext c else s.readFirst c

end ThdSource

def thdMachine : Machine ThdSource ThdCall ThdResult where
  step s c := s.read c

/-! ## The search -/

theorem getField_shift_in (w : BitVec 32) (b : Byte) :
    getField 0 8 ((w <<< 8) ||| b.setWidth 32) = b ∧
      ∀ i < 3, getField (8 * (i + 1)) 8 ((w <<< 8) ||| b.setWidth 32) = getField (8 * i) 8 w := by
  constructor
  · apply BitVec.eq_of_getLsbD_eq
    intro j hj
    simp [getField, hj, show j < 32 by omega]
  · intro i hi
    apply BitVec.eq_of_getLsbD_eq
    intro j hj
    have hbit : 8 * (i + 1) + j - 8 = 8 * i + j := by omega
    simp [getField, hj, show 8 * (i + 1) + j < 32 by omega, show ¬ 8 * (i + 1) + j < 8 by omega,
      hbit, BitVec.getLsbD_of_ge b (8 * (i + 1) + j) (by omega)]
    exact (BitVec.getLsbD_eq_getElem _).symm

/-- After `n` bytes the last four of them are in `syncheader`, the last one lowest. -/
def ThdScan.Holds (f : Feed) (n : Nat) (r : ThdScan) : Prop :=
  r.feed = f.advance n ∧
    ∀ i < 4, getField (8 * i) 8 r.syncheader = if i < n then f.stream (f.pos + n - 1 - i) else 0

theorem ThdScan.Holds.shift_in {f : Feed} {n : Nat} {r : ThdScan} (hr : r.Holds f n)
    (four : BitVec 32) :
    ThdScan.Holds f (n + 1)
      { feed := r.feed.advance 1
        fourheader := four
        syncheader := (r.syncheader <<< 8) ||| (f.stream (f.pos + n)).setWidth 32 } := by
  obtain ⟨hfeed, hbytes⟩ := hr
  obtain ⟨hlow, hhigh⟩ := getField_shift_in r.syncheader (f.stream (f.pos + n))
  refine ⟨by rw [hfeed, advance_advance], fun i hi => ?_⟩
  cases i with
  | zero =>
    exact hlow
  | succ k =>
    have hpos : f.pos + (n + 1) - 1 - (k + 1) = f.pos + n - 1 - k := by omega
    rw [hhigh k (Nat.lt_of_succ_lt_succ hi), hbytes k (Nat.lt_of_succ_lt hi), hpos]
    simp only [Nat.add_lt_add_iff_right]

theorem findSyncMain_found {f : Feed} : ∀ (scan : List (List Nat)) {n : Nat} {r : ThdScan},
    r.Holds f n → (findSyncMain scan r).1 = true →
      (findSyncMain scan r).2.syncheader = truehdSync ∧ ∃ k, (findSyncMain scan r).2.Holds f k := by
  intro scan
  induction scan with
  | nil => exact fun _ hfound => nomatch hfound
  | cons answers rest ih =>
    intro n r hr hfound
    rw [findSyncMain, readBuffer_eq] at hfound ⊢
    dsimp only at hfound ⊢
    split at hfound
    · exact nomatch hfound
    next hone =>
      have hcount : readCount 1 answers = 1 :=
        Nat.le_antisymm (readCount_le 1 answers) (Nat.not_lt.mp hone)
      have hbyte : store (fun _ => (0 : Byte)) 0 (r.feed.next 1) 0 = f.stream (f.pos + n) := by
        rw [hr.1]
        rfl
      rw [hcount, hbyte] at hfound
      rw [if_neg hone, hcount, hbyte]
      split at hfound
      next hsync =>
        rw [if_pos hsync]
        exact ⟨hsync, n + 1, hr.shift_in _⟩
      next hsync =>
        rw [if_neg hsync]
        exact ih (hr.shift_in _) hfound

/-! ## Units -/

/-- The bytes are those of the stream from the header on, as many as the header says. -/
def Exact (stream : Memory Byte) (start : Int) (bytes : List Byte) : Prop :=
  ∃ p : Nat, start = p ∧ bytes = stream.slice p (auSize (stream p ++ stream (p + 1)))

def Adjacent (x y : ThdCall × ThdResult) : Prop :=
  ∀ start bytes start' bytes', x.2 = .unit start bytes → y.2 = .unit start' bytes' →
    start' = start + bytes.length

/-- A unit that a call from `s` emits is exact if and only if the source was synchronised. -/
def ExactIffSynced (stream : Memory Byte) (s : ThdSource) (c : ThdCall) : Prop :=
  ∀ start bytes, (s.read c).2 = .unit start bytes → (Exact stream start bytes ↔ s.mSyncMain)

namespace ThdSource

variable {c : ThdCall} {s : ThdSource} {start : Int} {bytes : List Byte}

theorem readUnit_spec {head : List Byte} {ausize : Nat}
    (h : (s.readUnit head ausize c).2 = .unit start bytes) :
    head.length ≤ ausize ∧ start = s.feed.pos - head.length ∧
      bytes = head ++ s.feed.next (ausize - head.length) ∧
      (s.readUnit head ausize c).1.feed = s.feed.advance (ausize - head.length) ∧
      (s.readUnit head ausize c).1.mSyncMain = s.mSyncMain := by
  rw [readUnit, readBuffer_eq] at h ⊢
  dsimp only at h ⊢
  split at h
  · cases h
  next hsize =>
    rw [if_neg hsize]
    split at h
    · cases h
    next hacquired =>
      rw [if_neg hacquired]
      split at h
      · cases h
      next hread =>
        rw [if_neg hread]
        have hcount : readCount (ausize - head.length) c.body = ausize - head.length := by omega
        have hle : head.length ≤ ausize := by omega
        obtain ⟨hstart, hbytes⟩ := ThdResult.unit.inj h
        refine ⟨hle, hstart.symm, ?_, by rw [hcount], rfl⟩
        have hstore := store_append s.data 0 head (s.feed.next (ausize - head.length))
        have hlength : (head ++ s.feed.next (ausize - head.length)).length = ausize := by
          rw [List.length_append, length_next, Nat.add_sub_of_le hle]
        have hslice := slice_store s.data 0 (head ++ s.feed.next (ausize - head.length))
        rw [Nat.zero_add] at hstore
        rw [hlength] at hslice
        rw [← hbytes, hcount, hstore, hslice]

theorem read_synced (hsync : s.mSyncMain) (h : (s.read c).2 = .unit start bytes) :
    start = s.feed.pos ∧ Exact s.feed.stream start bytes ∧
      (s.read c).1.feed = s.feed.advance bytes.length ∧ (s.read c).1.mSyncMain := by
  rw [read, if_pos hsync, readNext, readBuffer_eq] at h ⊢
  split at h
  · cases h
  next htwo =>
    have hcount : readCount 2 c.header = 2 :=
      Nat.le_antisymm (readCount_le 2 c.header) (Nat.not_lt.mp htwo)
    rw [if_neg htwo]
    rw [hcount] at h ⊢
    have hhead : slice (store (fun _ => (0 : Byte)) 0 (s.feed.next 2)) 0 2 = s.feed.next 2 :=
      slice_store _ 0 _
    rw [hhead] at h ⊢
    obtain ⟨hle, hstart, hbytes, hfeed, hmain⟩ := readUnit_spec h
    rw [length_next] at hle hstart hbytes hfeed
    rw [next_append, Nat.add_sub_of_le hle] at hbytes
    have hstart : start = s.feed.pos := by
      rw [hstart]
      simp only [advance]
      omega
    refine ⟨hstart, ⟨s.feed.pos, hstart, hbytes⟩, ?_, hmain.trans hsync⟩
    rw [hfeed, advance_advance, Nat.add_sub_of_le hle, hbytes, length_next]

/-- Its unit ends where the stream is read up to. -/
theorem read_unsynced (hsync : s.mSyncMain = false) (h : (s.read c).2 = .unit start bytes) :
    ¬ Exact s.feed.stream start bytes ∧ ((s.read c).1.feed.pos : Int) = start + bytes.length ∧
      (s.read c).1.mSyncMain := by
  have hstart : ThdScan.Holds s.feed 0 ⟨s.feed, 0, 0⟩ := by
    refine ⟨rfl, fun i _ => ?_⟩
    simp [getField]
  rw [read, if_neg (by simp [hsync]), readFirst] at h ⊢
  dsimp only at h ⊢
  split at h
  · cases h
  next hfound =>
    rw [if_neg hfound]
    obtain ⟨hword, n, hfeed, hbytes⟩ := findSyncMain_found c.scan hstart (not_not.mp hfound)
    generalize (findSyncMain c.scan ⟨s.feed, 0, 0⟩).2 = r at h hword hfeed hbytes ⊢
    obtain ⟨hle, hstart, hunit, hfeed', hmain⟩ := readUnit_spec h
    have hlength : (leBytes r.fourheader ++ leBytes r.syncheader).length = 8 := rfl
    rw [hlength] at hle hstart hunit hfeed'
    -- the byte four places before the end of the sync word is its first one
    have hfirst : 3 < n ∧ s.feed.stream (s.feed.pos + n - 4) = 0xf8 := by
      have h3 := hbytes 3 (by decide)
      rw [hword] at h3
      split at h3
      next hlt => exact ⟨hlt, h3.symm⟩
      next => exact absurd h3 (by decide)
    refine ⟨?_, ?_, hmain⟩
    · rintro ⟨p, hp, heq⟩
      have hcell : bytes[4]? = some 0xba := by
        rw [hunit, hword]
        rfl
      have hin : 4 < auSize (s.feed.stream p ++ s.feed.stream (p + 1)) := by
        have hlen := congrArg List.length heq
        rw [length_slice, hunit, List.length_append, hlength, length_next] at hlen
        omega
      rw [heq, getElem?_slice _ hin] at hcell
      have hpos : p + 4 = s.feed.pos + n - 4 := by
        rw [hfeed] at hstart
        simp only [advance] at hstart
        omega
      rw [hpos, hfirst.2] at hcell
      exact absurd hcell (by decide)
    · rw [hfeed', hstart, hunit, List.length_append, hlength, length_next]
      simp only [advance]
      omega

theorem read_unit_end (h : (s.read c).2 = .unit start bytes) :
    ((s.read c).1.feed.pos : Int) = start + bytes.length ∧ (s.read c).1.mSyncMain := by
  cases hsync : s.mSyncMain with
  | true =>
    obtain ⟨hstart, -, hfeed, hmain⟩ := read_synced hsync h
    exact ⟨by rw [hfeed, hstart]; rfl, hmain⟩
  | false => exact (read_unsynced hsync h).2

theorem readUnit_stream (head : List Byte) (ausize : Nat) (c : ThdCall) (s : ThdSource) :
    (s.readUnit head ausize c).1.feed.stream = s.feed.stream := by
  rw [readUnit, readBuffer_eq]
  dsimp only
  split
  · rfl
  · split
    · rfl
    · split <;> rfl

theorem findSyncMain_stream : ∀ (scan : List (List Nat)) (r : ThdScan),
    (findSyncMain scan r).2.feed.stream = r.feed.stream := by
  intro scan
  induction scan with
  | nil => exact fun _ => rfl
  | cons answers rest ih =>
    intro r
    rw [findSyncMain, readBuffer_eq]
    dsimp only
    split
    · rfl
    · split
      · rfl
      · exact ih _

theorem read_stream (c : ThdCall) (s : ThdSource) : (s.read c).1.feed.stream = s.feed.stream := by
  rw [read]
  split
  · rw [readNext, readBuffer_eq]
    split
    · rfl
    · exact readUnit_stream _ _ _ _
  · rw [readFirst]
    dsimp only
    split
    · exact findSyncMain_stream _ _
    · exact (readUnit_stream _ _ _ _).trans (findSyncMain_stream _ _)

end ThdSource

theorem units_adjacent_exact (stream data : Memory Byte) (calls : List ThdCall) :
    (thdMachine.exec (ThdSource.init stream data) calls).1.IsChain Adjacent ∧
      thdMachine.Always (ExactIffSynced stream) (ThdSource.init stream data) calls := by
  constructor
  · refine Machine.exec_isChain ?_ calls _
    intro s c c' start bytes start' bytes' hx hy
    obtain ⟨hend, hsync⟩ := ThdSource.read_unit_end hx
    rw [(ThdSource.read_synced hsync hy).1, hend]
  · refine Machine.always_of_invariant (I := fun s => s.feed.stream = stream) ?_ ?_ calls _ rfl
    · rintro s c rfl start bytes h
      cases hsync : s.mSyncMain with
      | true => exact iff_of_true (ThdSource.read_synced hsync h).2.1 rfl
      | false => exact iff_of_false (ThdSource.read_unsynced hsync h).1 Bool.false_ne_true
    · rintro s c rfl
      exact s.read_stream c

/-- A stream that starts with a unit of 8 bytes: the header and the main sync word. -/
def eightBytes : Memory Byte := fun i => [0x00, 0x04, 0x12, 0x34, 0xf8, 0x72, 0x6f, 0xba].getD i 0

/-- The first unit of this stream is emitted with its two words reversed. -/
theorem firstUnit_reversed :
    let s := ThdSource.init eightBytes fun _ => 0
    let c : ThdCall := ⟨List.replicate 8 [1], [], [], true⟩
    (s.read c).2 = .unit 0 [0x34, 0x12, 0x04, 0x00, 0xba, 0x6f, 0x72, 0xf8] ∧
      ¬ Exact eightBytes 0 [0x34, 0x12, 0x04, 0x00, 0xba, 0x6f, 0x72, 0xf8] := by
  refine ⟨rfl, ?_⟩
  rintro ⟨p, hp, heq⟩
  obtain rfl : p = 0 := by omega
  exact absurd heq (by decide)

end AmlogicHal.Amadec

import AmlogicHal.Lib.BitField
import AmlogicHal.Lib.Machine
import AmlogicHal.Amadec.MediaSource

/-!
# The Dolby media source

`DDP_MediaSource::read` fills a buffer of 6144 bytes and looks for a frame at its start: a sync
word, a header with a length, and another sync word behind the frame. What does not fit is skipped
byte by byte. A step here is a turn of the loop, so the last call of a run may still be at work.

* `getChNumAC3Frame_eq`: the bit reader computes the length that the header's fields give
  (`encodedWords`).
* `readTurn_conserved`: one turn loses nothing.
* `ddp_conserves_stream`: over every run, what was emitted and skipped, and then what is in the
  buffer, is what the callback has delivered.
-/

namespace AmlogicHal.Amadec

open BitField Machine Memory BitVec

/-! ## The bit reader -/

def msktab (n : Nat) : BitVec 16 :=
  [0x0000, 0x8000, 0xc000, 0xe000, 0xf000, 0xf800, 0xfc00, 0xfe00, 0xff00, 0xff80, 0xffc0, 0xffe0,
    0xfff0, 0xfff8, 0xfffc, 0xfffe, 0xffff].getD n 0

/-- `BITSTREAM`. The words are those that `buf` points into, and `index` is how far it has gone. -/
structure Bitstream where
  words : Nat → BitVec 16
  index : Nat
  bitptr : Nat
  data : BitVec 16

variable (words : Nat → BitVec 16)

namespace Bitstream

def init (bitptr : Nat) : Bitstream := ⟨words, 0, bitptr, words 0⟩

def unprj (n : Nat) (b : Bitstream) : BitVec 16 × Bitstream :=
  let value := (b.data <<< b.bitptr) &&& msktab n
  let bitptr := b.bitptr + n
  if bitptr ≥ 16 then
    let data := b.words (b.index + 1)
    let bitptr := bitptr - 16
    ((value ||| ((data >>> (n - bitptr)) &&& msktab n)) >>> (16 - n),
      ⟨b.words, b.index + 1, bitptr, data⟩)
  else (value >>> (16 - n), { b with bitptr := bitptr })

def skipLoop (b : Bitstream) : Bitstream :=
  if b.bitptr ≥ 16 then skipLoop ⟨b.words, b.index + 1, b.bitptr - 16, b.words (b.index + 1)⟩ else b
termination_by b.bitptr
decreasing_by
  next h => exact Nat.sub_lt (Nat.lt_of_lt_of_le (by decide) h) (by decide)

def skip (n : Nat) (b : Bitstream) : Bitstream := skipLoop { b with bitptr := b.bitptr + n }

def getbsid (b : Bitstream) : BitVec 16 := (((init b.words b.bitptr).skip 40).unprj 5).1

end Bitstream

open Bitstream

/-! ## The header -/

def syncwrd : BitVec 16 := 0x0b77

def frmsizetab : List (List Nat) :=
  [[64, 64, 80, 80, 96, 96, 112, 112, 128, 128, 160, 160, 192, 192, 224, 224,
      256, 256, 320, 320, 384, 384, 448, 448, 512, 512, 640, 640,
      768, 768, 896, 896, 1024, 1024, 1152, 1152, 1280, 1280],
    [69, 70, 87, 88, 104, 105, 121, 122, 139, 140, 174, 175, 208, 209, 243, 244,
      278, 279, 348, 349, 417, 418, 487, 488, 557, 558, 696, 697,
      835, 836, 975, 976, 1114, 1115, 1253, 1254, 1393, 1394],
    [96, 96, 120, 120, 144, 144, 168, 168, 192, 192, 240, 240, 288, 288, 336, 336,
      384, 384, 480, 480, 576, 576, 672, 672, 768, 768, 960, 960,
      1152, 1152, 1344, 1344, 1536, 1536, 1728, 1728, 1920, 1920]]

def isDD (bsid : BitVec 16) : Prop := bsid.toNat ≤ 8

def isDDP (bsid : BitVec 16) : Prop := bsid.toNat ≤ 16 ∧ bsid.toNat > 10

instance (bsid : BitVec 16) : Decidable (isDD bsid) := inferInstanceAs (Decidable (_ ≤ _))

instance (bsid : BitVec 16) : Decidable (isDDP bsid) := inferInstanceAs (Decidable (_ ∧ _))

/-- `Get_ChNum_DD`: what it makes of the member `frame_size`. What follows in the source sets the
channels and the sample rate only. -/
def getChNumDD (frameSize : Nat) : Nat :=
  let (tmp, b) := (Bitstream.init words 0).unprj 16
  if tmp ≠ syncwrd then frameSize
  else
    let (_, b) := b.unprj 16
    let (fscod, b) := b.unprj 2
    if fscod = 3 then frameSize
    else
      let (frmsizecod, _) := b.unprj 6
      if frmsizecod.toNat ≥ 38 then frameSize
      else (frmsizetab.getD fscod.toNat []).getD frmsizecod.toNat 0

/-- `Get_ChNum_DDP`: what it makes of the member `frame_size`. -/
def getChNumDDP (frameSize : Nat) : Nat :=
  let (tmp, b) := (Bitstream.init words 0).unprj 16
  if tmp ≠ syncwrd then frameSize
  else
    let (_, b) := b.unprj 2
    let (_, b) := b.unprj 3
    let (tmp, _) := b.unprj 11
    tmp.toNat + 1

def swapPairs (ptr8 : Memory Byte) : Memory Byte :=
  fun i => if i % 2 = 0 then ptr8 (i + 1) else ptr8 (i - 1)

/-- The words of `ptr8` on a little-endian machine. -/
def wordsOf (ptr8 : Memory Byte) : Nat → BitVec 16 := fun i => ptr8 (2 * i + 1) ++ ptr8 (2 * i)

variable (buf : Memory Byte)

/-- The array `ptr8` of `Get_ChNum_AC3_Frame`. It has 7 bytes, and the last swap goes over its end;
`junk` is the byte there. -/
def ptr8 (junk : Byte) : Memory Byte :=
  let copied : Memory Byte := fun i => if i < 7 then buf i else junk
  if copied 0 = 0x0b ∧ copied 1 = 0x77 then swapPairs copied else copied

/-- `Get_ChNum_AC3_Frame`: what it makes of the member `frame_size`. -/
def getChNumAC3Frame (junk : Byte) (frameSize : Nat) : Nat :=
  let words := wordsOf (ptr8 buf junk)
  let bsid := (Bitstream.init words 0).getbsid
  if isDDP bsid then getChNumDDP words frameSize
  else if isDD bsid then getChNumDD words frameSize
  else frameSize

/-! ## The source -/

/-- The local variables of a call that is not finished. -/
structure DdpCall where
  readdiff : Nat
  readDelta : Nat

structure DdpSource where
  feed : Feed
  rawbuf : Memory Byte
  len : Nat
  frameLengthHis : List Nat
  extractorCostBytes : Nat
  call : Option DdpCall

/-- What a turn of the loop in `read` gets from outside: the answers of the callback, whether the
stop flag is set after the reading, the byte behind `ptr8`, and whether there is a buffer for a
frame. -/
structure DdpTurn where
  answers : List Nat
  stopped : Bool
  junk : Byte
  acquired : Bool

inductive DdpResult
  | again
  | endOfStream
  | noBuffer
  | frame (bytes : List Byte)

/-- A turn: what it reads, how full the buffer is then, the bytes that leave the buffer, and how it
ends. -/
structure DdpOutput where
  taken : List Byte
  filled : Nat
  given : List Byte
  result : DdpResult

/-- `head == 0x0b77 || head == 0x770b` for the two bytes at `i`. -/
def syncAt (i : Nat) : Prop :=
  (buf i = 0x0b ∧ buf (i + 1) = 0x77) ∨ (buf i = 0x77 ∧ buf (i + 1) = 0x0b)

instance (i : Nat) : Decidable (syncAt buf i) :=
  inferInstanceAs (Decidable (_ ∨ _))

variable (c : DdpCall)

namespace DdpSource

def init (stream : Memory Byte) : DdpSource :=
  ⟨⟨stream, 0⟩, fun _ => 0, 0, List.replicate 40 0, 0, none⟩

def getFrameSize (s : DdpSource) : Nat :=
  let valid := s.frameLengthHis.filter (0 < ·)
  if valid.length = 0 then 768 else valid.sum / valid.length

def storeFrameSize (lastFrameLen : Nat) (his : List Nat) : List Nat := his.drop 1 ++ [lastFrameLen]

def readSize (readDelta : Nat) (s : DdpSource) : Nat :=
  let size := s.getFrameSize + 7 + readDelta
  let size := if size > s.len then size - s.len else size
  if s.len + size > 6144 then 6144 - s.len else size

def skipByte (s : DdpSource) : DdpSource × List Byte × DdpResult :=
  ({ s with
    rawbuf := s.rawbuf.move 0 1 (s.len - 1)
    len := s.len - 1
    call := some { c with readdiff := c.readdiff + 1 } }, s.rawbuf.slice 0 1, .again)

def emitFrame (frameSize : Nat) (acquired : Bool) (s : DdpSource) :
    DdpSource × List Byte × DdpResult :=
  if ¬ acquired then ({ s with call := none }, [], .noBuffer)
  else
    ({ s with
      rawbuf := s.rawbuf.move 0 frameSize (s.len - frameSize)
      len := s.len - frameSize
      frameLengthHis := storeFrameSize frameSize s.frameLengthHis
      extractorCostBytes := s.extractorCostBytes + c.readdiff
      call := none }, s.rawbuf.slice 0 frameSize, .frame (s.rawbuf.slice 0 frameSize))

def examine (t : DdpTurn) (s : DdpSource) : DdpSource × List Byte × DdpResult :=
  if s.len < 7 then ({ s with call := none }, [], .endOfStream)
  else if t.stopped then ({ s with call := none }, [], .endOfStream)
  else if syncAt s.rawbuf 0 then
    let frameSize := getChNumAC3Frame s.rawbuf t.junk 0 * 2
    if frameSize = 0 ∨ frameSize < 7 ∨ frameSize > 4096 then s.skipByte c
    else if frameSize > s.len - 2 then
      ({ s with call := some { c with readDelta := frameSize - (s.len - 2) } }, [], .again)
    else if syncAt s.rawbuf frameSize then s.emitFrame c frameSize t.acquired
    else s.skipByte c
  else s.skipByte c

def fill (answers : List Nat) (s : DdpSource) : DdpSource :=
  let r := mediaSourceReadBuffer s.len (s.readSize c.readDelta) answers s.rawbuf s.feed
  { s with feed := r.feed, rawbuf := r.buffer, len := s.len + r.readsum }

/-- One turn of the loop. The first one of a call starts with `readdiff` and `read_delta` at 0. -/
def readTurn (t : DdpTurn) (s : DdpSource) : DdpSource × DdpOutput :=
  let c := s.call.getD ⟨0, 0⟩
  let full := s.fill c t.answers
  let r := full.examine c t
  (r.1, ⟨s.feed.next (full.feed.pos - s.feed.pos), full.len, r.2.1, r.2.2⟩)

def contents (s : DdpSource) : List Byte := s.rawbuf.slice 0 s.len

end DdpSource

def ddpMachine : Machine DdpSource DdpTurn DdpOutput where
  step s t := s.readTurn t

/-! ## What the bit reader reads -/

theorem getLsbD_msktab : ∀ n ≤ 16, ∀ i < 16, (msktab n).getLsbD i = decide (16 - n ≤ i) := by
  decide

namespace Bitstream

/-- A bit of the words, the highest one of a word first. -/
def bitAt (p : Nat) : Bool := (words (p / 16)).getMsbD (p % 16)

def bitsAt (p n : Nat) : BitVec 16 :=
  (BitVec.ofBoolListBE ((List.range n).map fun i => bitAt words (p + i))).setWidth 16

def readerAt (p : Nat) : Bitstream := ⟨words, p / 16, p % 16, words (p / 16)⟩

variable (words : Nat → BitVec 16)

/-- A read shifts its bits down from the upper end of the word. -/
theorem ushiftRight_eq_bitsAt (v : BitVec 16) {p n : Nat} (hn : n ≤ 16)
    (h : ∀ j < n, (v >>> (16 - n)).getLsbD j = bitAt words (p + (n - 1 - j))) :
    v >>> (16 - n) = bitsAt words p n := by
  apply eq_of_getLsbD_eq
  intro j hj
  rcases Nat.lt_or_ge j n with hlt | hge
  · rw [h j hlt]
    simp [bitsAt, hj, hlt]
  · simp [bitsAt, hj, Nat.not_lt.mpr hge, getLsbD_of_ge v (16 - n + j) (by omega)]

theorem getLsbD_masked (w : BitVec 16) (k : Nat) {n j : Nat} (hn : n ≤ 16) (hj : j < n) :
    (((w <<< k) &&& msktab n) >>> (16 - n)).getLsbD j =
      (decide (k + (n - 1 - j) < 16) && w.getMsbD (k + (n - 1 - j))) := by
  have hmask := getLsbD_msktab n hn (16 - n + j) (by omega)
  have hbit : 15 - (k + (n - 1 - j)) = 16 - n + j - k := by omega
  simp only [getLsbD_ushiftRight, getLsbD_and, getLsbD_shiftLeft, hmask, BitVec.getMsbD, hbit]
  grind

theorem getLsbD_next (w : BitVec 16) {k n j : Nat} (hk : k < 16) (hn : n ≤ 16) (hj : j < n) :
    (((w >>> (16 - k)) &&& msktab n) >>> (16 - n)).getLsbD j =
      (decide (16 ≤ k + (n - 1 - j)) && w.getMsbD (k + (n - 1 - j) - 16)) := by
  have hmask := getLsbD_msktab n hn (16 - n + j) (by omega)
  simp only [getLsbD_ushiftRight, getLsbD_and, hmask, BitVec.getMsbD]
  grind

theorem unprj_at (p : Nat) {n : Nat} (hpos : 1 ≤ n) (hn : n ≤ 16) :
    (readerAt words p).unprj n = (bitsAt words p n, readerAt words (p + n)) := by
  have hk : p % 16 < 16 := Nat.mod_lt p (by decide)
  unfold unprj readerAt
  dsimp only
  split
  · next hge =>
    have hshift : n - (p % 16 + n - 16) = 16 - p % 16 := by omega
    have hword : (p + n) / 16 = p / 16 + 1 := by omega
    have hptr : (p + n) % 16 = p % 16 + n - 16 := by omega
    rw [hshift, hword, hptr]
    refine Prod.ext (ushiftRight_eq_bitsAt words _ hn fun j hj => ?_) rfl
    rw [ushiftRight_or_distrib, getLsbD_or, getLsbD_masked _ _ hn hj,
      getLsbD_next _ hk hn hj, bitAt]
    rcases Nat.lt_or_ge (p % 16 + (n - 1 - j)) 16 with hlt | hnext
    · have hdiv : (p + (n - 1 - j)) / 16 = p / 16 := by omega
      have hmod : (p + (n - 1 - j)) % 16 = p % 16 + (n - 1 - j) := by omega
      simp [hdiv, hmod, hlt, Nat.not_le.mpr hlt]
    · have hdiv : (p + (n - 1 - j)) / 16 = p / 16 + 1 := by omega
      have hmod : (p + (n - 1 - j)) % 16 = p % 16 + (n - 1 - j) - 16 := by omega
      simp [hdiv, hmod, hnext, Nat.not_lt.mpr hnext]
  · next hlt =>
    have hword : (p + n) / 16 = p / 16 := by omega
    have hptr : (p + n) % 16 = p % 16 + n := by omega
    rw [hword, hptr]
    refine Prod.ext (ushiftRight_eq_bitsAt words _ hn fun j hj => ?_) rfl
    have hdiv : (p + (n - 1 - j)) / 16 = p / 16 := by omega
    have hmod : (p + (n - 1 - j)) % 16 = p % 16 + (n - 1 - j) := by omega
    rw [getLsbD_masked _ _ hn hj, bitAt, hdiv, hmod]
    simp [show p % 16 + (n - 1 - j) < 16 by omega]

theorem bitsAt_eq_field (index : Nat) {k n : Nat} (h : k + n ≤ 16) :
    bitsAt words (16 * index + k) n = (getField (16 - k - n) n (words index)).setWidth 16 := by
  apply eq_of_getLsbD_eq
  intro j hj
  rcases Nat.lt_or_ge j n with hlt | hge
  · have hdiv : (16 * index + k + (n - 1 - j)) / 16 = index := by omega
    have hmod : (16 * index + k + (n - 1 - j)) % 16 = k + (n - 1 - j) := by omega
    have hbit : 15 - (k + (n - 1 - j)) = 16 - k - n + j := by omega
    simp [bitsAt, getField, hj, hlt, bitAt, hdiv, hmod, BitVec.getMsbD, hbit,
      show k + (n - 1 - j) < 16 by omega]
  · simp [bitsAt, getField, hj, Nat.not_lt.mpr hge]

theorem skipLoop_at (i k : Nat) :
    skipLoop ⟨words, i, k, words i⟩ = readerAt words (16 * i + k) := by
  induction k using Nat.strong_induction_on generalizing i with
  | _ k ih =>
    rw [skipLoop]
    split
    · next hge =>
      have hk : 16 ≤ k := hge
      rw [ih (k - 16) (by omega) (i + 1)]
      congr 1
      omega
    · next hlt =>
      have hk : k < 16 := Nat.lt_of_not_le hlt
      unfold readerAt
      rw [Nat.mul_add_div (by decide), Nat.mul_add_mod, Nat.div_eq_of_lt hk, Nat.mod_eq_of_lt hk,
        Nat.add_zero]

theorem getbsid_eq : getbsid (init words 0) = (getField 3 5 (words 2)).setWidth 16 := by
  change (unprj 5 (skipLoop ⟨words, 0, 0 + 40, words 0⟩)).1 = _
  rw [skipLoop_at, unprj_at _ _ (by decide) (by decide)]
  exact bitsAt_eq_field words 2 (k := 8) (n := 5) (by decide)

end Bitstream

theorem toNat_field {w : Nat} (f : BitVec w) (hw : w ≤ 16) : (f.setWidth 16).toNat = f.toNat := by
  rw [toNat_setWidth,
    Nat.mod_eq_of_lt (Nat.lt_of_lt_of_le f.isLt (Nat.pow_le_pow_right (by decide) hw))]

variable {words : Nat → BitVec 16}

theorem bitsAt_sync (hsync : words 0 = syncwrd) : bitsAt words 0 16 = syncwrd := by
  exact (bitsAt_eq_field words 0 (k := 0) (n := 16) (by decide)).trans (by rw [hsync]; decide)

theorem getChNumDDP_eq (hsync : words 0 = syncwrd) (n : Nat) :
    getChNumDDP words n = (getField 0 11 (words 1)).toNat + 1 := by
  have hinit : init words 0 = readerAt words 0 := rfl
  have h11 : bitsAt words 21 11 = (getField 0 11 (words 1)).setWidth 16 :=
    bitsAt_eq_field words 1 (k := 5) (n := 11) (by decide)
  simp only [getChNumDDP, hinit, unprj_at, Nat.reduceLeDiff, Nat.reduceAdd, bitsAt_sync hsync, h11]
  rw [if_neg (not_not.mpr rfl), toNat_field _ (by decide)]

theorem frmsizetab_outside {i : Nat} (hi : 38 ≤ i) : ∀ k, (frmsizetab.getD k []).getD i 0 = 0 := by
  have hlength : ∀ row ∈ frmsizetab, row.length = 38 := by decide
  intro k
  rw [List.getD_eq_getElem?_getD, List.getElem?_eq_none, Option.getD_none]
  rw [List.getD_eq_getElem?_getD]
  cases hrow : frmsizetab[k]? with
  | none => exact Nat.zero_le _
  | some row =>
    rw [Option.getD_some, hlength row (List.mem_of_getElem? hrow)]
    exact hi

theorem getChNumDD_eq (hsync : words 0 = syncwrd) :
    getChNumDD words 0 =
      (frmsizetab.getD (getField 14 2 (words 2)).toNat []).getD
        (getField 8 6 (words 2)).toNat 0 := by
  have hinit : init words 0 = readerAt words 0 := rfl
  have h2 : bitsAt words 32 2 = (getField 14 2 (words 2)).setWidth 16 :=
    bitsAt_eq_field words 2 (k := 0) (n := 2) (by decide)
  have h6 : bitsAt words 34 6 = (getField 8 6 (words 2)).setWidth 16 :=
    bitsAt_eq_field words 2 (k := 2) (n := 6) (by decide)
  simp only [getChNumDD, hinit, unprj_at, Nat.reduceLeDiff, Nat.reduceAdd,
    bitsAt_sync hsync, h2, h6]
  rw [if_neg (not_not.mpr rfl)]
  split
  next hfscod =>
    -- the fourth sampling rate has no row in the table
    have hfour : (getField 14 2 (words 2)).toNat = 3 := by
      rw [← toNat_field _ (by decide), hfscod]
      rfl
    rw [hfour]
    exact (List.getD_nil ..).symm
  next =>
    split
    next hcode => exact (frmsizetab_outside hcode _).symm
    next => rfl

/-! ## The header as the standard has it -/

/-- The words of a header that starts with a sync word in one of the two byte orders. -/
def headerWord (h : Memory Byte) (i : Nat) : BitVec 16 :=
  if h 0 = 0x0b ∧ h 1 = 0x77 then h (2 * i) ++ h (2 * i + 1) else h (2 * i + 1) ++ h (2 * i)

/-- An E-AC-3 header has the length in a field, an AC-3 header has an index of the table. It is 0
for other headers. -/
def encodedWords (h : Memory Byte) : Nat :=
  let bsid := (getField 3 5 (headerWord h 2)).toNat
  if bsid ≤ 16 ∧ bsid > 10 then (getField 0 11 (headerWord h 1)).toNat + 1
  else if bsid ≤ 8 then
    (frmsizetab.getD (getField 14 2 (headerWord h 2)).toNat []).getD
      (getField 8 6 (headerWord h 2)).toNat 0
  else 0

theorem encodedWords_congr {h g : Memory Byte} (heq : ∀ i < 6, h i = g i) :
    encodedWords h = encodedWords g := by
  have hword : ∀ i < 3, headerWord h i = headerWord g i := by
    intro i hi
    rw [headerWord, headerWord, heq 0 (by decide), heq 1 (by decide), heq (2 * i) (by omega),
      heq _ (by omega)]
  rw [encodedWords, encodedWords, hword 1 (by decide), hword 2 (by decide)]

theorem wordsOf_ptr8 (junk : Byte) {i : Nat} (hi : i < 3) :
    wordsOf (ptr8 buf junk) i = headerWord buf i := by
  have hin : 2 * i < 7 := by omega
  have hin' : 2 * i + 1 < 7 := by omega
  rw [wordsOf, ptr8, headerWord]
  simp only [show 0 < 7 by decide, show 1 < 7 by decide, if_true]
  split
  · simp [swapPairs, hin, hin']
  · simp [hin, hin']

theorem getChNumAC3Frame_eq {buf : Memory Byte} (hsync : syncAt buf 0) (junk : Byte) :
    getChNumAC3Frame buf junk 0 = encodedWords buf := by
  have hfirst : wordsOf (ptr8 buf junk) 0 = syncwrd := by
    rw [wordsOf_ptr8 buf junk (by decide), headerWord]
    rcases hsync with ⟨h0, h1⟩ | ⟨h0, h1⟩
    · rw [if_pos ⟨h0, h1⟩, h0, h1]
      rfl
    · rw [h0, h1]
      rfl
  rw [getChNumAC3Frame, getChNumDDP_eq hfirst, getChNumDD_eq hfirst, getbsid_eq,
    wordsOf_ptr8 buf junk (by decide), wordsOf_ptr8 buf junk (by decide), encodedWords]
  simp [isDDP, isDD, toNat_field _ (show 5 ≤ 16 by decide)]

/-! ## One turn -/

/-- A turn reads within the buffer, and what it emits is a frame. -/
def WellFramed (o : DdpOutput) : Prop :=
  o.filled ≤ 6144 ∧
  match o.result with
  | .frame bytes =>
    let header : Memory Byte := fun i => bytes.getD i 0
    o.given = bytes ∧ syncAt header 0 ∧ bytes.length = 2 * encodedWords header
  | _ => o.given.length ≤ 1

namespace DdpSource

variable {s : DdpSource}

theorem readSize_le (d : Nat) (h : s.len ≤ 6144) : s.len + s.readSize d ≤ 6144 := by
  rw [readSize]
  split <;> split <;> omega

theorem fill_spec (answers : List Nat) (h : s.len ≤ 6144) :
    ∃ n, (s.fill c answers).feed = s.feed.advance n ∧ (s.fill c answers).len = s.len + n ∧
      (s.fill c answers).contents = s.contents ++ s.feed.next n ∧ s.len + n ≤ 6144 := by
  refine ⟨readCount (s.readSize c.readDelta) answers, ?_, ?_, ?_, ?_⟩
  · rw [fill, readBuffer_eq]
  · rw [fill, readBuffer_eq]
  · rw [contents, fill, readBuffer_eq]
    have hstored :=
      slice_store_append s.rawbuf 0 s.len (s.feed.next (readCount (s.readSize c.readDelta) answers))
    rw [Feed.length_next, Nat.zero_add] at hstored
    exact hstored
  · exact Nat.le_trans (Nat.add_le_add_left (readCount_le _ _) _) (readSize_le _ h)

theorem slice_move_front (m : Memory Byte) {n len : Nat} (h : n ≤ len) :
    m.slice 0 n ++ (m.move 0 n (len - n)).slice 0 (len - n) = m.slice 0 len := by
  have happend := slice_append m 0 n (len - n)
  rw [Nat.zero_add, Nat.add_sub_of_le h] at happend
  rw [slice_move, happend]

theorem getD_slice (m : Memory Byte) {n i : Nat} (hi : i < n) : (m.slice 0 n).getD i 0 = m i := by
  rw [List.getD_eq_getElem?_getD, getElem?_slice m hi, Option.getD_some, Nat.zero_add]

theorem examine_spec (t : DdpTurn) (s : DdpSource) :
    (s.examine c t).1.feed = s.feed ∧ (s.examine c t).1.len ≤ s.len ∧
      (s.examine c t).2.1 ++ (s.examine c t).1.contents = s.contents ∧
      (s.len ≤ 6144 → WellFramed ⟨[], s.len, (s.examine c t).2.1, (s.examine c t).2.2⟩) := by
  have hskip : s.len ≥ 7 → (s.skipByte c).1.feed = s.feed ∧ (s.skipByte c).1.len ≤ s.len ∧
      (s.skipByte c).2.1 ++ (s.skipByte c).1.contents = s.contents ∧
      (s.len ≤ 6144 → WellFramed ⟨[], s.len, (s.skipByte c).2.1, (s.skipByte c).2.2⟩) := by
    intro hlen
    exact ⟨rfl, Nat.sub_le _ _, slice_move_front _ (Nat.le_trans (by decide) hlen),
      fun hle => ⟨hle, Nat.le_of_eq (length_slice _ _ _)⟩⟩
  rw [examine]
  split
  · exact ⟨rfl, Nat.le_refl _, rfl, fun hle => ⟨hle, Nat.zero_le _⟩⟩
  next hlen =>
    have hlen : s.len ≥ 7 := Nat.not_lt.mp hlen
    split
    · exact ⟨rfl, Nat.le_refl _, rfl, fun hle => ⟨hle, Nat.zero_le _⟩⟩
    · split
      next hsync =>
        rw [getChNumAC3Frame_eq hsync]
        dsimp only
        split
        · exact hskip hlen
        next hsize =>
          split
          · exact ⟨rfl, Nat.le_refl _, rfl, fun hle => ⟨hle, Nat.zero_le _⟩⟩
          next hfits =>
            split
            · rw [emitFrame]
              split
              · exact ⟨rfl, Nat.le_refl _, rfl, fun hle => ⟨hle, Nat.zero_le _⟩⟩
              · have hle : encodedWords s.rawbuf * 2 ≤ s.len := by omega
                refine ⟨rfl, Nat.sub_le _ _, slice_move_front _ hle,
                  fun hbuf => ⟨hbuf, rfl, ?_, ?_⟩⟩
                · rw [syncAt, getD_slice _ (by omega), getD_slice _ (by omega)]
                  exact hsync
                · rw [encodedWords_congr fun i hi => getD_slice _ (by omega), length_slice,
                  Nat.mul_comm]
            · exact hskip hlen
      · exact hskip hlen

theorem readTurn_spec (t : DdpTurn) (h : s.len ≤ 6144) :
    let r := s.readTurn t
    r.2.given ++ r.1.contents = s.contents ++ r.2.taken ∧
      r.1.feed.delivered = s.feed.delivered ++ r.2.taken ∧ r.1.len ≤ 6144 ∧ WellFramed r.2 := by
  obtain ⟨n, hfeed, hlen, hcontents, hle⟩ := fill_spec _ t.answers h
  obtain ⟨hfeed', hlen', hgiven, hframed⟩ := examine_spec (s.call.getD ⟨0, 0⟩) t _
  have htaken : (s.readTurn t).2.taken = s.feed.next n := by
    rw [readTurn]
    rw [hfeed]
    exact congrArg (fun k => s.feed.next k) (Nat.add_sub_cancel_left _ _)
  refine ⟨?_, ?_, Nat.le_trans hlen' (hlen ▸ hle), hframed (hlen ▸ hle)⟩
  · rw [htaken, ← hcontents]
    exact hgiven
  · rw [htaken, ← Feed.delivered_advance, ← hfeed]
    exact congrArg Feed.delivered hfeed'

end DdpSource

/-- Moreover every frame starts with a sync word and has the length that its header gives, and the
buffer never holds more than it can. -/
theorem ddp_conserves_stream (stream : Memory Byte) (turns : List DdpTurn) :
    let r := ddpMachine.exec (DdpSource.init stream) turns
    total DdpOutput.given r.1 ++ r.2.contents = r.2.feed.delivered ∧
      (∀ x ∈ r.1, WellFramed x.2) ∧ r.2.len ≤ 6144 := by
  have hrun : ddpMachine.Run (fun _ _ => True) (DdpSource.init stream) _ _ :=
    run_exec turns (always_of_mem fun _ _ => trivial)
  refine hrun.invariant (fun h s => total DdpOutput.given h ++ s.contents = s.feed.delivered ∧
    (∀ x ∈ h, WellFramed x.2) ∧ s.len ≤ 6144) ⟨rfl, nofun, Nat.zero_le _⟩ ?_
  rintro h s t ⟨hconserved, hframed, hlen⟩ -
  obtain ⟨hgiven, hdelivered, hlen', hframed'⟩ := s.readTurn_spec t hlen
  refine ⟨?_, ?_, hlen'⟩
  · calc total DdpOutput.given (h ++ [(t, (s.readTurn t).2)]) ++ (s.readTurn t).1.contents
        = total DdpOutput.given h ++ ((s.readTurn t).2.given ++ (s.readTurn t).1.contents) := by
          rw [total_snoc, List.append_assoc]
      _ = s.feed.delivered ++ (s.readTurn t).2.taken := by
          rw [hgiven, ← List.append_assoc, hconserved]
      _ = (s.readTurn t).1.feed.delivered := hdelivered.symm
  · intro x hx
    rcases List.mem_append.mp hx with hx | hx
    · exact hframed x hx
    · rw [List.mem_singleton.mp hx]
      exact hframed'

end AmlogicHal.Amadec

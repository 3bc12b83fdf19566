import AmlogicHal.Lib.Memory
import Mathlib.Algebra.GroupWithZero.Nat

/-!
# What the media sources read from

The media sources of `omx_audio` get their bytes from a callback, which delivers the bytes of a
stream in order, as many at a time as it likes. Their function `MediaSourceRead_buffer` calls it
until it has what was asked for or the stop flag is set.

`readBuffer_eq`: how the callback cuts the stream does not matter. The buffer gets the next bytes of
the stream, as many as were asked for or delivered.
-/

namespace AmlogicHal.Amadec

abbrev Byte := BitVec 8

/-- Four bytes as an integer, the first one highest. -/
def u32At (m : Memory Byte) (i : Nat) : BitVec 32 := m i ++ m (i + 1) ++ m (i + 2) ++ m (i + 3)

/-- The stream of the callback, and how much of it has been delivered. A stream that ends is one
of which no more is delivered. -/
structure Feed where
  stream : Memory Byte
  pos : Nat

namespace Feed

def delivered (f : Feed) : List Byte := f.stream.slice 0 f.pos

def next (n : Nat) (f : Feed) : List Byte := f.stream.slice f.pos n

def advance (n : Nat) (f : Feed) : Feed := { f with pos := f.pos + n }

@[simp] theorem length_next (n : Nat) (f : Feed) : (f.next n).length = n :=
  Memory.length_slice _ _ _

theorem advance_advance (m n : Nat) (f : Feed) : (f.advance m).advance n = f.advance (m + n) := by
  simp [advance, Nat.add_assoc]

theorem next_append (m n : Nat) (f : Feed) :
    f.next m ++ (f.advance m).next n = f.next (m + n) :=
  Memory.slice_append _ _ _ _

theorem delivered_advance (n : Nat) (f : Feed) :
    (f.advance n).delivered = f.delivered ++ f.next n := by
  simp [delivered, next, advance, ← Memory.slice_append]

end Feed

/-- The buffer after a call of `MediaSourceRead_buffer`, with the rest of the stream and the result
of the call. -/
structure Filled where
  buffer : Memory Byte
  feed : Feed
  readsum : Nat

/-- The loop of `MediaSourceRead_buffer`. Each turn has one answer of the callback, which is not
more than what is still missing; the answers end when the loop finds the stop flag set. -/
def readLoop (dst size : Nat) : List Nat → Filled → Filled
  | [], r => r
  | answer :: answers, r =>
    if r.readsum < size then
      let readcnt := min answer (size - r.readsum)
      readLoop dst size answers
        { buffer := r.buffer.store (dst + r.readsum) (r.feed.next readcnt)
          feed := r.feed.advance readcnt
          readsum := r.readsum + readcnt }
    else r

/-- `MediaSourceRead_buffer(buffer + dst, size)`. A negative size reads nothing, and neither does a
source without a callback. -/
def mediaSourceReadBuffer (dst : Nat) (size : Int) (answers : List Nat) (buffer : Memory Byte)
    (feed : Feed) : Filled :=
  readLoop dst size.toNat answers ⟨buffer, feed, 0⟩

def readCount (size : Int) (answers : List Nat) : Nat := min size.toNat answers.sum

theorem readCount_le (size : Int) (answers : List Nat) : readCount size answers ≤ size.toNat :=
  Nat.min_le_left _ _

/-- The loop, when the first `readsum` bytes have been read. -/
theorem readLoop_eq (dst size : Nat) (buffer : Memory Byte) (feed : Feed) :
    ∀ (answers : List Nat) (readsum : Nat), readsum ≤ size →
      let n := min size (readsum + answers.sum)
      readLoop dst size answers
        ⟨buffer.store dst (feed.next readsum), feed.advance readsum, readsum⟩ =
        ⟨buffer.store dst (feed.next n), feed.advance n, n⟩ := by
  intro answers
  induction answers with
  | nil =>
    intro readsum hle
    simp [readLoop, Nat.min_eq_right hle]
  | cons answer answers ih =>
    intro readsum hle
    rw [readLoop]
    split
    next hlt =>
      dsimp only
      have hstore := Memory.store_append buffer dst (feed.next readsum)
        ((feed.advance readsum).next (min answer (size - readsum)))
      rw [Feed.length_next, Feed.next_append] at hstore
      rw [hstore, Feed.advance_advance, ih _ (by omega)]
      have hsum : min size (readsum + min answer (size - readsum) + answers.sum) =
          min size (readsum + (answer :: answers).sum) := by
        rw [List.sum_cons]
        omega
      rw [hsum]
    next hge =>
      have hfull : min size (readsum + (answer :: answers).sum) = readsum := by
        dsimp only at hge
        omega
      rw [hfull]

theorem readBuffer_eq (dst : Nat) (size : Int) (answers : List Nat) (buffer : Memory Byte)
    (feed : Feed) :
    mediaSourceReadBuffer dst size answers buffer feed =
      ⟨buffer.store dst (feed.next (readCount size answers)), feed.advance (readCount size answers),
        readCount size answers⟩ := by
  have hloop := readLoop_eq dst size.toNat buffer feed answers 0 (Nat.zero_le _)
  have hnone : feed.next 0 = [] := rfl
  rw [hnone, Memory.store_nil, Nat.zero_add] at hloop
  exact hloop

end AmlogicHal.Amadec

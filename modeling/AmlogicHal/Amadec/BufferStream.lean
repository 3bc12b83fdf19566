import AmlogicHal.Lib.Machine
import AmlogicHal.Lib.Ring

/-!
# The PCM buffer

`adec_write.c` keeps decoded data in a ring. `Fifo` says what it is for: a queue of bytes with a
capacity, where a write appends as much as fits and a read takes from the front. `stream_refines`:
in all sequences of calls the ring gives the results of the queue, and every copy stays inside the
allocated block.

The exception is an `init_buff` that gets no memory: it sets `data` to `NULL` and leaves the other
fields, so after an earlier initialisation the next calls compute with the null pointer
(`failedInit_leaves_block`).
-/

namespace AmlogicHal.Amadec

open Memory List

/-! ## What the stream is for -/

/-- A queue of bytes that never holds more than its capacity. -/
@[ext]
structure Fifo (α : Type) where
  capacity : Nat
  bytes : List α
  fits : bytes.length ≤ capacity

/-- `init` comes with the address that `malloc` returns, which is 0 if there is no memory; `write`
with the bytes that are offered. -/
inductive StreamCall (α : Type)
  | init (address length : Nat)
  | reset
  | read (size : Nat)
  | write (bytes : List α)

namespace Fifo

variable {α : Type}

def empty (capacity : Nat) : Fifo α := ⟨capacity, [], Nat.zero_le _⟩

def read (n : Nat) (q : Fifo α) : Fifo α :=
  ⟨q.capacity, q.bytes.drop n, (List.length_drop ▸ Nat.sub_le _ _).trans q.fits⟩

/-- The part of the offered bytes that fits. -/
def accepted (bs : List α) (q : Fifo α) : List α := bs.take (q.capacity - q.bytes.length)

theorem length_accepted_le (bs : List α) (q : Fifo α) :
    q.bytes.length + (q.accepted bs).length ≤ q.capacity := by
  have htake : (q.accepted bs).length ≤ q.capacity - q.bytes.length := length_take_le _ _
  exact (Nat.add_le_add_left htake _).trans (Nat.le_of_eq (Nat.add_sub_of_le q.fits))

def write (bs : List α) (q : Fifo α) : Fifo α :=
  ⟨q.capacity, q.bytes ++ q.accepted bs, List.length_append ▸ q.length_accepted_le bs⟩

end Fifo

/-- The queue, which there is only after a successful `init`. The output is the result of the call,
and for a read also the bytes. -/
def fifoMachine (α : Type) : Machine (Option (Fifo α)) (StreamCall α) (Int × List α) where
  step
    | _, .init address length => if address = 0 then (none, (-1, []))
      else (some (.empty length), (1, []))
    | none, _ => (none, (-1, []))
    | some q, .reset => (some (.empty q.capacity), (0, []))
    | some q, .read n => (some (q.read n), ((q.bytes.take n).length, q.bytes.take n))
    | some q, .write bs => (some (q.write bs), ((q.accepted bs).length, []))

/-! ## The model of the source -/

/-- `buffer_stream_t`, with the memory that its pointers point into. -/
structure BufferStream (α : Type) where
  memory : Memory α
  data : Nat
  rdPtr : Nat
  wrPtr : Nat
  bufLength : Nat
  bufLevel : Nat
  bInited : Bool

/-- The result of a call, the bytes that a read delivers, and the ranges of memory that are copied
from or to, each with its address and its size. -/
structure StreamResult (α : Type) where
  ret : Int
  out : List α
  copies : List (Nat × Int)

namespace BufferStream

variable {α : Type}

def initBuff (address length : Nat) (bs : BufferStream α) : BufferStream α × StreamResult α :=
  if address = 0 then ({ bs with data := 0 }, ⟨-1, [], []⟩)
  else
    ({ bs with
      data := address, bufLength := length, bufLevel := 0, rdPtr := address, wrPtr := address
      bInited := true }, ⟨1, [], []⟩)

variable (bs : BufferStream α)

def resetBuffer : BufferStream α × StreamResult α :=
  if bs.bInited then ({ bs with bufLevel := 0, rdPtr := bs.data, wrPtr := bs.data }, ⟨0, [], []⟩)
  else (bs, ⟨-1, [], []⟩)

/-- A pointer to the end of the block becomes a pointer to its start. -/
def wrap (ptr : Nat) : Nat :=
  if ptr = bs.data + bs.bufLength then bs.data else ptr

def tailLen (ptr : Nat) : Int := (bs.data + bs.bufLength : Nat) - ptr

def readOnce (len : Nat) (bs : BufferStream α) : BufferStream α × StreamResult α :=
  ({ bs with rdPtr := bs.wrap (bs.rdPtr + len), bufLevel := bs.bufLevel - len },
    ⟨len, bs.memory.slice bs.rdPtr len, [(bs.rdPtr, len)]⟩)

/-- Two copies, the second one from the start of the block. -/
def readTwice (len : Nat) (bs : BufferStream α) : BufferStream α × StreamResult α :=
  let tail := bs.tailLen bs.rdPtr
  ({ bs with rdPtr := bs.wrap (bs.data + len - tail).toNat, bufLevel := bs.bufLevel - len },
    ⟨len, bs.memory.slice bs.rdPtr tail.toNat ++ bs.memory.slice bs.data (len - tail).toNat,
      [(bs.rdPtr, tail), (bs.data, len - tail)]⟩)

def readData (size : Nat) (bs : BufferStream α) : BufferStream α × StreamResult α :=
  if ¬ bs.bInited then (bs, ⟨-1, [], []⟩)
  else if bs.bufLevel = 0 then (bs, ⟨0, [], []⟩)
  else
    let len := if bs.bufLevel > size then size else bs.bufLevel
    if bs.wrPtr > bs.rdPtr then bs.readOnce len
    else if len < bs.tailLen bs.rdPtr then bs.readOnce len
    else bs.readTwice len

def writeOnce (input : List α) (len : Nat) (bs : BufferStream α) :
    BufferStream α × StreamResult α :=
  ({ bs with
    memory := bs.memory.store bs.wrPtr (input.take len)
    wrPtr := bs.wrap (bs.wrPtr + len)
    bufLevel := bs.bufLevel + len }, ⟨len, [], [(bs.wrPtr, len)]⟩)

def writeTwice (input : List α) (len : Nat) (bs : BufferStream α) :
    BufferStream α × StreamResult α :=
  let tail := bs.tailLen bs.wrPtr
  ({ bs with
    memory := (bs.memory.store bs.wrPtr (input.take tail.toNat)).store bs.data
      ((input.drop tail.toNat).take (len - tail).toNat)
    wrPtr := bs.wrap (bs.data + len - tail).toNat
    bufLevel := bs.bufLevel + len }, ⟨len, [], [(bs.wrPtr, tail), (bs.data, len - tail)]⟩)

def writeData (input : List α) (bs : BufferStream α) : BufferStream α × StreamResult α :=
  if ¬ bs.bInited then (bs, ⟨-1, [], []⟩)
  else if bs.bufLevel = bs.bufLength then (bs, ⟨0, [], []⟩)
  else
    let len := if bs.bufLength - bs.bufLevel < input.length then bs.bufLength - bs.bufLevel
      else input.length
    if bs.wrPtr < bs.rdPtr then bs.writeOnce input len
    else if len < bs.tailLen bs.wrPtr then bs.writeOnce input len
    else bs.writeTwice input len

def contents : List α :=
  bs.memory.window bs.data bs.bufLength (bs.rdPtr - bs.data) bs.bufLevel

end BufferStream

open BufferStream

def streamMachine (α : Type) : Machine (BufferStream α) (StreamCall α) (StreamResult α) where
  step bs
    | .init address length => bs.initBuff address length
    | .reset => bs.resetBuffer
    | .read size => bs.readData size
    | .write bytes => bs.writeData bytes

/-! ## The refinement -/

section Refinement

variable {α : Type}

/-- An `init` is for at least one byte, and gets its memory if the stream is initialised. -/
def InitsAgain (bs : BufferStream α) : StreamCall α → Prop
  | .init address length => 1 ≤ length ∧ (bs.bInited = true → address ≠ 0)
  | _ => True

def InBlock (bs : BufferStream α) (c : Nat × Int) : Prop :=
  bs.data ≠ 0 ∧ bs.data ≤ c.1 ∧ 0 ≤ c.2 ∧ c.1 + c.2 ≤ (bs.data + bs.bufLength : Nat)

/-- What the stream does is what the queue does: the same result and the same bytes; afterwards its
level is the number of bytes in the queue, which is at most the capacity; and every copy is inside
the block. -/
structure Refines (s : BufferStream α × Option (Fifo α)) (e : StreamCall α) : Prop where
  result : ((streamMachine α).step s.1 e).2.ret = ((fifoMachine α).step s.2 e).2.1
  out : ((streamMachine α).step s.1 e).2.out = ((fifoMachine α).step s.2 e).2.2
  level : ∀ q ∈ ((fifoMachine α).step s.2 e).1,
    ((streamMachine α).step s.1 e).1.bufLevel = q.bytes.length ∧
      ((streamMachine α).step s.1 e).1.bufLength = q.capacity
  inside : ∀ c ∈ ((streamMachine α).step s.1 e).2.copies, InBlock s.1 c

/-- The ring holds the bytes of the queue, from the position `r` on. -/
structure Holds (bs : BufferStream α) (q : Fifo α) (r : Nat) : Prop where
  inited : bs.bInited = true
  data : bs.data ≠ 0
  length : bs.bufLength = q.capacity
  level : bs.bufLevel = q.bytes.length
  start : r < q.capacity
  rdPtr : bs.rdPtr = bs.data + r
  wrPtr : bs.wrPtr = bs.data + (r + q.bytes.length) % q.capacity
  window : bs.memory.window bs.data q.capacity r q.bytes.length = q.bytes

/-- A call on a stream that holds a queue: what it returns, and the queue that is held then. -/
structure CallSpec (bs : BufferStream α) (x : BufferStream α × StreamResult α) (q : Fifo α)
    (ret : Int) (out : List α) : Prop where
  holds : ∃ r, Holds x.1 q r
  ret : x.2.ret = ret
  out : x.2.out = out
  inside : ∀ c ∈ x.2.copies, InBlock bs c

namespace Holds

variable {bs : BufferStream α} {q : Fifo α} {r : Nat}

theorem capacity_pos (h : Holds bs q r) : 0 < q.capacity := Nat.zero_lt_of_lt h.start

theorem contents_eq (h : Holds bs q r) : bs.contents = q.bytes := by
  unfold contents
  rw [h.length, h.level, h.rdPtr, Nat.add_sub_cancel_left, h.window]

variable {p len : Nat}

section

variable (h : Holds bs q r)
include h

theorem wrap_eq (hp : p ≤ q.capacity) : bs.wrap (bs.data + p) = bs.data + p % q.capacity := by
  unfold wrap
  rw [h.length]
  rcases Nat.lt_or_eq_of_le hp with hlt | rfl
  · rw [if_neg fun heq => hlt.ne (Nat.add_left_cancel heq), Nat.mod_eq_of_lt hlt]
  · rw [if_pos rfl, Nat.mod_self, Nat.add_zero]

theorem tailLen_eq (hp : p ≤ q.capacity) : bs.tailLen (bs.data + p) = (q.capacity - p : Nat) := by
  unfold tailLen
  rw [h.length]
  omega

theorem tailLen_rdPtr : bs.tailLen bs.rdPtr = (q.capacity - r : Nat) := by
  rw [h.rdPtr, h.tailLen_eq h.start.le]

theorem inBlock {n : Nat} (hn : p + n ≤ q.capacity) : InBlock bs (bs.data + p, n) := by
  refine ⟨h.data, Nat.le_add_right _ _, Int.natCast_nonneg _, ?_⟩
  rw [h.length]
  exact Int.ofNat_le.mpr (Nat.add_assoc _ _ _ ▸ Nat.add_le_add_left hn _)

theorem read_holds (hlen : len ≤ q.bytes.length) :
    Holds { bs with rdPtr := bs.data + (r + len) % q.capacity, bufLevel := bs.bufLevel - len }
      (q.read len) ((r + len) % q.capacity) where
  inited := h.inited
  data := h.data
  length := h.length
  level := by rw [h.level]; exact length_drop.symm
  start := Nat.mod_lt _ h.capacity_pos
  rdPtr := rfl
  wrPtr := by
    have hsum : r + len + (q.read len).bytes.length = r + q.bytes.length := by
      show r + len + (q.bytes.drop len).length = _
      rw [length_drop, Nat.add_assoc, Nat.add_sub_of_le hlen]
    show bs.wrPtr = bs.data + ((r + len) % q.capacity + _) % q.capacity
    rw [Nat.mod_add_mod, hsum, h.wrPtr]
  window := by
    show Memory.window bs.memory bs.data q.capacity ((r + len) % q.capacity) _ = q.bytes.drop len
    have hdrop := drop_window bs.memory bs.data q.capacity r hlen
    rw [h.window] at hdrop
    rw [window_mod, hdrop]
    congr 1
    exact length_drop

theorem readOnce_spec (hlen : len ≤ q.bytes.length) (hend : r + len ≤ q.capacity) :
    CallSpec bs (bs.readOnce len) (q.read len) len (q.bytes.take len) := by
  have hrd : bs.wrap (bs.rdPtr + len) = bs.data + (r + len) % q.capacity := by
    rw [h.rdPtr, Nat.add_assoc, h.wrap_eq hend]
  refine ⟨⟨(r + len) % q.capacity, ?_⟩, rfl, ?_, ?_⟩
  · unfold readOnce
    rw [hrd]
    exact h.read_holds hlen
  · show bs.memory.slice bs.rdPtr len = q.bytes.take len
    have htake := take_window bs.memory bs.data q.capacity r hlen
    rw [h.rdPtr, ← window_eq_slice bs.memory bs.data hend, ← htake, h.window]
  · intro c hc
    cases mem_singleton.mp hc
    rw [h.rdPtr]
    exact h.inBlock hend

end

theorem mod_of_wraps {capacity k : Nat} (hp : p < capacity) (hk : k ≤ capacity)
    (hwraps : capacity ≤ p + k) : (p + k) % capacity = k - (capacity - p) := by
  rw [Nat.mod_eq_sub_mod hwraps, Nat.mod_eq_of_lt] <;> omega

section

variable (h : Holds bs q r)
include h

theorem readTwice_spec (hlen : len ≤ q.bytes.length) (hwraps : q.capacity ≤ r + len) :
    CallSpec bs (bs.readTwice len) (q.read len) len (q.bytes.take len) := by
  have hcap : len ≤ q.capacity := hlen.trans q.fits
  have htail_le : q.capacity - r ≤ len := Nat.sub_le_of_le_add (Nat.add_comm r len ▸ hwraps)
  have hrest : (len : Int) - (q.capacity - r : Nat) = (len - (q.capacity - r) : Nat) :=
    (Int.ofNat_sub htail_le).symm
  have hptr : ((bs.data : Int) + len - (q.capacity - r : Nat)).toNat =
      bs.data + (len - (q.capacity - r)) := by omega
  have hmod := mod_of_wraps h.start hcap hwraps
  have hrd : bs.wrap (bs.data + (len - (q.capacity - r))) = bs.data + (r + len) % q.capacity := by
    rw [h.wrap_eq ((Nat.sub_le _ _).trans hcap), hmod, ← hmod, Nat.mod_mod]
  unfold readTwice
  rw [h.tailLen_rdPtr]
  dsimp only
  rw [hrest, hptr, hrd]
  refine ⟨⟨(r + len) % q.capacity, h.read_holds hlen⟩, rfl, ?_, ?_⟩
  · show bs.memory.slice bs.rdPtr (q.capacity - r) ++ bs.memory.slice bs.data
      (len - (q.capacity - r)) = q.bytes.take len
    have htake := take_window bs.memory bs.data q.capacity r hlen
    rw [h.rdPtr, ← window_eq_slices bs.memory bs.data h.start.le hcap hwraps, ← htake, h.window]
  · intro c hc
    rcases mem_cons.mp hc with rfl | hc
    · rw [h.rdPtr]
      exact h.inBlock (Nat.le_of_eq (Nat.add_sub_of_le h.start.le))
    · cases mem_singleton.mp hc
      exact h.inBlock (p := 0) ((Nat.zero_add _).symm ▸ (Nat.sub_le _ _).trans hcap)

theorem not_wraps_of_lt (hlt : bs.rdPtr < bs.wrPtr) : r + q.bytes.length < q.capacity := by
  rw [h.rdPtr, h.wrPtr] at hlt
  rcases Nat.lt_or_ge _ q.capacity with hend | hwraps
  · exact hend
  · rw [mod_of_wraps h.start q.fits hwraps] at hlt
    have := q.fits
    omega

theorem readData_spec (n : Nat) :
    CallSpec bs (bs.readData n) (q.read n) (q.bytes.take n).length (q.bytes.take n) := by
  have hinited := h.inited
  rcases Nat.eq_zero_or_pos bs.bufLevel with hzero | hpos
  · have hnil : q.bytes = [] := eq_nil_of_length_eq_zero (h.level.symm.trans hzero)
    have hread : bs.readData n = (bs, ⟨0, [], []⟩) := by simp [readData, hinited, hzero]
    have hq : q.read n = q := Fifo.ext rfl (by simp [Fifo.read, hnil])
    rw [hread, hq, hnil, take_nil]
    exact ⟨⟨r, h⟩, rfl, rfl, nofun⟩
  · -- the number of bytes that are read
    obtain ⟨len, hdef, hlen, htake, hdrop⟩ :
        ∃ len, (if bs.bufLevel > n then n else bs.bufLevel) = len ∧ len ≤ q.bytes.length ∧
          q.bytes.take n = q.bytes.take len ∧ q.bytes.drop n = q.bytes.drop len := by
      refine ⟨_, rfl, ?_⟩
      rw [h.level]
      split
      · next hlt => exact ⟨hlt.le, rfl, rfl⟩
      · next hge =>
        have hge := Nat.not_lt.mp hge
        exact ⟨Nat.le_refl _, by rw [take_of_length_le hge, take_length],
          by rw [drop_of_length_le hge, drop_length]⟩
    have hq : q.read n = q.read len := Fifo.ext rfl hdrop
    have hlength : (q.bytes.take len).length = len := length_take_of_le hlen
    rw [hq, htake, hlength]
    unfold readData
    rw [if_neg (not_not.mpr hinited), if_neg hpos.ne']
    dsimp only
    rw [hdef, h.tailLen_rdPtr]
    split
    · next hlt =>
        exact h.readOnce_spec hlen ((Nat.add_le_add_left hlen r).trans (h.not_wraps_of_lt hlt).le)
    · split
      · next hlt =>
          exact h.readOnce_spec hlen (Nat.add_le_of_le_sub' h.start.le (Int.ofNat_lt.mp hlt).le)
      · next hge =>
        have hge : q.capacity - r ≤ len := Nat.not_lt.mp fun hlt => hge (Int.ofNat_lt.mpr hlt)
        exact h.readTwice_spec hlen (Nat.le_add_of_sub_le hge |>.trans_eq (Nat.add_comm _ _))

theorem write_holds {memory : Memory α} {bytes : List α}
    (hwindow : memory.window bs.data q.capacity r (q.bytes.length + (q.accepted bytes).length) =
      q.bytes ++ q.accepted bytes) :
    Holds { bs with
      memory := memory
      wrPtr := bs.data + (r + (q.bytes.length + (q.accepted bytes).length)) % q.capacity
      bufLevel := bs.bufLevel + (q.accepted bytes).length } (q.write bytes) r where
  inited := h.inited
  data := h.data
  length := h.length
  level := by rw [h.level]; exact length_append.symm
  start := h.start
  rdPtr := h.rdPtr
  wrPtr := by
    show _ = bs.data + (r + (q.bytes ++ q.accepted bytes).length) % q.capacity
    rw [length_append]
  window := by
    show memory.window bs.data q.capacity r (q.bytes ++ q.accepted bytes).length = _
    rw [length_append, hwindow]
    rfl

theorem writeOnce_spec {input : List α} (hlen : (q.accepted input).length = len)
    (htake : input.take len = q.accepted input)
    (hend : (r + q.bytes.length) % q.capacity + len ≤ q.capacity) :
    CallSpec bs (bs.writeOnce input len) (q.write input) len [] := by
  subst hlen
  have hwr : bs.wrap (bs.wrPtr + (q.accepted input).length) =
      bs.data + (r + (q.bytes.length + (q.accepted input).length)) % q.capacity := by
    rw [h.wrPtr, Nat.add_assoc, h.wrap_eq hend, Nat.mod_add_mod, Nat.add_assoc]
  have hwindow := window_store bs.memory bs.data rfl hend (q.length_accepted_le input)
  unfold writeOnce
  rw [htake, hwr]
  refine ⟨⟨r, h.write_holds ?_⟩, rfl, rfl, ?_⟩
  · rw [h.wrPtr, hwindow, h.window]
  · intro c hc
    cases mem_singleton.mp hc
    rw [h.wrPtr]
    exact h.inBlock hend

theorem writeTwice_spec {input : List α} (hlen : (q.accepted input).length = len)
    (htake : input.take len = q.accepted input) (hrest : r + q.bytes.length < q.capacity)
    (hwraps : q.capacity ≤ r + q.bytes.length + len) :
    CallSpec bs (bs.writeTwice input len) (q.write input) len [] := by
  have hfree : q.bytes.length + len ≤ q.capacity := hlen ▸ q.length_accepted_le input
  have hwr : bs.wrPtr = bs.data + (r + q.bytes.length) := by rw [h.wrPtr, Nat.mod_eq_of_lt hrest]
  -- the bytes that go to the end of the block, and those that go to its start
  let tail := q.capacity - (r + q.bytes.length)
  have htail : bs.tailLen bs.wrPtr = (tail : Nat) := by rw [hwr, h.tailLen_eq hrest.le]
  have htail_le : tail ≤ len := Nat.sub_le_of_le_add (Nat.add_comm _ len ▸ hwraps)
  have hsum : r + q.bytes.length + tail = q.capacity := Nat.add_sub_of_le hrest.le
  have hinput : len ≤ input.length := by
    rw [← hlen, ← htake]
    exact length_take_le' _ _
  have hfirst : (input.take tail).length = tail := length_take_of_le (htail_le.trans hinput)
  have hsecond : ((input.drop tail).take (len - tail)).length = len - tail :=
    length_take_of_le (length_drop ▸ Nat.sub_le_sub_right hinput tail)
  have hsplit : input.take tail ++ (input.drop tail).take (len - tail) = q.accepted input := by
    rw [← take_add, Nat.add_sub_of_le htail_le, htake]
  have hmod : (r + (q.bytes.length + len)) % q.capacity = len - tail := by
    rw [← Nat.add_assoc, mod_of_wraps hrest ((Nat.le_add_left _ _).trans hfree) hwraps]
  have hptr : ((bs.data : Int) + len - tail).toNat = bs.data + (len - tail) := by omega
  have hwr' : bs.wrap (bs.data + (len - tail)) =
      bs.data + (r + (q.bytes.length + len)) % q.capacity := by
    have hle : len - tail ≤ q.capacity := (Nat.sub_le _ _).trans ((Nat.le_add_left _ _).trans hfree)
    rw [h.wrap_eq hle, ← hmod, Nat.mod_mod]
  have hwindow : ((bs.memory.store bs.wrPtr (input.take tail)).store bs.data
      ((input.drop tail).take (len - tail))).window bs.data q.capacity r (q.bytes.length + len) =
        q.bytes ++ q.accepted input := by
    have hfree : q.bytes.length + ((input.take tail).length +
        ((input.drop tail).take (len - tail)).length) ≤ q.capacity := by
      rwa [hfirst, hsecond, Nat.add_sub_of_le htail_le]
    have hstores := window_stores bs.memory bs.data hrest (hfirst.symm ▸ hsum) hfree
    rwa [hfirst, hsecond, Nat.add_sub_of_le htail_le, hsplit, h.window, ← hwr] at hstores
  subst hlen
  unfold writeTwice
  rw [htail]
  dsimp only
  rw [Int.toNat_natCast, (Int.ofNat_sub htail_le).symm, Int.toNat_natCast, hptr, hwr']
  refine ⟨⟨r, h.write_holds hwindow⟩, rfl, rfl, ?_⟩
  intro c hc
  rcases mem_cons.mp hc with rfl | hc
  · rw [hwr]
    exact h.inBlock hsum.le
  · cases mem_singleton.mp hc
    exact h.inBlock (p := 0)
      ((Nat.zero_add _).symm ▸ (Nat.sub_le _ _).trans ((Nat.le_add_left _ _).trans hfree))

/-- The write pointer is not behind the read pointer, and the stream is not full: the bytes do not
go over the end. -/
theorem not_wraps_of_ge (hge : ¬ bs.wrPtr < bs.rdPtr) (hfull : q.bytes.length < q.capacity) :
    r + q.bytes.length < q.capacity := by
  rw [h.rdPtr, h.wrPtr] at hge
  rcases Nat.lt_or_ge _ q.capacity with hend | hwraps
  · exact hend
  · rw [mod_of_wraps h.start q.fits hwraps] at hge
    omega

theorem free_of_lt (hlt : bs.wrPtr < bs.rdPtr) (hlen : q.bytes.length + len ≤ q.capacity) :
    (r + q.bytes.length) % q.capacity + len ≤ q.capacity := by
  rw [h.rdPtr, h.wrPtr] at hlt
  have hlt := Nat.lt_of_add_lt_add_left hlt
  rcases Nat.lt_or_ge _ q.capacity with hend | hwraps
  · rw [Nat.mod_eq_of_lt hend] at hlt
    exact absurd hlt (Nat.not_lt.mpr (Nat.le_add_right _ _))
  · rw [mod_of_wraps h.start q.fits hwraps]
    omega

theorem writeData_spec (input : List α) :
    CallSpec bs (bs.writeData input) (q.write input) (q.accepted input).length [] := by
  have hinited := h.inited
  have hp : (r + q.bytes.length) % q.capacity < q.capacity := Nat.mod_lt _ h.capacity_pos
  rcases Nat.lt_or_eq_of_le q.fits with hfree | hfull
  · -- the number of bytes that are written
    obtain ⟨len, hdef, hlen⟩ : ∃ len, (if bs.bufLength - bs.bufLevel < input.length then
        bs.bufLength - bs.bufLevel else input.length) = len ∧ (q.accepted input).length = len := by
      refine ⟨_, rfl, ?_⟩
      rw [h.length, h.level, Fifo.accepted, length_take]
      split
      · next hlt => exact Nat.min_eq_left hlt.le
      · next hge => exact Nat.min_eq_right (Nat.not_lt.mp hge)
    have htake : input.take len = q.accepted input := by
      rw [← hlen]
      exact (prefix_iff_eq_take.mp (List.take_prefix _ _)).symm
    have hsum : q.bytes.length + len ≤ q.capacity := hlen ▸ q.length_accepted_le input
    have htail : bs.tailLen bs.wrPtr = (q.capacity - (r + q.bytes.length) % q.capacity : Nat) := by
      rw [h.wrPtr, h.tailLen_eq hp.le]
    rw [hlen]
    unfold writeData
    rw [if_neg (not_not.mpr hinited), if_neg (h.level.symm ▸ h.length.symm ▸ hfree.ne)]
    dsimp only
    rw [hdef, htail]
    split
    · next hlt => exact h.writeOnce_spec hlen htake (h.free_of_lt hlt hsum)
    · next hge =>
      split
      · next hlt =>
        exact h.writeOnce_spec hlen htake (Nat.add_le_of_le_sub' hp.le (Int.ofNat_lt.mp hlt).le)
      · next hge' =>
        have hrest := h.not_wraps_of_ge hge hfree
        rw [Nat.mod_eq_of_lt hrest] at hge'
        have hge' : q.capacity - (r + q.bytes.length) ≤ len :=
          Nat.not_lt.mp fun hlt => hge' (Int.ofNat_lt.mpr hlt)
        exact h.writeTwice_spec hlen htake hrest
          (Nat.le_add_of_sub_le hge' |>.trans_eq (Nat.add_comm _ _))
  · have hnone : q.accepted input = [] := by
      rw [Fifo.accepted, hfull, Nat.sub_self, take_zero]
    have hwrite : bs.writeData input = (bs, ⟨0, [], []⟩) := by
      simp [writeData, hinited, h.level, h.length, hfull]
    have hq : q.write input = q := Fifo.ext rfl (by simp [Fifo.write, hnone])
    rw [hwrite, hq, hnone]
    exact ⟨⟨r, h⟩, rfl, rfl, nofun⟩

end

end Holds

/-! ## Runs -/

/-- The stream and the queue: not initialised, or with the same bytes. -/
def Related (s : BufferStream α × Option (Fifo α)) : Prop :=
  match s.2 with
  | none => s.1.bInited = false
  | some q => ∃ r, Holds s.1 q r

variable {bs : BufferStream α} {queue : Option (Fifo α)} {e : StreamCall α}

theorem CallSpec.refines {q : Fifo α} {ret : Int} {out : List α}
    (hspec : CallSpec bs ((streamMachine α).step bs e) q ret out)
    (hqueue : (fifoMachine α).step queue e = (some q, (ret, out))) :
    Refines (bs, queue) e ∧
    Related (((streamMachine α).both (fifoMachine α)).step (bs, queue) e).1 := by
  have hnext : ((fifoMachine α).step queue e).1 = some q := congrArg Prod.fst hqueue
  refine ⟨⟨?_, ?_, fun q' hq' => ?_, hspec.inside⟩, ?_⟩
  · rw [hqueue]
    exact hspec.ret
  · rw [hqueue]
    exact hspec.out
  · rw [hnext] at hq'
    cases hq'
    obtain ⟨r, hr⟩ := hspec.holds
    exact ⟨hr.level, hr.length⟩
  · show Related (((streamMachine α).step bs e).1, ((fifoMachine α).step queue e).1)
    rw [hnext]
    exact hspec.holds

theorem refines_of_none {bs' : BufferStream α}
    (hstep : (streamMachine α).step bs e = (bs', ⟨-1, [], []⟩)) (hbs : bs'.bInited = false)
    (hqueue : (fifoMachine α).step queue e = (none, (-1, []))) :
    Refines (bs, queue) e ∧
    Related (((streamMachine α).both (fifoMachine α)).step (bs, queue) e).1 := by
  have hnext : ((fifoMachine α).step queue e).1 = none := congrArg Prod.fst hqueue
  refine ⟨⟨?_, ?_, ?_, ?_⟩, ?_⟩
  · rw [hstep, hqueue]
  · rw [hstep, hqueue]
  · rw [hnext]
    exact nofun
  · rw [hstep]
    exact nofun
  · show Related (((streamMachine α).step bs e).1, ((fifoMachine α).step queue e).1)
    rw [hnext, hstep]
    exact hbs

theorem initBuff_spec (bs : BufferStream α) {address length : Nat} (haddress : address ≠ 0)
    (hlength : 1 ≤ length) : CallSpec bs (bs.initBuff address length) (.empty length) 1 [] := by
  unfold initBuff
  rw [if_neg haddress]
  refine ⟨⟨0, ?_⟩, rfl, rfl, nofun⟩
  exact ⟨rfl, haddress, rfl, rfl, hlength, rfl, by simp [Fifo.empty], rfl⟩

theorem Holds.resetBuffer_spec {q : Fifo α} {r : Nat} (h : Holds bs q r) :
    CallSpec bs bs.resetBuffer (.empty q.capacity) 0 [] := by
  unfold resetBuffer
  rw [if_pos h.inited]
  refine ⟨⟨0, ?_⟩, rfl, rfl, nofun⟩
  exact ⟨h.inited, h.data, h.length, rfl, h.capacity_pos, rfl, by simp [Fifo.empty], rfl⟩

theorem step_refines {s : BufferStream α × Option (Fifo α)} (h : Related s)
    (hinit : InitsAgain s.1 e) :
    Refines s e ∧ Related (((streamMachine α).both (fifoMachine α)).step s e).1 := by
  obtain ⟨bs, queue⟩ := s
  cases queue with
  | none =>
    have h : bs.bInited = false := h
    cases e with
    | init address length =>
      rcases eq_or_ne address 0 with rfl | haddress
      · exact refines_of_none rfl h rfl
      · exact (initBuff_spec bs haddress hinit.1).refines (if_neg haddress)
    | reset => exact refines_of_none (by simp [streamMachine, resetBuffer, h]) h rfl
    | read n => exact refines_of_none (by simp [streamMachine, readData, h]) h rfl
    | write bytes => exact refines_of_none (by simp [streamMachine, writeData, h]) h rfl
  | some q =>
    obtain ⟨r, h⟩ : ∃ r, Holds bs q r := h
    cases e with
    | init address length =>
      have haddress : address ≠ 0 := hinit.2 h.inited
      exact (initBuff_spec bs haddress hinit.1).refines (if_neg haddress)
    | reset => exact h.resetBuffer_spec.refines rfl
    | read n => exact (h.readData_spec n).refines rfl
    | write bytes => exact (h.writeData_spec bytes).refines rfl

theorem stream_refines (bs : BufferStream α) (h0 : bs.bInited = false) (es : List (StreamCall α))
    (hinits : (streamMachine α).Always InitsAgain bs es) :
    ((streamMachine α).both (fifoMachine α)).Always Refines (bs, none) es := by
  have hinits : ((streamMachine α).both (fifoMachine α)).Always (fun s e => InitsAgain s.1 e)
      (bs, none) es := Machine.both_always.mpr hinits
  exact hinits.of_invariant (fun _ _ h hi => step_refines h hi) (show Related (bs, none) from h0)

end Refinement

def zeroStream : BufferStream Nat := ⟨fun _ => 0, 0, 0, 0, 0, 0, false⟩

/-- A block of four bytes at 100, with a write and a read over its end. -/
theorem stream_refines_wrapped :
    ((streamMachine Nat).both (fifoMachine Nat)).Always Refines (zeroStream, none)
      [.init 100 4, .write [1, 2, 3], .read 2, .write [4, 5, 6, 7], .read 9] :=
  stream_refines zeroStream rfl _
    ⟨by simp [InitsAgain], trivial, trivial, trivial, trivial, trivial⟩

/-- The next write is told to copy -99 bytes to the old block. -/
theorem failedInit_leaves_block :
    ((streamMachine Nat).exec zeroStream
        [.init 100 4, .write [1, 2, 3], .init 0 4, .write [4]]).1.getLast?.map
          (fun x => x.2.copies) =
      some [(103, -99), (0, 100)] ∧
    ¬ ((streamMachine Nat).both (fifoMachine Nat)).Always Refines (zeroStream, none)
        [.init 100 4, .write [1, 2, 3], .init 0 4, .write [4]] := by
  refine ⟨by decide, fun h => ?_⟩
  have hinside := h.2.2.2.1.inside (103, -99) (by decide)
  exact absurd hinside.2.2.1 (by decide)

end AmlogicHal.Amadec

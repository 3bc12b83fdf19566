import AmlogicHal.Amadec.DecodeLoop
import Mathlib.Algebra.Order.Ring.Rat

/-!
# The frame sizes of APE streams

Before each frame of an APE stream come the word `APTS` and the size of the frame, four bytes, the
least first. `get_frame_size` looks for the word in a window of four bytes (`start_code`), moved by
one byte in each call, and returns the size plus 8, rounded up to a multiple of 4. It is called
until it finds one (`findFrameSize`).

* A read that delivers some of the bytes is taken for one that delivers all.
* The bytes are joined with `|`, the first one after 8 was added to it: a carry is lost, and a
  negative `char` sets all bits above it.

`findFrameSize_iff` is about all runs whose reads deliver all bytes or none. `apeSync_wrong` has a
run for each flaw.
-/

namespace AmlogicHal.Amadec

open Memory List

/-! ## The model -/

inductive SyncStatus where
  | syncWordNotGet
  | syncWordStartFind
  | syncWordFound
  | frameSizeFound
deriving DecidableEq, Repr

/-- `start_code`, and the position of the reader in the stream. -/
structure ApeSync where
  buff : Memory (BitVec 8)
  size : Nat
  status : SyncStatus
  pos : Nat

/-- How many bytes the read routine has for a call: for the window, and for the frame size. -/
structure ApeCall where
  window : Nat
  frameSize : Nat
deriving DecidableEq, Repr

/-- The bytes that `read_buffer` delivers when it is asked for `size`. -/
def readBuffer (stream : Nat → BitVec 8) (pos size available : Nat) : List (BitVec 8) :=
  Memory.slice stream pos (min available size)

variable (charSigned : Bool)

/-- A `char` as an `int`. Whether it has a sign depends on the machine. -/
def charToInt (b : BitVec 8) : BitVec 32 :=
  if charSigned then b.signExtend 32 else b.setWidth 32

/-- The four bytes as `get_frame_size` puts them together. -/
def joinBytes (b0 b1 b2 b3 : BitVec 8) : BitVec 32 :=
  let c := charToInt charSigned
  c b3 <<< 24 ||| c b2 <<< 16 ||| c b1 <<< 8 ||| (c b0 + 8#32)

def apeFrameSize (b0 b1 b2 b3 : BitVec 8) : BitVec 32 :=
  (joinBytes charSigned b0 b1 b2 b3 + 3#32) &&& ~~~3#32

namespace ApeSync

variable (stream : Nat → BitVec 8)

/-- A read to `buff + offset`, if it delivers anything. -/
def read (offset size available : Nat) (s : ApeSync) : Option ApeSync :=
  let bytes := readBuffer stream s.pos size available
  if bytes.length = 0 then none
  else some { s with buff := s.buff.store offset bytes, pos := s.pos + bytes.length }

/-- The `memset` at the start of a call. -/
def clear (s : ApeSync) : ApeSync :=
  if s.status = .syncWordNotGet ∨ s.status = .frameSizeFound then
    { s with buff := fun _ => 0, size := 0, status := .syncWordNotGet }
  else s

def firstWindow (available : Nat) (s : ApeSync) : Option ApeSync :=
  if s.status = .syncWordNotGet then
    (s.read stream 0 4 available).map fun s => { s with size := 4, status := .syncWordStartFind }
  else some s

def nextByte (available : Nat) (s : ApeSync) : Option ApeSync :=
  if s.size < 4 then
    (s.read stream s.size (4 - s.size) available).map fun s => { s with size := 4 }
  else some s

/-- The window holds `APTS`. -/
def atSyncWord (s : ApeSync) : Bool :=
  s.buff 0 = 0x41#8 && s.buff 1 = 0x50#8 && s.buff 2 = 0x54#8 && s.buff 3 = 0x53#8

/-- The first byte is dropped from the window. -/
def shift (s : ApeSync) : ApeSync :=
  { s with
    size := 3
    buff := fun i => if i = 0 then s.buff 1 else if i = 1 then s.buff 2 else if i = 2 then s.buff 3
      else s.buff i }

def readFrameSize (available : Nat) (s : ApeSync) :
    Int × ApeSync :=
  match s.read stream 0 4 available with
  | none => (0, s)
  | some s =>
    ((apeFrameSize charSigned (s.buff 0) (s.buff 1) (s.buff 2) (s.buff 3)).toInt,
      { s with size := 4, status := .frameSizeFound })

def findSyncWord (call : ApeCall) (s : ApeSync) :
    Int × ApeSync :=
  match s.nextByte stream call.window with
  | none => (0, s)
  | some s =>
    if s.size = 4 then
      if s.atSyncWord then
        readFrameSize charSigned stream call.frameSize
          { s with size := 0, status := .syncWordFound }
      else (0, s.shift)
    else (-1, s)

end ApeSync

open ApeSync

def getFrameSize (format : AudioFormat) (charSigned : Bool) (stream : Nat → BitVec 8)
    (call : ApeCall) (s : ApeSync) : Int × ApeSync :=
  let s := s.clear
  if format = .ape then
    match s.firstWindow stream call.window with
    | none => (0, s)
    | some s =>
      match s.status with
      | .syncWordStartFind => s.findSyncWord charSigned stream call
      | .syncWordFound => s.readFrameSize charSigned stream call.frameSize
      | _ => (-1, s)
  else (-1, s)

/-- The calls up to the one that finds a frame size, with its result. -/
def findFrameSize (charSigned : Bool) (stream : Nat → BitVec 8) : List ApeCall → ApeSync →
    Option (Int × ApeSync)
  | [], _ => none
  | call :: calls, s =>
    let r := getFrameSize .ape charSigned stream call s
    if r.2.status = .frameSizeFound then some r else findFrameSize charSigned stream calls r.2

variable (stream : Nat → BitVec 8)

/-- `audec` is cleared when it is made. -/
def ApeSync.start : ApeSync := ⟨fun _ => 0, 0, .syncWordNotGet, 0⟩

/-! ## What is to be found -/

def AptsAt (i : Nat) : Prop :=
  stream i = 0x41#8 ∧ stream (i + 1) = 0x50#8 ∧ stream (i + 2) = 0x54#8 ∧ stream (i + 3) = 0x53#8

instance (i : Nat) : Decidable (AptsAt stream i) :=
  inferInstanceAs (Decidable (_ ∧ _ ∧ _ ∧ _))

def FirstAptsAt (i : Nat) : Prop :=
  AptsAt stream i ∧ ∀ j < i, ¬ AptsAt stream j

instance (i : Nat) : Decidable (FirstAptsAt stream i) :=
  inferInstanceAs (Decidable (_ ∧ ∀ j < i, _))

/-- The number that four bytes stand for, the least first. -/
def bytesToNat (b0 b1 b2 b3 : BitVec 8) : Nat :=
  b0.toNat + b1.toNat * 2 ^ 8 + b2.toNat * 2 ^ 16 + b3.toNat * 2 ^ 24

def littleEndian32 (i : Nat) : Nat :=
  bytesToNat (stream i) (stream (i + 1)) (stream (i + 2)) (stream (i + 3))

/-- The number of bytes to read for a frame of size `n`. -/
def roundedSize (n : Nat) : Nat := (n + 8 + 3) / 4 * 4

/-- The bytes of a size for which `|` does what `+` would do. -/
def AddsUp (b0 b1 b2 : BitVec 8) : Prop :=
  if charSigned then b0.toNat < 128 ∧ b1.toNat < 128 ∧ b2.toNat < 128
  else b0.toNat < 248 ∨ b1.toNat % 2 = 0

/-- No read of the call delivers only a part of the bytes. Behind the first window single ones are
asked for. -/
def ApeCall.Complete (s : ApeSync) (call : ApeCall) : Prop :=
  (s.status = .syncWordNotGet → call.window = 0 ∨ 4 ≤ call.window) ∧
    (call.frameSize = 0 ∨ 4 ≤ call.frameSize)

def CompleteCalls (charSigned : Bool) (stream : Nat → BitVec 8) : List ApeCall → ApeSync → Prop
  | [], _ => True
  | call :: calls, s => call.Complete s ∧ CompleteCalls charSigned stream calls
      (getFrameSize .ape charSigned stream call s).2

def ApeCall.ready (call : ApeCall) : Bool := 0 < call.window && 0 < call.frameSize

/-! ## The size -/

theorem or_shiftLeft_eq (a : Nat) {b i : Nat} (hb : b < 2 ^ i) : a <<< i ||| b = a * 2 ^ i + b := by
  rw [← Nat.shiftLeft_add_eq_or_of_lt hb, Nat.shiftLeft_eq]

theorem or_carry (a : Nat) {l : Nat} (hl : l < 256) :
    a <<< 8 ||| (256 + l) = if a % 2 = 0 then (a + 1) * 256 + l else a * 256 + l := by
  have hsplit : 256 + l = 1 <<< 8 ||| l := by
    rw [or_shiftLeft_eq 1 hl]
    rfl
  have hlow : a = (a / 2) <<< 1 ||| a % 2 := by
    have hmod : a % 2 < 2 ^ 1 := Nat.mod_lt a (by decide)
    rw [or_shiftLeft_eq (a / 2) hmod]
    omega
  have hone : a ||| 1 = if a % 2 = 0 then a + 1 else a := by
    split
    · next heven =>
      rw [heven, Nat.or_zero] at hlow
      rw [hlow, or_shiftLeft_eq (a / 2) (by decide), Nat.shiftLeft_eq]
    · next hodd =>
      have hmod : a % 2 = 1 := by omega
      rw [hmod] at hlow
      rw [hlow, Nat.or_assoc, Nat.or_self]
  rw [hsplit, ← Nat.or_assoc, ← Nat.shiftLeft_or_distrib, or_shiftLeft_eq _ hl, hone]
  split <;> rfl

theorem or_upper {n1 n2 n3 : Nat} (h1 : n1 < 256) (h2 : n2 < 256) :
    n3 <<< 24 ||| n2 <<< 16 ||| n1 <<< 8 = (n3 * 2 ^ 16 + n2 * 2 ^ 8 + n1) <<< 8 := by
  have h2' : n2 <<< 16 < 2 ^ 24 := by
    omega
  have h1' : n1 <<< 8 < 2 ^ 16 := by
    omega
  have hfirst : n3 <<< 24 ||| n2 <<< 16 = (n3 * 2 ^ 8 + n2) <<< 16 := by
    rw [or_shiftLeft_eq n3 h2', Nat.shiftLeft_eq, Nat.shiftLeft_eq]
    omega
  rw [hfirst, or_shiftLeft_eq _ h1', Nat.shiftLeft_eq, Nat.shiftLeft_eq]
  omega

theorem toNat_and_not_three (x : BitVec 32) : (x &&& ~~~3#32).toNat = x.toNat / 4 * 4 := by
  have hshift : x &&& ~~~3#32 = x >>> 2 <<< 2 := by
    have hmask : ∀ i : Fin 32, (4294967292#32)[i.val] = !decide (i.val < 2) := by decide
    ext i hi
    simp only [BitVec.reduceNot, BitVec.getElem_and, hmask ⟨i, hi⟩, BitVec.getElem_shiftLeft]
    by_cases hlow : i < 2
    · simp [hlow]
    · simp [hlow, Nat.add_sub_of_le (Nat.not_lt.mp hlow), BitVec.getLsbD_eq_getElem hi]
  rw [hshift]
  simp
  omega

variable (charSigned : Bool)

theorem toNat_charToInt (b : BitVec 8) :
    (charToInt charSigned b).toNat =
      if charSigned && 128 ≤ b.toNat then b.toNat + (2 ^ 32 - 2 ^ 8) else b.toNat := by
  unfold charToInt
  cases charSigned with
  | false =>
    simp
    omega
  | true =>
    simp only [BitVec.toNat_signExtend, BitVec.msb_eq_decide, if_true]
    rw [BitVec.toNat_setWidth, Nat.mod_eq_of_lt (by omega)]
    split <;> simp_all

variable {b0 b1 b2 b3 : BitVec 8}

/-- Bytes that have no sign are put side by side, with the first one on top of the bit that its
carry goes to. -/
theorem joinBytes_eq {charSigned : Bool} {low : Nat}
    (hlow : (charToInt charSigned b0 + 8#32).toNat = low)
    (h1 : (charToInt charSigned b1).toNat = b1.toNat)
    (h2 : (charToInt charSigned b2).toNat = b2.toNat)
    (h3 : (charToInt charSigned b3).toNat = b3.toNat) :
    (joinBytes charSigned b0 b1 b2 b3).toNat =
      (b3.toNat * 2 ^ 16 + b2.toNat * 2 ^ 8 + b1.toNat) <<< 8 ||| low := by
  have hb1 := b1.isLt
  have hb2 := b2.isLt
  have hb3 := b3.isLt
  have hshift : ∀ n k : Nat, n < 256 → k ≤ 24 → n <<< k % 2 ^ 32 = n <<< k := by
    intro n k hn hk
    refine Nat.mod_eq_of_lt ?_
    rw [Nat.shiftLeft_eq]
    calc n * 2 ^ k ≤ n * 2 ^ 24 := Nat.mul_le_mul_left n (Nat.pow_le_pow_right (by decide) hk)
      _ < 2 ^ 32 := by omega
  simp only [joinBytes, BitVec.toNat_or, BitVec.toNat_shiftLeft, h1, h2, h3, hlow]
  rw [hshift _ 24 hb3 (by decide), hshift _ 16 hb2 (by decide), hshift _ 8 hb1 (by decide),
    or_upper hb1 hb2]

theorem joinBytes_unsigned (b0 b1 b2 b3 : BitVec 8) :
    AddsUp false b0 b1 b2 ∧ (joinBytes false b0 b1 b2 b3).toNat = bytesToNat b0 b1 b2 b3 + 8 ∨
      ¬ AddsUp false b0 b1 b2 ∧
        (joinBytes false b0 b1 b2 b3).toNat + 256 = bytesToNat b0 b1 b2 b3 + 8 := by
  have hchar : ∀ b : BitVec 8, (charToInt false b).toNat = b.toNat :=
    fun b => toNat_charToInt false b
  have hlow : (charToInt false b0 + 8#32).toNat = b0.toNat + 8 := by
    rw [BitVec.toNat_add, hchar]
    exact Nat.mod_eq_of_lt (by simp; omega)
  rw [joinBytes_eq hlow (hchar b1) (hchar b2) (hchar b3)]
  simp only [AddsUp, Bool.false_eq_true, if_false, bytesToNat]
  by_cases hcarry : b0.toNat < 248
  · rw [or_shiftLeft_eq _ (by omega : b0.toNat + 8 < 2 ^ 8)]
    omega
  · have hsplit : b0.toNat + 8 = 256 + (b0.toNat - 248) := by omega
    rw [hsplit, or_carry _ (by omega)]
    split <;> omega

theorem le_toNat_shiftLeft_charToInt {b : BitVec 8} (hb : 128 ≤ b.toNat) {k : Nat}
    (hk : k = 8 ∨ k = 16) : 2 ^ 31 ≤ (charToInt true b <<< k).toNat := by
  have hchar : (charToInt true b).toNat = b.toNat + (2 ^ 32 - 2 ^ 8) := by
    rw [toNat_charToInt]
    simp [hb]
  rw [BitVec.toNat_shiftLeft, hchar, Nat.shiftLeft_eq]
  rcases hk with rfl | rfl <;> omega

theorem joinBytes_signed (h3 : b3.toNat < 128) :
    AddsUp true b0 b1 b2 ∧ (joinBytes true b0 b1 b2 b3).toNat = bytesToNat b0 b1 b2 b3 + 8 ∨
      ¬ AddsUp true b0 b1 b2 ∧
        ((joinBytes true b0 b1 b2 b3).toNat + 256 = bytesToNat b0 b1 b2 b3 + 8 ∨
        2 ^ 31 ≤ (joinBytes true b0 b1 b2 b3).toNat) := by
  have hchar : ∀ {b : BitVec 8}, b.toNat < 128 → (charToInt true b).toNat = b.toNat := by
    intro b hb
    rw [toNat_charToInt]
    simp [hb]
  simp only [AddsUp, if_true]
  by_cases h2 : b2.toNat < 128
  · by_cases h1 : b1.toNat < 128
    · by_cases h0 : b0.toNat < 128
      · have hlow : (charToInt true b0 + 8#32).toNat = b0.toNat + 8 := by
          rw [BitVec.toNat_add, hchar h0]
          exact Nat.mod_eq_of_lt (by simp; omega)
        rw [joinBytes_eq hlow (hchar h1) (hchar h2) (hchar h3),
          or_shiftLeft_eq _ (by omega : b0.toNat + 8 < 2 ^ 8), bytesToNat]
        omega
      · have hlow : (charToInt true b0 + 8#32).toNat =
            (b0.toNat + (2 ^ 32 - 2 ^ 8) + 8) % 2 ^ 32 := by
          rw [BitVec.toNat_add, toNat_charToInt]
          simp [Nat.not_lt.mp h0]
        rw [joinBytes_eq hlow (hchar h1) (hchar h2) (hchar h3)]
        by_cases hcarry : b0.toNat < 248
        -- The first byte is still negative after 8 was added.
        · refine .inr ⟨fun h => h0 h.1, .inr (Nat.le_trans ?_ Nat.right_le_or)⟩
          omega
        · have hmod : (b0.toNat + (2 ^ 32 - 2 ^ 8) + 8) % 2 ^ 32 = b0.toNat - 248 := by omega
          rw [hmod, or_shiftLeft_eq _ (by omega : b0.toNat - 248 < 2 ^ 8), bytesToNat]
          omega
    · have hle := le_toNat_shiftLeft_charToInt (Nat.not_lt.mp h1) (.inl rfl)
      refine .inr ⟨fun h => h1 h.2.1, .inr (hle.trans ?_)⟩
      exact Nat.right_le_or.trans Nat.left_le_or
  · have hle := le_toNat_shiftLeft_charToInt (Nat.not_lt.mp h2) (.inr rfl)
    refine .inr ⟨fun h => h2 h.2.2, .inr (hle.trans ?_)⟩
    exact (Nat.right_le_or.trans Nat.left_le_or).trans Nat.left_le_or

theorem toInt_apeFrameSize_iff (hfits : roundedSize (bytesToNat b0 b1 b2 b3) < 2 ^ 31) :
    (apeFrameSize charSigned b0 b1 b2 b3).toInt = roundedSize (bytesToNat b0 b1 b2 b3) ↔
      AddsUp charSigned b0 b1 b2 := by
  have h3 : b3.toNat < 128 := by
    unfold roundedSize bytesToNat at hfits
    omega
  have hcases : AddsUp charSigned b0 b1 b2 ∧
        (joinBytes charSigned b0 b1 b2 b3).toNat = bytesToNat b0 b1 b2 b3 + 8 ∨
      ¬ AddsUp charSigned b0 b1 b2 ∧
        ((joinBytes charSigned b0 b1 b2 b3).toNat + 256 = bytesToNat b0 b1 b2 b3 + 8 ∨
          2 ^ 31 ≤ (joinBytes charSigned b0 b1 b2 b3).toNat) := by
    cases charSigned with
    | false => exact (joinBytes_unsigned b0 b1 b2 b3).imp_right fun h => ⟨h.1, .inl h.2⟩
    | true => exact joinBytes_signed h3
  have hsize : (apeFrameSize charSigned b0 b1 b2 b3).toNat =
      ((joinBytes charSigned b0 b1 b2 b3).toNat + 3) % 2 ^ 32 / 4 * 4 := by
    rw [apeFrameSize, toNat_and_not_three, BitVec.toNat_add]
    rfl
  rw [BitVec.toInt_eq_toNat_cond, hsize]
  unfold roundedSize at hfits ⊢
  rcases hcases with ⟨hadds, hjoin'⟩ | ⟨hadds, hjoin' | hjoin'⟩
  · simp only [hadds, iff_true]
    split <;> omega
  · simp only [hadds, iff_false]
    split <;> omega
  · simp only [hadds, iff_false]
    split <;> omega

/-! ## The window -/

namespace ApeSync

variable {stream : Nat → BitVec 8} {s s' : ApeSync} {call : ApeCall}

/-- Between two calls the window holds the last three bytes, and the word was not in any window
before; or the word was just read, or the size. -/
def Inv (stream : Nat → BitVec 8) (s : ApeSync) : Prop :=
  match s.status with
  | .syncWordNotGet => s.pos = 0
  | .syncWordStartFind =>
    s.size = 3 ∧ ∃ i, s.pos = i + 4 ∧ (∀ k < 3, s.buff k = stream (i + 1 + k)) ∧
      ∀ j ≤ i, ¬ AptsAt stream j
  | .syncWordFound => ∃ i, s.pos = i + 4 ∧ FirstAptsAt stream i
  | .frameSizeFound => ∃ i, s.pos = i + 8 ∧ FirstAptsAt stream i

variable {available : Nat}

theorem read_spec (s : ApeSync) (stream : Nat → BitVec 8) (offset size : Nat) (hsize : 0 < size)
    (h : available = 0 ∨ size ≤ available) :
    available = 0 ∧ s.read stream offset size available = none ∨
      size ≤ available ∧ s.read stream offset size available =
        some { s with
          buff := s.buff.store offset (slice stream s.pos size), pos := s.pos + size } := by
  unfold read readBuffer
  rcases h with rfl | h
  · exact .inl ⟨rfl, by simp⟩
  · refine .inr ⟨h, ?_⟩
    rw [Nat.min_eq_right h]
    simp [hsize.ne']

theorem store_slice_cell (m : Memory (BitVec 8)) (stream : Nat → BitVec 8) (offset pos : Nat)
    {n k : Nat} (hk : k < n) :
    m.store offset (slice stream pos n) (offset + k) = stream (pos + k) := by
  have hk' : k < (slice stream pos n).length := by rwa [length_slice]
  rw [store_inside m offset hk']
  have hcell : (slice stream pos n)[k]? = some (stream (pos + k)) := getElem?_slice stream hk
  rw [getElem?_eq_getElem hk'] at hcell
  exact Option.some.inj hcell

/-- The window holds the bytes from `i` on, and the word is not before them. -/
structure Window (stream : Nat → BitVec 8) (i : Nat) (s : ApeSync) : Prop where
  size : s.size = 4
  status : s.status = .syncWordStartFind
  pos : s.pos = i + 4
  bytes : ∀ k < 4, s.buff k = stream (i + k)
  before : ∀ j < i, ¬ AptsAt stream j

variable {i : Nat}

theorem Window.atSyncWord_iff (h : Window stream i s) : s.atSyncWord = true ↔ AptsAt stream i := by
  unfold atSyncWord AptsAt
  rw [h.bytes 0 (by decide), h.bytes 1 (by decide), h.bytes 2 (by decide), h.bytes 3 (by decide)]
  simp [and_assoc]

theorem Window.inv_shift (h : Window stream i s) (hnot : ¬ AptsAt stream i) :
    s.shift.Inv stream := by
  have hstatus : s.shift.status = .syncWordStartFind := h.status
  unfold Inv
  rw [hstatus]
  refine ⟨rfl, i, h.pos, ?_, ?_⟩
  · intro k hk
    have hbyte := h.bytes (k + 1) (by omega)
    rw [show i + 1 + k = i + (k + 1) by omega, ← hbyte]
    obtain rfl | rfl | rfl : k = 0 ∨ k = 1 ∨ k = 2 := by omega
    · rfl
    · rfl
    · rfl
  · intro j hj
    rcases Nat.lt_or_eq_of_le hj with hlt | rfl
    · exact h.before j hlt
    · exact hnot

/-- What a call can come to from a state, with `i` for the position of the window that it looks
at. -/
structure Missed (stream : Nat → BitVec 8) (i : Nat) (r : Int × ApeSync) : Prop where
  inv : r.2.Inv stream
  status : r.2.status = .syncWordStartFind
  pos : r.2.pos = i + 4
  not : ¬ AptsAt stream i

structure FoundWord (stream : Nat → BitVec 8) (i : Nat) (r : Int × ApeSync) : Prop where
  first : FirstAptsAt stream i
  status : r.2.status = .syncWordFound
  pos : r.2.pos = i + 4

structure FoundSize (charSigned : Bool) (stream : Nat → BitVec 8) (i : Nat) (r : Int × ApeSync) :
    Prop where
  first : FirstAptsAt stream i
  status : r.2.status = .frameSizeFound
  pos : r.2.pos = i + 8
  size : r.1 = (apeFrameSize charSigned (stream (i + 4)) (stream (i + 4 + 1)) (stream (i + 4 + 2))
    (stream (i + 4 + 3))).toInt

variable (charSigned : Bool)

theorem readFrameSize_cases (hstatus : s.status = .syncWordFound) (hpos : s.pos = i + 4)
    (hfirst : FirstAptsAt stream i) (h : available = 0 ∨ 4 ≤ available) :
    available = 0 ∧ FoundWord stream i (s.readFrameSize charSigned stream available) ∨
      FoundSize charSigned stream i (s.readFrameSize charSigned stream available) := by
  unfold readFrameSize
  rcases read_spec s stream 0 4 (by decide) h with ⟨hzero, hread⟩ | ⟨-, hread⟩
  · rw [hread]
    exact .inl ⟨hzero, hfirst, hstatus, hpos⟩
  · rw [hread]
    refine .inr ⟨hfirst, rfl, ?_, ?_⟩
    · show s.pos + 4 = i + 8
      rw [hpos]
    · have hcell : ∀ k < 4, s.buff.store 0 (slice stream s.pos 4) k = stream (i + 4 + k) := by
        intro k hk
        have hstored := store_slice_cell s.buff stream 0 s.pos hk
        rw [Nat.zero_add] at hstored
        rw [hstored, hpos]
      dsimp only
      rw [hcell 0 (by decide), hcell 1 (by decide), hcell 2 (by decide), hcell 3 (by decide)]

theorem Window.examine_cases (h : Window stream i s)
    (hcall : call.frameSize = 0 ∨ 4 ≤ call.frameSize) {r : Int × ApeSync}
    (hr : r = if s.atSyncWord then
        readFrameSize charSigned stream call.frameSize
          { s with size := 0, status := .syncWordFound }
      else (0, s.shift)) :
    Missed stream i r ∨ call.frameSize = 0 ∧ FoundWord stream i r ∨
      FoundSize charSigned stream i r := by
  subst hr
  split
  · next hword =>
    exact .inr (readFrameSize_cases charSigned rfl h.pos
      ⟨h.atSyncWord_iff.mp hword, h.before⟩ hcall)
  · next hword =>
    have hnot : ¬ AptsAt stream i := fun hsync => hword (h.atSyncWord_iff.mpr hsync)
    exact .inl ⟨h.inv_shift hnot, h.status, h.pos, hnot⟩

def Next (s : ApeSync) (i : Nat) : Prop :=
  s.status = .syncWordNotGet ∧ i = 0 ∨ s.status = .syncWordStartFind ∧ s.pos = i + 3

/-- The call could not read, and will be repeated. -/
structure Waits (stream : Nat → BitVec 8) (s : ApeSync) (r : Int × ApeSync) : Prop where
  inv : r.2.Inv stream
  status : r.2.status = s.status
  pos : r.2.pos = s.pos

theorem firstWindow_cases (hstatus : s.status = .syncWordNotGet) (hpos : s.pos = 0)
    (h : available = 0 ∨ 4 ≤ available) :
    available = 0 ∧ s.clear.firstWindow stream available = none ∨
      ∃ t, s.clear.firstWindow stream available = some t ∧ Window stream 0 t := by
  have hclear : s.clear = ⟨fun _ => 0, 0, .syncWordNotGet, 0⟩ := by
    rw [clear, if_pos (.inl hstatus), hpos]
  rw [hclear, firstWindow, if_pos rfl]
  rcases read_spec ⟨fun _ => 0, 0, .syncWordNotGet, 0⟩ stream 0 4 (by decide) h with
    ⟨hzero, hread⟩ | ⟨-, hread⟩
  · rw [hread]
    exact .inl ⟨hzero, rfl⟩
  · rw [hread]
    refine .inr ⟨_, rfl, rfl, rfl, rfl, ?_, fun j hj => absurd hj (Nat.not_lt_zero j)⟩
    intro k hk
    simpa using store_slice_cell (fun _ => 0) stream 0 0 hk

theorem nextByte_cases (hstatus : s.status = .syncWordStartFind) (hsize : s.size = 3)
    (hpos : s.pos = i + 4) (hbytes : ∀ k < 3, s.buff k = stream (i + 1 + k))
    (hbefore : ∀ j ≤ i, ¬ AptsAt stream j) (available : Nat) :
    available = 0 ∧ s.nextByte stream available = none ∨
      ∃ t, s.nextByte stream available = some t ∧ Window stream (i + 1) t := by
  rw [nextByte, hsize, if_pos (by decide)]
  rcases read_spec s stream 3 (4 - 3) (by decide) available.eq_zero_or_pos with
    ⟨hzero, hread⟩ | ⟨-, hread⟩
  · rw [hread]
    exact .inl ⟨hzero, rfl⟩
  · rw [hread]
    refine .inr ⟨_, rfl, rfl, hstatus, ?_, ?_, fun j hj => hbefore j (Nat.le_of_lt_succ hj)⟩
    · show s.pos + 1 = _
      rw [hpos]
    · intro k hk
      rcases Nat.lt_or_eq_of_le (Nat.le_of_lt_succ hk) with hlt | rfl
      · exact (store_of_lt s.buff _ hlt).trans (hbytes k hlt)
      · have hstored := store_slice_cell s.buff stream 3 s.pos (n := 4 - 3) (k := 0) (by decide)
        rw [hpos] at hstored
        show s.buff.store 3 (slice stream s.pos (4 - 3)) 3 = _
        rw [hpos]
        exact hstored.trans (congrArg stream (by omega))

theorem Window.findSyncWord_eq (h : Window stream i s) :
    s.findSyncWord charSigned stream call =
      if s.atSyncWord then
        readFrameSize charSigned stream call.frameSize
          { s with size := 0, status := .syncWordFound }
      else (0, s.shift) := by
  have hnext : s.nextByte stream call.window = some s := by
    rw [nextByte, h.size, if_neg (by decide)]
  rw [findSyncWord, hnext]
  dsimp only
  rw [if_pos h.size]

theorem Next.examined {i : Nat} {r : Int × ApeSync} (hnext : Next s i)
    (h : Missed stream i r ∨ call.frameSize = 0 ∧ FoundWord stream i r ∨
      FoundSize charSigned stream i r) :
    (∃ i, Next s i ∧ (Missed stream i r ∨ call.ready = false ∧ FoundWord stream i r)) ∨
      ∃ i, FoundSize charSigned stream i r := by
  rcases h with hmissed | ⟨hzero, hword⟩ | hsize
  · exact .inl ⟨i, hnext, .inl hmissed⟩
  · exact .inl ⟨i, hnext, .inr ⟨by simp [ApeCall.ready, hzero], hword⟩⟩
  · exact .inr ⟨i, hsize⟩

theorem getFrameSize_cases (hinv : s.Inv stream) (hs : s.status ≠ .frameSizeFound)
    (hcall : call.Complete s) {r : Int × ApeSync}
    (hr : r = getFrameSize .ape charSigned stream call s) :
    call.ready = false ∧ Waits stream s r ∨
      (∃ i, Next s i ∧ (Missed stream i r ∨ call.ready = false ∧ FoundWord stream i r)) ∨
      ∃ i, FoundSize charSigned stream i r := by
  have hwindow : call.window = 0 → call.ready = false := fun h => by simp [ApeCall.ready, h]
  have hsame : s.status ≠ .syncWordNotGet → s.clear = s ∧
      s.firstWindow stream call.window = some s :=
    fun h => ⟨if_neg fun hor => hor.elim h hs, if_neg h⟩
  have hinv' := hinv
  unfold getFrameSize at hr
  rw [if_pos rfl] at hr
  unfold Inv at hinv'
  cases hstatus : s.status with
  | syncWordNotGet =>
    rw [hstatus] at hinv'
    rcases firstWindow_cases hstatus hinv' (hcall.1 hstatus) with ⟨hzero, hnone⟩ | ⟨t, ht, hfull⟩
    · rw [hnone] at hr
      have hclear : s.clear = ⟨fun _ => 0, 0, .syncWordNotGet, 0⟩ := by
        rw [clear, if_pos (.inl hstatus), hinv']
      rw [hclear] at hr
      subst hr
      exact .inl ⟨hwindow hzero, ⟨rfl, hstatus.symm, hinv'.symm⟩⟩
    · rw [ht] at hr
      dsimp only at hr
      rw [hfull.status] at hr
      rw [hfull.findSyncWord_eq] at hr
      have hnext : Next s 0 := .inl ⟨hstatus, rfl⟩
      exact .inr (hnext.examined charSigned (hfull.examine_cases charSigned hcall.2 hr))
  | syncWordStartFind =>
    obtain ⟨hclear, hfirst⟩ := hsame (by rw [hstatus]; decide)
    rw [hclear, hfirst] at hr
    dsimp only at hr
    rw [hstatus] at hr hinv'
    obtain ⟨hsize, i, hpos, hbytes, hbefore⟩ := hinv'
    unfold findSyncWord at hr
    rcases nextByte_cases hstatus hsize hpos hbytes hbefore call.window with
      ⟨hzero, hnone⟩ | ⟨t, ht, hfull⟩
    · rw [hnone] at hr
      subst hr
      exact .inl ⟨hwindow hzero, ⟨hinv, rfl, rfl⟩⟩
    · rw [ht] at hr
      dsimp only at hr
      rw [if_pos hfull.size] at hr
      have hnext : Next s (i + 1) := .inr ⟨hstatus, hpos⟩
      exact .inr (hnext.examined charSigned (hfull.examine_cases charSigned hcall.2 hr))
  | syncWordFound =>
    obtain ⟨hclear, hfirst⟩ := hsame (by rw [hstatus]; decide)
    rw [hclear, hfirst] at hr
    dsimp only at hr
    rw [hstatus] at hr hinv'
    obtain ⟨i, hpos, hsync⟩ := hinv'
    dsimp only at hr
    rcases readFrameSize_cases charSigned hstatus hpos hsync hcall.2 with ⟨hzero, hword⟩ | hsize
    · rw [← hr] at hword
      refine .inl ⟨by simp [ApeCall.ready, hzero], ?_, ?_, ?_⟩
      · unfold Inv
        rw [hword.status]
        exact ⟨i, hword.pos, hsync⟩
      · rw [hword.status, hstatus]
      · rw [hword.pos, hpos]
    · rw [← hr] at hsize
      exact .inr (.inr ⟨i, hsize⟩)
  | frameSizeFound => exact absurd hstatus hs

/-! ## Searches -/

/-- How many calls with all bytes are still needed for a word at `i`. -/
def remaining (i : Nat) (s : ApeSync) : Nat :=
  match s.status with
  | .syncWordNotGet => i + 2
  | .syncWordStartFind => i + 5 - s.pos
  | .syncWordFound => 1
  | .frameSizeFound => 0

end ApeSync

variable {stream : Nat → BitVec 8}

theorem FirstAptsAt.unique {i j : Nat} (hi : FirstAptsAt stream i) (hj : FirstAptsAt stream j) :
    i = j := by
  rcases Nat.lt_trichotomy i j with hlt | heq | hgt
  · exact absurd hi.1 (hj.2 i hlt)
  · exact heq
  · exact absurd hj.1 (hi.2 j hgt)

namespace ApeSync

variable {stream : Nat → BitVec 8} {s : ApeSync} {call : ApeCall}

theorem Inv.pos_lt {i : Nat} (hinv : s.Inv stream) (hstatus : s.status = .syncWordStartFind)
    (hfirst : FirstAptsAt stream i) : s.pos < i + 4 := by
  unfold Inv at hinv
  rw [hstatus] at hinv
  obtain ⟨-, k, hk, -, hbefore⟩ := hinv
  refine Nat.lt_of_not_le fun hle => hbefore i ?_ hfirst.1
  omega

theorem Inv.remaining_pos {i : Nat} (hinv : s.Inv stream) (hs : s.status ≠ .frameSizeFound)
    (hfirst : FirstAptsAt stream i) : 0 < s.remaining i := by
  unfold remaining
  cases hstatus : s.status with
  | syncWordNotGet => exact Nat.succ_pos _
  | syncWordStartFind =>
    have hlt := hinv.pos_lt hstatus hfirst
    dsimp only
    omega
  | syncWordFound => exact Nat.one_pos
  | frameSizeFound => exact absurd hstatus hs

theorem getFrameSize_step {i : Nat} (hfirst : FirstAptsAt stream i)
    (hinv : s.Inv stream) (hs : s.status ≠ .frameSizeFound) (hcall : call.Complete s)
    {r : Int × ApeSync} (hr : r = getFrameSize .ape charSigned stream call s) :
    FoundSize charSigned stream i r ∨
      r.2.status ≠ .frameSizeFound ∧ r.2.Inv stream ∧
        r.2.remaining i + (if call.ready then 1 else 0) ≤ s.remaining i := by
  rcases getFrameSize_cases charSigned hinv hs hcall hr with
    ⟨hready, hwaits⟩ | ⟨j, hnext, hmissed | ⟨hready, hword⟩⟩ | ⟨j, hsize⟩
  · refine .inr ⟨by rw [hwaits.status]; exact hs, hwaits.inv, ?_⟩
    rw [remaining, remaining, hwaits.status, hwaits.pos, hready]
    exact Nat.le_refl _
  · have hlt := hmissed.inv.pos_lt hmissed.status hfirst
    rw [hmissed.pos] at hlt
    have hone : (if call.ready then 1 else 0) ≤ 1 := by split <;> decide
    refine .inr ⟨by rw [hmissed.status]; decide, hmissed.inv, ?_⟩
    rcases hnext with ⟨hstatus, hj⟩ | ⟨hstatus, hpos⟩
    · rw [remaining, remaining, hmissed.status, hmissed.pos, hstatus]
      dsimp only
      omega
    · rw [remaining, remaining, hmissed.status, hmissed.pos, hstatus, hpos]
      dsimp only
      omega
  · cases hword.first.unique hfirst
    refine .inr ⟨by rw [hword.status]; decide, ?_, ?_⟩
    · unfold Inv
      rw [hword.status]
      exact ⟨i, hword.pos, hfirst⟩
    · rw [hready, if_neg (by decide)]
      rcases hnext with ⟨hstatus, -⟩ | ⟨hstatus, hpos⟩
      · rw [remaining, remaining, hword.status, hstatus]
        exact Nat.le_add_left 1 (i + 1)
      · rw [remaining, remaining, hword.status, hstatus, hpos]
        dsimp only
        omega
  · cases hsize.first.unique hfirst
    exact .inl hsize

theorem getFrameSize_step_of_none (hnone : ∀ i, ¬ AptsAt stream i)
    (hinv : s.Inv stream) (hs : s.status ≠ .frameSizeFound) (hcall : call.Complete s)
    {r : Int × ApeSync} (hr : r = getFrameSize .ape charSigned stream call s) :
    r.2.status ≠ .frameSizeFound ∧ r.2.Inv stream := by
  rcases getFrameSize_cases charSigned hinv hs hcall hr with
    ⟨-, hwaits⟩ | ⟨j, -, hmissed | ⟨-, hword⟩⟩ | ⟨j, hsize⟩
  · exact ⟨by rw [hwaits.status]; exact hs, hwaits.inv⟩
  · exact ⟨by rw [hmissed.status]; decide, hmissed.inv⟩
  · exact absurd hword.first.1 (hnone j)
  · exact absurd hsize.first.1 (hnone j)

end ApeSync

/-- A search finds the size behind the first word, and it does so when enough calls have had all
bytes. -/
theorem findFrameSize_spec {i : Nat} (hfirst : FirstAptsAt stream i) (calls : List ApeCall) :
    ∀ {s : ApeSync}, CompleteCalls charSigned stream calls s → s.Inv stream →
    s.status ≠ .frameSizeFound →
      (∀ r, findFrameSize charSigned stream calls s = some r → FoundSize charSigned stream i r) ∧
        (s.remaining i ≤ calls.countP ApeCall.ready →
          findFrameSize charSigned stream calls s ≠ none) := by
  induction calls with
  | nil =>
    intro s _ hinv hs
    refine ⟨fun r hr => absurd hr (by simp [findFrameSize]), fun hzero => ?_⟩
    exact absurd (hinv.remaining_pos hs hfirst) (Nat.not_lt.mpr hzero)
  | cons call calls ih =>
    intro s hcalls hinv hs
    have hstep := getFrameSize_step charSigned hfirst hinv hs hcalls.1 rfl
    unfold findFrameSize
    rcases hstep with hsize | ⟨hstatus, hinv', hremaining⟩
    · rw [if_pos hsize.status]
      exact ⟨fun r hr => Option.some.inj hr ▸ hsize, fun _ => by simp⟩
    · rw [if_neg hstatus]
      obtain ⟨hfound, hlive⟩ := ih hcalls.2 hinv' hstatus
      refine ⟨hfound, fun hcount => hlive ?_⟩
      rw [countP_cons] at hcount
      omega

theorem findFrameSize_eq_none (hnone : ∀ i, ¬ AptsAt stream i) (calls : List ApeCall) :
    ∀ {s : ApeSync}, CompleteCalls charSigned stream calls s → s.Inv stream →
    s.status ≠ .frameSizeFound →
      findFrameSize charSigned stream calls s = none := by
  induction calls with
  | nil => exact fun _ _ _ => rfl
  | cons call calls ih =>
    intro s hcalls hinv hs
    obtain ⟨hstatus, hinv'⟩ := getFrameSize_step_of_none charSigned hnone hinv hs hcalls.1 rfl
    unfold findFrameSize
    rw [if_neg hstatus]
    exact ih hcalls.2 hinv' hstatus

theorem ApeSync.inv_start (stream : Nat → BitVec 8) : start.Inv stream := rfl

/-- Without the word nothing is found. Otherwise the size behind the first word is found, wherever
it is, in at most `i + 2` calls that get all their bytes; and if it is a positive `int`, it is
returned if and only if the bytes add up. -/
theorem findFrameSize_iff (charSigned : Bool) (stream : Nat → BitVec 8) (calls : List ApeCall)
    (hcalls : CompleteCalls charSigned stream calls .start) :
    ((∀ i, ¬ AptsAt stream i) → findFrameSize charSigned stream calls .start = none) ∧
      ∀ i, FirstAptsAt stream i →
        (i + 2 ≤ calls.countP ApeCall.ready → findFrameSize charSigned stream calls .start ≠ none) ∧
        ∀ size s, findFrameSize charSigned stream calls .start = some (size, s) →
          s.pos = i + 8 ∧
            (roundedSize (littleEndian32 stream (i + 4)) < 2 ^ 31 →
              (size = roundedSize (littleEndian32 stream (i + 4)) ↔
                AddsUp charSigned (stream (i + 4)) (stream (i + 4 + 1)) (stream (i + 4 + 2)))) := by
  have hstart : start.status ≠ .frameSizeFound := by decide
  refine ⟨fun hnone =>
    findFrameSize_eq_none charSigned hnone calls hcalls (inv_start stream) hstart, ?_⟩
  intro i hfirst
  obtain ⟨hfound, hlive⟩ :=
    findFrameSize_spec charSigned hfirst calls hcalls (inv_start stream) hstart
  refine ⟨hlive, fun size s hs => ?_⟩
  have hsize := hfound (size, s) hs
  refine ⟨hsize.pos, fun hfits => ?_⟩
  have hvalue : size = _ := hsize.size
  rw [hvalue]
  exact toInt_apeFrameSize_iff charSigned hfits

/-- A byte, the word and the size 0x1f8, and then zeros. -/
def oddSizeStream (i : Nat) : BitVec 8 :=
  [0x00#8, 0x41#8, 0x50#8, 0x54#8, 0x53#8, 0xf8#8, 0x01#8].getD i 0

/-- The word is found behind one byte, after a call that gets nothing and one that gets a single
byte for the window; the returned size is another one. -/
theorem findFrameSize_oddSize : ∃ size s,
    findFrameSize false oddSizeStream [⟨4, 4⟩, ⟨0, 0⟩, ⟨1, 4⟩, ⟨4, 4⟩] .start = some (size, s) ∧
      s.pos = 9 ∧ size ≠ 512 := by
  have hcalls : CompleteCalls false oddSizeStream [⟨4, 4⟩, ⟨0, 0⟩, ⟨1, 4⟩, ⟨4, 4⟩] .start := by
    simp only [CompleteCalls, ApeCall.Complete]
    decide
  obtain ⟨hfound, hsize⟩ := (findFrameSize_iff false oddSizeStream _ hcalls).2 1 (by decide)
  obtain ⟨⟨size, s⟩, hs⟩ := Option.ne_none_iff_exists'.mp (hfound (by decide))
  obtain ⟨hpos, hiff⟩ := hsize size s hs
  exact ⟨size, s, hs, hpos, fun h => absurd ((hiff (by decide)).mp h) (by unfold AddsUp; decide)⟩

/-- The size is 504. With 8 added the first byte carries into a bit that is already set, or does not
carry as a signed `char`: 256 is returned. If the first read delivers three of four bytes, the word
at 1 is missed. -/
theorem apeSync_wrong :
    FirstAptsAt oddSizeStream 1 ∧ roundedSize (littleEndian32 oddSizeStream (1 + 4)) = 512 ∧
      (findFrameSize false oddSizeStream [⟨4, 4⟩, ⟨4, 4⟩] .start).map (·.1) = some 256 ∧
      (findFrameSize true oddSizeStream [⟨4, 4⟩, ⟨4, 4⟩] .start).map (·.1) = some 256 ∧
      (findFrameSize false oddSizeStream [⟨3, 4⟩, ⟨4, 4⟩, ⟨4, 4⟩, ⟨4, 4⟩, ⟨4, 4⟩] .start).map
        (·.1) = none := by
  decide

end AmlogicHal.Amadec

import AmlogicHal.Boot.Layout
import AmlogicHal.Lib.ShiftRegister

/-!
# The checksum of the control block

`CRC32` looks up a table that the first call builds. `Init` compares its result for the first 28
bytes of the block with the one that is stored behind them.

`crc32_detects`: every call computes the bitwise CRC-32, and no valid block stays valid if at most
32 bits in a row are changed. The bits of a byte are in the order in which the checksum takes them,
the lowest one first.
-/

namespace AmlogicHal.Boot

open ShiftRegister BitField BitVec

/-- The loop of `CRC32` over the bytes. -/
def crcByte (table : List (BitVec 32)) (ret : BitVec 32) (b : BitVec 8) : BitVec 32 :=
  (ret >>> 8) ^^^ table.getD ((ret ^^^ b.setWidth 32) &&& 0xFF#32).toNat 0

/-- `CRC32` with its static table: the result, and the table that is left. -/
def crc32Static (table : List (BitVec 32)) (buf : List (BitVec 8)) : BitVec 32 × List (BitVec 32) :=
  let table := if table.getD 1 0 = 0 then crcTable else table
  (~~~(buf.foldl (crcByte table) (-1)), table)

def crc32Calls : List (BitVec 32) → List (List (BitVec 8)) → List (BitVec 32)
  | _, [] => []
  | table, buf :: bufs => (crc32Static table buf).1 :: crc32Calls (crc32Static table buf).2 bufs

/-- The reflected CRC-32, bit by bit. -/
def crc32Bitwise (bits : List Bool) : BitVec 32 := ~~~(run 0xEDB88320#32 (-1) bits)

def bitsOf (buf : List (BitVec 8)) : List Bool := buf.flatMap fun b => (List.range 8).map b.getLsbD

/-! ## The table -/

theorem iterate_crcRound (k : Nat) (crc : BitVec 32) :
    crcRound^[k] crc = run 0xEDB88320#32 crc (List.replicate k false) := by
  induction k generalizing crc with
  | zero => rfl
  | succ k ih =>
    have hround : crcRound crc = shift 0xEDB88320#32 crc false := by
      unfold crcRound shift
      rw [and_one_eq_setWidth_ofBool_getLsbD]
      cases crc.getLsbD 0 <;> simp
    rw [Function.iterate_succ_apply, ih, hround]
    rfl

theorem getLsbD_byteMask (i : Nat) : (255#32).getLsbD i = decide (i < 8) := by
  rcases Nat.lt_or_ge i 32 with hlt | hge
  · revert i
    decide
  · rw [getLsbD_of_ge _ _ hge, decide_eq_false (by omega)]

theorem crcByte_eq (ret : BitVec 32) (b : BitVec 8) :
    crcByte crcTable ret b = run 0xEDB88320#32 ret ((List.range 8).map b.getLsbD) := by
  have hb : ∀ i ≥ 8, (b.setWidth 32).getLsbD i = false := fun i hi => by
    simp [getLsbD_of_ge b i hi]
  have hbits : (List.range 8).map b.getLsbD = (List.range 8).map (b.setWidth 32).getLsbD := rfl
  rw [hbits, run_bits _ _ _ 8 hb, crcByte]
  generalize b.setWidth 32 = v at hb ⊢
  -- the upper bits of the register only move down, and the table has what becomes of the lower ones
  let low := (ret ^^^ v) &&& 0xFF#32
  let high := ret ^^^ v ^^^ low
  have hentry : crcTable.getD low.toNat 0 = run 0xEDB88320#32 low (List.replicate 8 false) := by
    have hlt : low.toNat < 256 := Nat.lt_succ_of_le Nat.and_le_right
    simp [crcTable, hlt, iterate_crcRound]
  have hhigh : ret >>> 8 = high >>> 8 := by
    apply eq_of_getLsbD_eq
    intro i _
    have hi : ¬ 8 + i < 8 := Nat.not_lt.mpr (Nat.le_add_right 8 i)
    simp [high, low, hb (8 + i) (Nat.le_add_right 8 i), getLsbD_byteMask, hi]
  have hzero : ∀ i < 8, high.getLsbD i = false := by
    intro i hi
    simp [high, low, getLsbD_byteMask, hi]
  have hsum : ret ^^^ v = high ^^^ low := by simp [high, xor_assoc]
  calc ret >>> 8 ^^^ crcTable.getD low.toNat 0
    _ = high >>> 8 ^^^ run 0xEDB88320#32 low (List.replicate 8 false) := by rw [hhigh, hentry]
    _ = run 0xEDB88320#32 (ret ^^^ v) (List.replicate 8 false) := by
      rw [hsum]
      exact (run_xor _ high low (List.replicate 8 false) hzero).symm

theorem crc32_eq_bitwise (buf : List (BitVec 8)) : crc32 buf = crc32Bitwise (bitsOf buf) := by
  have hfold : ∀ ret, buf.foldl (crcByte crcTable) ret = run 0xEDB88320#32 ret (bitsOf buf) := by
    induction buf with
    | nil => exact fun _ => rfl
    | cons b buf ih =>
      intro ret
      rw [List.foldl_cons, ih, crcByte_eq]
      exact List.foldl_append.symm
  exact congrArg (~~~ ·) (hfold (-1))

variable {table : List (BitVec 32)} (htable : table = List.replicate 256 0 ∨ table = crcTable)
include htable

/-- A call finds the table empty or built, and leaves it built. -/
theorem crc32Static_eq (buf : List (BitVec 8)) : crc32Static table buf = (crc32 buf, crcTable) := by
  rcases htable with rfl | rfl
  · rfl
  · have hbuilt : ¬ crcTable.getD 1 0 = 0 := by decide +kernel
    rw [crc32Static, if_neg hbuilt]
    rfl

theorem crc32Calls_eq (bufs : List (List (BitVec 8))) :
    crc32Calls table bufs = bufs.map fun buf => crc32Bitwise (bitsOf buf) := by
  induction bufs generalizing table with
  | nil => rfl
  | cons buf bufs ih =>
    rw [crc32Calls, crc32Static_eq htable, ih (.inr rfl), List.map_cons, crc32_eq_bitwise]

omit htable

/-! ## The block -/

def blockBits (c : BootloaderControl) (first n : Nat) : List Bool :=
  (List.range n).map fun i => c.raw.getLsbD (first + i)

variable (c : BootloaderControl)

theorem blockBits_add (first m n : Nat) :
    blockBits c first (m + n) = blockBits c first m ++ blockBits c (first + m) n := by
  simp [blockBits, List.range_add, Nat.add_assoc]

theorem bitsOf_bytes (n : Nat) : bitsOf ((List.range n).map c.byte) = blockBits c 0 (8 * n) := by
  induction n with
  | zero => rfl
  | succ n ih =>
    have hbyte : (List.range 8).map (c.byte n).getLsbD = blockBits c (8 * n) 8 := by
      apply List.map_congr_left
      intro j hj
      simp [BootloaderControl.byte, getField, List.mem_range.mp hj]
    rw [List.range_succ (n := n), List.map_append, bitsOf, List.flatMap_append, ← bitsOf, ih,
      Nat.mul_add,
      blockBits_add, Nat.zero_add]
    simpa using hbyte

theorem lecrc_eq : bootloaderControlLECRC c = crc32Bitwise (blockBits c 0 224) := by
  rw [bootloaderControlLECRC, crc32_eq_bitwise, bitsOf_bytes]

variable {c c' : BootloaderControl} {k n : Nat}

/-- `Init` does not accept `c'`, in which bits of `c` in a row have been changed. -/
theorem burst_invalid (hlen : n ≤ 32) (hend : k + n ≤ 224)
    (hsame : ∀ i, ¬ (k ≤ i ∧ i < k + n) → c.raw.getLsbD i = c'.raw.getLsbD i) (hne : c ≠ c')
    (hvalid : c.CrcValid) : ¬ c'.CrcValid := by
  intro hvalid'
  have hcovered : ∀ first m, (∀ i < m, ¬ (k ≤ first + i ∧ first + i < k + n)) →
      blockBits c first m = blockBits c' first m := fun first m h =>
    List.map_congr_left fun i hi => hsame _ (h i (List.mem_range.mp hi))
  have hstored : c.crc32Le = c'.crc32Le := by
    apply BitVec.eq_of_getLsbD_eq
    intro i hi
    simp [BootloaderControl.crc32Le, getField, hsame (224 + i) (by omega)]
  have hcrc : crc32Bitwise (blockBits c 0 224) = crc32Bitwise (blockBits c' 0 224) := by
    rw [← lecrc_eq, ← lecrc_eq, ← hvalid, ← hvalid', hstored]
  have hsplit : 224 = k + n + (224 - (k + n)) := by omega
  rw [hsplit, crc32Bitwise, crc32Bitwise, BitVec.not_inj] at hcrc
  simp only [blockBits_add, run, List.foldl_append] at hcrc
  rw [hcovered 0 k (by omega), hcovered (0 + (k + n)) _ (by omega)] at hcrc
  have hburst :=
    (agree_of_run_eq (by decide) (by simp [blockBits]) (by simpa [blockBits] using hlen)
    (run_injective (by decide) hcrc)).2 rfl
  refine hne (congrArg BootloaderControl.mk (BitVec.eq_of_getLsbD_eq fun i hi => ?_))
  by_cases hi : k ≤ i ∧ i < k + n
  · have hbit := List.map_inj_left.mp hburst (i - k) (List.mem_range.mpr (by omega))
    rwa [show 0 + k + (i - k) = i by omega] at hbit
  · exact hsame i hi

theorem crc32_detects {table : List (BitVec 32)}
    (htable : table = List.replicate 256 0 ∨ table = crcTable)
    (bufs : List (List (BitVec 8))) (hlen : n ≤ 32) (hend : k + n ≤ 224)
    (hsame : ∀ i, ¬ (k ≤ i ∧ i < k + n) → c.raw.getLsbD i = c'.raw.getLsbD i) (hne : c ≠ c')
    (hvalid : c.CrcValid) :
    crc32Calls table bufs = bufs.map (fun buf => crc32Bitwise (bitsOf buf)) ∧ ¬ c'.CrcValid :=
  ⟨crc32Calls_eq htable bufs, burst_invalid hlen hend hsame hne hvalid⟩

/-- Two calls, the first of which builds the table, and one bit of a valid block that is turned. -/
theorem crc32_detects_bit :
    let c := BootloaderControl.updateCrc ⟨0⟩
    let bufs := [[0x31#8, 0x32#8], [0x33#8]]
    c.CrcValid ∧
      crc32Calls (List.replicate 256 0) bufs = bufs.map (fun buf => crc32Bitwise (bitsOf buf)) ∧
      ¬ (BootloaderControl.mk (c.raw ^^^ BitVec.twoPow 256 5)).CrcValid := by
  intro c bufs
  have hvalid : c.CrcValid := BootloaderControl.crcValid_updateCrc ⟨0⟩
  refine ⟨hvalid,
    crc32_detects (k := 5) (n := 1) (.inl rfl) bufs (by decide) (by decide) (fun i hi => ?_)
    (fun h => ?_) hvalid⟩
  · simp [show ¬ 5 = i by omega]
  · have hbit := congrArg (fun c => c.raw.getLsbD 5) h
    simp at hbit

end AmlogicHal.Boot

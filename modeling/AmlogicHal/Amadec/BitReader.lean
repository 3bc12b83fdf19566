import AmlogicHal.Amadec.DdpSource

/-!
# Runs of the bit reader

Calls of `bitstream_unprj` and `bitstream_skip` in any order. The reads give the bits of the words
in order, as long as the position in the word stays in its `short` (`reads_in_order`).
-/

namespace AmlogicHal.Amadec.Bitstream

inductive BitCall
  | unprj (numbits : Nat)
  | skip (numbits : Nat)

/-- `bitstream_skip` with the width of `bitptr`, a `short`. If the sum does not fit, it is negative:
no word is passed, and `bitptr` stays at that value. -/
def skipShort (n : Nat) (b : Bitstream) : Except Int Bitstream :=
  let bitptr := (BitVec.ofNat 16 (b.bitptr + n)).toInt
  if bitptr < 0 then .error bitptr else .ok (skipLoop { b with bitptr := bitptr.toNat })

def run : List BitCall → Bitstream → Except Int (List (BitVec 16) × Bitstream)
  | [], b => .ok ([], b)
  | .unprj n :: calls, b => (run calls (b.unprj n).2).map fun r => ((b.unprj n).1 :: r.1, r.2)
  | .skip n :: calls, b => b.skipShort n >>= run calls

/-- What the reads of the calls should give from bit `p` on. -/
def wanted (words : Nat → BitVec 16) : Nat → List BitCall → List (BitVec 16)
  | _, [] => []
  | p, .unprj n :: calls => bitsAt words p n :: wanted words (p + n) calls
  | p, .skip n :: calls => wanted words (p + n) calls

def BitCall.numbits : BitCall → Nat
  | .unprj n | .skip n => n

/-- The reads have 1 to 16 bits, and no skip from where it begins leaves the `short`. -/
def Fits : Nat → List BitCall → Prop
  | _, [] => True
  | p, .unprj n :: calls => (1 ≤ n ∧ n ≤ 16) ∧ Fits (p + n) calls
  | p, .skip n :: calls => p % 16 + n < 2 ^ 15 ∧ Fits (p + n) calls

variable (words : Nat → BitVec 16)

theorem skipShort_at {p n : Nat} (h : p % 16 + n < 2 ^ 15) :
    (readerAt words p).skipShort n = .ok (readerAt words (p + n)) := by
  have hshort : (BitVec.ofNat 16 (p % 16 + n)).toInt = (p % 16 + n : Nat) := by
    rw [BitVec.toInt_eq_toNat_of_lt] <;> simp <;> omega
  have hpos : 16 * (p / 16) + (p % 16 + n) = p + n := by omega
  simp only [skipShort, readerAt, hshort]
  rw [if_neg (by omega), Int.toNat_natCast, skipLoop_at, hpos]
  rfl

theorem run_at (calls : List BitCall) (p : Nat) (h : Fits p calls) :
    run calls (readerAt words p) =
      .ok (wanted words p calls, readerAt words (p + (calls.map BitCall.numbits).sum)) := by
  induction calls generalizing p with
  | nil => rfl
  | cons call calls ih =>
    cases call with
    | unprj n =>
      obtain ⟨⟨hpos, hn⟩, hrest⟩ := h
      rw [run, unprj_at words p hpos hn, ih (p + n) hrest, Nat.add_assoc]
      rfl
    | skip n =>
      obtain ⟨hshort, hrest⟩ := h
      rw [run, skipShort_at words hshort]
      exact (ih (p + n) hrest).trans (by rw [Nat.add_assoc]; rfl)

theorem reads_in_order {k : Nat} (hk : k < 16) {calls : List BitCall} (h : Fits k calls) :
    run calls (init words k) =
      .ok (wanted words k calls, readerAt words (k + (calls.map BitCall.numbits).sum)) := by
  have hinit : init words k = readerAt words k := by
    rw [init, readerAt, Nat.div_eq_of_lt hk, Nat.mod_eq_of_lt hk]
  rw [hinit, run_at words calls k h]

theorem reads_in_order_across :
    run [.unprj 16, .skip 40, .unprj 5] (init (BitVec.ofNat 16) 3) =
      .ok ([0, 3], readerAt (BitVec.ofNat 16) 64) :=
  reads_in_order (BitVec.ofNat 16) (by decide) ⟨by decide, by decide, by decide, trivial⟩

/-- A bit is read, and the longest skip follows: `bitptr` is -32768. -/
theorem longSkip_stays :
    run [.unprj 1, .skip 32767] (init (fun _ => 0) 0) = .error (-32768) := rfl

end AmlogicHal.Amadec.Bitstream

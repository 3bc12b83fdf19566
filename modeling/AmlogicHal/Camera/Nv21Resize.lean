import AmlogicHal.Lib.Traced
import Mathlib.Logic.Function.Basic

/-!
# The bilinear resize of NV21 frames

`CameraUtil::ReSizeNV21` hands a frame of the camera to `VT_resizeFrame_Video_opt2_lp`, which writes
it in another size. Each pixel of the destination is the weighted mean of four neighbours in the
source, whose position is a fixed-point product with nine fractional bits; only the choice of the
factors keeps them inside.

A frame is a luma plane and, behind it, a plane of Cb and Cr in turn with half as many rows:
`width * height * 3 / 2` bytes.

* `resizeFrameVideoOpt2Lp`, `reSizeNV21`: the code, as a computation that records each access.
* `resize_inBounds_iff`: the accesses are inside of the two frames if and only if the last chroma
  byte that is read is in the source (`ChromaFits`).
* `chromaFits_of_scale`: this is so if the destination is at most 1.99 times as large.
* `doubled_outOfBounds`: a frame of 4 by 4 pixels that is doubled.
-/

namespace AmlogicHal.Camera

open Traced

abbrev Byte := BitVec 8

inductive Access
  | read (address : Int)
  | write (address : Int)
deriving DecidableEq

structure ResizeState where
  memory : Int → Byte
  ptr8 : Int
  ptr8Cb : Int
  ptr8Cr : Int

inductive ImageFormat
  | none
  | rgb565
  | rgb888
  | yCbCr420Lp
  | yCbCr
  | yCbCr420FramePk
deriving DecidableEq

/-- `structConvImage`. The pointers are addresses, and zero is `NULL`. -/
structure ConvImage where
  uWidth : BitVec 32
  uHeight : BitVec 32
  uStride : BitVec 32
  eFormat : ImageFormat
  imgPtr : Int
  clrPtr : Int
  uOffset : BitVec 32

structure CropRect where
  x : BitVec 32
  y : BitVec 32
  uWidth : BitVec 32
  uHeight : BitVec 32

def bWeights : List (List (List Byte)) :=
  [[[64, 0, 0, 0], [56, 0, 0, 8], [48, 0, 0, 16], [40, 0, 0, 24],
    [32, 0, 0, 32], [24, 0, 0, 40], [16, 0, 0, 48], [8, 0, 0, 56]],
   [[56, 8, 0, 0], [49, 7, 1, 7], [42, 6, 2, 14], [35, 5, 3, 21],
    [28, 4, 4, 28], [21, 3, 5, 35], [14, 2, 6, 42], [7, 1, 7, 49]],
   [[48, 16, 0, 0], [42, 14, 2, 6], [36, 12, 4, 12], [30, 10, 6, 18],
    [24, 8, 8, 24], [18, 6, 10, 30], [12, 4, 12, 36], [6, 2, 14, 42]],
   [[40, 24, 0, 0], [35, 21, 3, 5], [30, 18, 6, 10], [25, 15, 9, 15],
    [20, 12, 12, 20], [15, 9, 15, 25], [10, 6, 18, 30], [5, 3, 21, 35]],
   [[32, 32, 0, 0], [28, 28, 4, 4], [24, 24, 8, 8], [20, 20, 12, 12],
    [16, 16, 16, 16], [12, 12, 20, 20], [8, 8, 24, 24], [4, 4, 28, 28]],
   [[24, 40, 0, 0], [21, 35, 5, 3], [18, 30, 10, 6], [15, 25, 15, 9],
    [12, 20, 20, 12], [9, 15, 25, 15], [6, 10, 30, 18], [3, 5, 35, 21]],
   [[16, 48, 0, 0], [14, 42, 6, 2], [12, 36, 12, 4], [10, 30, 18, 6],
    [8, 24, 24, 8], [6, 18, 30, 10], [4, 12, 36, 12], [2, 6, 42, 14]],
   [[8, 56, 0, 0], [7, 49, 7, 1], [6, 42, 14, 2], [5, 35, 21, 3],
    [4, 28, 28, 4], [3, 21, 35, 5], [2, 14, 42, 6], [1, 7, 49, 7]]]

/-- `bWeights[xf][yf][i]`, as it is multiplied. -/
def weight (xf yf i : Nat) : BitVec 16 := (((bWeights.getD xf []).getD yf []).getD i 0).setWidth 16

/-! ## The code -/

/-- The result of an `int` product. -/
def int32 (n : Int) : Int := n.bmod 0x100000000

/-- The integral part of a fixed-point product, `(mmUint16) ((mmUint32) (i * factor) >> 9)`. -/
def position (i factor : Nat) : Nat := i * factor % 0x100000000 / 512 % 0x10000

def fraction (i factor : Nat) : Nat := i * factor % 0x100000000 / 64 % 8

def load (address : Int) : Traced Access ResizeState Byte := do
  emit (.read address)
  read fun s => pure (s.memory address)

/-- The mean of four pixels: `first` and `second` are the addresses in the two rows, and the other
ones are `next` bytes behind. -/
def blend (xf yf : Nat) (first second next : Int) : Traced Access ResizeState Byte := do
  let in11 ← load first
  let in12 ← load (first + next)
  let in21 ← load second
  let in22 ← load (second + next)
  let accum :=
    weight xf yf 0 * in11.setWidth 16 + weight xf yf 1 * in12.setWidth 16 +
      weight xf yf 3 * in21.setWidth 16 + weight xf yf 2 * in22.setWidth 16
  pure ((accum >>> 6).setWidth 8)

def put (address : Int) (value : Byte) : Traced Access ResizeState Unit := do
  emit (.write address)
  modify fun s => { s with memory := Function.update s.memory address value }

def lumaPixel (row1 row2 : Int) (yf resizeFactorX col : Nat) : Traced Access ResizeState Unit := do
  let x := position col resizeFactorX
  let value ← blend (fraction col resizeFactorX) yf (row1 + x) (row2 + x) 1
  read fun s => put s.ptr8 value
  modify fun s => { s with ptr8 := s.ptr8 + 1 }

def lumaRow (i o : ConvImage) (codx : BitVec 32) (resizeFactorX resizeFactorY row : Nat) :
    Traced Access ResizeState Unit := do
  let inImgPtrY := i.imgPtr + i.uOffset.toInt
  let row1 := inImgPtrY + int32 (position row resizeFactorY * i.uStride.toInt)
  let row2 := row1 + i.uStride.toInt
  forRange (lumaPixel row1 row2 (fraction row resizeFactorY) resizeFactorX) codx.toNat
  modify fun s => { s with ptr8 := s.ptr8 + (o.uStride - codx).toNat }

/-- A pair of Cb and Cr. The source does the eight reads in another order. -/
def chromaPixel (row1 row2 : Int) (yf resizeFactorX col : Nat) :
    Traced Access ResizeState Unit := do
  let x := position col resizeFactorX
  let cb ← blend (fraction col resizeFactorX) yf (row1 + x * 2) (row2 + x * 2) 2
  let cr ← blend (fraction col resizeFactorX) yf (row1 + 1 + x * 2) (row2 + 1 + x * 2) 2
  read fun s => put s.ptr8Cb cb
  read fun s => put s.ptr8Cr cr
  modify fun s => { s with ptr8Cb := s.ptr8Cb + 2, ptr8Cr := s.ptr8Cr + 2 }

def chromaRow (i o : ConvImage) (codx : BitVec 32) (resizeFactorX resizeFactorY row : Nat) :
    Traced Access ResizeState Unit := do
  let inImgPtrU := i.clrPtr + i.uOffset.toInt.tdiv 2
  let row1 := inImgPtrU + int32 (position row resizeFactorY * i.uStride.toInt)
  let row2 := row1 + i.uStride.toInt
  forRange (chromaPixel row1 row2 (fraction row resizeFactorY) resizeFactorX) (codx.toNat / 2)
  modify fun s =>
    { s with
      ptr8Cb := s.ptr8Cb + (o.uStride - codx).toNat
      ptr8Cr := s.ptr8Cr + (o.uStride - codx).toNat }

def resizePlanes (i o : ConvImage) (crop : CropRect) (resizeFactorX resizeFactorY : Nat) :
    Traced Access ResizeState Unit := do
  let start := crop.x.toNat + (crop.y * o.uWidth).toNat
  modify fun s => { s with ptr8 := o.imgPtr + start }
  forRange (lumaRow i o crop.uWidth resizeFactorX resizeFactorY) crop.uHeight.toNat
  modify fun s => { s with ptr8Cb := o.clrPtr + start, ptr8Cr := o.clrPtr + start + 1 }
  forRange (chromaRow i o crop.uWidth resizeFactorX resizeFactorY) (crop.uHeight.toNat / 2)

/-- `VT_resizeFrame_Video_opt2_lp`, for a destination of at most 65535 pixels in both directions:
the counters have 16 bits, and the loops do not end for a larger one. -/
def resizeFrameVideoOpt2Lp (i o : ConvImage) (cropout : Option CropRect) :
    Traced Access ResizeState Bool :=
  if i.imgPtr = 0 ∨ o.imgPtr = 0 then pure false
  else
    let crop := cropout.getD ⟨0, 0, o.uWidth, o.uHeight⟩
    let idx := i.uWidth.toNat % 0x10000
    let idy := i.uHeight.toNat % 0x10000
    if idx < 1 ∨ idy < 1 ∨ i.uStride.toInt < 1 then pure false
    else
      let resizeFactorX := (idx - 1) * 512 / crop.uWidth.toNat
      let resizeFactorY := (idy - 1) * 512 / crop.uHeight.toNat
      if i.eFormat = .yCbCr420Lp ∧ o.eFormat = .yCbCr420Lp then do
        resizePlanes i o crop resizeFactorX resizeFactorY
        pure true
      else pure false

/-- The source frame of `ReSizeNV21`. -/
def input (src : Int) (inputWidth inputHeight : BitVec 32) : ConvImage where
  uWidth := inputWidth
  uHeight := inputHeight
  uStride := inputWidth
  eFormat := .yCbCr420Lp
  imgPtr := src
  clrPtr := src + (inputWidth * inputHeight).toNat
  uOffset := 0

/-- The destination frame of `ReSizeNV21`. -/
def output (img : Int) (width height stride : BitVec 32) : ConvImage where
  uWidth := width
  uHeight := height
  uStride := stride
  eFormat := .yCbCr420Lp
  imgPtr := img
  clrPtr := img + (stride * height).toNat
  uOffset := 0

/-- `CameraUtil::ReSizeNV21`. A failure is only logged. -/
def reSizeNV21 (src img : Int) (width height stride inputWidth inputHeight : BitVec 32) :
    Traced Access ResizeState Unit := do
  let _ ← resizeFrameVideoOpt2Lp (input src inputWidth inputHeight)
    (output img width height stride) none
  pure ()

/-! ## Positions -/

def InBounds (src srcSize img imgSize : Int) : Access → Prop
  | .read address => src ≤ address ∧ address < src + srcSize
  | .write address => img ≤ address ∧ address < img + imgSize

instance (src srcSize img imgSize : Int) (a : Access) :
    Decidable (InBounds src srcSize img imgSize a) :=
  match a with
  | .read _ => inferInstanceAs (Decidable (_ ∧ _))
  | .write _ => inferInstanceAs (Decidable (_ ∧ _))

/-- The last chroma position, in the direction in which the source has `s` pixels and the
destination `d`. -/
def lastChroma (s d : Nat) : Nat := (d / 2 - 1) * ((s - 1) * 512 / d) / 512

/-- The last pixel is blended from four ones, of two bytes each, in two rows of the chroma plane. -/
def ChromaFits (inputWidth inputHeight width height : Nat) : Prop :=
  (lastChroma inputHeight height + 1) * inputWidth + lastChroma inputWidth width * 2 + 3 <
    inputHeight / 2 * inputWidth

instance (inputWidth inputHeight width height : Nat) :
    Decidable (ChromaFits inputWidth inputHeight width height) :=
  inferInstanceAs (Decidable (_ < _))

def EvenSize (n : BitVec 32) : Prop := 2 ≤ n.toNat ∧ n.toNat ≤ 65534 ∧ n.toNat % 2 = 0

instance (n : BitVec 32) : Decidable (EvenSize n) := inferInstanceAs (Decidable (_ ∧ _))

variable {i s d : Nat}

theorem product_lt (hs : 2 ≤ s) (hi : i < d) : i * ((s - 1) * 512 / d) < (s - 1) * 512 := by
  rcases Nat.eq_zero_or_pos ((s - 1) * 512 / d) with hzero | hpos
  · rw [hzero]
    omega
  · calc i * ((s - 1) * 512 / d) < d * ((s - 1) * 512 / d) := Nat.mul_lt_mul_of_pos_right hi hpos
      _ ≤ (s - 1) * 512 := Nat.mul_div_le _ _

theorem position_eq (hs : 2 ≤ s ∧ s ≤ 65534) (hi : i < d) :
    position i ((s - 1) * 512 / d) = i * ((s - 1) * 512 / d) / 512 := by
  have hlt := product_lt hs.1 hi
  rw [position, Nat.mod_eq_of_lt (by omega : i * ((s - 1) * 512 / d) < 0x100000000),
    Nat.mod_eq_of_lt (by omega : i * ((s - 1) * 512 / d) / 512 < 0x10000)]

theorem luma_position_lt (hs : 2 ≤ s ∧ s ≤ 65534) (hi : i < d) :
    position i ((s - 1) * 512 / d) < s - 1 := by
  rw [position_eq hs hi]
  exact Nat.div_lt_of_lt_mul (Nat.mul_comm _ 512 ▸ product_lt hs.1 hi)

theorem chroma_position_le (hs : 2 ≤ s ∧ s ≤ 65534) (hi : i < d / 2) :
    position i ((s - 1) * 512 / d) ≤ lastChroma s d := by
  rw [position_eq hs (by omega)]
  exact Nat.div_le_div_right (Nat.mul_le_mul_right _ (Nat.le_sub_one_of_lt hi))

theorem lastChroma_of_scale (hs : s % 2 = 0) (hd : 2 ≤ d) (h : 257 * d ≤ 512 * (s - 1)) :
    lastChroma s d + 2 ≤ s / 2 := by
  have hfactor : 257 ≤ (s - 1) * 512 / d := (Nat.le_div_iff_mul_le (by omega)).mpr (by omega)
  have hdouble : 2 * (d / 2 * ((s - 1) * 512 / d)) ≤ (s - 1) * 512 :=
    calc 2 * (d / 2 * ((s - 1) * 512 / d)) = 2 * (d / 2) * ((s - 1) * 512 / d) :=
      (Nat.mul_assoc ..).symm
      _ ≤ d * ((s - 1) * 512 / d) := Nat.mul_le_mul_right _ (Nat.mul_div_le d 2)
      _ ≤ (s - 1) * 512 := Nat.mul_div_le _ _
  rw [lastChroma, Nat.sub_mul]
  omega

theorem chromaFits_of_scale {t e : Nat} (hs : s % 2 = 0) (hd : 2 ≤ d) (h : 257 * d ≤ 512 * (s - 1))
    (ht : t % 2 = 0) (he : 2 ≤ e) (h' : 257 * e ≤ 512 * (t - 1)) : ChromaFits s t d e := by
  have hx := lastChroma_of_scale hs hd h
  have hy := Nat.mul_le_mul_right s (lastChroma_of_scale ht he h')
  rw [Nat.add_mul] at hy
  rw [ChromaFits, Nat.add_mul]
  omega

/-! ## What the parts access -/

section

variable {P : Access → Prop} {s : ResizeState}

theorem blend_all (xf yf : Nat) (first second next : Int) :
    (blend xf yf first second next).All P s ↔
      P (.read first) ∧ P (.read (first + next)) ∧ P (.read second) ∧
        P (.read (second + next)) := by
  simp [blend, load]

theorem blend_st (xf yf : Nat) (first second next : Int) :
    ((blend xf yf first second next).run s).st = s := by
  simp [blend, load]

variable (row1 : Int)

variable (row2 : Int)

theorem lumaPixel_all (yf factor col : Nat) :
    (lumaPixel row1 row2 yf factor col).All P s ↔
      (P (.read (row1 + position col factor)) ∧ P (.read (row1 + position col factor + 1)) ∧
        P (.read (row2 + position col factor)) ∧ P (.read (row2 + position col factor + 1))) ∧
      P (.write s.ptr8) := by
  simp [lumaPixel, put, blend_all, blend_st]

theorem lumaPixel_ptr8 (yf factor col : Nat) :
    ((lumaPixel row1 row2 yf factor col).run s).st.ptr8 = s.ptr8 + 1 := by
  simp [lumaPixel, put, blend_st]

theorem chromaPixel_all (yf factor col : Nat) :
    (chromaPixel row1 row2 yf factor col).All P s ↔
      (P (.read (row1 + position col factor * 2)) ∧ P (.read (row1 + position col factor * 2 + 2)) ∧
        P (.read (row2 + position col factor * 2)) ∧
          P (.read (row2 + position col factor * 2 + 2))) ∧
      (P (.read (row1 + 1 + position col factor * 2)) ∧
        P (.read (row1 + 1 + position col factor * 2 + 2)) ∧
        P (.read (row2 + 1 + position col factor * 2)) ∧
          P (.read (row2 + 1 + position col factor * 2 + 2))) ∧
      P (.write s.ptr8Cb) ∧ P (.write s.ptr8Cr) := by
  simp [chromaPixel, put, blend_all, blend_st]

theorem chromaPixel_pointers (yf factor col : Nat) :
    ((chromaPixel row1 row2 yf factor col).run s).st.ptr8Cb = s.ptr8Cb + 2 ∧
      ((chromaPixel row1 row2 yf factor col).run s).st.ptr8Cr = s.ptr8Cr + 2 := by
  simp [chromaPixel, put, blend_st]

variable {i o : ConvImage} {codx : BitVec 32} {factorX factorY row : Nat} {start : Int}

theorem lumaRow_spec
    (hrow1 : i.imgPtr + i.uOffset.toInt + int32 (position row factorY * i.uStride.toInt) = row1)
    (hreads : ∀ col < codx.toNat, ∀ address : Int,
      row1 + position col factorX ≤ address → address ≤ row1 + position col factorX + 1 →
        P (.read address) ∧ P (.read (address + i.uStride.toInt)))
    (hwrites : ∀ col < codx.toNat, P (.write (start + col))) (hs : s.ptr8 = start) :
    (lumaRow i o codx factorX factorY row).All P s ∧
      ((lumaRow i o codx factorX factorY row).run s).st.ptr8 =
        start + codx.toNat + (o.uStride - codx).toNat := by
  have hloop := all_forRange_of_invariant (P := P) (I := fun col s => s.ptr8 = start + (col : Nat))
    (lumaPixel row1 (row1 + i.uStride.toInt) (fraction row factorY) factorX) codx.toNat
    (fun col hcol t ht => ?_) (hs.trans (Int.add_zero _).symm)
  · simp only [lumaRow, hrow1, all_bind, all_modify, and_true, run_bind, run_modify]
    exact ⟨hloop.1, congrArg (· + _) hloop.2⟩
  · obtain ⟨h11, h21⟩ := hreads col hcol _ (Int.le_refl _) (by omega)
    obtain ⟨h12, h22⟩ := hreads col hcol _ (by omega) (Int.le_refl _)
    rw [Int.add_right_comm] at h21
    rw [Int.add_right_comm _ 1, Int.add_right_comm row1] at h22
    refine ⟨(lumaPixel_all ..).mpr ⟨⟨h11, h12, h21, h22⟩, ht ▸ hwrites col hcol⟩, ?_⟩
    rw [lumaPixel_ptr8, ht, Int.natCast_succ, Int.add_assoc]

theorem chromaRow_spec
    (hrow1 : i.clrPtr + i.uOffset.toInt.tdiv 2 + int32
      (position row factorY * i.uStride.toInt) = row1)
    (hreads : ∀ col < codx.toNat / 2, ∀ address : Int,
      row1 + position col factorX * 2 ≤ address → address ≤ row1 + position col factorX * 2 + 3 →
        P (.read address) ∧ P (.read (address + i.uStride.toInt)))
    (hwrites : ∀ col < codx.toNat / 2, P (.write (start + (col * 2 : Nat))) ∧
      P (.write (start + (col * 2 : Nat) + 1)))
    (hs : s.ptr8Cb = start ∧ s.ptr8Cr = start + 1) :
    let r := (chromaRow i o codx factorX factorY row).run s
    (chromaRow i o codx factorX factorY row).All P s ∧
      r.st.ptr8Cb = start + (codx.toNat / 2 * 2 : Nat) + (o.uStride - codx).toNat ∧
      r.st.ptr8Cr = start + (codx.toNat / 2 * 2 : Nat) + 1 + (o.uStride - codx).toNat := by
  have hloop := all_forRange_of_invariant (P := P)
    (I := fun col s => s.ptr8Cb = start + (col * 2 : Nat) ∧ s.ptr8Cr = start + (col * 2 : Nat) + 1)
    (chromaPixel row1 (row1 + i.uStride.toInt) (fraction row factorY) factorX) (codx.toNat / 2)
    (fun col hcol t ht => ?_) (by simpa using hs)
  · simp only [chromaRow, hrow1, all_bind, all_modify, and_true, run_bind, run_modify]
    exact ⟨hloop.1, congrArg (· + _) hloop.2.1, congrArg (· + _) hloop.2.2⟩
  · have hread (k : Int) (hk : 0 ≤ k ∧ k ≤ 3) : P (.read (row1 + position col factorX * 2 + k)) ∧
        P (.read (row1 + i.uStride.toInt + position col factorX * 2 + k)) := by
      obtain ⟨hfirst, hsecond⟩ :=
        hreads col hcol (row1 + position col factorX * 2 + k) (by omega) (by omega)
      rw [Int.add_right_comm _ k, Int.add_right_comm row1] at hsecond
      exact ⟨hfirst, hsecond⟩
    obtain ⟨h11, h21⟩ := hread 0 (by decide)
    obtain ⟨h12, h22⟩ := hread 2 (by decide)
    obtain ⟨g11, g21⟩ := hread 1 (by decide)
    obtain ⟨g12, g22⟩ := hread 3 (by decide)
    rw [Int.add_zero] at h11 h21
    refine ⟨(chromaPixel_all ..).mpr ⟨⟨h11, h12, h21, h22⟩, ⟨?_, ?_, ?_, ?_⟩, ?_⟩, ?_⟩
    · rwa [Int.add_right_comm]
    · rwa [Int.add_right_comm row1 1, Int.add_assoc]
    · rwa [Int.add_right_comm _ 1]
    · rwa [Int.add_right_comm _ 1, Int.add_assoc]
    · rw [ht.1, ht.2]
      exact hwrites col hcol
    · obtain ⟨hcb, hcr⟩ := chromaPixel_pointers (s := t) row1 (row1 + i.uStride.toInt)
        (fraction row factorY) factorX col
      omega

end

/-! ## Frames that are resized -/

/-- Even sizes of the frames, and a destination whose rows are long enough. -/
structure Resizable (width height stride inputWidth inputHeight : BitVec 32) : Prop where
  evenWidth : EvenSize width
  evenHeight : EvenSize height
  width_le : width.toNat ≤ stride.toNat
  evenInputWidth : EvenSize inputWidth
  evenInputHeight : EvenSize inputHeight

def FrameBounds (src img : Int) (height stride inputWidth inputHeight : BitVec 32) :
    Access → Prop :=
  InBounds src (inputWidth.toNat * inputHeight.toNat * 3 / 2 : Nat) img
    (stride.toNat * height.toNat * 3 / 2 : Nat)

instance (src img : Int) (height stride inputWidth inputHeight : BitVec 32) (a : Access) :
    Decidable (FrameBounds src img height stride inputWidth inputHeight a) :=
  inferInstanceAs (Decidable (InBounds ..))

/-- `resizeFactorX` and `resizeFactorY`. -/
def resizeFactor (inputSize size : BitVec 32) : Nat := (inputSize.toNat - 1) * 512 / size.toNat

section

variable {src img : Int} {width height stride inputWidth inputHeight : BitVec 32} {s : ResizeState}

theorem int32_natCast {n : Nat} (h : n < 0x80000000) : int32 n = n := by
  rw [int32, Int.bmod_eq_of_le] <;> omega

theorem EvenSize.range {n : BitVec 32} (h : EvenSize n) : 2 ≤ n.toNat ∧ n.toNat ≤ 65534 :=
  ⟨h.1, h.2.1⟩

theorem toInt_of_evenSize {n : BitVec 32} (h : EvenSize n) : n.toInt = n.toNat := by
  rw [BitVec.toInt_eq_toNat_of_lt]
  have := h.2.1
  omega

theorem frame_size {w h : Nat} (heven : h % 2 = 0) : w * h * 3 / 2 = w * h + h / 2 * w := by
  have hhalf : w * h = 2 * (h / 2 * w) := by
    rw [← Nat.mul_assoc, Nat.mul_div_cancel' (Nat.dvd_of_mod_eq_zero heven), Nat.mul_comm]
  omega

theorem chroma_base (hplane : inputWidth.toNat * inputHeight.toNat ≤ 0x80000000) :
    (input src inputWidth inputHeight).clrPtr +
      (input src inputWidth inputHeight).uOffset.toInt.tdiv 2 =
      src + (inputWidth.toNat * inputHeight.toNat : Nat) := by
  have hoffset : (input src inputWidth inputHeight).uOffset.toInt.tdiv 2 = 0 := by
    show (0 : BitVec 32).toInt.tdiv 2 = 0
    decide
  have hproduct : (inputWidth * inputHeight).toNat = inputWidth.toNat * inputHeight.toNat := by
    exact Nat.mod_eq_of_lt (by omega)
  rw [hoffset, Int.add_zero, ← hproduct]
  rfl

theorem start_eq_zero (width : BitVec 32) :
    (0 : BitVec 32).toNat + ((0 : BitVec 32) * width).toNat = 0 := by
  show (0#32).toNat + (0#32 * width).toNat = 0
  rw [BitVec.zero_mul]
  rfl

variable (h : Resizable width height stride inputWidth inputHeight)

include h

theorem toNat_gap : (stride - width).toNat = stride.toNat - width.toNat :=
  BitVec.toNat_sub_of_le (BitVec.le_def.mpr h.width_le)

theorem reSizeNV21_all {P : Access → Prop} (hsrc : src ≠ 0) (himg : img ≠ 0) (s : ResizeState) :
    (reSizeNV21 src img width height stride inputWidth inputHeight).All P s ↔
      (resizePlanes (input src inputWidth inputHeight) (output img width height stride)
        ⟨0, 0, width, height⟩
        (resizeFactor inputWidth width) (resizeFactor inputHeight height)).All P s := by
  obtain ⟨hwpos, hwle, -⟩ := h.evenInputWidth
  obtain ⟨hhpos, hhle, -⟩ := h.evenInputHeight
  have hnull : ¬ ((input src inputWidth inputHeight).imgPtr = 0 ∨
      (output img width height stride).imgPtr = 0) :=
    not_or.mpr ⟨hsrc, himg⟩
  have hidx : (input src inputWidth inputHeight).uWidth.toNat % 0x10000 = inputWidth.toNat :=
    Nat.mod_eq_of_lt (Nat.lt_of_le_of_lt hwle (by decide))
  have hidy : (input src inputWidth inputHeight).uHeight.toNat % 0x10000 = inputHeight.toNat :=
    Nat.mod_eq_of_lt (Nat.lt_of_le_of_lt hhle (by decide))
  have hstride : (input src inputWidth inputHeight).uStride.toInt = inputWidth.toNat :=
    toInt_of_evenSize h.evenInputWidth
  have hvalid : ¬ (inputWidth.toNat < 1 ∨ inputHeight.toNat < 1 ∨
      (inputWidth.toNat : Int) < 1) := by omega
  have hformat : (input src inputWidth inputHeight).eFormat = .yCbCr420Lp ∧
      (output img width height stride).eFormat = .yCbCr420Lp := ⟨rfl, rfl⟩
  rw [reSizeNV21, resizeFrameVideoOpt2Lp, if_neg hnull]
  rw [hidx, hidy, hstride, if_neg hvalid, if_pos hformat]
  simp only [all_bind, all_pure, and_true]
  rfl

variable (hplane : inputWidth.toNat * inputHeight.toNat ≤ 0x80000000)

include hplane

theorem row_offset {y : Nat} (hy : y < inputHeight.toNat) :
    int32 (y * inputWidth.toInt) = (y * inputWidth.toNat : Nat) := by
  have hlt : y * inputWidth.toNat < inputHeight.toNat * inputWidth.toNat :=
    Nat.mul_lt_mul_of_pos_right hy (Nat.lt_of_lt_of_le Nat.two_pos h.evenInputWidth.1)
  rw [Nat.mul_comm] at hplane
  rw [toInt_of_evenSize h.evenInputWidth, ← Int.natCast_mul]
  exact int32_natCast (Nat.lt_of_lt_of_le hlt hplane)

theorem lumaRow_inBounds {row : Nat} (hrow : row < height.toNat)
    (hs : s.ptr8 = img + (row * stride.toNat : Nat)) :
    let x := lumaRow (input src inputWidth inputHeight) (output img width height stride) width
      (resizeFactor inputWidth width) (resizeFactor inputHeight height) row
    x.All (FrameBounds src img height stride inputWidth inputHeight) s ∧
      (x.run s).st.ptr8 = img + ((row + 1) * stride.toNat : Nat) := by
  have hy := luma_position_lt h.evenInputHeight.range hrow
  rw [← resizeFactor] at hy
  have hoffset := row_offset h hplane (Nat.lt_of_lt_pred hy)
  have hstride : (input src inputWidth inputHeight).uStride.toInt = inputWidth.toNat :=
    toInt_of_evenSize h.evenInputWidth
  have hwidth := h.width_le
  generalize hyp : position row _ = y at hy hoffset
  -- the two rows that are read, and the row that is written, are in their planes
  have hrows : (y + 2) * inputWidth.toNat ≤ inputHeight.toNat * inputWidth.toNat :=
    Nat.mul_le_mul_right _ (by omega)
  have hwritten : (row + 1) * stride.toNat ≤ height.toNat * stride.toNat :=
    Nat.mul_le_mul_right _ hrow
  rw [Nat.add_mul, Nat.mul_comm inputHeight.toNat] at hrows
  rw [Nat.succ_mul, Nat.mul_comm height.toNat] at hwritten
  refine And.imp_right (fun hend => hend.trans ?_)
    (lumaRow_spec (src + (y * inputWidth.toNat : Nat)) ?_ ?_ ?_ hs)
  · show src + 0 + int32 (position row (resizeFactor inputHeight height) * inputWidth.toInt) = _
    rw [hyp, hoffset, Int.add_zero]
  · intro col hcol address hle hge
    have hx := luma_position_lt h.evenInputWidth.range hcol
    rw [← resizeFactor] at hx
    refine ⟨⟨?_, ?_⟩, ?_, ?_⟩ <;> omega
  · intro col hcol
    refine ⟨?_, ?_⟩ <;> omega
  · show _ + ((stride - width).toNat : Int) = _
    rw [toNat_gap h, Nat.succ_mul]
    omega

section

variable (hfits : ChromaFits inputWidth.toNat inputHeight.toNat width.toNat height.toNat)

include hfits

theorem chromaRow_inBounds {row : Nat} (hrow : row < height.toNat / 2)
    (hs : s.ptr8Cb = img + (stride * height).toNat + (row * stride.toNat : Nat) ∧
      s.ptr8Cr = img + (stride * height).toNat + (row * stride.toNat : Nat) + 1) :
    let x := chromaRow (input src inputWidth inputHeight) (output img width height stride) width
      (resizeFactor inputWidth width) (resizeFactor inputHeight height) row
    x.All (FrameBounds src img height stride inputWidth inputHeight) s ∧
      (x.run s).st.ptr8Cb = img + (stride * height).toNat + ((row + 1) * stride.toNat : Nat) ∧
      (x.run s).st.ptr8Cr =
        img + (stride * height).toNat + ((row + 1) * stride.toNat : Nat) + 1 := by
  have hy := chroma_position_le h.evenInputHeight.range hrow
  have hoffset := row_offset h hplane (Nat.lt_of_lt_pred
    (luma_position_lt h.evenInputHeight.range (show row < height.toNat by omega)))
  rw [← resizeFactor] at hy hoffset
  have hstride : (input src inputWidth inputHeight).uStride.toInt = inputWidth.toNat :=
    toInt_of_evenSize h.evenInputWidth
  have hwidth := h.width_le
  have heven := h.evenWidth.2.2
  have hbase : (stride * height).toNat ≤ stride.toNat * height.toNat := by
    exact Nat.mod_le _ _
  generalize hyp : position row _ = y at hy hoffset
  have hrows : (y + 1) * inputWidth.toNat ≤
      (lastChroma inputHeight.toNat height.toNat + 1) * inputWidth.toNat :=
    Nat.mul_le_mul_right _ (by omega)
  have hwritten : (row + 1) * stride.toNat ≤ height.toNat / 2 * stride.toNat :=
    Nat.mul_le_mul_right _ hrow
  rw [Nat.succ_mul] at hrows hwritten
  unfold ChromaFits at hfits
  refine And.imp_right (fun hend => And.imp (·.trans ?_) (·.trans ?_) hend) (chromaRow_spec
    (src + (inputWidth.toNat * inputHeight.toNat : Nat) + (y * inputWidth.toNat : Nat)) ?_ ?_ ?_ hs)
  · rw [chroma_base hplane, hyp]
    exact congrArg (_ + ·) hoffset
  · intro col hcol address hle hge
    have hx := chroma_position_le h.evenInputWidth.range hcol
    rw [← resizeFactor] at hx
    rw [hstride, FrameBounds, frame_size h.evenInputHeight.2.2]
    refine ⟨⟨?_, ?_⟩, ?_, ?_⟩ <;> omega
  · intro col hcol
    rw [FrameBounds, frame_size h.evenHeight.2.2]
    refine ⟨⟨?_, ?_⟩, ?_, ?_⟩ <;> omega
  iterate 2
    · show _ + ((stride - width).toNat : Int) = _
      rw [toNat_gap h, Nat.succ_mul]
      omega

theorem planes_inBounds (s : ResizeState) :
    (resizePlanes (input src inputWidth inputHeight) (output img width height stride)
      ⟨0, 0, width, height⟩ (resizeFactor inputWidth width) (resizeFactor inputHeight height)).All
      (FrameBounds src img height stride inputWidth inputHeight) s := by
  simp only [resizePlanes, all_bind, all_modify, true_and, run_modify]
  have hstart : (0 : BitVec 32).toNat + (0 * (output img width height stride).uWidth).toNat = 0 :=
    start_eq_zero width
  rw [hstart]
  constructor
  · refine (all_forRange_of_invariant (I := fun row s =>
      s.ptr8 = img + (row * stride.toNat : Nat)) _ _
      (fun row hrow t ht => lumaRow_inBounds h hplane hrow ht) ?_).1
    rw [Nat.zero_mul]
    rfl
  · refine (all_forRange_of_invariant
      (I := fun row s => s.ptr8Cb = img + (stride * height).toNat + (row * stride.toNat : Nat) ∧
        s.ptr8Cr = img + (stride * height).toNat + (row * stride.toNat : Nat) + 1) _ _
      (fun row hrow t ht => chromaRow_inBounds h hplane hfits hrow ht) ?_).1
    rw [Nat.zero_mul]
    exact ⟨rfl, rfl⟩

end

/-- The last pixel of the last chroma row. -/
theorem chroma_inBounds (hsrc : src ≠ 0) (himg : img ≠ 0)
    (hall : (reSizeNV21 src img width height stride inputWidth inputHeight).All
      (FrameBounds src img height stride inputWidth inputHeight) s) :
    ChromaFits inputWidth.toNat inputHeight.toNat width.toNat height.toNat := by
  have hheight := h.evenHeight.1
  have hwidth := h.evenWidth.1
  have hrow : height.toNat / 2 - 1 < height.toNat := by omega
  rw [reSizeNV21_all h hsrc himg, resizePlanes] at hall
  simp only [all_bind, all_modify, true_and] at hall
  have hlast :=
    (all_forRange _ _ _).mp hall.2 (height.toNat / 2 - 1) (show _ < height.toNat / 2 by omega)
  simp only [chromaRow, all_bind] at hlast
  have hpixel := (all_forRange _ _ _).mp hlast.1 (width.toNat / 2 - 1) (by omega)
  obtain ⟨-, ⟨-, -, -, hread⟩, -⟩ := (chromaPixel_all ..).mp hpixel
  have hoffset :=
    row_offset h hplane (Nat.lt_of_lt_pred (luma_position_lt h.evenInputHeight.range hrow))
  have hx : position (width.toNat / 2 - 1) (resizeFactor inputWidth width) =
      lastChroma inputWidth.toNat width.toNat :=
    position_eq h.evenInputWidth.range (by omega)
  have hy : position (height.toNat / 2 - 1) (resizeFactor inputHeight height) =
      lastChroma inputHeight.toNat height.toNat := position_eq h.evenInputHeight.range hrow
  rw [← resizeFactor, hy] at hoffset
  rw [chroma_base hplane, hx, hy] at hread
  have hstride : (input src inputWidth inputHeight).uStride.toInt = inputWidth.toInt := rfl
  rw [hstride, hoffset, toInt_of_evenSize h.evenInputWidth, FrameBounds,
    frame_size h.evenInputHeight.2.2] at hread
  rw [ChromaFits, Nat.succ_mul]
  have hbelow := hread.2
  omega

end

/-- The offset of a row has to be an `int`. -/
theorem resize_inBounds_iff {width height stride inputWidth inputHeight : BitVec 32}
    (h : Resizable width height stride inputWidth inputHeight)
    (hplane : inputWidth.toNat * inputHeight.toNat ≤ 0x80000000) {src img : Int} (hsrc : src ≠ 0)
    (himg : img ≠ 0) (s : ResizeState) :
    (reSizeNV21 src img width height stride inputWidth inputHeight).All
        (FrameBounds src img height stride inputWidth inputHeight) s ↔
      ChromaFits inputWidth.toNat inputHeight.toNat width.toNat height.toNat :=
  ⟨chroma_inBounds h hplane hsrc himg, fun hfits =>
    (reSizeNV21_all h hsrc himg s).mpr (planes_inBounds h hplane hfits s)⟩

/-- From 1280 by 720 pixels to 1920 by 1080. -/
theorem resize_inBounds_fullHd :
    (reSizeNV21 0x10000000 0x20000000 1920 1080 2048 1280 720).All
      (FrameBounds 0x10000000 0x20000000 1080 2048 1280 720) ⟨fun _ => 0, 0, 0, 0⟩ :=
  (resize_inBounds_iff ⟨by decide, by decide, by decide, by decide, by decide⟩ (by decide)
    (by decide)
    (by decide) _).mpr
      (chromaFits_of_scale (by decide) (by decide) (by decide) (by decide) (by decide) (by decide))

/-- It has 24 bytes; the third chroma row is read, of two. -/
theorem doubled_outOfBounds :
    ¬ (reSizeNV21 0x1000 0x2000 8 8 8 4 4).All (FrameBounds 0x1000 0x2000 8 8 4 4)
      ⟨fun _ => 0, 0, 0, 0⟩ := by
  intro h
  have hlog : Access.read 0x1018 ∈
      ((reSizeNV21 0x1000 0x2000 8 8 8 4 4).run ⟨fun _ => 0, 0, 0, 0⟩).log := by
    decide +kernel
  exact absurd (h _ hlog) (by decide)

end AmlogicHal.Camera

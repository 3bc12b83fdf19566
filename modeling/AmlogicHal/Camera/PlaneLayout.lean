import AmlogicHal.Camera.Nv21Resize
import Mathlib.Tactic.Ring

/-!
# Planes in buffers

`YUYVScaleYV12` converts into a temporary buffer that `ScaleYV12` then takes for planes of its own.
`yuyvScaleYV12_iff`: the two layouts agree, the conversion stays inside the buffer, and the scaler
finds in each plane the samples of one component, for widths that are multiples of 32.
-/

namespace AmlogicHal.Camera

open List

/-- Rows that begin `stride` bytes apart. -/
structure Plane where
  start : Nat
  stride : Nat
deriving DecidableEq

def Plane.address (p : Plane) (row col : Nat) : Nat := p.start + (row * p.stride + col)

inductive Component
  | y | cr | cb
deriving DecidableEq

/-- A product of type `int`; the negative ones stand at the end. -/
def intProduct (m n : Nat) : Nat := m * n % 2 ^ 32

variable (width height : Nat)

def cStride : Nat := (width / 2 + 15) / 16 * 16

/-- The offsets and the strides of `YUYVToYV12`. -/
def convertedPlane : Component → Plane
  | .y => ⟨0, width⟩
  | .cr => ⟨intProduct width height, cStride width⟩
  | .cb => ⟨intProduct width height + intProduct (cStride width) height / 2, cStride width⟩

/-- The planes that `ScaleYV12` hands to `I420Scale`. -/
def scaledPlane : Component → Plane
  | .y => ⟨0, width⟩
  | .cr => ⟨intProduct width height, width / 2⟩
  | .cb => ⟨intProduct width height + intProduct width height / 4, width / 2⟩

def tmpBufferSize : Nat := intProduct (intProduct width height) 3 / 2

variable (src : Nat → Byte)

/-- The sample for a place of a plane. The four bytes of two pixels are Y, Cb, Y and Cr, and a
chroma sample is the mean of two rows. -/
def sample : Component → (row col : Nat) → Byte
  | .y, row, col => src (2 * (row * width + col))
  | k, row, col =>
    let j := row * (width * 4) + (4 * col + if k = .cr then 3 else 1)
    .ofNat 8 (((src j).toNat + (src (j + width * 2)).toNat + 1) / 2)

/-- `YUYVToYV12`: its stores, in order. -/
def yuyvToYV12 : List (Nat × Byte) :=
  (range (intProduct width height)).map (fun i => (i, src (2 * i))) ++
    (range ((height + 1) / 2)).flatMap fun row => (range ((width + 1) / 2)).flatMap fun col =>
      [.cr, .cb].map fun k =>
        ((convertedPlane width height k).address row col, sample width src k row col)

/-- The places of a plane that `I420Scale` reads. -/
def InPlane : Component → (row col : Nat) → Prop
  | .y, row, col => row < height ∧ col < width
  | _, row, col => row < (height + 1) / 2 ∧ col < (width + 1) / 2

def store (memory : Nat → Byte) (stores : List (Nat × Byte)) : Nat → Byte :=
  stores.foldl (fun memory x => Function.update memory x.1 x.2) memory

variable {width height src}

theorem store_eq {stores : List (Nat × Byte)} {address : Nat} {value : Byte}
    (hall : ∀ x ∈ stores, x.1 = address → x.2 = value) :
    ∀ memory : Nat → Byte, memory address = value ∨ (∃ x ∈ stores, x.1 = address) →
      store memory stores address = value := by
  induction stores with
  | nil => exact fun memory h => h.resolve_right (by simp)
  | cons x stores ih =>
    intro memory h
    refine ih (fun y hy => hall y (mem_cons_of_mem _ hy)) (Function.update memory x.1 x.2) ?_
    by_cases hx : x.1 = address
    · left
      rw [← hx, Function.update_self]
      exact hall x mem_cons_self hx
    · rw [Function.update_of_ne (Ne.symm hx)]
      simpa [hx] using h

variable {a b row col : Nat}

theorem offset_lt (hrow : row < b) (hcol : col < a) : row * a + col < b * a := by
  have hle := Nat.mul_le_mul_right a hrow
  rw [Nat.succ_mul] at hle
  omega

theorem offset_inj {row' col' : Nat} (hcol : col < a) (hcol' : col' < a)
    (h : row * a + col = row' * a + col') : row = row' ∧ col = col' := by
  rw [Nat.add_comm, Nat.mul_comm, Nat.add_comm _ col', Nat.mul_comm row'] at h
  have hpos : 0 < a := by omega
  obtain ⟨hrow, hcol⟩ := (Nat.div_mod_unique hpos).mpr ⟨h, hcol⟩
  obtain ⟨hrow', hcol'⟩ := (Nat.div_mod_unique hpos).mpr ⟨rfl, hcol'⟩
  exact ⟨hrow.symm.trans hrow', hcol.symm.trans hcol'⟩

/-- The luma plane of `4 * (b * a)` bytes, and two planes of a quarter of it. -/
def packedPlane (a b : Nat) : Component → Plane
  | .y => ⟨0, 2 * a⟩
  | .cr => ⟨4 * (b * a), a⟩
  | .cb => ⟨5 * (b * a), a⟩

/-- Where the plane ends. -/
def packedEnd (a b : Nat) : Component → Nat
  | .y => 4 * (b * a)
  | .cr => 5 * (b * a)
  | .cb => 6 * (b * a)

section

variable (hint : 3 * (2 * a * (2 * b)) < 2 ^ 31)
include hint

theorem luma_size : intProduct (2 * a) (2 * b) = 4 * (b * a) := by
  have hproduct : 2 * a * (2 * b) = 4 * (b * a) := by ring
  rw [intProduct, hproduct, Nat.mod_eq_of_lt (by omega)]

theorem planes_eq (ha : a % 16 = 0) :
    scaledPlane (2 * a) (2 * b) = packedPlane a b ∧
    convertedPlane (2 * a) (2 * b) = packedPlane a b := by
  have hluma := luma_size hint
  have hstride : cStride (2 * a) = a := by
    unfold cStride
    omega
  have hchroma : intProduct a (2 * b) = 2 * (b * a) := by
    have hproduct : a * (2 * b) = 2 * (b * a) := by ring
    have hall : 2 * a * (2 * b) = 4 * (b * a) := by ring
    rw [intProduct, hproduct, Nat.mod_eq_of_lt (by omega)]
  constructor <;> funext k <;> cases k <;>
    simp only [scaledPlane, convertedPlane, packedPlane, hluma, hstride, hchroma, Plane.mk.injEq,
      and_true, true_and] <;>
    omega

theorem tmpBufferSize_eq : tmpBufferSize (2 * a) (2 * b) = 6 * (b * a) := by
  have hall : 2 * a * (2 * b) = 4 * (b * a) := by ring
  rw [tmpBufferSize, luma_size hint, intProduct, Nat.mod_eq_of_lt (by omega)]
  omega

theorem mem_yuyvToYV12 (ha : a % 16 = 0) {x : Nat × Byte} :
    x ∈ yuyvToYV12 (2 * a) (2 * b) src ↔ ∃ k row col, InPlane (2 * a) (2 * b) k row col ∧
      ((packedPlane a b k).address row col, sample (2 * a) src k row col) = x := by
  rw [yuyvToYV12, (planes_eq hint ha).2, luma_size hint, mem_append]
  simp only [mem_map, mem_flatMap, mem_range]
  constructor
  · rintro (⟨i, hi, rfl⟩ | ⟨row, hrow, col, hcol, k, hk, rfl⟩)
    · -- the luma loop goes over all rows at once
      have hrows : 4 * (b * a) = 2 * b * (2 * a) := by ring
      rw [hrows] at hi
      have hpos : 0 < 2 * a := Nat.pos_of_ne_zero fun hzero => by simp [hzero] at hi
      have hi' : i / (2 * a) * (2 * a) + i % (2 * a) = i := Nat.div_add_mod' i (2 * a)
      refine ⟨.y, i / (2 * a), i % (2 * a), ⟨Nat.div_lt_of_lt_mul (Nat.mul_comm _ _ ▸ hi),
        Nat.mod_lt i hpos⟩, ?_⟩
      simp only [packedPlane, Plane.address, sample, hi', Nat.zero_add]
    · refine ⟨k, row, col, ?_, rfl⟩
      rcases mem_pair.mp hk with rfl | rfl <;> exact ⟨hrow, hcol⟩
  · rintro ⟨k, row, col, hin, rfl⟩
    cases k with
    | y =>
      have hlt := offset_lt hin.1 hin.2
      have hrows : 2 * b * (2 * a) = 4 * (b * a) := by ring
      exact .inl ⟨row * (2 * a) +
        col, by omega, by simp only [packedPlane, Plane.address, Nat.zero_add]; rfl⟩
    | cr => exact .inr ⟨row, hin.1, col, hin.2, .cr, by decide, rfl⟩
    | cb => exact .inr ⟨row, hin.1, col, hin.2, .cb, by decide, rfl⟩

end

theorem packed_lt {k : Component} (h : InPlane (2 * a) (2 * b) k row col) :
    (packedPlane a b k).address row col < packedEnd a b k := by
  have hrows : 2 * b * (2 * a) = 4 * (b * a) := by ring
  cases k <;> simp only [packedPlane, packedEnd, Plane.address, InPlane] at h ⊢
  · have hlt := offset_lt h.1 h.2
    omega
  iterate 2
    · have hlt : row * a + col < b * a := offset_lt (by omega) (by omega)
      omega

theorem packed_inj {j k : Component} {row' col' : Nat} (h : InPlane (2 * a) (2 * b) j row col)
    (h' : InPlane (2 * a) (2 * b) k row' col')
    (heq : (packedPlane a b j).address row col = (packedPlane a b k).address row' col') :
    j = k ∧ row = row' ∧ col = col' := by
  have hlt := packed_lt h
  have hlt' := packed_lt h'
  cases j <;> cases k <;> simp only [packedPlane, packedEnd, Plane.address,
    InPlane] at h h' heq hlt hlt' <;>
    first
    | omega
    | exact ⟨rfl, offset_inj (by omega) (by omega) (Nat.add_left_cancel heq)⟩

theorem yuyvScaleYV12_iff (hw : width % 2 = 0) (hh : height % 2 = 0)
    (hint : 3 * (width * height) < 2 ^ 31) (src memory : Nat → Byte) :
    ((∀ x ∈ yuyvToYV12 width height src, x.1 < tmpBufferSize width height) ∧
      scaledPlane width height = convertedPlane width height ∧
      ∀ k row col, InPlane width height k row col →
        store memory (yuyvToYV12 width height src) ((scaledPlane width height k).address row col) =
          sample width src k row col) ↔ width % 32 = 0 := by
  constructor
  · rintro ⟨-, heq, -⟩
    have hstride : width / 2 = cStride width := congrArg Plane.stride (congrFun heq .cr)
    unfold cStride at hstride
    omega
  · intro hwidth
    obtain ⟨a, rfl⟩ := Nat.dvd_of_mod_eq_zero hw
    obtain ⟨b, rfl⟩ := Nat.dvd_of_mod_eq_zero hh
    have hmem {x} : x ∈ yuyvToYV12 (2 * a) (2 * b) src ↔ _ := mem_yuyvToYV12 hint (by omega)
    obtain ⟨hscaled, hconverted⟩ := planes_eq hint (by omega)
    rw [hscaled, hconverted, tmpBufferSize_eq hint]
    refine ⟨fun x hx => ?_, rfl, fun k row col hin =>
      store_eq (fun x hx haddress => ?_) _ (.inr ?_)⟩
    · obtain ⟨k, row, col, hin, rfl⟩ := hmem.mp hx
      have hlt := packed_lt hin
      cases k <;> simp only [packedEnd] at hlt <;> dsimp only <;> omega
    · obtain ⟨j, row', col', hin', rfl⟩ := hmem.mp hx
      obtain ⟨rfl, rfl, rfl⟩ := packed_inj hin' hin haddress
      rfl
    · exact ⟨_, hmem.mpr ⟨k, row, col, hin, rfl⟩, rfl⟩

theorem yuyvScaleYV12_iff_vga :
    (∀ x ∈ yuyvToYV12 640 480 (.ofNat 8), x.1 < tmpBufferSize 640 480) ∧
      scaledPlane 640 480 = convertedPlane 640 480 ∧
      ∀ k row col, InPlane 640 480 k row col →
        store (fun _ => 0) (yuyvToYV12 640 480 (.ofNat 8))
          ((scaledPlane 640 480 k).address row col) = sample 640 (.ofNat 8) k row col :=
  (yuyvScaleYV12_iff (by decide) (by decide) (by decide) _ _).mpr (by decide)

/-- Chroma rows of 8 samples are written 16 bytes apart. -/
theorem chromaRows_apart :
    (¬ ∀ x ∈ yuyvToYV12 16 4 fun _ => 0, x.1 < tmpBufferSize 16 4) ∧
      scaledPlane 16 4 .cr ≠ convertedPlane 16 4 .cr := by
  decide +kernel

end AmlogicHal.Camera

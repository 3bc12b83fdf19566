import AmlogicHal.Amadec.AlsaPlay

/-!
# The interpolation over a stream

`pcm_interpolation` is called on one chunk after the other, and the histories of its passes stay
from call to call.

* `Passes.interpolate_append`: a channel that comes in two pieces.
* `History.upsample_passRight`: what a pass makes of its input, sample by sample, with nothing that
  overflows.
* `pcmInterpolation_right`: chunks and one call agree, and each pass is right.
-/

namespace AmlogicHal.Amadec

/-! ## Calls and chunks -/

section

variable (interpolation numChannel : Nat)

/-- `pcm_interpolation`: what it writes for a channel, which goes to every `numChannel`th place of
the output, and the histories of the channel behind that. -/
def pcmInterpolation (numSample : Nat) (samples : Nat → Int) (h : Fin numChannel → Passes)
    (ch : Fin numChannel) : List Int × Passes :=
  (h ch).interpolate interpolation (channelSamples samples numChannel ch numSample)

/-- Calls on chunks of so many frames, one behind the other. -/
def interpolateChunks :
    List Nat → (Nat → Int) → (Fin numChannel → Passes) → Fin numChannel → List Int × Passes
  | [], _, h, ch => ([], h ch)
  | n :: ns, samples, h, ch =>
    let r := pcmInterpolation interpolation numChannel n samples h
    let q := interpolateChunks ns (fun i => samples (numChannel * n + i)) (fun ch => (r ch).2) ch
    ((r ch).1 ++ q.1, q.2)

end

def Histories.of {numChannel : Nat} (h : Histories) (ch : Fin numChannel) : Passes :=
  if ch = (0 : Nat) then h.first else h.second

theorem interpolateStereo_eq (interpolation : Nat) (h : Histories) (samples : Nat → Int) (n : Nat) :
    let r := pcmInterpolation interpolation 2 n samples h.of
    interpolateStereo interpolation h samples n = ((r 0).1.zip (r 1).1, ⟨(r 0).2, (r 1).2⟩) := rfl

theorem interpolateMono_eq (interpolation : Nat) (h : Histories) (samples : Nat → Int) (n : Nat) :
    let r := pcmInterpolation interpolation 1 n samples h.of
    interpolateMono interpolation h samples n =
      ((r 0).1.map fun x => (x, x), ⟨(r 0).2, h.second⟩) := rfl

/-! ## What a pass has to do -/

namespace History

def toList (s : History) : List Int := [s.s0, s.s1, s.s2, s.s3, s.s4, s.s5]

/-- The sample `d` before sample `i` of `xs`; the history has those from before `xs`. -/
def delayed (s : History) (xs : List Int) (i d : Nat) : Int := (s.toList ++ xs).getD (6 + i - d) 0

/-- The values that `between` computes on its way, in the order of the source. -/
def intermediates (a b c d e f : Int) : List Int :=
  [c + d, 150 * (c + d), b + e, 25 * (b + e), 150 * (c + d) - 25 * (b + e), a + f, 3 * (a + f),
    150 * (c + d) - 25 * (b + e) + 3 * (a + f), 150 * (c + d) - 25 * (b + e) + 3 * (a + f) + 128,
    (150 * (c + d) - 25 * (b + e) + 3 * (a + f) + 128) / 256]

end History

def IsShort (x : Int) : Prop := -2 ^ 15 ≤ x ∧ x < 2 ^ 15

def IsInt32 (x : Int) : Prop := -2 ^ 31 ≤ x ∧ x < 2 ^ 31

/-- A pass makes two samples of each: the input three samples late, and the clipped six-tap value of
the samples around the gap behind it. -/
structure PassRight (s : History) (xs ys : List Int) : Prop where
  length : ys.length = xs.length * 2
  even : ∀ i < xs.length, ys[2 * i]? = some (s.delayed xs i 3)
  odd : ∀ i < xs.length, ys[2 * i + 1]? = some (clipToShort
    ((150 * (s.delayed xs i 3 + s.delayed xs i 2) - 25 * (s.delayed xs i 4 + s.delayed xs i 1) +
      3 * (s.delayed xs i 5 + s.delayed xs i 0) + 128) / 256))
  inInt : ∀ i < xs.length,
    ∀ v ∈ History.intermediates (s.delayed xs i 5) (s.delayed xs i 4) (s.delayed xs i 3)
    (s.delayed xs i 2) (s.delayed xs i 1) (s.delayed xs i 0), IsInt32 v
  inShort : ∀ y ∈ ys, IsShort y

/-- The second pass goes over what the first one has made. -/
def PassesRight (interpolation : Nat) (p : Passes) (xs ys : List Int) : Prop :=
  if interpolation ≥ 2 then ∃ zs, PassRight p.pass1 xs zs ∧ PassRight p.pass2 zs ys
  else PassRight p.pass1 xs ys

def Passes.Held (p : Passes) : Prop := ∀ x ∈ p.pass1.toList ++ p.pass2.toList, IsShort x

/-! ## Pieces -/

theorem History.upsample_append (xs ys : List Int) : ∀ s : History,
    s.upsample (xs ++ ys) =
      ((s.upsample xs).1 ++ ((s.upsample xs).2.upsample ys).1,
        ((s.upsample xs).2.upsample ys).2) := by
  induction xs with
  | nil => exact fun _ => rfl
  | cons x xs ih =>
    intro s
    rw [List.cons_append, upsample, ih]
    rfl

namespace Passes

variable (interpolation : Nat)

theorem interpolate_append (p : Passes) (xs ys : List Int) :
    p.interpolate interpolation (xs ++ ys) =
      ((p.interpolate interpolation xs).1 ++
        ((p.interpolate interpolation xs).2.interpolate interpolation ys).1,
        ((p.interpolate interpolation xs).2.interpolate interpolation ys).2) := by
  by_cases hmode : interpolation ≥ 2
  · simp [interpolate, if_pos hmode, History.upsample_append]
  · simp [interpolate, if_neg hmode, History.upsample_append]

theorem interpolate_nil (p : Passes) : p.interpolate interpolation [] = ([], p) := by
  rw [interpolate]
  split <;> rfl

end Passes

theorem channelSamples_add (samples : Nat → Int) (numChannel ch m n : Nat) :
    channelSamples samples numChannel ch (m + n) = channelSamples samples numChannel ch m ++
      channelSamples (fun i => samples (numChannel * m + i)) numChannel ch n := by
  simp [channelSamples, List.range_add, Nat.mul_add, Nat.add_assoc]

theorem interpolateChunks_eq (interpolation : Nat) {numChannel : Nat} (ns : List Nat) :
    ∀ (samples : Nat → Int) (h : Fin numChannel → Passes) (ch : Fin numChannel),
      interpolateChunks interpolation numChannel ns samples h ch =
        pcmInterpolation interpolation numChannel ns.sum samples h ch := by
  induction ns with
  | nil => exact fun _ h ch => ((h ch).interpolate_nil interpolation).symm
  | cons n ns ih =>
    intro samples h ch
    simp [interpolateChunks, ih, pcmInterpolation, channelSamples_add, Passes.interpolate_append]

/-! ## The passes -/

theorem isShort_clipToShort (x : Int) : IsShort (clipToShort x) := by
  unfold clipToShort IsShort
  split
  · decide
  · split
    · decide
    · omega

theorem isShort_getD {xs : List Int} (hxs : ∀ x ∈ xs, IsShort x) (i : Nat) :
    IsShort (xs.getD i 0) := by
  rw [List.getD_eq_getElem?_getD]
  cases hget : xs[i]? with
  | none => exact ⟨by decide, by decide⟩
  | some x => exact hxs x (List.mem_of_getElem? hget)

namespace History

theorem delayed_push (s : History) (x : Int) (xs : List Int) {i d : Nat} (hd : d ≤ 6) :
    (s.push x).delayed xs i d = s.delayed (x :: xs) (i + 1) d := by
  have hindex : 6 + (i + 1) - d = (6 + i - d) + 1 := by omega
  have hlist : s.toList ++ x :: xs = s.s0 :: ((s.push x).toList ++ xs) := rfl
  rw [delayed, delayed, hindex, hlist, List.getD_cons_succ]

theorem isInt32_intermediates {a b c d e f : Int} (ha : IsShort a) (hb : IsShort b) (hc : IsShort c)
    (hd : IsShort d) (he : IsShort e) (hf : IsShort f) :
    ∀ v ∈ intermediates a b c d e f, IsInt32 v := by
  unfold IsShort at ha hb hc hd he hf
  simp only [intermediates, List.forall_mem_cons, List.not_mem_nil, false_implies, implies_true,
    and_true, IsInt32]
  omega

theorem getElem?_upsample (xs : List Int) : ∀ (s : History), ∀ i < xs.length,
    (s.upsample xs).1[2 * i]? = some (s.delayed xs i 3) ∧
      (s.upsample xs).1[2 * i + 1]? = some (clipToShort
        ((150 * (s.delayed xs i 3 + s.delayed xs i 2) - 25 * (s.delayed xs i 4 + s.delayed xs i 1) +
          3 * (s.delayed xs i 5 + s.delayed xs i 0) + 128) / 256)) := by
  induction xs with
  | nil => exact fun _ i hi => absurd hi (Nat.not_lt_zero i)
  | cons x xs ih =>
    intro s i hi
    cases i with
    | zero => exact ⟨rfl, rfl⟩
    | succ i =>
      have hpush := ih (s.push x) i (Nat.lt_of_succ_lt_succ hi)
      simp only [delayed_push s x xs (by decide : 0 ≤ 6), delayed_push s x xs (by decide : 1 ≤ 6),
        delayed_push s x xs (by decide : 2 ≤ 6), delayed_push s x xs (by decide : 3 ≤ 6),
        delayed_push s x xs (by decide : 4 ≤ 6), delayed_push s x xs (by decide : 5 ≤ 6)] at hpush
      exact hpush

section

variable {s : History} {xs : List Int} (hs : ∀ x ∈ s.toList, IsShort x) (hxs : ∀ x ∈ xs, IsShort x)
include hs hxs

theorem isShort_delayed (i d : Nat) : IsShort (s.delayed xs i d) := by
  exact isShort_getD (List.forall_mem_append.mpr ⟨hs, hxs⟩) _

theorem isShort_upsample : ∀ y ∈ (s.upsample xs).1, IsShort y := by
  intro y hy
  obtain ⟨j, hj, rfl⟩ := List.mem_iff_getElem.mp hy
  rw [length_upsample] at hj
  obtain ⟨heven, hodd⟩ := getElem?_upsample xs s (j / 2) (by omega)
  rcases Nat.mod_two_eq_zero_or_one j with hmod | hmod
  · rw [show 2 * (j / 2) = j by omega] at heven
    rw [List.getElem_of_getElem? heven |>.2]
    exact isShort_delayed hs hxs _ _
  · rw [show 2 * (j / 2) + 1 = j by omega] at hodd
    rw [List.getElem_of_getElem? hodd |>.2]
    exact isShort_clipToShort _

theorem upsample_passRight : PassRight s xs (s.upsample xs).1 where
  length := length_upsample xs s
  even i hi := (getElem?_upsample xs s i hi).1
  odd i hi := (getElem?_upsample xs s i hi).2
  inInt i _ :=
    have hshort := isShort_delayed hs hxs i
    isInt32_intermediates (hshort 5) (hshort 4) (hshort 3) (hshort 2) (hshort 1) (hshort 0)
  inShort := isShort_upsample hs hxs

end

end History

theorem Passes.Held.interpolate_right {p : Passes} (hp : p.Held) (interpolation : Nat)
    {xs : List Int} (hxs : ∀ x ∈ xs, IsShort x) :
    PassesRight interpolation p xs (p.interpolate interpolation xs).1 := by
  obtain ⟨hpass1, hpass2⟩ := List.forall_mem_append.mp hp
  have hfirst := History.upsample_passRight hpass1 hxs
  rw [PassesRight, Passes.interpolate]
  split
  · exact ⟨_, hfirst, History.upsample_passRight hpass2 hfirst.inShort⟩
  · exact hfirst

theorem pcmInterpolation_right (interpolation numChannel : Nat) (samples : Nat → Int)
    (hsamples : ∀ i, IsShort (samples i)) (h : Fin numChannel → Passes)
    (hh : ∀ ch, (h ch).Held) (ns : List Nat) (ch : Fin numChannel) :
    interpolateChunks interpolation numChannel ns samples h ch =
        pcmInterpolation interpolation numChannel ns.sum samples h ch ∧
      PassesRight interpolation (h ch) (channelSamples samples numChannel ch ns.sum)
        (pcmInterpolation interpolation numChannel ns.sum samples h ch).1 := by
  refine ⟨interpolateChunks_eq interpolation ns samples h ch,
    (hh ch).interpolate_right interpolation ?_⟩
  intro x hx
  obtain ⟨i, -, rfl⟩ := List.mem_map.mp hx
  exact hsamples _

/-- The loudest samples, one after the other. -/
def loudSamples (i : Nat) : Int := if i % 2 = 0 then 32767 else -32768

theorem pcmInterpolation_loudSamples :
    interpolateChunks 2 2 [1, 2] loudSamples Histories.zero.of 1 =
        pcmInterpolation 2 2 3 loudSamples Histories.zero.of 1 ∧
      PassesRight 2 (Histories.zero.of (1 : Fin 2)) (channelSamples loudSamples 2 1 3)
        (pcmInterpolation 2 2 3 loudSamples Histories.zero.of 1).1 := by
  refine pcmInterpolation_right 2 2 loudSamples (fun i => ?_) _ ?_ [1, 2] 1
  · unfold loudSamples IsShort
    split <;> decide
  · unfold Passes.Held IsShort
    decide

end AmlogicHal.Amadec

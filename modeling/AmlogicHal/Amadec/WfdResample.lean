import AmlogicHal.Amadec.Latency

/-!
# The resampler of the wifi display

`audio_wfd_decode_loop` keeps the latency in a range: blocks of 128 frames become blocks of
`128 - delta` frames, with one of two deltas. The thresholds and the deltas are properties, read
again in every turn.

`audio_resample_api` writes its result over the block, in an array of 4096 bytes; with a negative
delta the result is longer. `wfd_iff` says for which lengths and deltas it stays in the array: a
full array with the delta the source starts with, -4, does not. The model has the sizes only.
-/

namespace AmlogicHal.Amadec

/-! ## The model -/

def resampleFrames : Nat := 128

/-- The size of `short outbuf[2048]` in bytes. -/
def outbufSize : Nat := 2048 * 2

/-- How many frames the inner loop writes for a block; the difference is an `int`. -/
def blockFrames (delta : Int) : Nat := (int32 (resampleFrames - delta)).toNat

/-- The loop over the blocks: the frames that were written, the frames that are left, and the ranges
of the buffer that were written, each with its start and its length in bytes. -/
structure WfdBlocks where
  k : Nat
  frameRead : Nat
  writes : List (Nat × Nat)
deriving DecidableEq

/-- `while (frame_read >= RESAMPLE_FRAMES)`. A frame is always written as two shorts. -/
def wfdBlocks (chnum : Nat) (delta : Int) (frameRead k : Nat) : WfdBlocks :=
  if resampleFrames ≤ frameRead then
    let r := wfdBlocks chnum delta (frameRead - resampleFrames) (k + blockFrames delta)
    { r with writes := (2 * (k * chnum), 4 * blockFrames delta) :: r.writes }
  else ⟨k, frameRead, []⟩
termination_by frameRead
decreasing_by
  next h =>
    unfold resampleFrames at h ⊢
    omega

/-- `*size` at the end, and the ranges of the buffer that were written if it was resampled. -/
structure WfdResampled where
  size : Nat
  writes : Option (List (Nat × Nat))
deriving DecidableEq

/-- What does not fill a block is copied behind the others. -/
def copyLastFrames (chnum : Nat) (r : WfdBlocks) : WfdBlocks :=
  if 0 < r.frameRead then
    { r with
      k := r.k + r.frameRead
      writes := r.writes ++ [(2 * (r.k * chnum), r.frameRead * (2 * chnum))] }
  else r

def audioResampleApi (size chnum : Nat) (enable : Bool) (delta : Int) : WfdResampled :=
  if enable ∧ delta ≠ 0 ∧ resampleFrames * 2 * chnum ≤ size then
    let r := copyLastFrames chnum (wfdBlocks chnum delta (size / (2 * chnum)) 0)
    ⟨r.k * (2 * chnum) % 2 ^ 32, some r.writes⟩
  else ⟨size, none⟩

/-- The static thresholds and deltas. -/
structure WfdThresholds where
  skipThread : Int
  upThread : Int
  dnThread : Int
  dnResampleDelta : Int
  upResampleDelta : Int
deriving DecidableEq

/-- What the properties are, if they are set. -/
structure WfdProperties where
  skip : Option Int
  up : Option Int
  dn : Option Int
  dnDelta : Option Int
  upDelta : Option Int
deriving DecidableEq

def WfdThresholds.start : WfdThresholds := ⟨400, 100, 200, 2, -4⟩

def setWfdPcmThreshold (p : WfdProperties) (t : WfdThresholds) : WfdThresholds :=
  ⟨p.skip.getD t.skipThread, p.up.getD t.upThread, p.dn.getD t.dnThread,
    p.dnDelta.getD t.dnResampleDelta,
    p.upDelta.getD t.upResampleDelta⟩

structure WfdLoop where
  thresholds : WfdThresholds
  outInitFlag : Bool
deriving DecidableEq

/-- What a turn of the loop finds: the properties, what the decoder delivers, whether the output can
be initialized, and its latency. -/
structure WfdTurn where
  properties : WfdProperties
  outlen : Nat
  inLatency : Int
  outInit : Bool
  outLatency : Int
deriving DecidableEq

/-- The delta that the loop resamples with, if it does. -/
def selectedDelta (t : WfdThresholds) (totalLatency : Int) : Option Int :=
  if t.skipThread < totalLatency then none
  else if t.dnThread < totalLatency then some t.dnResampleDelta
  else if totalLatency < t.upThread then some t.upResampleDelta
  else none

/-- A turn of `audio_wfd_decode_loop`, with its call of `audio_resample_api`. -/
def wfdTurn (s : WfdLoop) (e : WfdTurn) : WfdLoop × Option WfdResampled :=
  let t := setWfdPcmThreshold e.properties s.thresholds
  if e.outlen = 0 then (⟨t, s.outInitFlag⟩, none)
  else if ¬ s.outInitFlag ∧ ¬ e.outInit then (⟨t, s.outInitFlag⟩, none)
  else
    let totalLatency := int32 (e.inLatency + max e.outLatency 0)
    (⟨t, true⟩, (selectedDelta t totalLatency).map fun delta =>
      audioResampleApi e.outlen 2 true delta)

def audioWfdDecodeLoop : Machine WfdLoop WfdTurn (Option WfdResampled) := ⟨wfdTurn⟩

/-! ## The sizes -/

/-- The frames that are written for `n` frames: those of the full blocks, and those that do not fill
a block. -/
def resampledFrames (delta : Int) (n : Nat) : Nat :=
  n / resampleFrames * blockFrames delta + n % resampleFrames

/-- The ranges from `start` on to `stop`, one behind the other: they end before a limit exactly if
the last one does, and have as many bytes as there are in between. -/
structure Covers (start stop : Nat) (ws : List (Nat × Nat)) : Prop where
  inside_iff : ∀ limit, start ≤ limit → ((∀ w ∈ ws, w.1 + w.2 ≤ limit) ↔ stop ≤ limit)
  sum_eq : start + (ws.map Prod.snd).sum = stop

theorem Covers.nil (start : Nat) : Covers start start [] := ⟨fun _ h => by simp [h], rfl⟩

theorem Covers.cons {start n stop : Nat} {ws : List (Nat × Nat)} (h : Covers (start + n) stop ws) :
    Covers start stop ((start, n) :: ws) where
  inside_iff limit _ := by
    rw [List.forall_mem_cons]
    constructor
    · rintro ⟨hfirst, hothers⟩
      exact (h.inside_iff limit hfirst).mp hothers
    · intro hstop
      have hle : start + n ≤ limit :=
        (h.sum_eq ▸ Nat.le_add_right _ _ : start + n ≤ stop).trans hstop
      exact ⟨hle, (h.inside_iff limit hle).mpr hstop⟩
  sum_eq := by
    rw [List.map_cons, List.sum_cons, ← Nat.add_assoc]
    exact h.sum_eq

theorem copyLastFrames_cons (w : Nat × Nat) (r : WfdBlocks) :
    copyLastFrames 2 { r with writes := w :: r.writes } =
      { copyLastFrames 2 r with writes := w :: (copyLastFrames 2 r).writes } := by
  unfold copyLastFrames
  split <;> rfl

/-- The blocks and the rest behind them are one range, by induction on the blocks. -/
theorem copyLastFrames_spec (delta : Int) (n k : Nat) :
    (copyLastFrames 2 (wfdBlocks 2 delta n k)).k = k + resampledFrames delta n ∧
      Covers (4 * k) (4 * (k + resampledFrames delta n))
        (copyLastFrames 2 (wfdBlocks 2 delta n k)).writes := by
  have hstart : 2 * (k * 2) = 4 * k := by omega
  rw [wfdBlocks]
  split
  next hblock =>
    obtain ⟨hk, hcovers⟩ := copyLastFrames_spec delta (n - resampleFrames) (k + blockFrames delta)
    have hframes : k + resampledFrames delta n =
        k + blockFrames delta + resampledFrames delta (n - resampleFrames) := by
      unfold resampledFrames
      rw [Nat.div_eq_sub_div (by decide) hblock, Nat.mod_eq_sub_mod hblock, Nat.add_mul,
        Nat.one_mul]
      omega
    rw [copyLastFrames_cons, hframes, hstart]
    rw [Nat.mul_add 4 k] at hcovers
    exact ⟨hk, hcovers.cons⟩
  next hrest =>
    have hsmall : n < resampleFrames := Nat.not_le.mp hrest
    have hframes : resampledFrames delta n = n := by
      rw [resampledFrames, Nat.div_eq_of_lt hsmall, Nat.mod_eq_of_lt hsmall, Nat.zero_mul,
        Nat.zero_add]
    rw [hframes]
    unfold copyLastFrames
    split
    next =>
      have hlast : 4 * k + n * (2 * 2) = 4 * (k + n) := by omega
      refine ⟨rfl, ?_⟩
      dsimp only
      rw [hstart, ← hlast]
      exact (Covers.nil _).cons
    next hnone =>
      obtain rfl : n = 0 := Nat.eq_zero_of_not_pos hnone
      exact ⟨rfl, Covers.nil _⟩
termination_by n
decreasing_by
  unfold resampleFrames at *
  omega

/-! ## The result -/

/-- What is written is inside the array of the loop, and as many bytes are reported as were
written. -/
def WfdResampled.Right (r : WfdResampled) : Prop :=
  ∀ ws, r.writes = some ws → (∀ w ∈ ws, w.1 + w.2 ≤ outbufSize) ∧ r.size = (ws.map Prod.snd).sum

/-- A call that resamples has room for its result. -/
def ResultFits (size : Nat) (delta : Int) : Prop :=
  delta ≠ 0 → resampleFrames * 2 * 2 ≤ size → 4 * resampledFrames delta (size / 4) ≤ outbufSize

instance (size : Nat) (delta : Int) : Decidable (ResultFits size delta) :=
  inferInstanceAs (Decidable (_ → _ → _))

theorem audioResampleApi_right_iff (size : Nat) (delta : Int) :
    (audioResampleApi size 2 true delta).Right ↔ ResultFits size delta := by
  obtain ⟨hk, hwrites⟩ := copyLastFrames_spec delta (size / 4) 0
  rw [Nat.zero_add] at hk hwrites
  by_cases hresample : delta ≠ 0 ∧ resampleFrames * 2 * 2 ≤ size
  · have hcall : audioResampleApi size 2 true delta =
        ⟨4 * resampledFrames delta (size / 4) % 2 ^ 32,
          some (copyLastFrames 2 (wfdBlocks 2 delta (size / 4) 0)).writes⟩ := by
      rw [audioResampleApi, if_pos ⟨rfl, hresample⟩, ← hk, Nat.mul_comm 4]
    have hsum := hwrites.sum_eq
    have hinside := hwrites.inside_iff outbufSize (Nat.zero_le _)
    rw [WfdResampled.Right, hcall]
    constructor
    · intro h _ _
      exact hinside.mp (h _ rfl).1
    · intro hfits ws hws
      cases hws
      have hlimit := hfits hresample.1 hresample.2
      have hsmall : 4 * resampledFrames delta (size / 4) < 2 ^ 32 :=
        Nat.lt_of_le_of_lt hlimit (by decide)
      rw [Nat.zero_add] at hsum
      exact ⟨hinside.mpr hlimit, (Nat.mod_eq_of_lt hsmall).trans hsum.symm⟩
  · have hcall : audioResampleApi size 2 true delta = ⟨size, none⟩ := by
      rw [audioResampleApi, if_neg fun h => hresample h.2]
    rw [WfdResampled.Right, hcall]
    exact iff_of_true (fun _ h => absurd h.symm (Option.some_ne_none _)) fun hne hsize =>
      absurd ⟨hne, hsize⟩ hresample

/-- The delta of a turn, if it comes to the resampler. -/
def turnDelta (s : WfdLoop) (e : WfdTurn) : Option Int :=
  if e.outlen = 0 ∨ (¬ s.outInitFlag ∧ ¬ e.outInit) then none
  else selectedDelta (setWfdPcmThreshold e.properties s.thresholds)
    (int32 (e.inLatency + max e.outLatency 0))

theorem wfdTurn_resampled (s : WfdLoop) (e : WfdTurn) :
    (audioWfdDecodeLoop.step s e).2 = (turnDelta s e).map fun delta =>
      audioResampleApi e.outlen 2 true delta := by
  show (wfdTurn s e).2 = _
  unfold wfdTurn turnDelta
  by_cases hlen : e.outlen = 0
  · rw [if_pos hlen, if_pos (.inl hlen)]
    rfl
  · by_cases hinit : ¬ s.outInitFlag ∧ ¬ e.outInit
    · rw [if_neg hlen, if_pos hinit, if_pos (.inr hinit)]
      rfl
    · rw [if_neg hlen, if_neg hinit, if_neg (not_or.mpr ⟨hlen, hinit⟩)]

theorem wfd_iff (es : List WfdTurn) :
    audioWfdDecodeLoop.Always (fun s e => ∀ r, (audioWfdDecodeLoop.step s e).2 = some r → r.Right)
        ⟨.start, false⟩ es ↔
      audioWfdDecodeLoop.Always
        (fun s e => ∀ delta, turnDelta s e = some delta → ResultFits e.outlen delta)
        ⟨.start, false⟩ es := by
  refine Machine.always_congr (I := fun _ => True) (fun s e _ => ?_)
    (fun _ _ _ _ => trivial) es _ trivial
  rw [wfdTurn_resampled]
  constructor
  · intro hright delta hdelta
    exact (audioResampleApi_right_iff e.outlen delta).mp (hright _ (by rw [hdelta]; rfl))
  · intro hfits r hr
    obtain ⟨delta, hdelta, rfl⟩ := Option.map_eq_some_iff.mp hr
    exact (audioResampleApi_right_iff e.outlen delta).mpr (hfits delta hdelta)

/-- A full array at a low latency, with nothing set: 1056 frames are written, which are 4224
bytes. -/
theorem wfd_overrun :
    turnDelta ⟨.start, false⟩ ⟨⟨none, none, none, none, none⟩, 4096, 0, true, 0⟩ = some (-4) ∧
      4 * resampledFrames (-4) (4096 / 4) = 4224 ∧ ¬ (audioResampleApi 4096 2 true (-4)).Right := by
  rw [audioResampleApi_right_iff]
  decide

end AmlogicHal.Amadec

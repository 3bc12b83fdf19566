import AmlogicHal.Amadec.Resample

/-!
# Silence after a format change

When the format of the stream changes, `af_resample_api_normal` is to replace as many bytes as the
decoder still has of the old format by silence, over as many calls as it takes. A static variable
counts what is left.

A call copies `data_out` (`date_temp`) to the caller's `buffer` first and clears `data_out`
afterwards. What the calls leave in `date_temp` is what was meant (`dateTemp_silenced`), but nobody
reads it: what is delivered is silent where it has to be only if the data were silent before
(`delivered_silent_iff`).
-/

namespace AmlogicHal.Amadec

open Machine List

/-! ## The model -/

/-- A sample in memory, the low byte first. -/
def sampleBytes (x : Int) : List Nat := [(x % 256).toNat, (x / 256 % 256).toNat]

def pcmBytes (xs : List Int) : List Nat := xs.flatMap sampleBytes

/-- `memset(p, 0, n)`, seen in the bytes at `p`. -/
def silence (n : Nat) (bytes : List Nat) : List Nat :=
  List.replicate (min n bytes.length) 0 ++ bytes.drop n

/-- A call of `af_resample_api_normal`, with what `audiodsp_format_update` and
`audiodsp_get_pcm_left_len` return in it. -/
structure MutedCall where
  call : ResampleCall
  formatUpdate : Int
  leftLen : Int

/-- The resampler and the static variable `pcm_left_len`. -/
structure Muting where
  ctl : Resampler
  pcmLeftLen : Int

def Muting.initial : Muting := ⟨.initial, -1⟩

/-- The bytes that a call comes up with, what the caller gets, and what is in `data_out` at the
end. -/
structure MutedEffect where
  data : List Nat
  buffer : List Nat
  dataOut : List Nat

open MutedEffect

namespace Muting

/-- `pcm_left_len` when the call begins to clear `data_out`. -/
def leftLen (s : Muting) (e : MutedCall) : Int :=
  if e.formatUpdate > 0 then e.leftLen else s.pcmLeftLen

def call (numCh : Nat) (s : Muting) (e : MutedCall) : Muting × MutedEffect :=
  let p := s.ctl.apiNormal numCh e.call
  let data := pcmBytes p.dataOut
  if s.leftLen e ≥ 0 then
    if s.leftLen e > data.length then
      (⟨p.ctl, s.leftLen e - data.length⟩, ⟨data, data, silence data.length data⟩)
    else (⟨p.ctl, -1⟩, ⟨data, data, silence (s.leftLen e).toNat data⟩)
  else (⟨p.ctl, s.leftLen e⟩, ⟨data, data, data⟩)

end Muting

def mutedResampler (numCh : Nat) : Machine Muting MutedCall MutedEffect where
  step s e := s.call numCh e

/-! ## The law -/

/-- The byte `p` of all that is delivered has to be silent: a call reported a change, and since this
call fewer bytes were delivered than there were left. -/
def Silenced (h : List (MutedCall × MutedEffect)) (p : Nat) : Prop :=
  ∃ before x after, h = before ++ x :: after ∧ x.1.formatUpdate > 0 ∧
    (Machine.total MutedEffect.buffer before).length ≤ p ∧
      (p : Int) < (Machine.total MutedEffect.buffer before).length + x.1.leftLen

/-- What the caller gets is silent where it has to be, and unmodified elsewhere. -/
structure SilentAfterChanges (h : List (MutedCall × MutedEffect)) : Prop where
  silent : ∀ p v, Silenced h p → (Machine.total MutedEffect.buffer h)[p]? = some v → v = 0
  unmodified : ∀ p, ¬ Silenced h p →
    (Machine.total MutedEffect.buffer h)[p]? = (Machine.total MutedEffect.data h)[p]?

/-! ## Runs -/

section Runs

variable {numCh : Nat}

theorem call_buffer (s : Muting) (e : MutedCall) :
    ((mutedResampler numCh).step s e).2.buffer = ((mutedResampler numCh).step s e).2.data := by
  unfold mutedResampler Muting.call
  dsimp only
  split
  · split <;> rfl
  · rfl

theorem total_buffer (numCh : Nat) (es : List MutedCall) (s : Muting) :
    total buffer ((mutedResampler numCh).exec s es).1 =
      total data ((mutedResampler numCh).exec s es).1 := by
  induction es generalizing s with
  | nil => rfl
  | cons e es ih =>
    have hrest := ih ((mutedResampler numCh).step s e).1
    simp only [total, exec, flatMap_cons] at hrest ⊢
    rw [call_buffer, hrest]

/-- No delivered byte is ever muted, so those that have to be silent must be zero already. -/
theorem delivered_silent_iff (numCh : Nat) (s : Muting) (es : List MutedCall) :
    Machine.total MutedEffect.buffer ((mutedResampler numCh).exec s es).1 =
        Machine.total MutedEffect.data ((mutedResampler numCh).exec s es).1 ∧
      (SilentAfterChanges ((mutedResampler numCh).exec s es).1 ↔
        ∀ p v, Silenced ((mutedResampler numCh).exec s es).1 p →
          (Machine.total MutedEffect.data ((mutedResampler numCh).exec s es).1)[p]? = some v →
            v = 0) := by
  have hsame := total_buffer numCh es s
  refine ⟨hsame, ?_, ?_⟩
  · intro h p v hp hv
    exact h.silent p v hp (hsame ▸ hv)
  · intro h
    exact ⟨fun p v hp hv => h p v hp (hsame ▸ hv), fun p _ => by rw [hsame]⟩

/-! ## What is left in `date_temp` -/

theorem silence_append (n : Nat) (a b : List Nat) :
    silence n (a ++ b) = silence n a ++ silence (n - a.length) b := by
  unfold silence
  rcases Nat.le_total n a.length with hle | hle
  · have hzero : n - a.length = 0 := Nat.sub_eq_zero_of_le hle
    have hlong : n ≤ (a ++ b).length := by
      rw [length_append]
      omega
    rw [hzero, Nat.min_eq_left hle, Nat.min_eq_left hlong, drop_append_of_le_length hle]
    simp
  · have hmin : min n (a ++ b).length = a.length + min (n - a.length) b.length := by
      rw [length_append]
      omega
    rw [hmin, Nat.min_eq_right hle, drop_append, drop_eq_nil_of_le hle, replicate_add,
      nil_append, append_nil, append_assoc]

theorem silence_eq_of_le {n : Nat} {bytes : List Nat} (h : bytes.length ≤ n) :
    silence n bytes = silence bytes.length bytes := by
  unfold silence
  rw [Nat.min_eq_right h, Nat.min_self, drop_eq_nil_of_le h, drop_eq_nil_of_le (Nat.le_refl _)]

theorem call_dataOut (numCh : Nat) (s : Muting) (e : MutedCall) :
    ((mutedResampler numCh).step s e).2.dataOut =
        silence (s.leftLen e).toNat ((mutedResampler numCh).step s e).2.data ∧
      ((mutedResampler numCh).step s e).1.pcmLeftLen.toNat =
        (s.leftLen e).toNat - ((mutedResampler numCh).step s e).2.data.length := by
  unfold mutedResampler Muting.call
  dsimp only
  split
  · split
    · next hgt =>
      refine ⟨(silence_eq_of_le (by omega)).symm, ?_⟩
      dsimp only
      omega
    · next hle =>
      refine ⟨rfl, ?_⟩
      dsimp only
      omega
  · next hneg =>
    have hzero : (s.leftLen e).toNat = 0 := Int.toNat_of_nonpos (by omega)
    refine ⟨?_, ?_⟩
    · rw [hzero]
      simp [silence]
    · dsimp only
      omega

/-- As long as no further change is reported, the calls clear in `date_temp` what `pcm_left_len`
says. -/
theorem exec_dataOut (numCh : Nat) (es : List MutedCall) (s : Muting)
    (hes : ∀ e ∈ es, e.formatUpdate ≤ 0) : total dataOut ((mutedResampler numCh).exec s es).1 =
      silence s.pcmLeftLen.toNat (total data ((mutedResampler numCh).exec s es).1) := by
  induction es generalizing s with
  | nil => simp [total, exec, silence]
  | cons e es ih =>
    have hsame : s.leftLen e = s.pcmLeftLen := if_neg (Int.not_lt.mpr (hes e mem_cons_self))
    obtain ⟨hdata, hleft⟩ := call_dataOut numCh s e
    rw [hsame] at hdata hleft
    have hrest := ih ((mutedResampler numCh).step s e).1 fun e' he' =>
        hes e' (mem_cons_of_mem e he')
    rw [hleft] at hrest
    simp only [total, exec, flatMap_cons] at hrest ⊢
    rw [hdata, hrest, silence_append]

theorem dateTemp_silenced (s : Muting) (e : MutedCall) (es : List MutedCall)
    (hchange : e.formatUpdate > 0) (hes : ∀ e ∈ es, e.formatUpdate ≤ 0) :
    total dataOut ((mutedResampler numCh).exec s (e :: es)).1 =
      silence e.leftLen.toNat (total data ((mutedResampler numCh).exec s (e :: es)).1) := by
  have hnew : s.leftLen e = e.leftLen := if_pos hchange
  obtain ⟨hdata, hleft⟩ := call_dataOut numCh s e
  have hrest := exec_dataOut numCh es ((mutedResampler numCh).step s e).1 hes
  rw [hnew] at hdata hleft
  rw [hleft] at hrest
  simp only [total, exec, flatMap_cons] at hrest ⊢
  rw [hdata, hrest, silence_append]

end Runs

/-- A call that delivers two samples and reports a change with two bytes left. -/
def changeWithTwoLeft : MutedCall :=
  ⟨{ size := 4, enableResample := false, resampleType := .none, delta := 0, reads := [[5, 6]] }, 1,
    2⟩

/-- With six bytes left instead, the next call clears the rest of them and the one after it
nothing. -/
def changeOverCalls : List MutedCall :=
  { changeWithTwoLeft with leftLen := 6 } :: replicate 2
    { changeWithTwoLeft with formatUpdate := 0 }

theorem dateTemp_silenced_sixLeft :
    total dataOut ((mutedResampler 1).exec .initial changeOverCalls).1 =
      silence 6 (total data ((mutedResampler 1).exec .initial changeOverCalls).1) :=
  dateTemp_silenced _ _ _ (by decide) fun e he => by rw [eq_of_mem_replicate he]

/-- The caller gets the first sample as it is. -/
theorem change_not_silent :
    Silenced ((mutedResampler 1).exec .initial [changeWithTwoLeft]).1 0 ∧
      Machine.total MutedEffect.buffer ((mutedResampler 1).exec .initial [changeWithTwoLeft]).1 =
        [5, 0, 6, 0] ∧
      Machine.total MutedEffect.dataOut ((mutedResampler 1).exec .initial [changeWithTwoLeft]).1 =
        [0, 0, 6, 0] ∧
      ¬ SilentAfterChanges ((mutedResampler 1).exec .initial [changeWithTwoLeft]).1 := by
  have hsilenced : Silenced ((mutedResampler 1).exec .initial [changeWithTwoLeft]).1 0 :=
    ⟨[], _, [], rfl, by decide, Nat.zero_le 0, by decide⟩
  have hbuffer : total buffer
      ((mutedResampler 1).exec .initial [changeWithTwoLeft]).1 = [5, 0, 6, 0] := by
    decide
  refine ⟨hsilenced, hbuffer, by decide, fun h => ?_⟩
  exact absurd (h.silent 0 5 hsilenced (by rw [hbuffer]; rfl)) (by decide)

end AmlogicHal.Amadec

import AmlogicHal.Lib.Machine

/-!
# The calls of the DTV patch

`dtv_patch_out.c` keeps two flags: `out_patch_initd` is set while there is a decoder and an output
thread, `state` says what the thread should do. `dtv_patch_input_pause` and `dtv_patch_input_resume`
set the state alone. A resume on a patch that is not started leaves the state `RUNNING`, and the
next start refuses to run (`resume_blocksStart`).

`patch_agrees_iff`: over all sequences of calls the flags agree, and every start of a patch that is
not initialised succeeds, if and only if no such pause or resume is made.
-/

namespace AmlogicHal.Amadec

/-! ## The model -/

/-- `DTV_PATCH_STATE_*`. -/
inductive PatchState
  | cloded | opened | running | pause | resume | stoped
deriving DecidableEq

/-- `outparam` and `out_patch_initd`. Of the pointers only whether they are set is kept; `thread`
says that there is an output thread. -/
structure DtvPatch where
  statusCb : Bool
  state : PatchState
  audec : Bool
  thread : Bool
  outPatchInitd : Bool
deriving DecidableEq

/-- A call, with its handle. `inputOpen` may get null pointers; `inputStart` comes with the results
of `audio_decode_init` and `pthread_create`. -/
inductive PatchCall
  | inputOpen (argumentsSet : Bool)
  | inputStart (handle : Nat) (decodeInit threadCreate : Bool)
  | inputPause (handle : Nat)
  | inputResume (handle : Nat)
  | inputStop (handle : Nat)
deriving DecidableEq

variable (s : DtvPatch)

namespace DtvPatch

def initial : DtvPatch := ⟨false, .cloded, false, false, false⟩

def inputOpen (argumentsSet : Bool) : DtvPatch × Option Int :=
  if argumentsSet then ({ s with statusCb := true }, some 0) else (s, some (-1))

/-- The results of `audio_decode_init` and `pthread_create` are not looked at. Without a status
callback the call does not return: a null pointer is called. -/
def inputStart (handle : Nat) (decodeInit threadCreate : Bool) :
    DtvPatch × Option Int :=
  if handle = 0 then (s, some (-1))
  else if s.outPatchInitd then (s, some (-1))
  else if s.state = .running then (s, some (-1))
  else if s.statusCb then
    ({ s with
      state := .running, audec := decodeInit, thread := threadCreate, outPatchInitd := true },
      some 0)
  else ({ s with state := .running, audec := false }, none)

def inputPause (handle : Nat) : DtvPatch × Option Int :=
  if handle = 0 then (s, some (-1)) else ({ s with state := .pause }, some 0)

def inputResume (handle : Nat) : DtvPatch × Option Int :=
  if handle = 0 then (s, some (-1)) else ({ s with state := .running }, some 0)

/-- `audio_decode_release` reads through the pointer to the decoder, so that without one the call
does not return. -/
def inputStop (handle : Nat) : DtvPatch × Option Int :=
  if handle = 0 then (s, some (-1))
  else if s.outPatchInitd then
    if s.audec then
      ({ s with state := .stoped, audec := false, thread := false, outPatchInitd := false }, some 0)
    else ({ s with state := .stoped, thread := false }, none)
  else (s, some (-1))

end DtvPatch

open DtvPatch

/-- A call returns with the mutex free; a call that does not return has the result `none`. -/
def patchMachine : Machine DtvPatch PatchCall (Option Int) where
  step s
    | .inputOpen argumentsSet => s.inputOpen argumentsSet
    | .inputStart handle decodeInit threadCreate => s.inputStart handle decodeInit threadCreate
    | .inputPause handle => s.inputPause handle
    | .inputResume handle => s.inputResume handle
    | .inputStop handle => s.inputStop handle

/-! ## The two flags -/

/-- The handle is one that `dtv_patch_input_open` has given out. -/
def ValidHandle : PatchCall → Prop
  | .inputOpen _ => True
  | .inputStart handle _ _ | .inputPause handle | .inputResume handle | .inputStop handle =>
    handle ≠ 0 ∧ s.statusCb = true

def DtvPatch.Busy (s : DtvPatch) : Prop := s.state = .running ∨ s.state = .pause

/-- After this call the state is `RUNNING` or `PAUSE` only if `out_patch_initd` is set; and if it is
a start and `out_patch_initd` was not set, it succeeds. -/
structure FlagsAgree (s : DtvPatch) (e : PatchCall) : Prop where
  busy : (patchMachine.step s e).1.Busy → (patchMachine.step s e).1.outPatchInitd = true
  starts : ∀ handle decodeInit threadCreate, e = .inputStart handle decodeInit threadCreate →
    s.outPatchInitd = false → (patchMachine.step s e).2 = some 0

/-- After this call the state is `RUNNING` or `PAUSE` only if there are a decoder and a thread. -/
def DecoderExists (e : PatchCall) : Prop :=
  (patchMachine.step s e).1.Busy →
    (patchMachine.step s e).1.audec = true ∧ (patchMachine.step s e).1.thread = true

/-- A pause or a resume is made only while `out_patch_initd` is set. -/
def PausesInitd : PatchCall → Prop
  | .inputPause _ | .inputResume _ => s.outPatchInitd = true
  | _ => True

/-- A start that begins gets its decoder and its thread. -/
def StartsWhole : PatchCall → Prop
  | .inputStart _ decodeInit threadCreate =>
    s.outPatchInitd = false → decodeInit = true ∧ threadCreate = true
  | _ => True

instance : (e : PatchCall) → Decidable (ValidHandle s e)
  | .inputOpen _ => .isTrue trivial
  | .inputStart _ _ _ | .inputPause _ | .inputResume _ | .inputStop _ =>
    inferInstanceAs (Decidable (_ ∧ _))

variable {s : DtvPatch} {e : PatchCall}

/-! ### One call -/

theorem step_inputStart {handle : Nat} (hvalid : handle ≠ 0 ∧ s.statusCb = true) (hbusy : ¬ s.Busy)
    (hinitd : s.outPatchInitd = false) (decodeInit threadCreate : Bool) :
    patchMachine.step s (.inputStart handle decodeInit threadCreate) =
      ({ s with
        state := .running, audec := decodeInit, thread := threadCreate, outPatchInitd := true },
        some 0) := by
  have hstate : s.state ≠ .running := fun hrunning => hbusy (.inl hrunning)
  show s.inputStart handle decodeInit threadCreate = _
  unfold inputStart
  rw [if_neg hvalid.1, if_neg (Bool.eq_false_iff.mp hinitd), if_neg hstate, if_pos hvalid.2]

theorem step_inputStart_initd {handle : Nat} {decodeInit threadCreate : Bool}
    (hinitd : s.outPatchInitd = true) :
    patchMachine.step s (.inputStart handle decodeInit threadCreate) = (s, some (-1)) := by
  show s.inputStart handle decodeInit threadCreate = _
  unfold inputStart
  rw [if_pos hinitd, ite_self]

theorem step_inputStop (s : DtvPatch) (handle : Nat) :
    (patchMachine.step s (.inputStop handle)).1 = s ∨
    ¬ (patchMachine.step s (.inputStop handle)).1.Busy := by
  show (s.inputStop handle).1 = s ∨ ¬ (s.inputStop handle).1.Busy
  unfold inputStop
  split
  · exact .inl rfl
  · split
    · split <;> exact .inr (by simp [Busy])
    · exact .inl rfl

theorem step_inputOpen (s : DtvPatch) (argumentsSet : Bool) :
    ∃ statusCb, (patchMachine.step s (.inputOpen argumentsSet)).1 =
      { s with statusCb := statusCb } := by
  cases argumentsSet with
  | true => exact ⟨true, rfl⟩
  | false => exact ⟨s.statusCb, rfl⟩

theorem flagsAgree_of_tells {state : PatchState} (hstate : state = .running ∨ state = .pause)
    (hstep : patchMachine.step s e = ({ s with state := state }, some 0)) :
    FlagsAgree s e ↔ s.outPatchInitd = true := by
  constructor
  · intro hagree
    have hbusy := hagree.busy
    rw [hstep] at hbusy
    exact hbusy hstate
  · intro hinitd
    exact ⟨by rw [hstep]; exact fun _ => hinitd, fun _ _ _ _ _ => by rw [hstep]⟩

theorem flagsAgree_iff (h : s.Busy → s.outPatchInitd = true) (hvalid : ValidHandle s e) :
    FlagsAgree s e ↔ PausesInitd s e := by
  cases e with
  | inputOpen argumentsSet =>
    obtain ⟨statusCb, heq⟩ := step_inputOpen s argumentsSet
    exact iff_of_true ⟨by rw [heq]; exact h, nofun⟩ trivial
  | inputStart handle decodeInit threadCreate =>
    refine iff_of_true ?_ trivial
    cases hinitd : s.outPatchInitd with
    | true =>
      refine ⟨?_, fun _ _ _ _ hfalse => (nomatch hinitd.symm.trans hfalse)⟩
      rw [step_inputStart_initd hinitd]
      exact h
    | false =>
      have hbusy : ¬ s.Busy := fun hbusy => nomatch hinitd.symm.trans (h hbusy)
      have hstep := step_inputStart hvalid hbusy hinitd decodeInit threadCreate
      exact ⟨by rw [hstep]; exact fun _ => rfl, fun _ _ _ _ _ => by rw [hstep]⟩
  | inputPause handle => exact flagsAgree_of_tells (.inr rfl) (if_neg hvalid.1)
  | inputResume handle => exact flagsAgree_of_tells (.inl rfl) (if_neg hvalid.1)
  | inputStop handle =>
    refine iff_of_true ⟨?_, nofun⟩ trivial
    rcases step_inputStop s handle with heq | hidle
    · rw [heq]
      exact h
    · exact fun hbusy => absurd hbusy hidle

/-- There are a decoder and a thread while `out_patch_initd` is set. -/
def Whole (s : DtvPatch) : Prop := s.outPatchInitd = true → s.audec = true ∧ s.thread = true

/-- Only a start can leave `out_patch_initd` set without a decoder or a thread. -/
theorem whole_step (hwhole : Whole s) (hstart : ∀ handle d t, e ≠ .inputStart handle d t) :
    Whole (patchMachine.step s e).1 := by
  cases e with
  | inputOpen argumentsSet =>
    obtain ⟨statusCb, heq⟩ := step_inputOpen s argumentsSet
    rw [heq]
    exact hwhole
  | inputStart handle d t => exact absurd rfl (hstart handle d t)
  | inputPause handle =>
    show Whole (s.inputPause handle).1
    unfold inputPause
    split <;> exact hwhole
  | inputResume handle =>
    show Whole (s.inputResume handle).1
    unfold inputResume
    split <;> exact hwhole
  | inputStop handle =>
    show Whole (s.inputStop handle).1
    unfold inputStop
    split
    · exact hwhole
    · split
      · next hinitd =>
        rw [if_pos (hwhole hinitd).1]
        exact nofun
      · exact hwhole

/-- While the flags agree, the decoder and the thread depend on the starts alone. -/
theorem decoderExists_iff (h : s.Busy → s.outPatchInitd = true) (hwhole : Whole s)
    (hvalid : ValidHandle s e) (hagree : FlagsAgree s e) :
    (DecoderExists s e ↔ StartsWhole s e) ∧
    (StartsWhole s e → Whole (patchMachine.step s e).1) := by
  -- a call that keeps the decoder and the thread
  have hkeeps (hnext : Whole (patchMachine.step s e).1) (hstarts : StartsWhole s e) :
      (DecoderExists s e ↔ StartsWhole s e) ∧ (StartsWhole s e → Whole (patchMachine.step s e).1) :=
    ⟨iff_of_true (fun hbusy => hnext (hagree.busy hbusy)) hstarts, fun _ => hnext⟩
  cases e with
  | inputStart handle decodeInit threadCreate =>
    cases hinitd : s.outPatchInitd with
    | true =>
      refine hkeeps ?_ fun hfalse => (nomatch hinitd.symm.trans hfalse)
      rw [step_inputStart_initd hinitd]
      exact hwhole
    | false =>
      have hbusy : ¬ s.Busy := fun hbusy => nomatch hinitd.symm.trans (h hbusy)
      have hstep := step_inputStart hvalid hbusy hinitd decodeInit threadCreate
      unfold DecoderExists Whole
      rw [hstep]
      exact ⟨⟨fun hdecoder _ => hdecoder (.inl rfl), fun hstarts _ => hstarts hinitd⟩,
        fun hstarts _ => hstarts hinitd⟩
  | inputOpen _ => exact hkeeps (whole_step hwhole nofun) trivial
  | inputPause _ => exact hkeeps (whole_step hwhole nofun) trivial
  | inputResume _ => exact hkeeps (whole_step hwhole nofun) trivial
  | inputStop _ => exact hkeeps (whole_step hwhole nofun) trivial

/-! ### Runs -/

/-- Calls have a valid handle. There are a decoder and a thread while the state is `RUNNING` or
`PAUSE`, if and only if every start gets them. -/
theorem patch_agrees_iff (es : List PatchCall)
    (hvalid : patchMachine.Always ValidHandle .initial es) :
    (patchMachine.Always FlagsAgree .initial es ↔ patchMachine.Always PausesInitd .initial es) ∧
      (patchMachine.Always (fun s e => FlagsAgree s e ∧ DecoderExists s e) .initial es ↔
        patchMachine.Always (fun s e => PausesInitd s e ∧ StartsWhole s e) .initial es) := by
  have hidle : initial.Busy → initial.outPatchInitd = true := by
    rintro (hstate | hstate) <;> exact absurd hstate nofun
  constructor
  · exact hvalid.congr (I := fun s => s.Busy → s.outPatchInitd = true)
      (fun s e h hv => flagsAgree_iff h hv) (fun s e _ _ hagree => hagree.busy) hidle
  · refine hvalid.congr (I := fun s => (s.Busy → s.outPatchInitd = true) ∧ Whole s)
      (fun s e h hv => ?_) (fun s e h hv hp => ?_) ⟨hidle, nofun⟩
    · rw [← flagsAgree_iff h.1 hv]
      exact and_congr_right fun hagree => (decoderExists_iff h.1 h.2 hv hagree).1
    · have hiff := decoderExists_iff h.1 h.2 hv hp.1
      exact ⟨hp.1.busy, hiff.2 (hiff.1.mp hp.2)⟩

/-- The patch is opened, started, paused, resumed, stopped and started again. -/
theorem patch_agrees_restarted :
    patchMachine.Always (fun s e => FlagsAgree s e ∧ DecoderExists s e) .initial
      [.inputOpen true, .inputStart 1 true true, .inputPause 1, .inputResume 1, .inputStop 1,
        .inputStart 1 true true] :=
  (patch_agrees_iff _ (by decide)).2.mpr
    ⟨⟨trivial, trivial⟩, ⟨trivial, fun _ => ⟨rfl, rfl⟩⟩, ⟨rfl, trivial⟩, ⟨rfl, trivial⟩,
      ⟨trivial, trivial⟩,
      ⟨trivial, fun _ => ⟨rfl, rfl⟩⟩, trivial⟩

theorem resume_blocksStart :
    (patchMachine.exec .initial [.inputOpen true, .inputResume 1]).2 =
        ⟨true, .running, false, false, false⟩ ∧
      (patchMachine.exec .initial
        [.inputOpen true, .inputResume 1, .inputStart 1 true true]).1.getLast? =
        some (.inputStart 1 true true, some (-1)) := by
  decide

end AmlogicHal.Amadec

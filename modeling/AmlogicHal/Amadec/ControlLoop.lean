import AmlogicHal.Lib.Machine

/-!
# The control loop of the decoder

`adec_armdec_loop` initialises the codec and the output, starts the threads that read packages and
decode them, and handles commands. `start_decode_thread` creates the threads whenever the state is
`INITTED`. But `start_adec` leaves `INITTED` only if the video time stamp can be read and no stop
was requested; otherwise the next `CMD_START` creates the threads again over the ids of the first
ones, which are never joined (`start_createsTwice`).

`threads_safe_iff`: over all sequences of commands and outcomes, the threads are created once and
joined, and the codec is released at most once, if and only if no `CMD_START` is handled in the
state `INITTED`.
-/

namespace AmlogicHal.Amadec

/-! ## The model -/

inductive AdecState
  | idle | terminated | stopped | initing | initted | active | paused
deriving DecidableEq

def AdecState.value : AdecState → Nat
  | .idle => 0
  | .terminated => 1
  | .stopped => 2
  | .initing => 3
  | .initted => 4
  | .active => 5
  | .paused => 6

/-- The main pair of threads, and the pair for the associated audio. -/
inductive ThreadKind
  | getpackage | decode | adGetpackage | adDecode
deriving DecidableEq

structure Thread where
  kind : ThreadKind
  tid : Nat
deriving DecidableEq

/-- What does not change while the loop runs: `StageFrightCodecEnableType` is set, and
`associate_dec_supported`. -/
structure AdecConfig where
  stageFright : Bool
  associate : Bool

inductive ControlStage
  | codecInit | aoutInit | messages | finished
deriving DecidableEq

/-- The fields of `audec` that the loop uses. An id of -1 is `none`. `unjoined` are the threads that
were created and not joined, `nextTid` is the id of the next one. -/
structure Control where
  stage : ControlStage
  state : AdecState
  exitDecodeThread : Bool
  snThreadid : Option Nat
  snGetpackageThreadid : Option Nat
  adSnThreadid : Option Nat
  adSnGetpackageThreadid : Option Nat
  unjoined : List Thread
  nextTid : Nat

/-- The commands; `output` stands for those that only concern the output (mute, volume,
channels). -/
inductive Command
  | start | pause | resume | stop | release | output
deriving DecidableEq

/-- How `start_adec` ends if the state is `INITTED`: the output is started, the video time stamp
cannot be read, or a stop was requested. -/
inductive StartOutcome
  | started | noVpts | needStop
deriving DecidableEq

structure ControlInput where
  needStop : Bool
  codecInit : Bool
  /-- The initialisation of the output returns 0. -/
  aoutInit : Bool
  startAdec : StartOutcome
  message : Option Command

/-- An iteration ends with a successful `audio_codec_init`, or calls `audio_codec_release`. -/
structure ControlEffect where
  inits : Bool
  releases : Bool

variable (s : Control)

namespace Control

/-- `amthreadpool_pthread_create_name`. -/
def create (kind : ThreadKind) : Control :=
  { s with unjoined := s.unjoined ++ [⟨kind, s.nextTid⟩], nextTid := s.nextTid + 1 }

def join (tid : Option Nat) : Control :=
  { s with unjoined := s.unjoined.filter fun t => tid ≠ some t.tid }

def createAssociated : Control :=
  { (s.create .adGetpackage).create .adDecode with
    adSnGetpackageThreadid := some s.nextTid
    adSnThreadid := some (s.nextTid + 1) }

def createMain : Control :=
  { (s.create .getpackage).create .decode with
    snGetpackageThreadid := some s.nextTid
    snThreadid := some (s.nextTid + 1) }

variable (c : AdecConfig)

def startDecodeThread : Control :=
  if s.state ≠ .initted then s
  else if c.associate then s.createAssociated.createMain
  else s.createMain

def stopDecodeThread : Control :=
  let joined := (s.join s.snThreadid).join s.snGetpackageThreadid
  let main :=
    { joined with exitDecodeThread := true, snThreadid := none, snGetpackageThreadid := none }
  if c.associate then
    { (main.join main.adSnThreadid).join main.adSnGetpackageThreadid with
      adSnThreadid := none
      adSnGetpackageThreadid := none }
  else main

/-- The id of the package thread is forgotten here. -/
def stopDecodeThreadOmx : Control :=
  { s.join s.snThreadid with
    exitDecodeThread := true
    snThreadid := none
    snGetpackageThreadid := none }

def audioCodecRelease : Control :=
  if c.stageFright then s.stopDecodeThreadOmx else s.stopDecodeThread c

def startAdec (outcome : StartOutcome) (s : Control) : Control :=
  if s.state = .initted ∧ outcome = .started then { s with state := .active } else s

def pauseAdec : Control := if s.state = .active then { s with state := .paused } else s

def resumeAdec : Control := if s.state = .paused then { s with state := .active } else s

/-- `audio_codec_release` is called if and only if the second component is true. -/
def stopAdec : Control × Bool :=
  if s.state.value > AdecState.initing.value then
    ({ s with state := .stopped }.audioCodecRelease c, true)
  else (s, false)

def handle (outcome : StartOutcome) : Command → Control × Bool
  | .start => ((s.startDecodeThread c).startAdec outcome, false)
  | .pause => (s.pauseAdec, false)
  | .resume => (s.resumeAdec, false)
  | .stop => s.stopAdec c
  | .release => ({ s with state := .terminated, stage := .finished }, false)
  | .output => (s, false)

/-- The fields that `audio_codec_init` sets, whatever it returns. -/
def reset : Control :=
  { s with
    exitDecodeThread := false
    snThreadid := none
    snGetpackageThreadid := none
    adSnThreadid := none
    adSnGetpackageThreadid := none }

def initial : Control where
  stage := .codecInit
  state := .initing
  exitDecodeThread := false
  snThreadid := none
  snGetpackageThreadid := none
  adSnThreadid := none
  adSnGetpackageThreadid := none
  unjoined := []
  nextTid := 0

end Control

open Control

def controlLoop (c : AdecConfig) : Machine Control ControlInput ControlEffect where
  step s e :=
    match s.stage with
    | .codecInit =>
      if e.needStop then ({ s with stage := .messages }, ⟨false, false⟩)
      else if e.codecInit then
        ({ s.reset with state := .initted, stage := .aoutInit }.startDecodeThread c, ⟨true, false⟩)
      else (s.reset, ⟨false, false⟩)
    | .aoutInit =>
      if e.aoutInit then ({ s with stage := .messages }.startAdec e.startAdec, ⟨false, false⟩)
      else (s, ⟨false, false⟩)
    | .messages =>
      match e.message with
      | none => (s, ⟨false, false⟩)
      | some cmd => ((s.handle c e.startAdec cmd).1, ⟨false, (s.handle c e.startAdec cmd).2⟩)
    | .finished => (s, ⟨false, false⟩)

/-! ## Safety -/

section Safety

variable (c : AdecConfig)

/-- After this step there is at most one thread of each kind; if the step creates threads, there was
no main decode thread before; if it handles a stop command, there is none after (with StageFright an
associated one is left, as only the main one is joined); and the codec was not released more often
than it was initialised. -/
structure Safe (s : Control × List (ControlInput × ControlEffect)) (e : ControlInput) : Prop where
  single : (((controlLoop c).step s.1 e).1.unjoined.map Thread.kind).Nodup
  fresh : ((controlLoop c).step s.1 e).1.nextTid ≠ s.1.nextTid →
    ∀ t ∈ s.1.unjoined, t.kind ≠ .decode
  stopped : s.1.stage = .messages → e.message = some .stop →
    ∀ t ∈ ((controlLoop c).step s.1 e).1.unjoined, t.kind ≠ .decode
  released : ((controlLoop c).recorded.step s e).1.2.countP (fun x => x.2.releases) ≤
    ((controlLoop c).recorded.step s e).1.2.countP (fun x => x.2.inits)

/-- A `CMD_START` is handled in the state `INITTED`. -/
def StartsAgain (e : ControlInput) : Prop :=
  s.stage = .messages ∧ s.state = .initted ∧ e.message = some .start

instance (e : ControlInput) : Decidable (StartsAgain s e) :=
  inferInstanceAs (Decidable (_ ∧ _ ∧ _))

/-- `audio_codec_init` was called successfully, and `stop_adec` has not been called since. -/
def Running (s : Control) : Prop := s.stage ≠ .finished ∧ s.state.value > AdecState.initing.value

/-- What holds between the steps as long as no threads were created twice. -/
structure Consistent (s : Control) (h : List (ControlInput × ControlEffect)) : Prop where
  single : (s.unjoined.map Thread.kind).Nodup
  current : ∀ t ∈ s.unjoined, t.kind = .decode → s.snThreadid = some t.tid
  starting : s.stage = .codecInit → s.state = .initing ∧ s.unjoined = []
  opened : s.stage = .aoutInit → s.state = .initted
  running : Running s → ∃ t ∈ s.unjoined, t.kind = .decode
  idle : s.stage = .messages → ¬ Running s → ∀ t ∈ s.unjoined, t.kind ≠ .decode
  released : h.countP (fun x => x.2.releases) ≤ h.countP fun x => x.2.inits
  owed : Running s → h.countP (fun x => x.2.releases) < h.countP fun x => x.2.inits

variable {c} {s : Control} {h : List (ControlInput × ControlEffect)} {e : ControlInput}

namespace Control

theorem createMain_frame (s : Control) : s.createMain.nextTid = s.nextTid + 2 ∧
    s.createMain.state = s.state ∧ s.createMain.stage = s.stage :=
  ⟨rfl, rfl, rfl⟩

theorem createAssociated_frame (s : Control) : s.createAssociated.nextTid = s.nextTid + 2 ∧
    s.createAssociated.state = s.state ∧ s.createAssociated.stage = s.stage :=
  ⟨rfl, rfl, rfl⟩

theorem startDecodeThread_spec (hstate : s.state = .initted) :
    (s.startDecodeThread c).nextTid ≠ s.nextTid ∧ (s.startDecodeThread c).state = .initted ∧
      (s.startDecodeThread c).stage = s.stage ∧
      (s.unjoined = [] → ((s.startDecodeThread c).unjoined.map Thread.kind).Nodup ∧
        (∃ t ∈ (s.startDecodeThread c).unjoined, t.kind = .decode) ∧
        ∀ t ∈ (s.startDecodeThread c).unjoined, t.kind = .decode →
          (s.startDecodeThread c).snThreadid = some t.tid) := by
  unfold startDecodeThread
  rw [if_neg (not_not.mpr hstate)]
  split
  · obtain ⟨hnext, hstate', hstage⟩ := createMain_frame s.createAssociated
    obtain ⟨hnext', hstate'', hstage'⟩ := createAssociated_frame s
    refine ⟨Nat.ne_of_gt (Nat.lt_add_of_pos_right (by decide : 0 < 4)), hstate, rfl,
      fun hnone => ?_⟩
    simp [createAssociated, createMain, create, hnone]
  · obtain ⟨hnext, hstate', hstage⟩ := createMain_frame s
    refine ⟨Nat.ne_of_gt (Nat.lt_add_of_pos_right (by decide : 0 < 2)), hstate, rfl,
      fun hnone => ?_⟩
    simp [createMain, create, hnone]

theorem join_sublist (s : Control) (tid : Option Nat) :
    (s.join tid).unjoined.Sublist s.unjoined := List.filter_sublist

/-- A release joins the thread of `sn_threadid`, and perhaps others. -/
theorem audioCodecRelease_spec (c : AdecConfig) (s : Control) :
    (s.audioCodecRelease c).unjoined.Sublist (s.join s.snThreadid).unjoined ∧
      (s.audioCodecRelease c).nextTid = s.nextTid ∧ (s.audioCodecRelease c).state = s.state ∧
      (s.audioCodecRelease c).stage = s.stage := by
  unfold audioCodecRelease
  split
  · exact ⟨List.Sublist.refl _, rfl, rfl, rfl⟩
  · unfold stopDecodeThread
    split
    · refine ⟨?_, rfl, rfl, rfl⟩
      exact ((join_sublist _ _).trans (join_sublist _ _)).trans (join_sublist _ _)
    · exact ⟨join_sublist _ _, rfl, rfl, rfl⟩

end Control

/-! ### One step -/

structure StepOk (s : Control) (e : ControlInput) (x : Control × ControlEffect) : Prop where
  single : (x.1.unjoined.map Thread.kind).Nodup
  current : ∀ t ∈ x.1.unjoined, t.kind = .decode → x.1.snThreadid = some t.tid
  starting : x.1.stage = .codecInit → x.1.state = .initing ∧ x.1.unjoined = []
  opened : x.1.stage = .aoutInit → x.1.state = .initted
  running : Running x.1 → ∃ t ∈ x.1.unjoined, t.kind = .decode
  idle : x.1.stage = .messages → ¬ Running x.1 → ∀ t ∈ x.1.unjoined, t.kind ≠ .decode
  fresh : x.1.nextTid ≠ s.nextTid → ∀ t ∈ s.unjoined, t.kind ≠ .decode
  stopped : s.stage = .messages → e.message = some .stop → ∀ t ∈ x.1.unjoined, t.kind ≠ .decode
  /-- Nothing is initialised or released, or the codec is initialised, or it is released and was
  initialised. -/
  balance : (x.2 = ⟨false, false⟩ ∧ (Running x.1 → Running s)) ∨ x.2 = ⟨true, false⟩ ∨
    (x.2 = ⟨false, true⟩ ∧ Running s ∧ ¬ Running x.1)

theorem StepOk.safe (hok : StepOk s e ((controlLoop c).step s e)) (hc : Consistent s h) :
    Safe c (s, h) e ∧ Consistent ((controlLoop c).recorded.step (s, h) e).1.1
      ((controlLoop c).recorded.step (s, h) e).1.2 := by
  have hcount (p : ControlInput × ControlEffect → Bool) :
      ((controlLoop c).recorded.step (s, h) e).1.2.countP p =
        h.countP p + if p (e, ((controlLoop c).step s e).2) then 1 else 0 := by
    show (h ++ [_]).countP p = _
    rw [List.countP_append, List.countP_singleton]
  have hcounts : h.countP (fun x => x.2.releases) +
        (if ((controlLoop c).step s e).2.releases then 1 else 0) ≤
      h.countP (fun x => x.2.inits) + (if ((controlLoop c).step s e).2.inits then 1 else 0) ∧
      (Running ((controlLoop c).step s e).1 → h.countP (fun x => x.2.releases) +
        (if ((controlLoop c).step s e).2.releases then 1 else 0) <
      h.countP (fun x => x.2.inits) + (if ((controlLoop c).step s e).2.inits then 1 else 0)) := by
    rcases hok.balance with ⟨heffect, hrun⟩ | heffect | ⟨heffect, hrun, hnot⟩
    · rw [heffect]
      exact ⟨hc.released, fun hr => hc.owed (hrun hr)⟩
    · rw [heffect]
      exact ⟨Nat.le_succ_of_le hc.released, fun _ => Nat.lt_succ_of_le hc.released⟩
    · rw [heffect]
      exact ⟨hc.owed hrun, fun hr => absurd hr hnot⟩
  have hreleased := hcounts.1
  have howed := hcounts.2
  rw [← hcount fun x => x.2.releases, ← hcount fun x => x.2.inits] at hreleased howed
  exact ⟨⟨hok.single, hok.fresh, hok.stopped, hreleased⟩,
    ⟨hok.single, hok.current, hok.starting, hok.opened, hok.running, hok.idle, hreleased, howed⟩⟩

theorem StepOk.keep (hc : Consistent s h) {s' : Control} (hunjoined : s'.unjoined = s.unjoined)
    (hid : s'.snThreadid = s.snThreadid) (hnext : s'.nextTid = s.nextTid)
    (hstage : s'.stage = .messages ∨ s'.stage = .finished) (hrunning : Running s' → Running s)
    (hidle : s'.stage = .messages → ¬ Running s' → ∀ t ∈ s.unjoined, t.kind ≠ .decode)
    (hstop : s.stage = .messages → e.message = some .stop → ∀ t ∈ s.unjoined, t.kind ≠ .decode) :
    StepOk s e (s', ⟨false, false⟩) where
  single := by rw [hunjoined]; exact hc.single
  current := by rw [hunjoined, hid]; exact hc.current
  starting := by
    intro hinit
    rcases hstage with hstage | hstage <;> exact absurd (hstage.symm.trans hinit) nofun
  opened := by
    intro hinit
    rcases hstage with hstage | hstage <;> exact absurd (hstage.symm.trans hinit) nofun
  running := by rw [hunjoined]; exact fun hr => hc.running (hrunning hr)
  idle := by rw [hunjoined]; exact hidle
  fresh := fun hne => absurd hnext hne
  stopped := by rw [hunjoined]; exact hstop
  balance := .inl ⟨rfl, hrunning⟩

theorem codecInit_ok (hc : Consistent s h) (hstage : s.stage = .codecInit) :
    StepOk s e ((controlLoop c).step s e) := by
  obtain ⟨hstate, hnone⟩ := hc.starting hstage
  have hnot : ¬ s.stage = .messages := fun hm => nomatch hstage.symm.trans hm
  have hempty : ∀ t ∈ s.unjoined, t.kind ≠ .decode := by rw [hnone]; exact nofun
  unfold controlLoop
  simp only [hstage]
  split
  · exact .keep hc rfl rfl rfl (.inl rfl) (fun hr => ⟨by rw [hstage]; exact nofun, hr.2⟩)
      (fun _ _ => hempty) fun hm => absurd hm hnot
  · split
    · -- the threads are created for the first time
      obtain ⟨-, hinitted, haout, hthreads⟩ := startDecodeThread_spec
        (s := { s.reset with state := .initted, stage := .aoutInit }) rfl
      obtain ⟨hsingle, hdecode, hcurrent⟩ := hthreads hnone
      exact ⟨hsingle, hcurrent, fun hinit => (nomatch haout.symm.trans hinit), fun _ => hinitted,
        fun _ => hdecode, fun hm => (nomatch haout.symm.trans hm), fun _ => hempty,
        fun hm => absurd hm hnot, .inr (.inl rfl)⟩
    · exact ⟨hc.single, by simp [reset, hnone], fun _ => ⟨hstate, hnone⟩,
        fun ha => (nomatch hstage.symm.trans ha), fun hr => hc.running hr,
        fun hm => absurd hm hnot, fun hne => absurd rfl hne, fun hm => absurd hm hnot,
        .inl ⟨rfl, fun hr => hr⟩⟩

theorem startAdec_eq (outcome : StartOutcome) (s : Control) :
    ∃ state : AdecState, s.startAdec outcome = { s with state := state } ∧
      (state.value > AdecState.initing.value ↔ s.state.value > AdecState.initing.value) := by
  unfold startAdec
  split
  · next hstate =>
    rw [hstate.1]
    exact ⟨.active, rfl, by decide⟩
  · exact ⟨s.state, rfl, Iff.rfl⟩

theorem aoutInit_ok (hc : Consistent s h) (hstage : s.stage = .aoutInit) :
    StepOk s e ((controlLoop c).step s e) := by
  have hstate := hc.opened hstage
  have hrunning : Running s := ⟨by rw [hstage]; exact nofun, by rw [hstate]; decide⟩
  have hnot : ¬ s.stage = .messages := fun hm => nomatch hstage.symm.trans hm
  unfold controlLoop
  simp only [hstage]
  split
  · obtain ⟨state, heq, hvalue⟩ := startAdec_eq e.startAdec { s with stage := .messages }
    rw [heq]
    exact .keep hc rfl rfl rfl (.inl rfl) (fun _ => hrunning)
      (fun _ hr => absurd ⟨nofun, hvalue.mpr hrunning.2⟩ hr) fun hm => absurd hm hnot
  · exact ⟨hc.single, hc.current, hc.starting, hc.opened, hc.running, hc.idle,
      fun hne => absurd rfl hne, fun hm => absurd hm hnot, .inl ⟨rfl, fun hr => hr⟩⟩

theorem step_message (hstage : s.stage = .messages) {cmd : Command}
    (hmessage : e.message = some cmd) :
    (controlLoop c).step s e =
      ((s.handle c e.startAdec cmd).1, ⟨false, (s.handle c e.startAdec cmd).2⟩) := by
  unfold controlLoop
  simp [hstage, hmessage]

section

variable (hc : Consistent s h)
include hc

section

variable (hstage : s.stage = .messages)
include hstage

theorem StepOk.ofState {state : AdecState}
    (hvalue : state.value > AdecState.initing.value ↔ s.state.value > AdecState.initing.value)
    (hstop : e.message = some .stop → ¬ Running s) :
    StepOk s e ({ s with state := state }, ⟨false, false⟩) := by
  have hrunning : Running { s with state := state } ↔ Running s := and_congr_right fun _ => hvalue
  exact .keep hc rfl rfl rfl (.inl hstage) hrunning.mp
    (fun hm hr => hc.idle hm (mt hrunning.mpr hr)) fun hm hstopped => hc.idle hm (hstop hstopped)

theorem stop_ok (hmessage : e.message = some .stop) : StepOk s e ((controlLoop c).step s e) := by
  rw [step_message hstage hmessage]
  show StepOk s e ((s.stopAdec c).1, ⟨false, (s.stopAdec c).2⟩)
  unfold stopAdec
  split
  · next hvalue =>
    have hrunning : Running s := ⟨by rw [hstage]; exact nofun, hvalue⟩
    obtain ⟨hsub, hnext, hstate, hstage'⟩ := audioCodecRelease_spec c { s with state := .stopped }
    -- every decode thread has the id that is joined
    have hjoined : ∀ t ∈ ({ s with state := .stopped }.audioCodecRelease c).unjoined,
        t.kind ≠ .decode := by
      intro t ht hkind
      obtain ⟨hmem, hne⟩ := List.mem_filter.mp (hsub.subset ht)
      exact absurd (hc.current t hmem hkind) (by simpa using hne)
    have hnot : ¬ Running ({ s with state := .stopped }.audioCodecRelease c) := by
      intro hr
      have hvalue := hr.2
      rw [hstate] at hvalue
      exact absurd hvalue (show ¬ 2 > 3 by decide)
    have hmessages := hstage'.trans hstage
    have hsingle := (hsub.trans (join_sublist _ _)).map Thread.kind |>.nodup hc.single
    exact ⟨hsingle, fun t ht hkind => absurd hkind (hjoined t ht),
      fun hi => (nomatch hmessages.symm.trans hi), fun ha => (nomatch hmessages.symm.trans ha),
      fun hr => absurd hr hnot, fun _ _ => hjoined, fun hne => absurd hnext hne, fun _ _ => hjoined,
      .inr (.inr ⟨rfl, hrunning, hnot⟩)⟩
  · next hvalue => exact .ofState hc hstage Iff.rfl fun _ hr => hvalue hr.2

theorem messages_ok (hagain : ¬ StartsAgain s e) : StepOk s e ((controlLoop c).step s e) := by
  cases hmessage : e.message with
  | none =>
    have hstep : (controlLoop c).step s e = (s, ⟨false, false⟩) := by
      simp [controlLoop, hstage, hmessage]
    rw [hstep]
    exact .ofState hc hstage Iff.rfl fun hm => (nomatch hmessage.symm.trans hm)
  | some cmd =>
    have hother {cmd' : Command} (hne : cmd ≠ cmd') : e.message ≠ some cmd' :=
      fun hm => hne (Option.some.inj (hmessage.symm.trans hm))
    cases cmd with
    | stop => exact stop_ok hc hstage hmessage
    | start =>
      have hstate : s.state ≠ .initted := fun hs => hagain ⟨hstage, hs, hmessage⟩
      rw [step_message hstage hmessage]
      have hhandle : s.handle c e.startAdec .start = (s, false) := by
        simp [handle, startDecodeThread, startAdec, hstate]
      rw [hhandle]
      exact .ofState hc hstage Iff.rfl fun hm => absurd hm (hother nofun)
    | pause =>
      rw [step_message hstage hmessage]
      show StepOk s e (s.pauseAdec, ⟨false, false⟩)
      unfold pauseAdec
      split
      · next hactive =>
        exact .ofState hc hstage (by rw [hactive]; decide) fun hm => absurd hm (hother nofun)
      · exact .ofState hc hstage Iff.rfl fun hm => absurd hm (hother nofun)
    | resume =>
      rw [step_message hstage hmessage]
      show StepOk s e (s.resumeAdec, ⟨false, false⟩)
      unfold resumeAdec
      split
      · next hpaused =>
        exact .ofState hc hstage (by rw [hpaused]; decide) fun hm => absurd hm (hother nofun)
      · exact .ofState hc hstage Iff.rfl fun hm => absurd hm (hother nofun)
    | release =>
      rw [step_message hstage hmessage]
      exact .keep hc rfl rfl rfl (.inr rfl) (fun hr => absurd rfl hr.1) nofun fun _ hm =>
        absurd hm (hother nofun)
    | output =>
      rw [step_message hstage hmessage]
      exact .ofState hc hstage Iff.rfl fun hm => absurd hm (hother nofun)

end

theorem step_ok (hagain : ¬ StartsAgain s e) : StepOk s e ((controlLoop c).step s e) := by
  cases hstage : s.stage with
  | codecInit => exact codecInit_ok hc hstage
  | aoutInit => exact aoutInit_ok hc hstage
  | messages => exact messages_ok hc hstage hagain
  | finished =>
    have hstep : (controlLoop c).step s e = (s, ⟨false, false⟩) := by simp [controlLoop, hstage]
    rw [hstep]
    exact .keep hc rfl rfl rfl (.inr hstage) (fun hr => hr) hc.idle fun hm =>
      (nomatch hstage.symm.trans hm)

theorem not_safe_of_startsAgain (hagain : StartsAgain s e) : ¬ Safe c (s, h) e := by
  obtain ⟨hstage, hstate, hmessage⟩ := hagain
  intro hsafe
  obtain ⟨hnext, -, -, -⟩ := startDecodeThread_spec hstate
  obtain ⟨state, heq, -⟩ := startAdec_eq e.startAdec _
  have hcreates : ((controlLoop c).step s e).1.nextTid ≠ s.nextTid := by
    rw [step_message hstage hmessage]
    show ((s.startDecodeThread c).startAdec e.startAdec).nextTid ≠ s.nextTid
    rw [heq]
    exact hnext
  obtain ⟨t, ht, hkind⟩ := hc.running ⟨by rw [hstage]; exact nofun, by rw [hstate]; decide⟩
  exact hsafe.fresh hcreates t ht hkind

end

/-! ### Runs -/

theorem threads_safe_iff (c : AdecConfig) (es : List ControlInput) :
    (controlLoop c).recorded.Always (Safe c) (.initial, []) es ↔
      (controlLoop c).Always (fun s e => ¬ StartsAgain s e) .initial es := by
  have hinitial : Consistent .initial [] :=
    ⟨List.nodup_nil, nofun, fun _ => ⟨rfl, rfl⟩, nofun, fun hr => absurd hr.2 (by decide), nofun,
      Nat.le_refl _, fun hr => absurd hr.2 (by decide)⟩
  refine Iff.trans ?_ (Machine.recorded_always (h := []))
  refine Machine.always_congr
    (I := fun s : Control × List _ => Consistent s.1 s.2)
    (fun s e hc => ⟨fun hsafe hagain => not_safe_of_startsAgain hc hagain hsafe,
      fun hagain => ((step_ok hc hagain).safe hc).1⟩) (fun s e hc hsafe => ?_) es _
    hinitial
  exact ((step_ok hc fun hagain => not_safe_of_startsAgain hc hagain hsafe).safe hc).2

end Safety

def ControlInput.quiet : ControlInput where
  needStop := false
  codecInit := false
  aoutInit := false
  startAdec := .started
  message := none

/-- The first `start_adec` cannot read the video time stamp. The start command creates a second pair
of threads, and the stop command leaves the first decode thread behind. -/
theorem start_createsTwice :
    let es : List ControlInput :=
      [{ ControlInput.quiet with codecInit := true },
        { ControlInput.quiet with aoutInit := true, startAdec := .noVpts },
        { ControlInput.quiet with message := some .start },
        { ControlInput.quiet with message := some .stop }]
    ((controlLoop ⟨false, false⟩).exec .initial (es.take 3)).2.unjoined =
        [⟨.getpackage, 0⟩, ⟨.decode, 1⟩, ⟨.getpackage, 2⟩, ⟨.decode, 3⟩] ∧
      ((controlLoop ⟨false, false⟩).exec .initial es).2.unjoined =
        [⟨.getpackage, 0⟩, ⟨.decode, 1⟩] ∧
      ((controlLoop ⟨false, false⟩).exec .initial es).2.state = .stopped := by
  decide

end AmlogicHal.Amadec

import AmlogicHal.Keymint.Operation
import Mathlib.Logic.Function.Iterate

/-!
# The input cursor of `update`

The loop of `update` moves a pointer through the input by the number of bytes that the TA reports to
have consumed, compared neither with zero nor with the size of the chunk.

1. The loop returns, unless from some command on the TA accepts every command and consumes nothing.
   The cursor stays inside the input exactly if no accepted command consumes more than is left
   (`update_cursor_iff`).
2. With a TA that consumes at least one byte of every chunk and no more than the chunk has, both are
   so, and there are no more commands than bytes (`UpdateLoop.returns_of_progress`).

The model of the operations has only the input from the cursor on, and a number of rounds as fuel.
`UpdateLoop.updateLoop_eq_some_iff` connects the two.
-/

namespace AmlogicHal.Keymint

open Function List

/-- What the loop of `update` is given. An auth token leaves `maxChunkSize` bytes of the send
buffer, none if it fills it. -/
structure UpdateLoop where
  lib : KeymasterLib
  ta : Ta
  request : UpdateRequest
  maxChunkSize : Nat
  input : Bytes

structure Cursor where
  /-- The offset of `input_pos`. A count near 2^32, which wraps the pointer on a 32-bit build, leads
  behind the end here. -/
  pos : Nat
  output : Bytes
  op : Operation
  status : Option KmError

/-- What `update` leaves, once it has returned. -/
def Cursor.reply (c : Cursor) : Option (Reply × Operation) :=
  c.status.map fun e => (⟨e, c.output⟩, c.op)

namespace UpdateLoop

def chunkRequest (l : UpdateLoop) (c : Cursor) : UpdateRequest :=
  let toSend := min l.maxChunkSize (l.input.length - c.pos)
  { l.request with input := (l.input.drop c.pos).take toSend }

def send (l : UpdateLoop) (c : Cursor) : Response × Operation :=
  c.op.updateOperation l.lib l.ta (l.chunkRequest c)

def step (l : UpdateLoop) (c : Cursor) : Cursor :=
  if c.status.isSome then
    c
  else if c.pos < l.input.length then
    let r := l.send c
    if r.1.error ≠ .ok then
      { c with op := { r.2 with opHandle := 0 }, status := some r.1.error }
    else
      { c with pos := c.pos + r.1.inputConsumed, output := c.output ++ r.1.output, op := r.2 }
  else
    { c with status := some .ok }

def cursor (l : UpdateLoop) (s : Operation) (turns : Nat) : Cursor :=
  l.step^[turns] ⟨0, [], s, none⟩

/-! ## Turns -/

def Sending (l : UpdateLoop) (c : Cursor) : Prop := c.status = none ∧ c.pos < l.input.length

section Turns

variable {l : UpdateLoop} {c : Cursor}

theorem step_of_returned {e : KmError} (hstatus : c.status = some e) : l.step c = c := by
  simp [step, hstatus]

theorem step_of_end (hstatus : c.status = none) (hend : ¬ c.pos < l.input.length) :
    l.step c = { c with status := some .ok } := by
  simp [step, hstatus, hend]

theorem step_of_error (hsend : l.Sending c) (herror : (l.send c).1.error ≠ .ok) :
    l.step c = { c with
      op := { (l.send c).2 with opHandle := 0 }
      status := some (l.send c).1.error } := by
  simp [step, hsend.1, hsend.2, if_pos herror]

theorem step_of_ok (hsend : l.Sending c) (hok : (l.send c).1.error = .ok) : l.step c = { c with
      pos := c.pos + (l.send c).1.inputConsumed
      output := c.output ++ (l.send c).1.output
      op := (l.send c).2 } := by
  simp [step, hsend.1, hsend.2, hok]

theorem sending_of_step (hstatus : (l.step c).status = none) :
    l.Sending c ∧ (l.send c).1.error = .ok := by
  cases hbefore : c.status with
  | some e =>
    rw [step_of_returned hbefore, hbefore] at hstatus
    cases hstatus
  | none =>
    by_cases hpos : c.pos < l.input.length
    · refine ⟨⟨hbefore, hpos⟩, ?_⟩
      by_contra herror
      rw [step_of_error ⟨hbefore, hpos⟩ herror] at hstatus
      cases hstatus
    · rw [step_of_end hbefore hpos] at hstatus
      cases hstatus

theorem step_pos (l : UpdateLoop) (c : Cursor) :
    (l.step c).pos = c.pos ∨
      l.Sending c ∧ (l.send c).1.error = .ok ∧
        (l.step c).pos = c.pos + (l.send c).1.inputConsumed := by
  cases hstatus : c.status with
  | some e => exact .inl (by rw [step_of_returned hstatus])
  | none =>
    by_cases hpos : c.pos < l.input.length
    · by_cases hok : (l.send c).1.error = .ok
      · exact .inr ⟨⟨hstatus, hpos⟩, hok, by rw [step_of_ok ⟨hstatus, hpos⟩ hok]⟩
      · exact .inl (by rw [step_of_error ⟨hstatus, hpos⟩ hok])
    · exact .inl (by rw [step_of_end hstatus hpos])

end Turns

/-! ## Whole runs -/

section Runs

variable (l : UpdateLoop) (s : Operation)

def Accepted (turns : Nat) : Prop :=
  l.Sending (l.cursor s turns) ∧ (l.send (l.cursor s turns)).1.error = .ok

def consumed (turns : Nat) : Nat := (l.send (l.cursor s turns)).1.inputConsumed

/-- `update` returns after finitely many turns. -/
def Returns : Prop := ∃ turns, (l.cursor s turns).status ≠ none

/-- From some command on the TA accepts every command and consumes nothing. -/
def Stalls : Prop := ∃ first, ∀ turns ≥ first, l.Accepted s turns ∧ l.consumed s turns = 0

/-- The cursor never leaves the input. Its end belongs to it. -/
def StaysInside : Prop := ∀ turns, (l.cursor s turns).pos ≤ l.input.length

/-- No accepted command consumes more than is left of the input. -/
def ConsumesAtMostRest : Prop :=
  ∀ turns, l.Accepted s turns → l.consumed s turns ≤ l.input.length - (l.cursor s turns).pos

variable {l s}

theorem cursor_succ (turns : Nat) : l.cursor s (turns + 1) = l.step (l.cursor s turns) :=
  iterate_succ_apply' _ _ _

variable {turns : Nat}

theorem cursor_returned {first : Nat} (h : (l.cursor s first).status ≠ none) (hle : first ≤ turns) :
    (l.cursor s turns).status ≠ none := by
  induction turns, hle using Nat.le_induction with
  | base => exact h
  | succ turns _ ih =>
    obtain ⟨e, he⟩ := Option.ne_none_iff_exists'.mp ih
    rw [cursor_succ, step_of_returned he]
    exact ih

theorem accepted_of_running (h : (l.cursor s (turns + 1)).status = none) : l.Accepted s turns := by
  rw [cursor_succ] at h
  exact sending_of_step h

theorem cursor_pos_of_accepted (h : l.Accepted s turns) :
    (l.cursor s (turns + 1)).pos = (l.cursor s turns).pos + l.consumed s turns := by
  rw [cursor_succ, step_of_ok h.1 h.2]
  rfl

theorem cursor_pos_mono {first : Nat} (hle : first ≤ turns) :
    (l.cursor s first).pos ≤ (l.cursor s turns).pos := by
  induction turns, hle using Nat.le_induction with
  | base => exact Nat.le_refl _
  | succ turns _ ih =>
    rw [cursor_succ]
    rcases step_pos l _ with hpos | ⟨-, -, hpos⟩
    · rw [hpos]
      exact ih
    · rw [hpos]
      exact Nat.le_add_right_of_le ih

/-- A loop that accepts all its commands stalls: by induction on what is left of the input, which
every command that consumes something makes smaller. -/
theorem stalls_of_accepted (haccepted : ∀ turns, l.Accepted s turns) (left : Nat) :
    ∀ first, l.input.length - (l.cursor s first).pos ≤ left → l.Stalls s := by
  induction left with
  | zero =>
    intro first hleft
    have hpos := (haccepted first).1.2
    omega
  | succ left ih =>
    intro first hleft
    by_cases hidle : ∀ turns ≥ first, l.consumed s turns = 0
    · exact ⟨first, fun turns hle => ⟨haccepted turns, hidle turns hle⟩⟩
    · simp only [not_forall] at hidle
      obtain ⟨turns, hle, hconsumed⟩ := hidle
      apply ih (turns + 1)
      have hbefore := cursor_pos_mono (l := l) (s := s) hle
      have hmoves := cursor_pos_of_accepted (haccepted turns)
      omega

theorem returns_iff : l.Returns s ↔ ¬ l.Stalls s := by
  constructor
  · rintro ⟨turns, hstatus⟩ ⟨first, hstalls⟩
    have hsending := (hstalls (max first turns) (Nat.le_max_left _ _)).1.1
    exact cursor_returned hstatus (Nat.le_max_right _ _) hsending.1
  · intro hstalls
    by_contra hreturns
    have hrunning : ∀ turns, (l.cursor s turns).status = none := by
      intro turns
      by_contra hstatus
      exact hreturns ⟨turns, hstatus⟩
    exact hstalls (stalls_of_accepted (fun turns => accepted_of_running (hrunning _)) _ 0
      (Nat.le_refl _))

theorem staysInside_iff : l.StaysInside s ↔ l.ConsumesAtMostRest s := by
  constructor
  · intro h turns haccepted
    have hafter := h (turns + 1)
    rw [cursor_pos_of_accepted haccepted] at hafter
    omega
  · intro h turns
    induction turns with
    | zero => exact Nat.zero_le _
    | succ turns ih =>
      rw [cursor_succ]
      rcases step_pos l _ with hpos | ⟨hsending, hok, hpos⟩
      · rw [hpos]
        exact ih
      · have hconsumed : (l.send (l.cursor s turns)).1.inputConsumed ≤ _ := h turns ⟨hsending, hok⟩
        omega

/-- Every accepted command consumes at least one byte, and no more than it carries. -/
def Progresses (l : UpdateLoop) (s : Operation) : Prop :=
  ∀ turns, l.Accepted s turns → 0 < l.consumed s turns ∧
    l.consumed s turns ≤ (l.chunkRequest (l.cursor s turns)).input.length

theorem returns_of_progress (h : l.Progresses s) :
    l.StaysInside s ∧ (l.cursor s (l.input.length + 1)).status ≠ none := by
  have hinside : l.StaysInside s := by
    apply staysInside_iff.mpr
    intro turns haccepted
    refine Nat.le_trans (h turns haccepted).2 ?_
    simp only [chunkRequest, length_take, length_drop]
    omega
  refine ⟨hinside, fun hstatus => ?_⟩
  have hmoves : ∀ turns ≤ l.input.length + 1, turns ≤ (l.cursor s turns).pos := by
    intro turns
    induction turns with
    | zero => exact fun _ => Nat.zero_le _
    | succ turns ih =>
      intro hle
      have hrunning : (l.cursor s (turns + 1)).status = none := by
        by_contra hreturned
        exact cursor_returned hreturned hle hstatus
      have haccepted := accepted_of_running hrunning
      have hconsumed := (h turns haccepted).1
      rw [cursor_pos_of_accepted haccepted]
      omega
  have hend := hmoves _ (Nat.le_refl _)
  have hlast := hinside (l.input.length + 1)
  omega

end Runs

/-! ## The model of the operations -/

section Loop

variable {l : UpdateLoop} {c : Cursor}

theorem chunkRequest_eq :
    l.chunkRequest c = { l.request with input := (l.input.drop c.pos).take l.maxChunkSize } := by
  simp only [chunkRequest]
  congr 1
  rw [take_eq_take_iff]
  simp only [length_drop]
  omega

def loopFrom (l : UpdateLoop) (fuel : Nat) (c : Cursor) : Option (Reply × Operation) :=
  c.op.updateLoop l.lib l.ta l.request l.maxChunkSize fuel (l.input.drop c.pos) c.output

theorem loopFrom_of_end (hend : ¬ c.pos < l.input.length) (fuel : Nat) :
    l.loopFrom fuel c = some (⟨.ok, c.output⟩, c.op) := by
  rw [loopFrom, drop_eq_nil_of_le (Nat.not_lt.mp hend)]
  cases fuel <;> rfl

theorem loopFrom_zero (hpos : c.pos < l.input.length) : l.loopFrom 0 c = none := by
  rw [loopFrom, drop_eq_getElem_cons hpos]
  rfl

theorem loopFrom_succ (hsend : l.Sending c) (fuel : Nat) :
    l.loopFrom (fuel + 1) c =
      if (l.send c).1.error ≠ .ok then
        some (⟨(l.send c).1.error, c.output⟩, { (l.send c).2 with opHandle := 0 })
      else
        l.loopFrom fuel (l.step c) := by
  have hchunk : l.send c = c.op.updateOperation l.lib l.ta
      { l.request with input := (l.input.drop c.pos).take l.maxChunkSize } := by
    rw [send, chunkRequest_eq]
  have hturn : l.loopFrom (fuel + 1) c =
      if (l.send c).1.error ≠ .ok then
        some (⟨(l.send c).1.error, c.output⟩, { (l.send c).2 with opHandle := 0 })
      else
        (l.send c).2.updateLoop l.lib l.ta l.request l.maxChunkSize fuel
          ((l.input.drop c.pos).drop (l.send c).1.inputConsumed)
          (c.output ++ (l.send c).1.output) := by
    rw [hchunk, loopFrom, drop_eq_getElem_cons hsend.2]
    rfl
  rw [hturn]
  split
  case isTrue => rfl
  case isFalse hok => rw [loopFrom, step_of_ok hsend (not_not.mp hok), drop_drop]

theorem step_status_of_ok (hsend : l.Sending c) (hok : (l.send c).1.error = .ok) :
    (l.step c).status = none := by
  rw [step_of_ok hsend hok]
  exact hsend.1

variable {r : Reply × Operation}

theorem reply_of_loopFrom {fuel : Nat} (hstatus : c.status = none)
    (h : l.loopFrom fuel c = some r) : ∃ turns, (l.step^[turns] c).reply = some r := by
  induction fuel generalizing c with
  | zero =>
    by_cases hpos : c.pos < l.input.length
    · rw [loopFrom_zero hpos] at h
      cases h
    · rw [loopFrom_of_end hpos] at h
      exact ⟨1, by rw [iterate_one, step_of_end hstatus hpos]; exact h⟩
  | succ fuel ih =>
    by_cases hpos : c.pos < l.input.length
    · rw [loopFrom_succ ⟨hstatus, hpos⟩] at h
      split at h
      case isTrue herror =>
        exact ⟨1, by rw [iterate_one, step_of_error ⟨hstatus, hpos⟩ herror]; exact h⟩
      case isFalse hok =>
        obtain ⟨turns, hreply⟩ := ih (step_status_of_ok ⟨hstatus, hpos⟩ (not_not.mp hok)) h
        exact ⟨turns + 1, hreply⟩
    · rw [loopFrom_of_end hpos] at h
      exact ⟨1, by rw [iterate_one, step_of_end hstatus hpos]; exact h⟩

theorem loopFrom_of_reply {turns : Nat} (hstatus : c.status = none)
    (h : (l.step^[turns] c).reply = some r) : l.loopFrom turns c = some r := by
  induction turns generalizing c with
  | zero =>
    rw [iterate_zero_apply, Cursor.reply, hstatus] at h
    cases h
  | succ turns ih =>
    rw [iterate_succ_apply] at h
    by_cases hpos : c.pos < l.input.length
    · rw [loopFrom_succ ⟨hstatus, hpos⟩]
      split
      case isTrue herror =>
        rw [step_of_error ⟨hstatus, hpos⟩ herror, iterate_fixed (step_of_returned rfl)] at h
        exact h
      case isFalse hok => exact ih (step_status_of_ok ⟨hstatus, hpos⟩ (not_not.mp hok)) h
    · rw [step_of_end hstatus hpos, iterate_fixed (step_of_returned rfl)] at h
      rw [loopFrom_of_end hpos]
      exact h

theorem updateLoop_eq_some_iff {s : Operation} :
    (∃ fuel, s.updateLoop l.lib l.ta l.request l.maxChunkSize fuel l.input [] = some r) ↔
      ∃ turns, (l.cursor s turns).reply = some r := by
  constructor
  · rintro ⟨fuel, h⟩
    exact reply_of_loopFrom rfl h
  · rintro ⟨turns, h⟩
    exact ⟨turns, loopFrom_of_reply rfl h⟩

end Loop

end UpdateLoop

open UpdateLoop

/-! ## The result -/

/-- For every room that an auth token leaves for a chunk. -/
theorem update_cursor_iff (l : UpdateLoop) (s : Operation) :
    (l.Returns s ↔ ¬ l.Stalls s) ∧ (l.StaysInside s ↔ l.ConsumesAtMostRest s) :=
  ⟨returns_iff, staysInside_iff⟩

/-- A TA that reports the same number for every command. -/
def exampleLoop (inputConsumed : Nat) (input : Bytes := [0#8]) : UpdateLoop where
  lib := exampleLib
  ta _ _ := .success inputConsumed []
  request := ⟨1, none, none, []⟩
  maxChunkSize := exampleLib.sendBufSize - exampleLib.serializedSize (.update ⟨1, none, none, []⟩)
  input := input

theorem exampleLoop_send (n : Nat) (c : Cursor) (input : Bytes := [0#8]) :
    ((exampleLoop n input).send c).1 = ⟨.ok, n, []⟩ := by
  have hroom : (exampleLoop n input).lib.serializedSize (.update (exampleLoop n input).request) +
      (exampleLoop n input).maxChunkSize ≤ (exampleLoop n input).lib.sendBufSize :=
    Nat.le_of_eq (Nat.add_sub_of_le (by decide : 8 ≤ exampleLib.sendBufSize))
  have hfits := KeymasterLib.chunk_fits rfl hroom ((exampleLoop n input).input.drop c.pos)
  have hreply : 0 + exampleLib.cmdSize ≤ exampleLib.recvBufSize := by decide
  rw [send, chunkRequest_eq, Operation.updateOperation, Operation.forwardCommand_fits hfits]
  change readResponse exampleLib (.success n []) = _
  exact readResponse_of_fits rfl hreply rfl

/-- Three bytes, in chunks of three, two and one of which the TA consumes the first. -/
theorem returns_of_progress_one :
    (exampleLoop 1 [7, 8, 9]).StaysInside ⟨1, []⟩ ∧
      ((exampleLoop 1 [7, 8, 9]).cursor ⟨1, []⟩ 4).status ≠ none := by
  refine returns_of_progress fun turns haccepted => ?_
  have hpos : ((exampleLoop 1 [7, 8, 9]).cursor ⟨1, []⟩ turns).pos < 3 := haccepted.1.2
  have hroom : 1 ≤ (exampleLoop 1 [7, 8, 9]).maxChunkSize := by decide
  have hinput : (exampleLoop 1 [7, 8, 9]).input.length = 3 := rfl
  rw [consumed, exampleLoop_send 1 _ _]
  simp only [chunkRequest, length_take, length_drop]
  omega

/-- A TA that consumes nothing keeps the loop going for ever, and one that reports five bytes of one
moves the cursor four bytes behind the end. -/
theorem update_stallsOrOvershoots :
    (∀ turns, ((exampleLoop 0).cursor ⟨1, []⟩ turns).status = none) ∧
      ((exampleLoop 5).cursor ⟨1, []⟩ 1).pos = (exampleLoop 5).input.length + 4 := by
  constructor
  · have hstays : ∀ turns, (exampleLoop 0).Sending ((exampleLoop 0).cursor ⟨1, []⟩ turns) := by
      intro turns
      induction turns with
      | zero => exact ⟨rfl, by decide⟩
      | succ turns ih =>
        have hresponse := exampleLoop_send 0 ((exampleLoop 0).cursor ⟨1, []⟩ turns)
        rw [cursor_succ, step_of_ok ih (by rw [hresponse])]
        exact ⟨ih.1, by rw [hresponse]; exact ih.2⟩
    exact fun turns => (hstays turns).1
  · have hresponse := exampleLoop_send 5 ⟨0, [], ⟨1, []⟩, none⟩
    have hsending : (exampleLoop 5).Sending ⟨0, [], ⟨1, []⟩, none⟩ := ⟨rfl, by decide⟩
    have hstep := step_of_ok hsending (by rw [hresponse])
    rw [cursor, iterate_one, hstep]
    rfl

end AmlogicHal.Keymint

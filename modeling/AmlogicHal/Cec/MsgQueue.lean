import AmlogicHal.Cec.Device
import AmlogicHal.Lib.Machine

/-!
# The message queue

Messages wait in a vector, ordered by the time at which they are due. Any thread may send and remove
messages under the mutex. The thread of the queue waits for the first message to become due, takes
it out and handles it, but it checks the size, reads the front, reads the clock and takes the front
out in separate steps, without the mutex in between.

* `QueueState.loop` is one step of `threadLoop`, `queueMachine` interleaves these steps with those
  of the other threads and with the clock.
* `threadLoop_safe`: the loop never reads the front of an empty vector and handles only messages
  that are due and were not removed, in every run in which the other threads leave it the front it
  relies on (`Undisturbed`).
* `sendMsg_undisturbed`: sending to a queue with messages in it never disturbs the loop.
* `threadLoop_disturbed`: a removal at the wrong moment makes the loop read the front of an empty
  vector, or handle a message long before it is due.
-/

namespace AmlogicHal.Cec

open List

/-! ## The queue -/

/-- A message in the queue, with the time at which it is due. The numbers tell the messages
apart; the source does not have them. -/
structure QueuedMsg where
  msg : CMessage
  whenMs : Int
  id : Nat
deriving DecidableEq, Repr

/-- The message goes behind all that are due no later: the index of the `while` loop is the length
of what it passes. -/
def insertMsg (m : QueuedMsg) (q : List QueuedMsg) : List QueuedMsg :=
  q.takeWhile (·.whenMs ≤ m.whenMs) ++ m :: q.dropWhile (·.whenMs ≤ m.whenMs)

/-- The loop of `removeMsg`. Its index moves on after a removal too, so that the message that moved
up is not looked at. -/
def removeLoop (type : MsgType) : List QueuedMsg → List QueuedMsg
  | [] => []
  | [m] => if m.msg.type = type then [] else [m]
  | m :: n :: q =>
    if m.msg.type = type then n :: removeLoop type q else m :: removeLoop type (n :: q)

/-- Where `threadLoop` is: in front of the given step. `checkAgain` remembers how the inner loop
was left, by a message that is due or by an empty queue. -/
inductive LoopPc where
  | loopHead
  | awaitMsg
  | checkSize
  | readFront
  | checkDelay
  | timedWait
  | checkAgain (due : Bool)
  | takeFront
  | handle
  | exited
  /-- The front of an empty vector was read. -/
  | emptyFront
deriving DecidableEq, Repr

structure QueueState where
  queue : List QueuedMsg
  pc : LoopPc
  /-- The local variable `msg`, when it has been assigned. -/
  msg : Option QueuedMsg
  /-- `getNowMs()`. -/
  clock : Int
  exitPending : Bool
  /-- The clock value that the loop read last. -/
  readAt : Option Int
  nextId : Nat
  /-- The messages that `removeMsg` and `clearMsg` have taken out. -/
  removed : List Nat
deriving DecidableEq, Repr

namespace QueueState

/-- A section under the mutex, an unlocked size check, a look at the clock, or the call of
`handleMessage`. A wait may end at any time. -/
def loop (s : QueueState) : QueueState :=
  match s.pc with
  | .loopHead => { s with pc := if s.exitPending then .exited else .awaitMsg }
  | .awaitMsg => if s.queue.isEmpty then s else { s with pc := .checkSize, msg := none }
  | .checkSize => { s with pc := if s.queue.isEmpty then .checkAgain false else .readFront }
  | .readFront =>
    match s.queue with
    | [] => { s with pc := .emptyFront }
    | m :: _ => { s with pc := .checkDelay, msg := some m }
  | .checkDelay =>
    let whenMs := (s.msg.map QueuedMsg.whenMs).getD 0
    { s with
      readAt := some s.clock
      pc := if whenMs - s.clock > 0 then .timedWait else .checkAgain true }
  | .timedWait => { s with pc := .checkSize }
  | .checkAgain _ => { s with pc := if s.queue.isEmpty then .loopHead else .takeFront }
  | .takeFront =>
    match s.queue with
    | [] => { s with pc := .emptyFront }
    | m :: q => { s with pc := .handle, msg := some m, queue := q }
  | .handle => { s with pc := .loopHead }
  | .exited | .emptyFront => s

def sendMsg (msg : CMessage) (s : QueueState) : QueueState :=
  { s with
    queue := insertMsg ⟨msg, s.clock + msg.delayMs, s.nextId⟩ s.queue
    nextId := s.nextId + 1 }

/-- The queue becomes `q`, and what is no longer in it counts as removed. -/
def retain (q : List QueuedMsg) (s : QueueState) : QueueState :=
  { s with
    queue := q
    removed := s.removed ++ (s.queue.map QueuedMsg.id).filter (· ∉ q.map QueuedMsg.id) }

def removeMsg (type : MsgType) (s : QueueState) : QueueState :=
  s.retain (removeLoop type s.queue)

def clearMsg (s : QueueState) : QueueState := s.retain []

end QueueState

open QueueState

/-- A step of the system: the loop, another thread, or the clock, which never runs backwards. -/
inductive QueueStep where
  | loop
  | sendMsg (msg : CMessage)
  | removeMsg (type : MsgType)
  | clearMsg
  | tick (ms : Nat)
  | requestExit
deriving DecidableEq, Repr

def QueueState.step (s : QueueState) : QueueStep → QueueState
  | .loop => s.loop
  | .sendMsg msg => s.sendMsg msg
  | .removeMsg type => s.removeMsg type
  | .clearMsg => s.clearMsg
  | .tick ms => { s with clock := s.clock + ms }
  | .requestExit => { s with exitPending := true }

def queueMachine : Machine QueueState QueueStep Unit := ⟨fun s e => (s.step e, ())⟩

def QueueState.start (clock : Int) : QueueState :=
  ⟨[], .loopHead, none, clock, false, none, 0, []⟩

/-! ## Messages are handled once, and not after their removal -/

theorem removeLoop_sublist (type : MsgType) (q : List QueuedMsg) :
    (removeLoop type q).Sublist q := by
  fun_induction removeLoop type q with
  | case1 => exact .slnil
  | case2 m h => exact nil_sublist _
  | case3 m h => exact List.Sublist.refl _
  | case4 m n q h ih => exact (ih.cons_cons n).cons m
  | case5 m n q h ih => exact ih.cons_cons m

theorem insertMsg_perm (m : QueuedMsg) (q : List QueuedMsg) : (insertMsg m q).Perm (m :: q) := by
  refine perm_middle.trans (List.Perm.cons m ?_)
  rw [takeWhile_append_dropWhile]

/-- Every message is in one place: in the queue, removed, or in the hands of the loop. -/
structure QueueState.OnePlace (s : QueueState) : Prop where
  nodup : (s.queue.map QueuedMsg.id).Nodup
  queued : ∀ i ∈ s.queue.map QueuedMsg.id, i < s.nextId ∧ i ∉ s.removed
  removed_lt : ∀ i ∈ s.removed, i < s.nextId
  handled : s.pc = .handle → ∀ m ∈ s.msg,
    m.id < s.nextId ∧ m.id ∉ s.removed ∧ m.id ∉ s.queue.map QueuedMsg.id

namespace QueueState.OnePlace

variable {s : QueueState}

variable (h : s.OnePlace)
include h

/-- A step that moves the loop, but not to `handle`, moves no message. -/
theorem move {t : QueueState} (hq : t.queue = s.queue) (hn : t.nextId = s.nextId)
    (hr : t.removed = s.removed) (hpc : t.pc ≠ .handle) : t.OnePlace := by
  refine ⟨hq ▸ h.nodup, ?_, ?_, fun hh => absurd hh hpc⟩
  · rw [hq, hn, hr]
    exact h.queued
  · rw [hn, hr]
    exact h.removed_lt

theorem loop : s.loop.OnePlace := by
  unfold QueueState.loop
  split
  · exact h.move rfl rfl rfl (by dsimp only; split <;> simp)
  · split
    · exact h
    · exact h.move rfl rfl rfl (by simp)
  · exact h.move rfl rfl rfl (by dsimp only; split <;> simp)
  · split <;> exact h.move rfl rfl rfl (by simp)
  · exact h.move rfl rfl rfl (by dsimp only; split <;> simp)
  · exact h.move rfl rfl rfl (by simp)
  · exact h.move rfl rfl rfl (by dsimp only; split <;> simp)
  · split
    · exact h.move rfl rfl rfl (by simp)
    · next m q hq =>
      have hnd := h.nodup
      have hqd := h.queued
      rw [hq, map_cons] at hnd hqd
      obtain ⟨hm, hrest⟩ := nodup_cons.mp hnd
      refine ⟨hrest, fun i hi => hqd i (mem_cons_of_mem _ hi), h.removed_lt, ?_⟩
      rintro - n hn
      obtain rfl : m = n := by simpa using hn
      obtain ⟨hlt, hrem⟩ := hqd m.id mem_cons_self
      exact ⟨hlt, hrem, hm⟩
  · exact h.move rfl rfl rfl (by simp)
  · exact h
  · exact h

theorem sendMsg (msg : CMessage) : (s.sendMsg msg).OnePlace := by
  have hperm := (insertMsg_perm ⟨msg, s.clock + msg.delayMs, s.nextId⟩ s.queue).map QueuedMsg.id
  have hfresh : s.nextId ∉ s.queue.map QueuedMsg.id := fun hmem =>
    absurd (h.queued _ hmem).1 (Nat.lt_irrefl _)
  refine ⟨hperm.nodup_iff.mpr (nodup_cons.mpr ⟨hfresh, h.nodup⟩), ?_, ?_, ?_⟩
  · intro i hi
    rcases mem_cons.mp (hperm.mem_iff.mp hi) with rfl | hi
    · exact ⟨Nat.lt_succ_self _, fun hmem => absurd (h.removed_lt _ hmem) (Nat.lt_irrefl _)⟩
    · obtain ⟨hlt, hrem⟩ := h.queued i hi
      exact ⟨Nat.lt_succ_of_lt hlt, hrem⟩
  · exact fun i hi => Nat.lt_succ_of_lt (h.removed_lt i hi)
  · intro hpc m hm
    obtain ⟨hlt, hrem, hq⟩ := h.handled hpc m hm
    refine ⟨Nat.lt_succ_of_lt hlt, hrem, fun hmem => ?_⟩
    rcases mem_cons.mp (hperm.mem_iff.mp hmem) with heq | hmem
    · exact absurd heq (Nat.ne_of_lt hlt)
    · exact hq hmem

theorem retain {q : List QueuedMsg} (hsub : q.Sublist s.queue) : (s.retain q).OnePlace := by
  have hids := hsub.map QueuedMsg.id
  have hrem : ∀ i, i ∈ (s.retain q).removed →
      i ∈ s.removed ∨ (i ∈ s.queue.map QueuedMsg.id ∧ i ∉ q.map QueuedMsg.id) := by
    intro i hi
    rcases mem_append.mp hi with hi | hi
    · exact .inl hi
    · exact .inr ⟨(mem_filter.mp hi).1, of_decide_eq_true (mem_filter.mp hi).2⟩
  refine ⟨h.nodup.sublist hids, ?_, ?_, ?_⟩
  · intro i hi
    obtain ⟨hlt, hnot⟩ := h.queued i (hids.subset hi)
    refine ⟨hlt, fun hmem => ?_⟩
    rcases hrem i hmem with hmem | hmem
    · exact hnot hmem
    · exact hmem.2 hi
  · intro i hi
    rcases hrem i hi with hi | hi
    · exact h.removed_lt i hi
    · exact (h.queued i hi.1).1
  · intro hpc m hm
    obtain ⟨hlt, hnot, hq⟩ := h.handled hpc m hm
    refine ⟨hlt, fun hmem => ?_, fun hmem => hq (hids.subset hmem)⟩
    rcases hrem _ hmem with hmem | hmem
    · exact hnot hmem
    · exact hq hmem.1

theorem step (e : QueueStep) : (s.step e).OnePlace := by
  cases e with
  | loop => exact h.loop
  | sendMsg msg => exact h.sendMsg msg
  | removeMsg type => exact h.retain (removeLoop_sublist type s.queue)
  | clearMsg => exact h.retain (nil_sublist _)
  | tick ms => exact ⟨h.nodup, h.queued, h.removed_lt, h.handled⟩
  | requestExit => exact ⟨h.nodup, h.queued, h.removed_lt, h.handled⟩

end QueueState.OnePlace

/-! ## What the loop relies on -/

/-- The front of the queue, if there is one, is due no later than `msg`. -/
def NotLater (q : List QueuedMsg) (msg : Option QueuedMsg) : Prop :=
  ∀ m ∈ q.head?, ∀ r ∈ msg, m.whenMs ≤ r.whenMs

namespace QueueState

/-- The queue `q` is fit for the next step of the loop. Where the front is read without another
check there has to be one, and from the moment the loop has read a message on, the front must not
be due later. After the inner loop was left because of an empty queue, the queue has to stay
empty. -/
def FitFor (s : QueueState) (q : List QueuedMsg) : Prop :=
  match s.pc with
  | .readFront => q ≠ []
  | .checkDelay | .checkAgain true => NotLater q s.msg
  | .checkAgain false => q = []
  | .takeFront => q ≠ [] ∧ NotLater q s.msg
  | _ => True

def Undisturbed (s : QueueState) : QueueStep → Prop
  | .sendMsg msg => s.FitFor (s.sendMsg msg).queue
  | .removeMsg type => s.FitFor (s.removeMsg type).queue
  | .clearMsg => s.FitFor []
  | .loop | .tick _ | .requestExit => True

/-- The message that the loop has read was due when it read the clock. -/
def Due (s : QueueState) : Prop :=
  ∃ m now, s.msg = some m ∧ s.readAt = some now ∧ m.whenMs ≤ now

def Knows (s : QueueState) : Prop :=
  match s.pc with
  | .checkDelay => s.msg.isSome = true
  | .checkAgain true | .takeFront | .handle => s.Due
  | .emptyFront => False
  | _ => True

/-- The front of the vector is there whenever it is read, and a message that is handled is due
and was not removed. -/
structure Safe (s : QueueState) : Prop where
  front : s.pc ≠ .emptyFront
  due : s.pc = .handle → s.Due
  kept : s.pc = .handle → ∀ m ∈ s.msg, m.id ∉ s.removed

theorem loop_ready {s : QueueState} (hfit : s.FitFor s.queue) (hknow : s.Knows) :
    s.loop.FitFor s.loop.queue ∧ s.loop.Knows := by
  unfold loop
  split
  case h_1 hpc => dsimp only; split <;> simp [FitFor, Knows]
  case h_2 hpc =>
    split
    · exact ⟨hfit, hknow⟩
    · simp [FitFor, Knows]
  case h_3 hpc =>
    split
    · next hq => simp_all [FitFor, Knows]
    · next hq => simp_all [FitFor, Knows]
  case h_4 hpc =>
    split
    · next hq => simp [FitFor, hpc, hq] at hfit
    · next m q hq => simp [FitFor, Knows, NotLater, hq]
  case h_5 hpc =>
    simp only [FitFor, Knows, hpc] at hfit hknow
    obtain ⟨m, hm⟩ := Option.isSome_iff_exists.mp hknow
    dsimp only
    split
    · simp [FitFor, Knows]
    · next hle =>
      refine ⟨hfit, m, s.clock, hm, rfl, ?_⟩
      rw [hm] at hle
      simp only [Option.map_some, Option.getD_some] at hle
      omega
  case h_6 hpc => simp [FitFor, Knows]
  case h_7 due hpc =>
    cases due with
    | false => simp_all [FitFor, Knows]
    | true =>
      simp only [FitFor, Knows, hpc] at hfit hknow
      split
      · simp [FitFor, Knows]
      · next hq => exact ⟨⟨by simpa using hq, hfit⟩, hknow⟩
  case h_8 hpc =>
    simp only [FitFor, Knows, hpc] at hfit hknow
    split
    · next hq => exact absurd hq hfit.1
    · next m q hq =>
      obtain ⟨r, now, hr, hnow, hle⟩ := hknow
      have hfront : m.whenMs ≤ r.whenMs := hfit.2 m (by simp [hq]) r (by simp [hr])
      exact ⟨trivial, m, now, rfl, hnow, Int.le_trans hfront hle⟩
  case h_9 hpc => simp [FitFor, Knows]
  case h_10 hpc => exact ⟨hfit, hknow⟩
  case h_11 hpc => exact ⟨hfit, hknow⟩

theorem other_ready {s t : QueueState} (hknow : s.Knows) (hfit : s.FitFor t.queue)
    (hpc : t.pc = s.pc) (hmsg : t.msg = s.msg) (hread : t.readAt = s.readAt) :
    t.FitFor t.queue ∧ t.Knows := by
  constructor
  · unfold FitFor at hfit ⊢
    rw [hpc, hmsg]
    exact hfit
  · unfold Knows Due at hknow ⊢
    rw [hpc, hmsg, hread]
    exact hknow

theorem step_ready {s : QueueState} (hfit : s.FitFor s.queue) (hknow : s.Knows) {e : QueueStep}
    (hu : s.Undisturbed e) : (s.step e).FitFor (s.step e).queue ∧ (s.step e).Knows := by
  cases e with
  | loop => exact loop_ready hfit hknow
  | sendMsg msg => exact other_ready hknow hu rfl rfl rfl
  | removeMsg type => exact other_ready hknow hu rfl rfl rfl
  | clearMsg => exact other_ready hknow hu rfl rfl rfl
  | tick ms => exact other_ready hknow hfit rfl rfl rfl
  | requestExit => exact other_ready hknow hfit rfl rfl rfl

/-- Only a message that is due earlier gets in front. -/
theorem sendMsg_undisturbed {s : QueueState} (hfit : s.FitFor s.queue) (hq : s.queue ≠ [])
    (msg : CMessage) : s.Undisturbed (.sendMsg msg) := by
  obtain ⟨m, q, hmq⟩ := exists_cons_of_ne_nil hq
  have hne : (s.sendMsg msg).queue ≠ [] := by simp [sendMsg, insertMsg]
  have hlater : NotLater s.queue s.msg → NotLater (s.sendMsg msg).queue s.msg := by
    intro hold n hn r hr
    have hm : m.whenMs ≤ r.whenMs := hold m (by simp [hmq]) r hr
    simp only [sendMsg, insertMsg, hmq, takeWhile_cons, dropWhile_cons] at hn
    split at hn
    · obtain rfl : m = n := by simpa using hn
      exact hm
    · next hgt =>
      obtain rfl := (by simpa using hn : _ = n)
      simp only [decide_eq_true_eq] at hgt
      dsimp only
      omega
  change s.FitFor (s.sendMsg msg).queue
  revert hfit
  unfold FitFor
  cases s.pc with
  | readFront => exact fun _ => hne
  | checkDelay => exact hlater
  | checkAgain due =>
    cases due with
    | true => exact hlater
    | false => exact fun hnil => absurd hnil hq
  | takeFront => exact fun hfit => ⟨hne, hlater hfit.2⟩
  | _ => exact fun _ => trivial

end QueueState

theorem threadLoop_safe {clock : Int} {h : List (QueueStep × Unit)} {s : QueueState}
    (hrun : queueMachine.Run QueueState.Undisturbed (.start clock) h s) : s.Safe := by
  have hinv : s.OnePlace ∧ s.FitFor s.queue ∧ s.Knows := by
    refine hrun.invariant (fun _ s => s.OnePlace ∧ s.FitFor s.queue ∧ s.Knows) ?_ ?_
    · exact ⟨⟨by simp [start], by simp [start], by simp [start],
        by simp [start]⟩, trivial, trivial⟩
    · rintro - s e ⟨hone, hfit, hknow⟩ hu
      exact ⟨hone.step e, step_ready hfit hknow hu⟩
  obtain ⟨hone, -, hknow⟩ := hinv
  refine ⟨fun hpc => ?_, fun hpc => ?_, fun hpc m hm => (hone.handled hpc m hm).2.1⟩
  · simp [Knows, hpc] at hknow
  · simpa [Knows, hpc] using hknow

/-- Two messages, the second of which is due a minute later. -/
def askName : CMessage := { type := .giveOsdName }
def askVendor : CMessage := { type := .giveDeviceVendorId, delayMs := 60000 }

/-- The second message is removed while the first one waits for the loop, which then handles the
first. -/
theorem threadLoop_safe_askName :
    let s := (queueMachine.exec (.start 0) [.sendMsg askName, .sendMsg askVendor, .loop, .loop,
      .loop, .removeMsg .giveDeviceVendorId, .loop, .loop, .loop, .loop]).2
    s.pc = .handle ∧ s.msg.map QueuedMsg.msg = some askName ∧ s.Safe := by
  refine ⟨by decide, by decide, threadLoop_safe (Machine.run_exec _ ?_)⟩
  refine ⟨trivial, trivial, trivial, trivial, trivial, ?_, trivial, trivial, trivial, trivial,
    trivial⟩
  exact cons_ne_nil _ _

/-- The queue is cleared between the check of its size and the reading of its front; or the message
found to be due is removed before the loop takes it, and the next one is handled a minute early. -/
theorem threadLoop_disturbed :
    (queueMachine.exec (.start 0) [.sendMsg askName, .loop, .loop, .loop, .clearMsg,
      .loop]).2.pc = .emptyFront ∧
    let s := (queueMachine.exec (.start 0) [.sendMsg askName, .sendMsg askVendor, .loop, .loop,
      .loop, .loop, .loop, .removeMsg .giveOsdName, .loop, .loop]).2
    s.pc = .handle ∧ s.readAt = some 0 ∧ s.msg.map QueuedMsg.whenMs = some 60000 := by
  decide

/-! ## Runs without removals -/

/-- No thread but the loop takes a message out. -/
def QueueStep.NoRemoval : QueueStep → Prop
  | .removeMsg _ | .clearMsg => False
  | _ => True

/-- From the end of the wait for a message until one is taken, there is one. -/
def QueueState.Supplied (s : QueueState) : Prop :=
  match s.pc with
  | .loopHead | .awaitMsg | .handle | .exited => True
  | .checkAgain false | .emptyFront => False
  | _ => s.queue ≠ []

theorem step_supplied {s : QueueState} {e : QueueStep} (hfit : s.FitFor s.queue) (h : s.Supplied)
    (he : e.NoRemoval) : s.Undisturbed e ∧ (s.step e).Supplied := by
  cases e with
  | loop => exact ⟨trivial, by grind [QueueState.step, QueueState.loop, Supplied, List.isEmpty_iff]⟩
  | sendMsg msg =>
    constructor
    · by_cases hq : s.queue = []
      · simp only [Supplied, Undisturbed, FitFor] at h ⊢
        split <;> simp_all
      · exact sendMsg_undisturbed hfit hq msg
    · simp only [Supplied, QueueState.step, QueueState.sendMsg] at h ⊢
      split <;> simp_all [insertMsg]
  | removeMsg type => exact he.elim
  | clearMsg => exact he.elim
  | tick ms => exact ⟨trivial, h⟩
  | requestExit => exact ⟨trivial, h⟩

theorem sends_safe {clock : Int} {h : List (QueueStep × Unit)} {s : QueueState}
    (hrun : queueMachine.Run (fun _ e => e.NoRemoval) (.start clock) h s) :
    s.pc ≠ .emptyFront ∧ (s.pc = .handle → s.Due) := by
  have hinv : s.Supplied ∧ s.FitFor s.queue ∧ s.Knows := by
    refine hrun.invariant (fun _ s => s.Supplied ∧ s.FitFor s.queue ∧ s.Knows)
      ⟨trivial, trivial, trivial⟩ ?_
    rintro - s e ⟨hsupplied, hfit, hknow⟩ he
    obtain ⟨hu, hnext⟩ := step_supplied hfit hsupplied he
    exact ⟨hnext, step_ready hfit hknow hu⟩
  refine ⟨fun hpc => ?_, fun hpc => ?_⟩
  · simp [Supplied, hpc] at hinv
  · simpa [Knows, hpc] using hinv.2.2

theorem sends_safe_askVendor :
    let s := (queueMachine.exec (.start 0)
      [.sendMsg askName, .loop, .loop, .sendMsg askVendor, .loop, .loop, .loop, .loop, .loop]).2
    s.pc = .handle ∧ s.Due :=
  ⟨by decide, (sends_safe (Machine.run_exec _ (by simp [Machine.Always, QueueStep.NoRemoval]))).2
    (by decide)⟩

end AmlogicHal.Cec

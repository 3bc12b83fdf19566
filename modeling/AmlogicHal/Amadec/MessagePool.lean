import AmlogicHal.Lib.Machine
import AmlogicHal.Lib.Ring

/-!
# The message pool of the audio decoder

`adec-message.c` keeps the commands for the decoder thread in a ring of `MESSAGE_NUM_MAX` pointers.
A message that does not fit replaces the oldest one, which is freed.

`MessageQueue` says what the pool is for. `pool_refines`: the pool is such a queue, and the messages
whose fate is settled, followed by the pending ones, are always the messages that were sent, in this
order. An `adec_message_pool_init` forgets the pending messages: they are neither returned nor freed
(`init_forgets`).
-/

namespace AmlogicHal.Amadec

def messageNumMax : Nat := 12

theorem messageNumMax_pos : 0 < messageNumMax := by decide

inductive MessageCall (μ : Type)
  | init
  | send (cmd : μ)
  | get

/-! ## What the pool is for -/

structure MessageQueue (μ : Type) where
  messages : List μ
  fits : messages.length ≤ messageNumMax

/-- What becomes of a message that is no longer pending. -/
inductive Fate
  | returned | freed | forgotten
deriving DecidableEq

namespace MessageQueue

variable {μ : Type}

def empty : MessageQueue μ := ⟨[], Nat.zero_le _⟩

/-- Room is made for one message: a full queue loses its oldest one. -/
def makeRoom (q : MessageQueue μ) : List μ :=
  if q.messages.length < messageNumMax then q.messages else q.messages.tail

theorem length_makeRoom_lt (q : MessageQueue μ) : q.makeRoom.length < messageNumMax := by
  unfold makeRoom
  split
  · next h => exact h
  · rw [List.length_tail]
    exact Nat.lt_of_le_of_lt (Nat.sub_le_sub_right q.fits 1) (by decide)

def send (cmd : μ) (q : MessageQueue μ) : MessageQueue μ :=
  ⟨q.makeRoom ++ [cmd], List.length_append ▸ q.length_makeRoom_lt⟩

def tail (q : MessageQueue μ) : MessageQueue μ :=
  ⟨q.messages.tail, (List.length_tail ▸ Nat.sub_le _ _).trans q.fits⟩

/-- The messages that are settled by a call, each with its fate. -/
def settled (q : MessageQueue μ) : MessageCall μ → List (μ × Fate)
  | .init => q.messages.map fun m => (m, .forgotten)
  | .send _ =>
    if q.messages.length < messageNumMax then []
    else q.messages.head?.toList.map fun m => (m, .freed)
  | .get => q.messages.head?.toList.map fun m => (m, .returned)

end MessageQueue

open MessageQueue

def queueMachine (μ : Type) : Machine (MessageQueue μ) (MessageCall μ) (List (μ × Fate)) where
  step q e :=
    (match e with
      | .init => .empty
      | .send cmd => q.send cmd
      | .get => q.tail, q.settled e)

/-! ## The model of the source -/

/-- `message_pool_t`. A slot without a message is the null pointer. -/
structure MessagePool (μ : Type) where
  messageLise : Memory (Option μ)
  messageInIndex : Nat
  messageOutIndex : Nat
  messageNum : Nat

/-- The pointer that `adec_get_message` returns, and the pointers that are handed to `free`. -/
structure PoolEffect (μ : Type) where
  returned : Option μ
  freed : List (Option μ)

namespace MessagePool

variable {μ : Type}

/-- `adec_message_pool_init`. -/
def init : MessagePool μ := ⟨fun _ => none, 0, 0, 0⟩

/-- `adec_send_message`, the part under the mutex. -/
def send (cmd : μ) (pool : MessagePool μ) : MessagePool μ × PoolEffect μ :=
  if pool.messageNum < messageNumMax then
    ({ pool with
      messageLise := pool.messageLise.store pool.messageInIndex [some cmd]
      messageInIndex := (pool.messageInIndex + 1) % messageNumMax
      messageNum := pool.messageNum + 1 }, ⟨none, []⟩)
  else
    ({ pool with
      messageLise := pool.messageLise.store pool.messageInIndex [some cmd]
      messageInIndex := (pool.messageInIndex + 1) % messageNumMax
      messageOutIndex := (pool.messageOutIndex + 1) % messageNumMax },
      ⟨none, [pool.messageLise pool.messageInIndex]⟩)

/-- `adec_get_message`. -/
def get (pool : MessagePool μ) : MessagePool μ × PoolEffect μ :=
  if pool.messageNum > 0 then
    ({ pool with
      messageOutIndex := (pool.messageOutIndex + 1) % messageNumMax
      messageNum := pool.messageNum - 1 }, ⟨pool.messageLise pool.messageOutIndex, []⟩)
  else (pool, ⟨none, []⟩)

def pending (pool : MessagePool μ) : List (Option μ) :=
  pool.messageLise.window 0 messageNumMax pool.messageOutIndex pool.messageNum

end MessagePool

def poolMachine (μ : Type) : Machine (MessagePool μ) (MessageCall μ) (PoolEffect μ) where
  step pool
    | .init => (.init, ⟨none, []⟩)
    | .send cmd => pool.send cmd
    | .get => pool.get

/-! ## The refinement -/

section Refinement

variable {μ : Type}

/-- The pool holds the messages of the queue, and the in index is the out index plus their
number. -/
structure Pools (pool : MessagePool μ) (q : MessageQueue μ) : Prop where
  pending : pool.pending = q.messages.map some
  num : pool.messageNum = q.messages.length
  outIndex : pool.messageOutIndex < messageNumMax
  inIndex : pool.messageInIndex = (pool.messageOutIndex + pool.messageNum) % messageNumMax

/-- What the pool does is what the queue does: it returns and frees the messages that the queue
returns and frees, and holds the same messages afterwards. -/
structure PoolRefines (s : MessagePool μ × MessageQueue μ) (e : MessageCall μ) : Prop where
  returned : ((poolMachine μ).step s.1 e).2.returned.toList =
    (((queueMachine μ).step s.2 e).2.filter fun x => x.2 = .returned).map Prod.fst
  freed : ((poolMachine μ).step s.1 e).2.freed =
    (((queueMachine μ).step s.2 e).2.filter fun x => x.2 = .freed).map fun x => some x.1
  pools : Pools ((poolMachine μ).step s.1 e).1 ((queueMachine μ).step s.2 e).1

def sent (es : List (MessageCall μ)) : List μ :=
  es.filterMap fun
    | .send cmd => some cmd
    | _ => none

def allSettled (h : List (MessageCall μ × List (μ × Fate))) : List (μ × Fate) :=
  h.flatMap fun x => x.2

/-! ### The messages of the queue -/

/-- What a call settles and what is pending after it, from what was pending before and what it
sends. -/
theorem settled_append (q : MessageQueue μ) (e : MessageCall μ) :
    (q.settled e).map Prod.fst ++ ((queueMachine μ).step q e).1.messages =
      q.messages ++ sent [e] := by
  obtain ⟨messages, hfits⟩ := q
  cases e with
  | init => simp [settled, queueMachine, empty, sent, Function.comp_def]
  | get => cases messages <;> simp [settled, queueMachine, tail, sent]
  | send cmd =>
    have hsent : sent [.send cmd] = [cmd] := rfl
    unfold queueMachine settled send makeRoom
    dsimp only
    split
    · rfl
    · next hfull =>
      cases messages with
      | nil => exact absurd messageNumMax_pos hfull
      | cons m messages => rfl

/-- Over a run every message that is sent is either settled, in the order of sending, or pending. -/
theorem allSettled_append (es : List (MessageCall μ)) (q : MessageQueue μ) :
    (allSettled ((queueMachine μ).exec q es).1).map Prod.fst ++
      ((queueMachine μ).exec q es).2.messages = q.messages ++ sent es := by
  induction es generalizing q with
  | nil => simp [Machine.exec, allSettled, sent]
  | cons e es ih =>
    have hsent : sent (e :: es) = sent [e] ++ sent es := by
      rw [sent, ← List.singleton_append, List.filterMap_append]
      rfl
    have hexec : allSettled ((queueMachine μ).exec q (e :: es)).1 =
        q.settled e ++ allSettled ((queueMachine μ).exec ((queueMachine μ).step q e).1 es).1 := rfl
    show _ ++ ((queueMachine μ).exec ((queueMachine μ).step q e).1 es).2.messages = _
    rw [hexec, List.map_append, List.append_assoc, ih, ← List.append_assoc, settled_append, hsent,
      List.append_assoc]

/-! ### The ring -/

namespace Pools

variable {pool : MessagePool μ} {q : MessageQueue μ}

theorem oldest (h : Pools pool q) {m : μ} {messages : List μ} (hq : q.messages = m :: messages) :
    pool.messageLise pool.messageOutIndex = some m ∧
      pool.messageLise.window 0 messageNumMax (pool.messageOutIndex + 1) messages.length =
        messages.map some := by
  have hpending := h.pending
  unfold MessagePool.pending at hpending
  rw [h.num, hq, List.length_cons, Memory.window_cons, Nat.zero_add, Nat.mod_eq_of_lt h.outIndex,
    List.map_cons] at hpending
  exact List.cons_eq_cons.mp hpending

theorem init : Pools (.init : MessagePool μ) .empty := ⟨rfl, rfl, messageNumMax_pos, rfl⟩

theorem store {out n : Nat} {slots : Memory (Option μ)} {messages : List μ} (cmd : μ)
    (hpending : slots.window 0 messageNumMax out n = messages.map some) (hn : n < messageNumMax) :
    (slots.store ((out + n) % messageNumMax) [some cmd]).window 0 messageNumMax out (n + 1) =
      (messages ++ [cmd]).map some := by
  have hp : (out + n) % messageNumMax < messageNumMax := Nat.mod_lt _ messageNumMax_pos
  have hstore : (slots.store (0 + (out + n) % messageNumMax) [some cmd]).window 0 messageNumMax out
      (n + 1) = slots.window 0 messageNumMax out n ++ [some cmd] :=
    Memory.window_store slots 0 rfl (Nat.succ_le_of_lt hp) (Nat.succ_le_of_lt hn)
  rw [Nat.zero_add] at hstore
  rw [hstore, hpending, List.map_append]
  rfl

variable (h : Pools pool q)
include h

theorem refines_send (cmd : μ) : PoolRefines (pool, q) (.send cmd) := by
  have hin := h.inIndex
  rcases Nat.lt_or_ge q.messages.length messageNumMax with hlt | hge
  · have hnum : pool.messageNum < messageNumMax := h.num.symm ▸ hlt
    have hstep : (poolMachine μ).step pool (.send cmd) = _ := if_pos hnum
    have hqueue : (queueMachine μ).step q (.send cmd) = (q.send cmd, []) := by
      simp [queueMachine, settled, hlt]
    have hsend : (q.send cmd).messages = q.messages ++ [cmd] := by
      simp [send, makeRoom, hlt]
    refine ⟨?_, ?_, ?_⟩
    · rw [hstep, hqueue]
      rfl
    · rw [hstep, hqueue]
      rfl
    · rw [hstep, hqueue]
      refine ⟨?_, ?_, h.outIndex, ?_⟩
      · rw [hsend, hin]
        exact Pools.store cmd h.pending hnum
      · simp [hsend, h.num]
      · rw [hin]
        exact (Nat.mod_add_mod _ _ _).trans (by rw [Nat.add_assoc])
  · have hlength : q.messages.length = messageNumMax := Nat.le_antisymm q.fits hge
    have hnum : pool.messageNum = messageNumMax := h.num.trans hlength
    have hstep : (poolMachine μ).step pool (.send cmd) = _ := if_neg (Nat.not_lt.mpr hnum.ge)
    obtain ⟨m, messages, hq⟩ := List.exists_cons_of_length_pos (hlength.symm ▸ messageNumMax_pos)
    obtain ⟨holdest, hrest⟩ := h.oldest hq
    have hcount : messages.length = 11 := by
      rw [hq, List.length_cons] at hlength
      exact Nat.succ.inj hlength
    have hqueue : (queueMachine μ).step q (.send cmd) = (q.send cmd, [(m, .freed)]) := by
      simp [queueMachine, settled, messageNumMax, hq, hcount]
    have hsend : (q.send cmd).messages = messages ++ [cmd] := by
      simp [send, makeRoom, messageNumMax, hq, hcount]
    -- the oldest message is where the new one goes
    have hinout : pool.messageInIndex = pool.messageOutIndex := by
      rw [hin, hnum, Nat.add_mod_right, Nat.mod_eq_of_lt h.outIndex]
    have hlast : pool.messageInIndex = (pool.messageOutIndex + 1 + 11) % messageNumMax := by
      rw [hin, hnum]
      rfl
    refine ⟨?_, ?_, ?_⟩
    · rw [hstep, hqueue]
      rfl
    · rw [hstep, hqueue, hinout, holdest]
      rfl
    · rw [hstep, hqueue]
      refine ⟨?_, ?_, Nat.mod_lt _ messageNumMax_pos, ?_⟩
      · unfold MessagePool.pending
        rw [Memory.window_mod, hsend, hlast, hnum]
        exact Pools.store cmd (hcount ▸ hrest) (show 11 < 12 by decide)
      · rw [hsend, List.length_append, hcount]
        exact hnum
      · rw [hinout, hnum]
        exact ((Nat.add_mod_right _ _).trans (Nat.mod_mod _ _)).symm

theorem refines_get : PoolRefines (pool, q) .get := by
  cases hq : q.messages with
  | nil =>
    have hnum : ¬ pool.messageNum > 0 := by simp [h.num, hq]
    have hstep : (poolMachine μ).step pool .get = (pool, ⟨none, []⟩) := if_neg hnum
    have hqueue : (queueMachine μ).step q .get = (q, []) := by
      obtain ⟨messages, _⟩ := q
      cases hq
      rfl
    exact ⟨by rw [hstep, hqueue]; rfl, by rw [hstep, hqueue]; rfl, by rw [hstep, hqueue]; exact h⟩
  | cons m messages =>
    obtain ⟨holdest, hrest⟩ := h.oldest hq
    have hnum : pool.messageNum = messages.length + 1 := by rw [h.num, hq, List.length_cons]
    have hstep : (poolMachine μ).step pool .get = _ := if_pos (hnum ▸ Nat.succ_pos _)
    have hqueue : (queueMachine μ).step q .get = (q.tail, [(m, .returned)]) := by
      simp [queueMachine, settled, hq]
    have htail : q.tail.messages = messages := by simp [tail, hq]
    refine ⟨?_, ?_, ?_⟩
    · rw [hstep, hqueue, holdest]
      rfl
    · rw [hstep, hqueue]
      rfl
    · rw [hstep, hqueue]
      refine ⟨?_, ?_, Nat.mod_lt _ messageNumMax_pos, ?_⟩
      · unfold MessagePool.pending
        rw [Memory.window_mod, htail, hnum, Nat.add_sub_cancel]
        exact hrest
      · rw [htail, hnum]
        rfl
      · rw [h.inIndex, hnum]
        rw [Nat.mod_add_mod, Nat.add_sub_cancel, Nat.add_assoc, Nat.add_comm 1]

theorem refines (e : MessageCall μ) : PoolRefines (pool, q) e := by
  cases e with
  | init => exact ⟨by simp [poolMachine, queueMachine, settled], by
      simp [poolMachine, queueMachine, settled], Pools.init⟩
  | send cmd => exact h.refines_send cmd
  | get => exact h.refines_get

end Pools

/-! ### Runs -/

theorem pool_refines (pool : MessagePool μ) (q : MessageQueue μ) (es : List (MessageCall μ)) :
    ((poolMachine μ).both (queueMachine μ)).Always PoolRefines
        (((poolMachine μ).step pool .init).1, ((queueMachine μ).step q .init).1) es ∧
      (allSettled ((queueMachine μ).exec ((queueMachine μ).step q .init).1 es).1).map Prod.fst ++
        ((queueMachine μ).exec ((queueMachine μ).step q .init).1 es).2.messages = sent es := by
  refine ⟨?_, allSettled_append es .empty⟩
  exact Machine.always_of_invariant (I := fun s : MessagePool μ × MessageQueue μ => Pools s.1 s.2)
    (fun s e h => h.refines e) (fun s e h => (h.refines e).pools) es _ Pools.init

theorem init_forgets :
    ((poolMachine Nat).exec .init [.send 1, .init]).2.pending = [] ∧
      ((poolMachine Nat).exec .init [.send 1, .init]).1.map (fun x => (x.2.returned, x.2.freed)) =
        [(none, []), (none, [])] ∧
      sent [MessageCall.send 1, .init] = [1] := by
  refine ⟨rfl, rfl, rfl⟩

end Refinement

end AmlogicHal.Amadec

import AmlogicHal.Cec.MsgQueue
import AmlogicHal.Lib.StableQueue
import Mathlib.Data.Int.Order.Basic
import Mathlib.Data.List.Chain
import Mathlib.Data.List.Perm.Subperm

/-!
# The order of the message queue

`sendMsg` puts a message behind all that are due no later, the loop takes messages out at the front,
and other threads remove messages in between.

* `messages_served_inOrder`: in every run the queue stays sorted by due time, messages with the same
  due time leave in the order in which they were sent, and every message sent is in the queue, was
  removed or was taken out.
* `removeMsg_exact_iff`: `removeMsg` removes all messages of a type exactly if no two of them are
  neighbours, because its index moves on after a removal too. The other messages stay
  (`removeLoop_others`).
* `adjacentMessage_left`: the second one of two neighbours is left in the queue.
-/

namespace AmlogicHal.Cec

open StableQueue QueueState Machine List

/-! ## Removal -/

theorem removeLoop_others (type : MsgType) (q : List QueuedMsg) :
    (removeLoop type q).filter (·.msg.type ≠ type) = q.filter (·.msg.type ≠ type) := by
  fun_induction removeLoop type q with
  | case1 => rfl
  | case2 m h => simp [h]
  | case3 m h => rfl
  | case4 m n q h ih =>
    have hm : (m :: n :: q).filter (·.msg.type ≠ type) = (n :: q).filter (·.msg.type ≠ type) :=
      filter_cons_of_neg (by simpa using h)
    rw [hm, filter_cons, filter_cons, ih]
  | case5 m n q h ih =>
    simp only [filter_cons, ih]

/-- After a message of the type there is none of the type. -/
def Apart (type : MsgType) (m n : QueuedMsg) : Prop := m.msg.type = type → n.msg.type ≠ type

theorem isChain_apart_cons {type : MsgType} {n : QueuedMsg} {q : List QueuedMsg}
    (hn : n.msg.type ≠ type) : (n :: q).IsChain (Apart type) ↔ q.IsChain (Apart type) := by
  rw [isChain_cons]
  exact and_iff_right fun _ _ heq => absurd heq hn

/-- The loop looks at the message behind a removed one only if it is not a neighbour. -/
theorem removeLoop_clean_iff (type : MsgType) (q : List QueuedMsg) :
    (∀ m ∈ removeLoop type q, m.msg.type ≠ type) ↔ q.IsChain (Apart type) := by
  fun_induction removeLoop type q with
  | case1 => simp
  | case2 m h => simp
  | case3 m h => simpa using h
  | case4 m n q h ih =>
    rw [forall_mem_cons, ih, isChain_cons_cons]
    constructor
    · rintro ⟨hn, hq⟩
      exact ⟨fun _ => hn, (isChain_apart_cons hn).mpr hq⟩
    · rintro ⟨hapart, hq⟩
      exact ⟨hapart h, (isChain_apart_cons (hapart h)).mp hq⟩
  | case5 m n q h ih =>
    rw [forall_mem_cons, ih, isChain_apart_cons h]
    exact and_iff_right h

theorem removeMsg_exact_iff (s : QueueState) (type : MsgType) :
    (s.removeMsg type).queue = s.queue.filter (·.msg.type ≠ type) ↔
    s.queue.IsChain (Apart type) := by
  rw [← removeLoop_clean_iff]
  change removeLoop type s.queue = _ ↔ _
  constructor
  · intro heq m hm
    rw [heq] at hm
    exact of_decide_eq_true (mem_filter.mp hm).2
  · intro hclean
    rw [← removeLoop_others]
    exact (filter_eq_self.mpr fun m hm => decide_eq_true (hclean m hm)).symm

theorem adjacentMessage_left :
    let s := (queueMachine.exec (.start 0) [.sendMsg askName, .sendMsg askName]).2
    (s.removeMsg .giveOsdName).queue.map QueuedMsg.msg = [askName] ∧
      (s.removeMsg .giveOsdName).queue ≠ s.queue.filter (·.msg.type ≠ .giveOsdName) := by
  decide

/-! ## What goes in and comes out -/

/-- The messages that a step puts into the queue, removes and takes out at the front. -/
structure Traffic where
  sent : List QueuedMsg
  removed : List QueuedMsg
  dequeued : List QueuedMsg

def QueueState.traffic (s : QueueState) : QueueStep → Traffic
  | .loop => ⟨[], [], if s.pc = .takeFront then s.queue.head?.toList else []⟩
  | .sendMsg msg => ⟨[⟨msg, s.clock + msg.delayMs, s.nextId⟩], [], []⟩
  | .removeMsg type => ⟨[], s.queue.diff (removeLoop type s.queue), []⟩
  | .clearMsg => ⟨[], s.queue, []⟩
  | .tick _ | .requestExit => ⟨[], [], []⟩

def trafficMachine : Machine QueueState QueueStep Traffic := ⟨fun s e => (s.step e, s.traffic e)⟩

theorem trafficMachine_exec (s : QueueState) (es : List QueueStep) :
    (trafficMachine.exec s es).2 = (queueMachine.exec s es).2 := by
  refine exec_simulation (R := fun s t => s = t) ?_ es rfl
  rintro s _ e rfl
  rfl

theorem loop_queue {s : QueueState} (h : s.pc ≠ .takeFront) : s.loop.queue = s.queue := by
  unfold loop
  cases hpc : s.pc with
  | takeFront => exact absurd hpc h
  | awaitMsg => dsimp only; split <;> rfl
  | readFront => dsimp only; split <;> rfl
  | _ => rfl

theorem loop_takeFront {s : QueueState} (h : s.pc = .takeFront) : s.loop.queue = s.queue.tail := by
  unfold loop
  rw [h]
  dsimp only
  split
  · next hq => rw [hq]; rfl
  · next m q hq => rw [hq]; rfl

def ServedBy (h : List (QueueStep × Traffic)) (queue : List QueuedMsg) : Prop :=
  Served QueuedMsg.whenMs (Machine.total Traffic.sent h) (Machine.total Traffic.removed h)
    (Machine.total Traffic.dequeued h) queue

theorem servedBy_start (clock : Int) : ServedBy [] (start clock).queue := served_nil

theorem ServedBy.step {h : List (QueueStep × Traffic)} {s : QueueState} (hs : ServedBy h s.queue)
    (e : QueueStep) : ServedBy (h ++ [(e, s.traffic e)]) (s.step e).queue := by
  unfold ServedBy at hs ⊢
  simp only [total_snoc]
  cases e with
  | sendMsg msg =>
    simp only [traffic, append_nil]
    exact hs.insert _
  | removeMsg type =>
    simp only [traffic, append_nil]
    have hsub := removeLoop_sublist type s.queue
    have hdrop := subperm_append_diff_self_of_count_le (subperm_ext_iff.mp hsub.subperm)
    exact hs.retain hsub hdrop.symm
  | clearMsg =>
    simp only [traffic, append_nil]
    exact hs.retain (nil_sublist _) (List.Perm.refl _)
  | tick ms =>
    simp only [traffic, append_nil]
    exact hs
  | requestExit =>
    simp only [traffic, append_nil]
    exact hs
  | loop =>
    simp only [traffic, append_nil]
    change Served _ _ _ _ s.loop.queue
    by_cases hpc : s.pc = .takeFront
    · rw [if_pos hpc, loop_takeFront hpc]
      cases hq : s.queue with
      | nil =>
        rw [hq] at hs
        simpa using hs
      | cons m q =>
        rw [hq] at hs
        exact hs.dequeue
    · rw [if_neg hpc, loop_queue hpc, append_nil]
      exact hs

theorem messages_served_inOrder (clock : Int) (es : List QueueStep) :
    let h := (trafficMachine.exec (.start clock) es).1
    let queue := (queueMachine.exec (.start clock) es).2.queue
    queue.Pairwise (fun m n => m.whenMs ≤ n.whenMs) ∧
      (∀ t, ((total Traffic.dequeued h).filter (·.whenMs = t)).Sublist
        (total Traffic.sent h)) ∧
      (total Traffic.sent h).Perm
        (queue ++ total Traffic.removed h ++ total Traffic.dequeued h) := by
  intro h queue
  have hrun : trafficMachine.Run (fun _ _ => True) (.start clock) h
      (trafficMachine.exec (.start clock) es).2 :=
    run_exec es (always_of_mem fun _ _ => trivial)
  have hserved : ServedBy h queue := by
    change ServedBy h (queueMachine.exec (.start clock) es).2.queue
    rw [← trafficMachine_exec]
    exact hrun.invariant (fun h (s : QueueState) => ServedBy h s.queue) (servedBy_start clock)
      fun h s e hs _ => hs.step e
  exact ⟨hserved.sorted, hserved.out_sublist, hserved.account⟩

end AmlogicHal.Cec

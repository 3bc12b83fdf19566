import AmlogicHal.Lib.Resources
import Mathlib.Control.Basic

/-!
# The connection of the keymaster object

A keymaster object talks to its TA through a TEE context and a session in it. `Initialize` and
`ProvisionDevidBox` open both with `aml_keymaster_connect`, and only the destructor closes them.
`Initialize` overwrites the handles before it connects, and `ProvisionDevidBox` connects over them.

The TEE is an arbitrary stream of answers: whether a context or a session is opened, and whether a
command succeeds. A call that fails after it connected leaves its connection open; the next call
overwrites the handles, and the context and the session stay open for ever.
`connections_paired_iff`: this is the only way to lose one.

The first command through `ForwardCommand` starts `init_service_later`, which initializes the object
until it succeeds or the process is ended. `Initialize` itself sends such commands.
-/

namespace AmlogicHal.Keymint

open ResourceEvent

inductive TeeResource where
  | context (n : Nat)
  | session (n : Nat)
deriving DecidableEq, Repr

def TeeResource.name : TeeResource → Nat
  | .context n => n
  | .session n => n

/-- What the object holds of the TEE. Contexts and sessions are named by numbers in the order in
which they are opened. -/
structure Connection where
  /-- `KM_context`. It keeps the name of a context that was finalized. -/
  kmContext : Option Nat
  /-- `KM_session`, nothing while its `ctx` is `NULL`. -/
  kmSession : Option Nat
  next : Nat
  /-- What happened to them, the newest first. -/
  trace : List (ResourceEvent TeeResource)
deriving DecidableEq, Repr

namespace Connection

variable (c : Connection)

def record (e : ResourceEvent TeeResource) : Connection :=
  { c with trace := e :: c.trace }

/-- Something happens to the context in `KM_context`. -/
def onContext (event : TeeResource → ResourceEvent TeeResource) : Connection :=
  match c.kmContext with
  | none => c
  | some n => c.record (event (.context n))

/-- Something happens to the session in `KM_session`. -/
def onSession (event : TeeResource → ResourceEvent TeeResource) : Connection :=
  match c.kmSession with
  | none => c
  | some n => c.record (event (.session n))

/-- The first lines of `Initialize`. -/
def reset : Connection :=
  { (c.onContext .forgot).onSession .forgot with kmContext := none, kmSession := none }

def initializeContext : Connection :=
  { (c.onContext .forgot).record (.opened (.context c.next)) with
    kmContext := some c.next, next := c.next + 1 }

def openSession : Connection :=
  { ((c.onContext .used).onSession .forgot).record (.opened (.session c.next)) with
    kmSession := some c.next, next := c.next + 1 }

/-- `TEEC_InvokeCommand`, which goes through the context of the session. -/
def invokeCommand : Connection := (c.onSession .used).onContext .used

def closeSession : Connection := (c.onContext .used).onSession .closed

def finalizeContext : Connection := c.onContext .closed

def disconnect : Connection := c.invokeCommand.closeSession.finalizeContext

def destroy : Connection :=
  if c.kmSession.isSome then c.disconnect else c

end Connection

open Connection

structure Keymaster where
  conn : Connection
  initializeFlag : Bool
  /-- How many answers were read. -/
  answered : Nat
deriving DecidableEq, Repr

abbrev KmM := StateT Keymaster Option

section Model

variable (answers : Nat → Bool)

def answer : KmM Bool := fun s => some (answers s.answered, { s with answered := s.answered + 1 })

def act (f : Connection → Connection) : KmM Unit := fun s => some ((), { s with conn := f s.conn })

def amlKeymasterConnect : KmM Bool := do
  if ← answer answers then
    act .initializeContext
    if ← answer answers then
      act .openSession
      act .invokeCommand
      -- the session stays open whatever `KM_TA_INIT` returns
      answer answers
    else
      act .finalizeContext
      pure false
  else
    pure false

def forwardCommand2 : KmM Bool := do
  act .invokeCommand
  answer answers

/-- The end of `Initialize`: `Configure` and `ConfigureVendorPatchlevel`. -/
def configure (forwardCommand : KmM Bool) : KmM Bool := do
  if ← forwardCommand2 answers then
    let _ ← forwardCommand
    pure true
  else
    pure false

/-- `Initialize`, with what its commands through `ForwardCommand` do. -/
def initializeWith (forwardCommand : KmM Bool) : KmM Bool := do
  act .reset
  if ← amlKeymasterConnect answers then
    -- `GetVersion2`, and `GetVersion` if it fails
    if ← forwardCommand2 answers then
      configure answers forwardCommand
    else if ← forwardCommand then
      -- `NegotiateMessageVersion`
      if ← answer answers then
        configure answers forwardCommand
      else
        pure false
    else
      pure false
  else
    pure false

/-- `KEYMASTER_TEMP_FAILURE_RETRY`, and the end of the process if that fails. -/
def retryInitialize : Nat → KmM Unit
  | 0 => failure
  | retry + 1 => do
    -- the flag is set here, so `ForwardCommand` sends at once
    if ← initializeWith answers (forwardCommand2 answers) then
      pure ()
    else
      retryInitialize retry

def initServiceLater : KmM Unit := retryInitialize answers 10000

def forwardCommand : KmM Bool := do
  if (← get).initializeFlag then
    forwardCommand2 answers
  else
    modify fun s => { s with initializeFlag := true }
    initServiceLater answers
    forwardCommand2 answers

def keymasterInitialize : KmM Bool := initializeWith answers (forwardCommand answers)

def provisionDevidBox : KmM Bool := do
  if ← amlKeymasterConnect answers then
    act .invokeCommand
    answer answers
  else
    pure false

inductive KmCall where
  | keymasterInitialize
  | provisionDevidBox
deriving DecidableEq, Repr

def KmCall.run : KmCall → KmM Bool
  | .keymasterInitialize => Keymint.keymasterInitialize answers
  | .provisionDevidBox => Keymint.provisionDevidBox answers

def runCalls : List KmCall → KmM Unit
  | [] => pure ()
  | call :: calls => do
    let _ ← call.run answers
    runCalls calls

def Keymaster.new (initializeFlag : Bool) : Keymaster := ⟨⟨none, none, 0, []⟩, initializeFlag, 0⟩

/-- What happened to contexts and sessions from the constructor to the destructor, if the process
comes to that. -/
def lifetime (initializeFlag : Bool) (calls : List KmCall) :
    Option (List (ResourceEvent TeeResource)) :=
  (runCalls answers calls (.new initializeFlag)).map fun r => r.2.conn.destroy.trace

end Model

/-! ## Single events -/

namespace Connection

variable {c : Connection} {n m : Nat} {e : ResourceEvent TeeResource}
  {event : TeeResource → ResourceEvent TeeResource}

/-- The object has the handle of a resource. -/
def Holds (c : Connection) : TeeResource → Prop
  | .context n => c.kmContext = some n
  | .session n => c.kmSession = some n

theorem onContext_none (h : c.kmContext = none) : c.onContext event = c := by
  simp [onContext, h]

theorem onContext_some (h : c.kmContext = some n) :
    c.onContext event = c.record (event (.context n)) := by
  simp [onContext, h]

theorem onSession_none (h : c.kmSession = none) : c.onSession event = c := by
  simp [onSession, h]

theorem onSession_some (h : c.kmSession = some n) :
    c.onSession event = c.record (event (.session n)) := by
  simp [onSession, h]

@[simp] theorem onContext_kmContext : (c.onContext event).kmContext = c.kmContext := by
  unfold onContext
  split <;> rfl

@[simp] theorem onContext_kmSession : (c.onContext event).kmSession = c.kmSession := by
  unfold onContext
  split <;> rfl

@[simp] theorem onContext_next : (c.onContext event).next = c.next := by
  unfold onContext
  split <;> rfl

@[simp] theorem onSession_kmContext : (c.onSession event).kmContext = c.kmContext := by
  unfold onSession
  split <;> rfl

@[simp] theorem onSession_kmSession : (c.onSession event).kmSession = c.kmSession := by
  unfold onSession
  split <;> rfl

@[simp] theorem onSession_next : (c.onSession event).next = c.next := by
  unfold onSession
  split <;> rfl

variable {P : Connection → Prop}

/-- What holds of a connection and of every event for a resource that it holds, holds after it. -/
theorem onContext_induction (h : P c) (hrecord : ∀ r, c.Holds r → P (c.record (event r))) :
    P (c.onContext event) := by
  cases hk : c.kmContext with
  | none => rwa [onContext_none hk]
  | some k =>
    rw [onContext_some hk]
    exact hrecord _ hk

theorem onSession_induction (h : P c) (hrecord : ∀ r, c.Holds r → P (c.record (event r))) :
    P (c.onSession event) := by
  cases hk : c.kmSession with
  | none => rwa [onSession_none hk]
  | some k =>
    rw [onSession_some hk]
    exact hrecord _ hk

/-- The events of a kind close no other resource than the one they are about. -/
def Own (event : TeeResource → ResourceEvent TeeResource) : Prop :=
  ∀ r q, event r = .closed q → r = q

theorem own_used : Own .used := fun _ _ h => by cases h
theorem own_forgot : Own .forgot := fun _ _ h => by cases h
theorem own_closed : Own .closed := fun _ _ h => by cases h; rfl

/-! ## New names -/

def Fresh (c : Connection) : Prop := ∀ r, .closed r ∈ c.trace ∨ c.Holds r → r.name < c.next

section

variable (h : c.Fresh)
include h

theorem Fresh.record (hclosed : ∀ r, e = .closed r → c.Holds r) : (c.record e).Fresh := by
  rintro r (hmem | hheld)
  · rcases List.mem_cons.mp hmem with heq | hbefore
    · exact h r (.inr (hclosed r heq.symm))
    · exact h r (.inl hbefore)
  · cases r <;> exact h _ (.inr hheld)

theorem Fresh.onContext (hown : Own event) : (c.onContext event).Fresh :=
  onContext_induction h fun r hheld => h.record fun q heq => hown r q heq ▸ hheld

theorem Fresh.onSession (hown : Own event) : (c.onSession event).Fresh :=
  onSession_induction h fun r hheld => h.record fun q heq => hown r q heq ▸ hheld

theorem Fresh.rename {d : Connection} (htrace : d.trace = c.trace) (hnext : c.next ≤ d.next)
    (hheld : ∀ r, d.Holds r → c.Holds r ∨ r.name < d.next) :
    d.Fresh := by
  rintro r (hmem | hr)
  · rw [htrace] at hmem
    exact Nat.lt_of_lt_of_le (h r (.inl hmem)) hnext
  · rcases hheld r hr with hbefore | hlt
    · exact Nat.lt_of_lt_of_le (h r (.inr hbefore)) hnext
    · exact hlt

theorem Fresh.reset : c.reset.Fresh := by
  refine ((h.onContext own_forgot).onSession own_forgot).rename rfl (Nat.le_refl _) fun r hr => ?_
  cases r <;> cases hr

theorem Fresh.initializeContext : c.initializeContext.Fresh := by
  have hopened := (h.onContext own_forgot).record (e := .opened (.context c.next)) (by simp)
  refine hopened.rename rfl (by simp [Connection.initializeContext, Connection.record])
    fun r hr => ?_
  cases r with
  | context k =>
    cases hr
    exact .inr (Nat.lt_succ_self _)
  | session k => exact .inl hr

theorem Fresh.openSession : c.openSession.Fresh := by
  have hopened :=
    ((h.onContext own_used).onSession own_forgot).record (e := .opened (.session c.next)) (by simp)
  refine hopened.rename rfl (by simp [Connection.openSession, Connection.record]) fun r hr => ?_
  cases r with
  | context k => exact .inl hr
  | session k =>
    cases hr
    exact .inr (Nat.lt_succ_self _)

theorem Fresh.invokeCommand : c.invokeCommand.Fresh := (h.onSession own_used).onContext own_used

theorem Fresh.finalizeContext : c.finalizeContext.Fresh := h.onContext own_closed

end

/-! ## A context that is lost stays lost -/

/-- A context is open of which the object has no handle. -/
structure LostContext (c : Connection) (n : Nat) : Prop where
  leaked : Leaked c.trace (.context n)
  named : n < c.next
  handle : c.kmContext ≠ some n

section

variable (h : c.LostContext n)
include h

theorem LostContext.record (hclosed : ∀ r, e = .closed r → c.Holds r) :
    (c.record e).LostContext n where
  leaked := h.leaked.cons fun heq => h.handle (hclosed _ heq)
  named := h.named
  handle := h.handle

theorem LostContext.onContext (hown : Own event) :
    (c.onContext event).LostContext n :=
  onContext_induction (P := (LostContext · n)) h fun r hheld => h.record fun q heq =>
    hown r q heq ▸ hheld

theorem LostContext.onSession (hown : Own event) :
    (c.onSession event).LostContext n :=
  onSession_induction (P := (LostContext · n)) h fun r hheld => h.record fun q heq =>
    hown r q heq ▸ hheld

theorem LostContext.reset : c.reset.LostContext n := by
  have hforgot := (h.onContext own_forgot).onSession own_forgot
  refine ⟨hforgot.leaked, hforgot.named, fun heq => ?_⟩
  cases heq

theorem LostContext.initializeContext : c.initializeContext.LostContext n := by
  have hopened := (h.onContext own_forgot).record (e := .opened (.context c.next)) (by simp)
  refine ⟨hopened.leaked, Nat.lt_succ_of_lt h.named, fun heq => ?_⟩
  have hnamed := h.named
  cases heq
  exact Nat.lt_irrefl _ hnamed

theorem LostContext.openSession : c.openSession.LostContext n := by
  have hopened :=
    ((h.onContext own_used).onSession own_forgot).record (e := .opened (.session c.next)) (by simp)
  exact ⟨hopened.leaked, Nat.lt_succ_of_lt h.named, hopened.handle⟩

theorem LostContext.invokeCommand : c.invokeCommand.LostContext n :=
  (h.onSession own_used).onContext own_used

theorem LostContext.finalizeContext : c.finalizeContext.LostContext n := h.onContext own_closed

theorem LostContext.disconnect : c.disconnect.LostContext n :=
  ((h.invokeCommand.onContext own_used).onSession own_closed).finalizeContext

end

/-! ## Without a loss -/

def Idle (c : Connection) : Prop := c.kmSession = none ∧ Opens c.trace []

/-- Between `TEEC_InitializeContext` and `TEEC_OpenSession`. -/
def Opening (c : Connection) : Prop :=
  ∃ n, c.kmContext = some n ∧ c.kmSession = none ∧ Opens c.trace [.context n]

def Connected (c : Connection) : Prop :=
  ∃ n m, c.kmContext = some n ∧ c.kmSession = some m ∧
    Opens c.trace [.session m, .context n]

theorem opens_onContext_forgot (h : Opens c.trace []) : Opens (c.onContext .forgot).trace [] :=
  onContext_induction (P := fun d => Opens d.trace []) h fun _ _ => h.forgot List.not_mem_nil

theorem Idle.reset (h : c.Idle) : c.reset.Idle := by
  have hsession : (c.onContext .forgot).kmSession = none := by rw [onContext_kmSession, h.1]
  refine ⟨rfl, ?_⟩
  change Opens ((c.onContext .forgot).onSession .forgot).trace []
  rw [onSession_none hsession]
  exact opens_onContext_forgot h.2

theorem Idle.initializeContext (h : c.Idle) (hfresh : c.Fresh) : c.initializeContext.Opening := by
  have hnew : .closed (.context c.next) ∉ (c.onContext .forgot).trace := fun hmem => by
    have hlt := hfresh.onContext own_forgot _ (.inl hmem)
    rw [onContext_next] at hlt
    exact Nat.lt_irrefl _ hlt
  refine ⟨c.next, rfl, ?_, (opens_onContext_forgot h.2).opened hnew⟩
  change (c.onContext .forgot).kmSession = none
  rw [onContext_kmSession, h.1]

theorem Opening.finalizeContext (h : c.Opening) : c.finalizeContext.Idle := by
  obtain ⟨n, hcontext, hsession, hopens⟩ := h
  rw [Connection.finalizeContext, onContext_some hcontext]
  exact ⟨hsession, hopens.closed (List.mem_singleton_self _) (by simp)⟩

theorem Opening.openSession (h : c.Opening) (hfresh : c.Fresh) : c.openSession.Connected := by
  obtain ⟨n, hcontext, hsession, hopens⟩ := h
  have hnew : .closed (.session c.next) ∉ c.trace := fun hmem =>
    Nat.lt_irrefl _ (hfresh _ (.inl hmem))
  have hused : (c.onContext .used).kmSession = none := by rw [onContext_kmSession, hsession]
  rw [Connection.openSession, onSession_none hused, onContext_some hcontext]
  exact ⟨n, c.next, hcontext, rfl,
    (hopens.used (List.mem_singleton_self _)).opened (by simpa using hnew)⟩

section

variable (h : c.Connected)
include h

theorem Connected.invokeCommand : c.invokeCommand.Connected := by
  obtain ⟨n, m, hcontext, hsession, hopens⟩ := h
  rw [Connection.invokeCommand, onSession_some hsession, onContext_some (c := c.record _) hcontext]
  exact ⟨n, m, hcontext, hsession, (hopens.used (by simp)).used (by simp)⟩

theorem Connected.disconnect : Opens c.disconnect.trace [] := by
  obtain ⟨n, m, hcontext, hsession, hopens⟩ := h.invokeCommand
  rw [Connection.disconnect, Connection.closeSession, onContext_some hcontext,
    onSession_some (c := c.invokeCommand.record _) hsession, finalizeContext,
    onContext_some (c := (c.invokeCommand.record _).record _) hcontext]
  have hsessionClosed : Opens (.closed (.session m) :: .used (.context n) :: c.invokeCommand.trace)
      [.context n] :=
    (hopens.used (by simp)).closed (by simp) fun q => by cases q <;> simp
  exact hsessionClosed.closed (by simp) (by simp)

/-! ## Losing a context -/

theorem Connected.reset (hfresh : c.Fresh) : ∃ n, c.reset.LostContext n := by
  obtain ⟨n, m, hcontext, hsession, hopens⟩ := h
  have hopen : IsOpen c.trace (.context n) := (hopens.isOpen _).mpr (by simp)
  rw [Connection.reset, onContext_some hcontext, onSession_some (c := c.record _) hsession]
  refine ⟨n, (Leaked.of_forgot hopen).cons (by simp), hfresh (.context n) (.inr hcontext), ?_⟩
  intro heq
  cases heq

theorem Connected.initializeContext (hfresh : c.Fresh) :
    ∃ n, c.initializeContext.LostContext n := by
  obtain ⟨n, m, hcontext, -, hopens⟩ := h
  have hopen : IsOpen c.trace (.context n) := (hopens.isOpen _).mpr (by simp)
  have hnamed : n < c.next := hfresh (.context n) (.inr hcontext)
  rw [Connection.initializeContext, onContext_some hcontext]
  refine ⟨n, (Leaked.of_forgot hopen).cons (by simp), Nat.lt_succ_of_lt hnamed, ?_⟩
  intro heq
  cases heq
  exact Nat.lt_irrefl _ hnamed

end

/-! ## Between the calls, and within them -/

def Settled (c : Connection) : Prop :=
  c.Fresh ∧ (c.Idle ∨ c.Connected ∨ ∃ n, c.LostContext n)

def Ready (c : Connection) : Prop := c.Fresh ∧ (c.Connected ∨ ∃ n, c.LostContext n)

theorem Ready.settled (h : c.Ready) : c.Settled := ⟨h.1, .inr h.2⟩

variable (h : c.Settled)
include h

theorem Settled.reset : c.reset.Settled := by
  obtain ⟨hfresh, hidle | hconnected | ⟨n, hlost⟩⟩ := h
  · exact ⟨hfresh.reset, .inl hidle.reset⟩
  · exact ⟨hfresh.reset, .inr (.inr (hconnected.reset hfresh))⟩
  · exact ⟨hfresh.reset, .inr (.inr ⟨n, hlost.reset⟩)⟩

theorem Settled.initializeContext :
    c.initializeContext.Fresh ∧
    (c.initializeContext.Opening ∨ ∃ n, c.initializeContext.LostContext n) := by
  obtain ⟨hfresh, hidle | hconnected | ⟨n, hlost⟩⟩ := h
  · exact ⟨hfresh.initializeContext, .inl (hidle.initializeContext hfresh)⟩
  · exact ⟨hfresh.initializeContext, .inr (hconnected.initializeContext hfresh)⟩
  · exact ⟨hfresh.initializeContext, .inr ⟨n, hlost.initializeContext⟩⟩

theorem Settled.openedInVain : c.initializeContext.finalizeContext.Settled := by
  obtain ⟨hfresh, hopening | ⟨n, hlost⟩⟩ := h.initializeContext
  · exact ⟨hfresh.finalizeContext, .inl hopening.finalizeContext⟩
  · exact ⟨hfresh.finalizeContext, .inr (.inr ⟨n, hlost.finalizeContext⟩)⟩

theorem Settled.opened : c.initializeContext.openSession.Ready := by
  obtain ⟨hfresh, hopening | ⟨n, hlost⟩⟩ := h.initializeContext
  · exact ⟨hfresh.openSession, .inl (hopening.openSession hfresh)⟩
  · exact ⟨hfresh.openSession, .inr ⟨n, hlost.openSession⟩⟩

omit h in
theorem Ready.invokeCommand (h : c.Ready) : c.invokeCommand.Ready := by
  obtain ⟨hfresh, hconnected | ⟨n, hlost⟩⟩ := h
  · exact ⟨hfresh.invokeCommand, .inl hconnected.invokeCommand⟩
  · exact ⟨hfresh.invokeCommand, .inr ⟨n, hlost.invokeCommand⟩⟩

/-- When the object is destroyed, nothing is open if no handle of something open was overwritten,
and a context is open otherwise. -/
theorem Settled.destroy : Opens c.destroy.trace [] ∨ ∃ n, Leaked c.destroy.trace (.context n) := by
  unfold Connection.destroy
  obtain ⟨-, hidle | hconnected | ⟨n, hlost⟩⟩ := h
  · rw [hidle.1]
    exact .inl hidle.2
  · have hclosed := hconnected.disconnect
    obtain ⟨_, m, -, hsession, -⟩ := hconnected
    rw [hsession]
    exact .inl hclosed
  · refine .inr ⟨n, ?_⟩
    split
    · exact hlost.disconnect.leaked
    · exact hlost.leaked

theorem Settled.paired_iff : Paired c.destroy.trace ↔ KeepsHandles c.destroy.trace := by
  rcases h.destroy with hopens | ⟨n, hleaked⟩
  · exact ⟨fun _ => hopens.keeps, fun _ => hopens.paired⟩
  · exact ⟨fun hpaired => absurd hpaired hleaked.not_paired,
      fun hkeeps => absurd hkeeps hleaked.overwritten⟩

end Connection

/-! ## Calls -/

section Calls

variable {answers : Nat → Bool} {α β : Type} {P : Connection → Prop}

def After (P : Connection → Prop) (x : KmM α) (Q : α → Connection → Prop) : Prop :=
  ∀ s, P s.conn → ∀ a s', x s = some (a, s') → Q a s'.conn

variable {Q : α → Connection → Prop}

theorem After.pure {a : α} (h : ∀ c, P c → Q a c) : After P (Pure.pure a) Q := by
  intro s hs b s' hrun
  cases hrun
  exact h _ hs

theorem After.bind {x : KmM α} {f : α → KmM β} {R : β → Connection → Prop} (hx : After P x Q)
    (hf : ∀ a, After (Q a) (f a) R) :
    After P (x >>= f) R := by
  intro s hs b s' hrun
  obtain ⟨⟨a, t⟩, hfirst, hrest⟩ := Option.bind_eq_some_iff.mp hrun
  exact hf a t (hx s hs a t hfirst) b s' hrest

theorem After.act {f : Connection → Connection} {Q : Unit → Connection → Prop}
    (h : ∀ c, P c → Q () (f c)) : After P (Keymint.act f) Q := by
  intro s hs a s' hrun
  cases hrun
  exact h _ hs

theorem After.answer {Q : Bool → Connection → Prop} (h : ∀ b c, P c → Q b c) :
    After P (Keymint.answer answers) Q := by
  intro s hs a s' hrun
  cases hrun
  exact h _ _ hs

theorem After.ite {b : Bool} {x y : KmM α} (hx : b = true → After P x Q)
    (hy : b = false → After P y Q) :
    After P (if b = true then x else y) Q := by
  cases b with
  | true => exact hx rfl
  | false => exact hy rfl

/-- A call has ended: with a session to use if it succeeded. -/
def Ended (ok : Bool) (c : Connection) : Prop := c.Settled ∧ (ok = true → c.Ready)

theorem Connection.Ready.ended {ok : Bool} {c : Connection} (h : c.Ready) : Ended ok c :=
  ⟨h.settled, fun _ => h⟩

theorem Connection.Settled.failed {c : Connection} (h : c.Settled) : Ended false c :=
  ⟨h, fun hok => by cases hok⟩

theorem amlKeymasterConnect_after : After Settled (amlKeymasterConnect answers) Ended := by
  refine .bind (.answer fun _ _ hsettled => hsettled) fun opened => .ite (fun _ => ?_) fun _ => ?_
  · refine .bind (Q := fun _ d => ∃ c, Settled c ∧ d = c.initializeContext)
      (.act fun c hsettled => ⟨c, hsettled, rfl⟩) fun _ => ?_
    refine .bind (.answer fun _ _ h => h) fun session => .ite (fun _ => ?_) fun _ => ?_
    · refine .bind (Q := fun _ => Ready) (.act ?_) fun _ => ?_
      · rintro _ ⟨c, hsettled, rfl⟩
        exact hsettled.opened
      · refine .bind (Q := fun _ => Ready) (.act fun _ hready => hready.invokeCommand) ?_
        exact fun _ => .answer fun _ _ hready => hready.ended
    · refine .bind (Q := fun _ => Settled) (.act ?_) fun _ => .pure fun _ h => h.failed
      rintro _ ⟨c, hsettled, rfl⟩
      exact hsettled.openedInVain
  · exact .pure fun _ hsettled => hsettled.failed

theorem forwardCommand2_after :
    After Ready (forwardCommand2 answers) fun _ => Ready :=
  .bind (.act fun _ hready => hready.invokeCommand) fun _ => .answer fun _ _ hready => hready

theorem configure_after {forward : KmM Bool}
    (hforward : After Ready forward fun _ => Ready) :
    After Ready (configure answers forward) Ended := by
  refine .bind forwardCommand2_after fun _ => .ite (fun _ => ?_) fun _ => ?_
  · exact .bind hforward fun _ => .pure fun _ hready => hready.ended
  · exact .pure fun _ hready => hready.ended

/-- `Initialize` leaves a session to use if it succeeds, whatever its commands through
`ForwardCommand` do before they are sent. -/
theorem initializeWith_after {forward : KmM Bool}
    (hforward : After Ready forward fun _ => Ready) :
    After Settled (initializeWith answers forward) Ended := by
  refine .bind (Q := fun _ => Settled) (.act fun _ hsettled => hsettled.reset) fun _ => ?_
  refine .bind amlKeymasterConnect_after fun connected => .ite (fun hok => ?_) fun _ => ?_
  · intro s hs
    refine After.bind (P := Ready) forwardCommand2_after ?_ s (hs.2 hok)
    refine fun _ => .ite (fun _ => configure_after hforward) fun _ => ?_
    refine .bind hforward fun _ => .ite (fun _ => ?_) fun _ => .pure fun _ h => h.ended
    refine .bind (.answer fun _ _ h => h) fun _ => .ite (fun _ => ?_) fun _ => ?_
    · exact configure_after hforward
    · exact .pure fun _ h => h.ended
  · exact .pure fun _ h => h.1.failed

theorem retryInitialize_after (retry : Nat) :
    After Settled (retryInitialize answers retry) fun _ => Ready := by
  induction retry with
  | zero =>
    intro s _ a s' hrun
    cases hrun
  | succ retry ih =>
    refine .bind (initializeWith_after forwardCommand2_after) fun ok => ?_
    refine .ite (fun hok => .pure fun _ hended => hended.2 hok) fun _ => ?_
    exact fun s hended => ih s hended.1

theorem forwardCommand_after : After Ready (forwardCommand answers) fun _ => Ready := by
  refine .bind (Q := fun _ => Ready) ?_ fun _ => .ite (fun _ => ?_) fun _ => ?_
  · intro s hready a s' hrun
    cases hrun
    exact hready
  · exact forwardCommand2_after
  · refine .bind (Q := fun _ => Ready) ?_ fun _ => ?_
    · intro s hready a s' hrun
      cases hrun
      exact hready
    · refine .bind (Q := fun _ => Ready) ?_ fun _ => forwardCommand2_after
      exact fun s hready => retryInitialize_after 10000 s hready.settled

theorem provisionDevidBox_after : After Settled (provisionDevidBox answers) Ended := by
  refine .bind amlKeymasterConnect_after fun _ => .ite (fun hok => ?_) fun _ => ?_
  · refine .bind (Q := fun _ => Ready) (.act fun _ hended => ?_) fun _ => ?_
    · exact (hended.2 hok).invokeCommand
    · exact .answer fun _ _ hready => hready.ended
  · exact .pure fun _ hended => hended.1.failed

theorem runCalls_after (calls : List KmCall) :
    After Settled (runCalls answers calls) fun _ => Settled := by
  induction calls with
  | nil => exact .pure fun _ hsettled => hsettled
  | cons call calls ih =>
    refine .bind (Q := fun _ => Settled) ?_ fun _ => ih
    intro s hsettled a s' hrun
    cases call with
    | keymasterInitialize =>
      exact (initializeWith_after forwardCommand_after s hsettled a s' hrun).1
    | provisionDevidBox => exact (provisionDevidBox_after s hsettled a s' hrun).1

end Calls

/-! ## The result -/

theorem Keymaster.new_settled (flag : Bool) : (Keymaster.new flag).conn.Settled := by
  refine ⟨?_, .inl ⟨rfl, .nil⟩⟩
  rintro r (hmem | hheld)
  · cases hmem
  · cases r <;> cases hheld

/-- For every sequence of calls and all answers, if the process comes to destroy the object. None is
used after it is closed. -/
theorem connections_paired_iff (answers : Nat → Bool) (flag : Bool) (calls : List KmCall)
    {t : List (ResourceEvent TeeResource)} (hlife : lifetime answers flag calls = some t) :
    Paired t ↔ KeepsHandles t := by
  obtain ⟨⟨_, s⟩, hrun, rfl⟩ := Option.map_eq_some_iff.mp hlife
  exact (runCalls_after calls _ (Keymaster.new_settled flag) _ _ hrun).paired_iff

/-- A `ProvisionDevidBox` that succeeds, and then the destructor. -/
def exampleLifetime : List (ResourceEvent TeeResource) :=
  [.closed (.context 0), .closed (.session 1), .used (.context 0), .used (.context 0),
    .used (.session 1), .used (.context 0), .used (.session 1), .used (.context 0),
    .used (.session 1), .opened (.session 1), .used (.context 0), .opened (.context 0)]

theorem connections_paired_once :
    lifetime (fun _ => true) false [.provisionDevidBox] = some exampleLifetime ∧
      Paired exampleLifetime :=
  ⟨by decide +kernel, (connections_paired_iff (fun _ => true) false [.provisionDevidBox]
    (by decide +kernel)).mpr trivial⟩

/-- Two calls of `Initialize`: one that the TA refuses, one that gets no context. -/
def leakedLifetime : List (ResourceEvent TeeResource) :=
  [.forgot (.session 1), .forgot (.context 0), .used (.context 0), .used (.session 1),
    .opened (.session 1), .used (.context 0), .opened (.context 0)]

/-- The TA refuses `KM_TA_INIT` in the first `Initialize`, and the second one gets no context. The
context and the session of the first one stay open. With a `ProvisionDevidBox` that succeeds and one
that gets a context and no session, that context is used and finalized once more. -/
theorem failedInitialize_leaks :
    lifetime (fun n => n < 2) false [.keymasterInitialize, .keymasterInitialize] =
        some leakedLifetime ∧
      ¬ Paired leakedLifetime ∧
      (lifetime (fun n => n < 5) false [.provisionDevidBox, .provisionDevidBox]).map (List.take 6) =
        some [.closed (.context 2), .closed (.session 1), .used (.context 2), .used (.context 2),
          .used (.session 1), .closed (.context 2)] := by
  refine ⟨by decide +kernel, fun hpaired => ?_, by decide +kernel⟩
  have hclosed := hpaired.1 (.context 0) (by decide)
  revert hclosed
  decide

end AmlogicHal.Keymint

import AmlogicHal.Keymint.Operation

/-!
# What becomes of the handle

An operation is open in the TA until a `finish` or an `abort` comes to it, or the TA answers a
command with an error. As long as the object of the HAL has its handle, the destructor sends an
`abort`.

`update` gives the handle up on every error, `finish` and `abort` without looking at the error. But
a command may fail without having come to the TA: then the operation stays open and nobody has its
handle (`operation_leaks`). `operation_ended` says when this cannot happen.
-/

namespace AmlogicHal.Keymint

open List

/-! ## The end of an operation in the TA -/

def Request.endsOperation : Request → Bool
  | .update _ => false
  | .finish _ | .abort _ => true

/-- The exchange ended the operation: its command came to the TA, and it is the last one of the
operation or was answered with an error. -/
def Exchange.ends (opHandle : Nat) (x : Exchange) : Bool :=
  x.request.opHandle = opHandle &&
    x.invocation.any fun inv => inv.reached && (x.request.endsOperation || inv.taError)

def ended (opHandle : Nat) (log : List Exchange) : Bool := log.any (Exchange.ends opHandle)

def Invocation.Clean (lib : KeymasterLib) (inv : Invocation) : Prop :=
  inv.rc = 0 ∧ inv.rspSize + lib.cmdSize ≤ lib.recvBufSize ∧ inv.parsed.isSome

/-- As long as the operation is open, a chunk of data is answered with a reply that the HAL can read
or with an error of the TA, and a `finish` and an `abort` come to the TA. -/
def Reliable (lib : KeymasterLib) (ta : Ta) (opHandle : Nat) : Prop :=
  ∀ (log : List Exchange) (req : Request), req.opHandle = opHandle → ended opHandle log = false →
    match req with
    | .update r => r.associatedData = none → (ta log req).Clean lib ∨ (ta log req).taError = true
    | .finish _ | .abort _ => (ta log req).reached = true

/-! ## What a call does with the handle -/

section Handle

variable {lib : KeymasterLib} {ta : Ta} {s s' s'' : Operation}

def Kept (s s' : Operation) : Prop := s'.opHandle = s.opHandle ∧ s.log <+: s'.log

theorem Kept.trans (h : Kept s s') (h' : Kept s' s'') : Kept s s'' :=
  ⟨h'.1.trans h.1, h.2.trans h'.2⟩

/-- The command and what became of it are a reason to give the handle up. -/
def DropsHandle (lib : KeymasterLib) (req : Request) (inv : Invocation) : Prop :=
  match req with
  | .update r => r.associatedData = none ∧ (readResponse lib inv).error ≠ .ok
  | .finish _ | .abort _ => True

/-- A call keeps the handle, or gives it up after its last command. -/
inductive HandleStep (lib : KeymasterLib) (ta : Ta) (s s' : Operation) : Prop
  | kept (h : Kept s s')
  | dropped (log : List Exchange) (req : Request) (hpre : s.log <+: log)
      (hlog : s'.log = log ++ [⟨req, some (ta log req)⟩]) (hreq : req.opHandle = s.opHandle)
      (hdrop : DropsHandle lib req (ta log req)) (hzero : s'.opHandle = 0)

theorem HandleStep.after (h : Kept s s') (h' : HandleStep lib ta s' s'') :
    HandleStep lib ta s s'' := by
  cases h' with
  | kept h' => exact .kept (h.trans h')
  | dropped log req hpre hlog hreq hdrop hzero =>
    exact .dropped log req (h.2.trans hpre) hlog (hreq.trans h.1) hdrop hzero

theorem Operation.forwardCommand_kept (req : Request) :
    Kept s (s.forwardCommand lib ta req).2 :=
  ⟨rfl, prefix_append _ _⟩

variable {fuel opHandle : Nat} {reply : Reply} {authToken : Option AuthToken}

theorem Operation.updateLoop_handle {request : UpdateRequest} (hempty : request.input = [])
    (haad : request.associatedData = none) {maxChunkSize : Nat}
    (hroom : lib.serializedSize (.update request) + maxChunkSize ≤ lib.sendBufSize)
    {rest output : Bytes} (hreq : request.opHandle = s.opHandle)
    (hcall : s.updateLoop lib ta request maxChunkSize fuel rest output = some (reply, s')) :
    HandleStep lib ta s s' ∧ (reply.status = .ok → Kept s s') := by
  induction fuel generalizing rest output s with
  | zero =>
    cases rest with
    | nil =>
      cases hcall
      exact ⟨.kept ⟨rfl, prefix_rfl⟩, fun _ => ⟨rfl, prefix_rfl⟩⟩
    | cons b rest => cases hcall
  | succ fuel ih =>
    cases rest with
    | nil =>
      cases hcall
      exact ⟨.kept ⟨rfl, prefix_rfl⟩, fun _ => ⟨rfl, prefix_rfl⟩⟩
    | cons b rest =>
      have hkept : Kept s (s.updateOperation lib ta
          { request with input := (b :: rest).take maxChunkSize }).2 := forwardCommand_kept _
      rw [updateLoop] at hcall
      split at hcall
      · next herror =>
        -- the chunk was sent, and the error gives the handle up
        cases hcall
        rw [updateOperation,
          forwardCommand_fits (lib.chunk_fits hempty hroom (b :: rest))] at herror ⊢
        exact ⟨.dropped s.log _ prefix_rfl rfl hreq ⟨haad, herror⟩ rfl,
          fun hok => absurd hok herror⟩
      · obtain ⟨hstep, hok⟩ := ih (hreq.trans hkept.1.symm) hcall
        exact ⟨hstep.after hkept, fun h => hkept.trans (hok h)⟩

theorem Operation.update_handle {input : Bytes}
    (hcall : s.update lib ta fuel input authToken = some (reply, s')) :
    HandleStep lib ta s s' ∧ (reply.status = .ok → Kept s s') := by
  unfold update at hcall
  dsimp only at hcall
  split at hcall
  · cases hcall
    exact ⟨.kept ⟨rfl, prefix_rfl⟩, nofun⟩
  · next hbase => exact updateLoop_handle rfl rfl (by omega) rfl hcall

theorem Operation.sendFinish_handle {request : FinishRequest}
    (hfit : lib.serializedSize (.finish request) ≤ lib.sendBufSize)
    (hreq : request.opHandle = s.opHandle) (output : Bytes) :
    HandleStep lib ta s (s.sendFinish lib ta request output).2 := by
  unfold sendFinish
  rw [finishOperation_fits hfit, forwardCommand_fits hfit]
  exact .dropped s.log _ prefix_rfl rfl hreq trivial rfl

theorem Operation.abort_handle : HandleStep lib ta s (s.abort lib ta).2 := by
  unfold abort abortOperation
  rw [forwardCommand_fits (Nat.le_of_lt (lib.abort_room s.opHandle))]
  exact .dropped s.log _ prefix_rfl rfl rfl trivial rfl

theorem Operation.finish_handle {input signature : Option Bytes} {confirmationToken : Option Bytes}
    (hcall : s.finish lib ta fuel input signature authToken confirmationToken = some (reply, s')) :
    HandleStep lib ta s s' := by
  unfold finish at hcall
  dsimp only at hcall
  split at hcall
  · cases hcall
    exact .kept ⟨rfl, prefix_rfl⟩
  · next hbase =>
    rw [Nat.not_lt] at hbase
    cases input with
    | none =>
      cases hcall
      exact sendFinish_handle hbase rfl []
    | some input =>
      dsimp only at hcall
      split at hcall
      · next hlong =>
        split at hcall
        · cases hcall
        · next reply₁ s₁ hupdate =>
          obtain ⟨hstep, hok⟩ := update_handle hupdate
          split at hcall
          · cases hcall
            exact hstep
          · next hstatus =>
            cases hcall
            have hkept := hok (Decidable.not_not.mp hstatus)
            refine .after hkept
              (sendFinish_handle (lib.last_fits rfl ?_) hkept.1.symm reply₁.output)
            rw [length_drop]
            omega
      · next hshort =>
        cases hcall
        exact sendFinish_handle (lib.last_fits rfl (by omega)) rfl []

theorem Operation.call_handle {c : Call} (hcall : s.call lib ta fuel c = some (reply, s')) :
    HandleStep lib ta s s' := by
  cases c with
  | updateAad input authToken =>
    cases hcall
    exact .kept (forwardCommand_kept _)
  | update input authToken => exact (update_handle hcall).1
  | finish input signature authToken confirmationToken => exact finish_handle hcall
  | abort =>
    cases hcall
    exact abort_handle

/-! ## Runs -/

theorem ended_of_prefix {log log' : List Exchange} (hpre : log <+: log')
    (h : ended opHandle log = true) : ended opHandle log' = true := by
  obtain ⟨new, rfl⟩ := hpre
  simp [ended] at h ⊢
  exact .inl h

theorem Invocation.Clean.taError {inv : Invocation} (hclean : inv.Clean lib)
    (herror : (readResponse lib inv).error ≠ .ok) : inv.taError = true := by
  obtain ⟨hrc, hsize, hparsed⟩ := hclean
  obtain ⟨rsp, hrsp⟩ := Option.isSome_iff_exists.mp hparsed
  rw [readResponse_of_fits hrc hsize hrsp] at herror
  exact (inv.taError_iff hrc rsp hrsp).mpr herror

/-- What is true of the object as long as it lives: without its handle, the operation has ended. -/
def HandleInv (opHandle : Nat) (s : Operation) : Prop :=
  s.opHandle = opHandle ∨ s.opHandle = 0 ∧ ended opHandle s.log = true

theorem Reliable.ends (hta : Reliable lib ta opHandle) {log : List Exchange} {req : Request}
    (hreq : req.opHandle = opHandle) (hdrop : DropsHandle lib req (ta log req)) :
    ended opHandle (log ++ [⟨req, some (ta log req)⟩]) = true := by
  cases hended : ended opHandle log with
  | true => exact ended_of_prefix (prefix_append _ _) hended
  | false =>
    have hreliable := hta log req hreq hended
    have hend : Exchange.ends opHandle ⟨req, some (ta log req)⟩ = true := by
      cases req with
      | update r =>
        have herror : (ta log (.update r)).taError = true :=
          (hreliable hdrop.1).elim (fun hclean => hclean.taError hdrop.2) id
        simp [Exchange.ends, hreq, herror, (ta log (.update r)).reached_of_taError herror]
      | finish r | abort h => simp [Exchange.ends, hreq, Request.endsOperation, hreliable]
    simp [ended, hend]

theorem HandleInv.step (hta : Reliable lib ta opHandle) (hinv : HandleInv opHandle s)
    (hstep : HandleStep lib ta s s') : HandleInv opHandle s' := by
  cases hstep with
  | kept h =>
    rcases hinv with hs | ⟨hs, hended⟩
    · exact .inl (h.1.trans hs)
    · exact .inr ⟨h.1.trans hs, ended_of_prefix h.2 hended⟩
  | dropped log req hpre hlog hreq hdrop hzero =>
    refine .inr ⟨hzero, ?_⟩
    rw [hlog]
    rcases hinv with hs | ⟨-, hended⟩
    · exact hta.ends (hreq.trans hs) hdrop
    · exact ended_of_prefix (hpre.trans (prefix_append _ _)) hended

theorem HandleInv.destroy (hne : opHandle ≠ 0) (hta : Reliable lib ta opHandle)
    (hinv : HandleInv opHandle s) : ended opHandle (s.destroy lib ta).log = true := by
  unfold Operation.destroy
  split
  · have habort := hinv.step hta Operation.abort_handle
    exact (habort.resolve_left fun h => hne h.symm).2
  · next hzero =>
      exact (hinv.resolve_left fun h => hne (h.symm.trans (Decidable.not_not.mp hzero))).2

theorem operationMachine_step {s : Option Operation} {c : Call}
    (h : ((operationMachine lib ta fuel).step s c).1 = some s') :
    ∃ s₁ reply, s = some s₁ ∧ s₁.call lib ta fuel c = some (reply, s') := by
  simp only [operationMachine] at h
  split at h
  · cases h
  · next reply op hcall =>
    cases h
    obtain ⟨s₁, rfl, hcall⟩ := Option.bind_eq_some_iff.mp hcall
    exact ⟨s₁, reply, rfl, hcall⟩

/-- Ended: a `finish` or an `abort` came to the TA, or it answered a command with an error. It
cannot happen if `update` sees no other errors than those of the TA, and if `finish` and `abort`
commands come to the TA. -/
theorem operation_ended {opHandle : Nat} (hne : opHandle ≠ 0) (hta : Reliable lib ta opHandle)
    {fuel : Nat} {calls : List Call} {op : Operation}
    (hrun : ((operationMachine lib ta fuel).exec (some ⟨opHandle, []⟩) calls).2 = some op) :
    ended opHandle (op.destroy lib ta).log = true := by
  have hinv : ∀ s, ((operationMachine lib ta fuel).exec (some ⟨opHandle, []⟩) calls).2 = some s →
      HandleInv opHandle s := by
    refine Machine.exec_invariant (I := fun s => ∀ op, s = some op → HandleInv opHandle op) calls
      ?_ ?_
    · intro c _ s hs s' hs'
      obtain ⟨s₁, reply, rfl, hcall⟩ := operationMachine_step hs'
      exact (hs s₁ rfl).step hta (Operation.call_handle hcall)
    · intro s hs
      cases hs
      exact .inl rfl
  exact (hinv op hrun).destroy hne hta

end Handle

/-- A TA that replies to everything without an error. -/
def acceptingTa : Ta := fun _ _ =>
  .success 1 []

theorem acceptingTa_reliable : Reliable exampleLib acceptingTa 7 := by
  intro log req _ _
  cases req with
  | update r =>
    exact fun _ => .inl ⟨rfl, by
      simp [acceptingTa, Invocation.success, exampleLib, KeymasterLib.recvBufSize], rfl⟩
  | finish r | abort h => rfl

theorem operation_ended_destroyed :
    ∃ op, ((operationMachine exampleLib acceptingTa 2).exec (some ⟨7, []⟩)
        [.updateAad [9] none, .update [1, 2] none]).2 = some op ∧
      ended 7 (op.destroy exampleLib acceptingTa).log = true := by
  have hsome : ((operationMachine exampleLib acceptingTa 2).exec (some ⟨7, []⟩)
      [.updateAad [9] none, .update [1, 2] none]).2.isSome = true := by decide +kernel
  obtain ⟨op, hop⟩ := Option.isSome_iff_exists.mp hsome
  exact ⟨op, hop, operation_ended (by decide) acceptingTa_reliable hop⟩

/-- A transport that fails on data before the TA has seen it. -/
def failingTransport : Ta := fun _ req =>
  match req with
  | .update _ => ⟨-5, 0, none, false, false, nofun, nofun, nofun⟩
  | _ => .success 0 []

/-- One `update` whose command does not come to the TA. The destructor sends nothing, and the TA has
seen no command at all. -/
theorem operation_leaks :
    let r := (operationMachine exampleLib failingTransport 1).exec (some ⟨7, []⟩) [.update [1] none]
    (r.2.map fun op => ended 7 (op.destroy exampleLib failingTransport).log) = some false ∧
      (r.2.map fun op => (op.destroy exampleLib failingTransport).log.any fun x =>
        x.invocation.any Invocation.reached) = some false := by
  decide +kernel

end AmlogicHal.Keymint

import AmlogicHal.Keymint.Operation

/-!
# What the trusted application receives and returns

For a TA that accepts every command and consumes at least one byte of every chunk, every `update`
and `finish` returns, and the TA receives the client's input byte by byte in order, in requests that
fit into the send buffer.

What the TA returns comes back to the client, but `finish` replaces its output vector by the output
of the last command: what the TA returned for the chunks before it is lost (`finish_loses_output`).
`operation_conserves` says when nothing is lost.
-/

namespace AmlogicHal.Keymint

open Exchange List

/-! ## Observations -/

def Exchange.consumed (x : Exchange) : Bytes :=
  match x.request, x.invocation.bind Invocation.parsed with
  | .update r, some rsp => r.input.take rsp.inputConsumed
  | .finish r, some _ => r.input
  | _, _ => []

def Invocation.output (inv : Invocation) : Bytes := (inv.parsed.map Response.output).getD []

def Exchange.output (x : Exchange) : Bytes := (x.invocation.map Invocation.output).getD []

def received (log : List Exchange) : Bytes := log.flatMap Exchange.consumed

def produced (log : List Exchange) : Bytes := log.flatMap Exchange.output

def Call.input : Call → Bytes
  | .update input _ => input
  | .finish input _ _ _ => input.getD []
  | .updateAad _ _ | .abort => []

def Call.isData : Call → Prop
  | .update _ _ | .finish _ _ _ _ => True
  | .updateAad _ _ | .abort => False

abbrev OperationHistory := List (Call × Option Reply)

def accepted (x : Call × Option Reply) : Bool := x.2.any fun r => r.status = .ok

def acceptedInput (h : OperationHistory) : Bytes :=
  (h.filter accepted).flatMap fun x => x.1.input

def returnedOutput (h : OperationHistory) : Bytes :=
  (h.filter accepted).flatMap fun x => (x.2.map Reply.output).getD []

/-! ## The assumption on the TA -/

/-- The TA answers every command with success and a reply that the HAL can read, and consumes
between one and all of the bytes of a chunk. -/
def Compliant (lib : KeymasterLib) (ta : Ta) : Prop :=
  ∀ log req, (ta log req).rc = 0 ∧ (ta log req).rspSize + lib.cmdSize ≤ lib.recvBufSize ∧
    ∃ rsp, (ta log req).parsed = some rsp ∧ rsp.error = .ok ∧
      ∀ r, req = .update r → r.input ≠ [] →
        1 ≤ rsp.inputConsumed ∧ rsp.inputConsumed ≤ r.input.length

/-- `finish` has to send a part of its input through `update`. -/
def SplitsFinish (lib : KeymasterLib) (op : Operation) : Call → Prop
  | .finish (some input) signature authToken confirmationToken =>
    let size := lib.serializedSize
      (.finish (op.finishRequest signature authToken confirmationToken))
    size ≤ lib.sendBufSize ∧ lib.sendBufSize < size + input.length
  | _ => False

/-- `finish` refuses its tokens and its signature because they do not fit into one request. -/
def Oversized (lib : KeymasterLib) (op : Operation) : Call → Prop
  | .finish _ signature authToken confirmationToken =>
    lib.sendBufSize < lib.serializedSize
      (.finish (op.finishRequest signature authToken confirmationToken))
  | _ => False

def AcceptedOrOversized (lib : KeymasterLib) (ta : Ta) (fuel : Nat) (s : Option Operation)
    (c : Call) : Prop :=
  ∀ op, s = some op →
    accepted (c, ((operationMachine lib ta fuel).step s c).2) = true ∨ Oversized lib op c

/-- The TA returns nothing for chunks from now on. -/
def SilentUpdates (ta : Ta) (op : Operation) : Prop :=
  ∀ log, op.log <+: log → ∀ r, (ta log (.update r)).output = []

section Conservation

variable {lib : KeymasterLib} {ta : Ta} {s s' s'' : Operation}

theorem Compliant.readResponse (hta : Compliant lib ta) (log : List Exchange) (req : Request) :
    ∃ rsp, (ta log req).parsed = some rsp ∧ Keymint.readResponse lib (ta log req) = rsp ∧
      rsp.error = .ok ∧ ∀ r, req = .update r → r.input ≠ [] →
        1 ≤ rsp.inputConsumed ∧ rsp.inputConsumed ≤ r.input.length := by
  obtain ⟨hrc, hsize, rsp, hparsed, hok, hconsumed⟩ := hta log req
  exact ⟨rsp, hparsed, readResponse_of_fits hrc hsize hparsed, hok, hconsumed⟩

/-! ## One call -/

/-- From `s` to `s'` the TA received `input` and returned `output`, in requests that fit. -/
def Transfer (lib : KeymasterLib) (s s' : Operation) (input output : Bytes) : Prop :=
  ∃ new, s'.log = s.log ++ new ∧ received new = input ∧ produced new = output ∧
    ∀ x ∈ new, lib.serializedSize x.request ≤ lib.sendBufSize

theorem Transfer.refl (lib : KeymasterLib) (s : Operation) : Transfer lib s s [] [] :=
  ⟨[], (append_nil _).symm, rfl, rfl, forall_mem_nil _⟩

theorem Transfer.trans {i j o p : Bytes} (h : Transfer lib s s' i o)
    (h' : Transfer lib s' s'' j p) : Transfer lib s s'' (i ++ j) (o ++ p) := by
  obtain ⟨new, hlog, hin, hout, hfit⟩ := h
  obtain ⟨new', hlog', hin', hout', hfit'⟩ := h'
  refine ⟨new ++ new', by rw [hlog', hlog, append_assoc], ?_, ?_, fun x hx => ?_⟩
  · rw [← hin, ← hin']
    exact flatMap_append
  · rw [← hout, ← hout']
    exact flatMap_append
  · rcases mem_append.mp hx with hx | hx
    · exact hfit x hx
    · exact hfit' x hx

theorem Operation.forwardCommand_transfer (hta : Compliant lib ta) {req : Request}
    (hfit : lib.serializedSize req ≤ lib.sendBufSize) :
    ∃ rsp s', s.forwardCommand lib ta req = (rsp, s') ∧ s'.opHandle = s.opHandle ∧
      rsp.error = .ok ∧ rsp.output = (ta s.log req).output ∧
      Transfer lib s s' (consumed ⟨req, some (ta s.log req)⟩) rsp.output ∧
      ∀ r, req = .update r → consumed ⟨req, some (ta s.log req)⟩ =
        r.input.take rsp.inputConsumed ∧
          (r.input ≠ [] → 1 ≤ rsp.inputConsumed ∧ rsp.inputConsumed ≤ r.input.length) := by
  obtain ⟨rsp, hparsed, hread, hok, hconsumed⟩ := hta.readResponse s.log req
  have hout : rsp.output = (ta s.log req).output := by
    simp [Invocation.output, hparsed]
  refine ⟨rsp, { s with log := s.log ++ [⟨req, some _⟩] },
    (forwardCommand_fits hfit).trans (by rw [hread]), rfl, hok, hout,
    ⟨[⟨req, some (ta s.log req)⟩], rfl, ?_, ?_, ?_⟩, ?_⟩
  · simp [received]
  · simp [produced, output, hout]
  · simpa using hfit
  · rintro r rfl
    refine ⟨?_, hconsumed r rfl⟩
    simp [consumed, hparsed]

variable {fuel : Nat} {request : FinishRequest} (x : Call × Option Reply)

section

variable (hta : Compliant lib ta)
include hta

/-- The loop hands the whole rest of the input to the TA. It takes at most one round a byte. -/
theorem Operation.updateLoop_transfer {request : UpdateRequest} (hempty : request.input = [])
    {maxChunkSize : Nat} (hpos : 0 < maxChunkSize)
    (hroom : lib.serializedSize (.update request) + maxChunkSize ≤ lib.sendBufSize) {rest : Bytes}
    (hfuel : rest.length ≤ fuel) (output : Bytes) :
    ∃ new s', s.updateLoop lib ta request maxChunkSize fuel rest output =
        some (⟨.ok, output ++ new⟩, s') ∧
      s'.opHandle = s.opHandle ∧ Transfer lib s s' rest new ∧
      (SilentUpdates ta s → new = []) := by
  induction fuel generalizing rest output s with
  | zero =>
    obtain rfl := length_eq_zero_iff.mp (Nat.le_zero.mp hfuel)
    exact ⟨[], s, by rw [updateLoop, append_nil], rfl, .refl lib s, fun _ => rfl⟩
  | succ fuel ih =>
    cases rest with
    | nil => exact ⟨[], s, by rw [updateLoop, append_nil], rfl, .refl lib s, fun _ => rfl⟩
    | cons b rest =>
      obtain ⟨rsp, s₁, hsend, hhandle, hok, hout, htransfer, hconsumed⟩ :=
        forwardCommand_transfer (s := s) hta (lib.chunk_fits hempty hroom (b :: rest))
      obtain ⟨hchunk, hbounds⟩ := hconsumed _ rfl
      have hne : (b :: rest).take maxChunkSize ≠ [] := by simp; omega
      obtain ⟨hlow, hhigh⟩ := hbounds hne
      have hlen : ((b :: rest).drop rsp.inputConsumed).length ≤ fuel := by
        rw [length_drop]
        omega
      obtain ⟨new, s₂, hloop, hhandle', htransfer', hsilent⟩ := ih hlen (output ++ rsp.output)
      refine ⟨rsp.output ++ new, s₂, ?_, hhandle'.trans hhandle, ?_, fun hquiet => ?_⟩
      · rw [updateLoop]
        simp [updateOperation, hsend, hok, ne_eq, hloop]
      · -- what the TA took of the chunk is what the loop leaves out of the rest
        have hsplit : (b :: rest) =
            ((b :: rest).take maxChunkSize).take rsp.inputConsumed ++
              (b :: rest).drop rsp.inputConsumed := by
          rw [take_take, Nat.min_eq_left]
          · exact (take_append_drop _ _).symm
          · rw [length_take] at hhigh
            exact Nat.le_trans hhigh (Nat.min_le_left _ _)
        rw [hsplit]
        rw [hchunk] at htransfer
        exact htransfer.trans htransfer'
      · obtain ⟨added, hlog, -⟩ := htransfer
        rw [hout, hquiet _ prefix_rfl, hsilent fun log hlog' r => hquiet log ?_ r]
        · rfl
        · exact (hlog ▸ prefix_append _ _).trans hlog'

theorem Operation.update_transfer {input : Bytes} (hfuel : input.length ≤ fuel)
    (authToken : Option AuthToken) :
    ∃ output s', s.update lib ta fuel input authToken = some (⟨.ok, output⟩, s') ∧
      s'.opHandle = s.opHandle ∧ Transfer lib s s' input output ∧
      (SilentUpdates ta s → output = []) := by
  let request : UpdateRequest := ⟨s.opHandle, none, authToken, []⟩
  have hroom : lib.serializedSize (.update request) < lib.sendBufSize :=
    lib.update_room s.opHandle authToken
  have hpos : 0 < lib.sendBufSize - lib.serializedSize (.update request) := by omega
  have hempty : request.input = [] := rfl
  unfold update
  rw [if_neg (Nat.not_lt.mpr (Nat.le_of_lt hroom))]
  exact updateLoop_transfer hta hempty hpos (by omega) hfuel []

theorem Operation.sendFinish_transfer
    (hfit : lib.serializedSize (.finish request) ≤ lib.sendBufSize) (output : Bytes) :
    ∃ last s', s.sendFinish lib ta request output = (⟨.ok, last⟩, s') ∧
    Transfer lib s s' request.input last := by
  obtain ⟨rsp, s', hsend, -, hok, -, htransfer, -⟩ := forwardCommand_transfer hta hfit
  obtain ⟨r, hparsed, -⟩ := hta.readResponse s.log (.finish request)
  have hconsumed : consumed ⟨.finish request, some (ta s.log (.finish request))⟩ =
      request.input := by
    simp [consumed, hparsed]
  rw [hconsumed] at htransfer
  refine ⟨rsp.output, { s' with opHandle := 0 }, ?_, htransfer⟩
  simp [sendFinish, finishOperation_fits hfit, hsend, hok]

theorem Operation.finish_split {input : Bytes} (hfuel : input.length ≤ fuel)
    (hempty : request.input = []) (hbase : lib.serializedSize (.finish request) ≤ lib.sendBufSize)
    (authToken : Option AuthToken) {keep : Nat}
    (hkeep : keep = lib.sendBufSize - lib.serializedSize (.finish request)) :
    ∃ lost last s₁ s₂,
      s.update lib ta fuel (input.take (input.length - keep)) authToken = some (⟨.ok, lost⟩, s₁) ∧
        s₁.sendFinish lib ta { request with input := input.drop (input.length - keep) } lost =
          (⟨.ok, last⟩, s₂) ∧
        Transfer lib s s₂ input (lost ++ last) ∧ (SilentUpdates ta s → lost = []) := by
  have hlen : (input.take (input.length - keep)).length ≤ fuel := by
    rw [length_take]
    omega
  obtain ⟨lost, s₁, hupdate, -, htransfer, hsilent⟩ := update_transfer hta hlen authToken
  have hfit : lib.serializedSize
      (.finish { request with input := input.drop (input.length - keep) }) ≤ lib.sendBufSize := by
    refine lib.last_fits hempty ?_
    rw [length_drop]
    omega
  obtain ⟨last, s₂, hsend, htransfer'⟩ := sendFinish_transfer hta hfit lost
  refine ⟨lost, last, s₁, s₂, hupdate, hsend, ?_, hsilent⟩
  have hboth := htransfer.trans htransfer'
  rwa [take_append_drop] at hboth

/-- A call that carries data returns. Either it is refused and nothing is sent, or the TA receives
its input; and then nothing of what the TA returns is lost unless it returns something for the
chunks that `finish` sends through `update`. -/
theorem Operation.call_transfer {c : Call} (hdata : c.isData) (hfuel : c.input.length ≤ fuel) :
    ∃ reply s', s.call lib ta fuel c = some (reply, s') ∧
      (reply.status ≠ .ok ∧ s' = s ∧ Oversized lib s c ∨ reply.status = .ok ∧ ∃ lost,
        Transfer lib s s' c.input (lost ++ reply.output) ∧
          (¬ SplitsFinish lib s c ∨ SilentUpdates ta s → lost = [])) := by
  cases c with
  | updateAad | abort => exact hdata.elim
  | update input authToken =>
    obtain ⟨output, s', hcall, -, htransfer, -⟩ := update_transfer hta hfuel authToken
    exact ⟨_, s', hcall, .inr ⟨rfl, [], htransfer, fun _ => rfl⟩⟩
  | finish input signature authToken confirmationToken =>
    simp only [call, finish]
    split
    · next hbase => exact ⟨_, s, rfl, .inl ⟨nofun, rfl, hbase⟩⟩
    · next hbase =>
      rw [Nat.not_lt] at hbase
      cases input with
      | none =>
        obtain ⟨last, s', hsend, htransfer⟩ := sendFinish_transfer hta hbase []
        exact ⟨⟨.ok, last⟩, s', by rw [hsend], .inr ⟨rfl, [], htransfer, fun _ => rfl⟩⟩
      | some input =>
        have hlen : input.length ≤ fuel := hfuel
        dsimp only
        split
        · next hlong =>
          obtain ⟨lost, last, s₁, s₂, hupdate, hsend, htransfer, hsilent⟩ :=
            finish_split hta hlen rfl hbase authToken rfl
          refine ⟨⟨.ok, last⟩, s₂, ?_, .inr ⟨rfl, lost, htransfer, fun hkeep => ?_⟩⟩
          · rw [hupdate]
            simp only [ne_eq, not_true_eq_false, ite_false]
            rw [hsend]
          · refine hsilent (hkeep.resolve_left fun hwhole => hwhole ⟨hbase, ?_⟩)
            omega
        · next hshort =>
          have hfit : lib.serializedSize (.finish { s.finishRequest signature authToken
              confirmationToken with input := input }) ≤ lib.sendBufSize :=
            lib.last_fits rfl (by omega)
          obtain ⟨last, s', hsend, htransfer⟩ := sendFinish_transfer hta hfit []
          exact ⟨⟨.ok, last⟩, s', by rw [hsend], .inr ⟨rfl, [], htransfer, fun _ => rfl⟩⟩

end

/-! ## Runs -/

theorem acceptedInput_cons (h : OperationHistory) :
    acceptedInput (x :: h) = (if accepted x then x.1.input else []) ++ acceptedInput h := by
  unfold acceptedInput
  rw [filter_cons]
  split <;> rfl

theorem returnedOutput_cons (h : OperationHistory) :
    returnedOutput (x :: h) =
      (if accepted x then (x.2.map Reply.output).getD [] else []) ++ returnedOutput h := by
  unfold returnedOutput
  rw [filter_cons]
  split <;> rfl

theorem calls_transfer (hta : Compliant lib ta) {calls : List Call} (hdata : ∀ c ∈ calls, c.isData)
    (hfuel : ∀ c ∈ calls, c.input.length ≤ fuel) :
    let r := (operationMachine lib ta fuel).exec (some s) calls
    ∃ op output, r.2 = some op ∧ Transfer lib s op (acceptedInput r.1) output ∧
      (operationMachine lib ta fuel).Always (AcceptedOrOversized lib ta fuel) (some s) calls ∧
      ((operationMachine lib ta fuel).Always
          (fun s c => ∀ op, s = some op → ¬ SplitsFinish lib op c ∨ SilentUpdates ta op)
          (some s) calls → returnedOutput r.1 = output) := by
  induction calls generalizing s with
  | nil => exact ⟨s, [], rfl, .refl lib s, trivial, fun _ => rfl⟩
  | cons c calls ih =>
    rw [forall_mem_cons] at hdata hfuel
    obtain ⟨reply, s₁, hcall, hresult⟩ := Operation.call_transfer (s := s) hta hdata.1 hfuel.1
    have hstep : (operationMachine lib ta fuel).step (some s) c = (some s₁, some reply) := by
      simp [operationMachine, hcall]
    obtain ⟨op, output, hop, htransfer, haccepted, hreturned⟩ := ih hdata.2 hfuel.2
    simp only [Machine.exec, Machine.Always, AcceptedOrOversized, hstep]
    rw [acceptedInput_cons, returnedOutput_cons]
    rcases hresult with ⟨hrefused, rfl, hover⟩ | ⟨hok, lost, hsent, hlost⟩
    · have hno : accepted (c, some reply) = false := by simp [accepted, hrefused]
      refine ⟨op, output, hop, ?_, ⟨fun _ h => .inr (Option.some.inj h ▸ hover), haccepted⟩,
        fun hall => ?_⟩
      · simpa [hno] using htransfer
      · simpa [hno] using hreturned hall.2
    · have hyes : accepted (c, some reply) = true := by simp [accepted, hok]
      refine ⟨op, (lost ++ reply.output) ++ output, hop, ?_, ⟨fun _ _ => .inl hyes, haccepted⟩,
        fun hall => ?_⟩
      · simpa [hyes] using hsent.trans htransfer
      · rw [hlost (hall.1 s rfl), hreturned hall.2]
        simp [hyes]

/-- Only a `finish` with a signature or a token that is too big is refused. The client gets all that
the TA returned if every `finish` has its whole input in one request, or meets a TA that returns
nothing for chunks.
-/
theorem operation_conserves (hta : Compliant lib ta) (opHandle : Nat) {fuel : Nat}
    {calls : List Call} (hdata : ∀ c ∈ calls, c.isData)
    (hfuel : ∀ c ∈ calls, c.input.length ≤ fuel) :
    let r := (operationMachine lib ta fuel).exec (some ⟨opHandle, []⟩) calls
    ∃ op, r.2 = some op ∧ received op.log = acceptedInput r.1 ∧
      (operationMachine lib ta fuel).Always (AcceptedOrOversized lib ta fuel)
        (some ⟨opHandle, []⟩) calls ∧
      (∀ x ∈ op.log, lib.serializedSize x.request ≤ lib.sendBufSize) ∧
      ((operationMachine lib ta fuel).Always
          (fun s c => ∀ op, s = some op → ¬ SplitsFinish lib op c ∨ SilentUpdates ta op)
          (some ⟨opHandle, []⟩) calls → returnedOutput r.1 = produced op.log) := by
  obtain ⟨op, output, hop, ⟨log, hlog, hin, hout, hfit⟩, haccepted, hreturned⟩ :=
    calls_transfer (s := ⟨opHandle, []⟩) hta hdata hfuel
  subst hlog
  exact ⟨op, hop, hin, haccepted, hfit, fun hall => (hreturned hall).trans hout.symm⟩

end Conservation

/-! ## The output that `finish` loses -/

/-- A TA that consumes every chunk and returns it, as a stream cipher does. -/
def echoTa : Ta := fun _ req =>
  let input := match req with
    | .update r => r.input
    | .finish r => r.input
    | .abort _ => []
  .success input.length input

theorem echoTa_compliant : Compliant exampleLib echoTa := by
  intro log req
  refine ⟨rfl, by simp [echoTa, Invocation.success, exampleLib, KeymasterLib.recvBufSize], _, rfl,
    rfl, ?_⟩
  rintro r rfl hne
  exact ⟨length_pos_iff.mpr hne, Nat.le_refl _⟩

theorem operation_conserves_echo :
    let r := (operationMachine exampleLib echoTa 3).exec (some ⟨7, []⟩)
      [.update [1, 2, 3] none, .finish (some [4]) none none none]
    ∃ op, r.2 = some op ∧ received op.log = [1, 2, 3, 4] ∧
    returnedOutput r.1 = produced op.log := by
  let calls : List Call := [.update [1, 2, 3] none, .finish (some [4]) none none none]
  have hdata : ∀ c ∈ calls, c.isData := by simp [calls, Call.isData]
  have hfuel : ∀ c ∈ calls, c.input.length ≤ 3 := by simp [calls, Call.input]
  obtain ⟨op, hop, hreceived, -, -, hreturned⟩ := operation_conserves echoTa_compliant 7 hdata hfuel
  refine ⟨op, hop, hreceived.trans (by decide +kernel), hreturned ?_⟩
  refine ⟨fun _ _ => .inl nofun, fun op _ => .inl ?_, trivial⟩
  simp [SplitsFinish, Operation.finishRequest, exampleLib, KeymasterLib.sendBufSize]

/-- The input is one byte too long for the last request, and the client does not get the first
byte. -/
theorem finish_loses_output :
    Compliant exampleLib echoTa ∧
      let r := (operationMachine exampleLib echoTa 1).exec (some ⟨7, []⟩)
        [.finish (some (1 :: List.replicate 4068 0)) none none none]
      (r.2.map fun op => produced op.log) = some (1 :: List.replicate 4068 0) ∧
        returnedOutput r.1 = List.replicate 4068 0 ∧
        (r.2.map fun op => produced op.log) ≠ some (returnedOutput r.1) := by
  refine ⟨echoTa_compliant, ?_, ?_, ?_⟩ <;> decide +kernel

end AmlogicHal.Keymint

import AmlogicHal.Lib.Machine
import Mathlib.Algebra.Ring.Nat

/-!
# KeyMint operations

An operation lives in the trusted application (TA). The object of the HAL holds its handle and sends
the calls of the client as commands, each one request and one response. Requests have to fit into a
send buffer, so `update` cuts its input into chunks, and `finish` hands to `update` what does not
fit into the last request. The TA may consume less than it is offered.

The model keeps the path of a command: the operation object, the forwarder `AmlogicKeymaster`, and
`aml_keymaster_send` with its checks before and after the call of the TA. The TA and the transport
are an arbitrary function of all that was sent before. Every command handed to `aml_keymaster_send`
is recorded with what became of it.

A TA that consumes nothing keeps `update` in its loop for ever, so the loop takes a number of rounds
as fuel, and a call that does not return within it has no result.
-/

namespace AmlogicHal.Keymint

abbrev Bytes := List (BitVec 8)

/-- The bytes that `authToken2AidlVec` makes of an auth token: those of a packed
`hw_auth_token_t`. -/
abbrev AuthToken := Vector (BitVec 8) 69

/-! ## Messages -/

/-- `keymaster_error_t`, with the values that the HAL sets itself. -/
inductive KmError where
  | ok
  | invalidInputLength
  | insufficientBufferSpace
  | unknownError
  | other (code : Int)
deriving DecidableEq, Repr

structure UpdateRequest where
  opHandle : Nat
  /-- `TAG_ASSOCIATED_DATA` in `additional_params`. -/
  associatedData : Option Bytes
  /-- `TAG_AUTH_TOKEN` in `additional_params`. -/
  authToken : Option AuthToken
  input : Bytes
deriving DecidableEq

structure FinishRequest where
  opHandle : Nat
  /-- `TAG_AUTH_TOKEN` in `additional_params`. -/
  authToken : Option AuthToken
  /-- `TAG_CONFIRMATION_TOKEN` in `additional_params`. -/
  confirmationToken : Option Bytes
  signature : Bytes
  input : Bytes
deriving DecidableEq

inductive Request where
  | update (r : UpdateRequest)
  | finish (r : FinishRequest)
  | abort (opHandle : Nat)
deriving DecidableEq

def Request.opHandle : Request → Nat
  | .update r => r.opHandle
  | .finish r => r.opHandle
  | .abort opHandle => opHandle

/-- Responses differ in their fields. Those that a command does not have are not read after it. -/
structure Response where
  error : KmError
  inputConsumed : Nat
  output : Bytes
deriving DecidableEq, Repr

def Response.failure (e : KmError) : Response := ⟨e, 0, []⟩

/-- What the HAL takes from its platform and from the keymaster library: sizes of messages and the
translation of transport errors. -/
structure KeymasterLib where
  pageSize : Nat
  /-- `sizeof(struct keymaster_message)`. -/
  messageSize : Nat
  /-- `sizeof(msg->cmd)`. -/
  cmdSize : Nat
  serializedSize : Request → Nat
  translateError : Int → KmError
  pageSize_lt : pageSize < 2 ^ 30
  cmdSize_pos : 0 < cmdSize
  /-- A request grows by exactly the length of its input. -/
  update_size : ∀ r : UpdateRequest, serializedSize (.update r) =
    serializedSize (.update { r with input := [] }) + r.input.length
  finish_size : ∀ r : FinishRequest, serializedSize (.finish r) =
    serializedSize (.finish { r with input := [] }) + r.input.length
  /-- A handle and an auth token do not fill a page. -/
  update_room : ∀ opHandle authToken,
    serializedSize (.update ⟨opHandle, none, authToken, []⟩) < pageSize - messageSize - 16
  abort_room : ∀ opHandle, serializedSize (.abort opHandle) < pageSize - messageSize - 16
  translateError_ne_ok : ∀ rc < 0, translateError rc ≠ .ok

/-- Sizes as on a platform with pages of 4096 bytes: a request holds the handle, the lengths and the
bytes of its parts. -/
def exampleLib : KeymasterLib where
  pageSize := 4096
  messageSize := 4
  cmdSize := 4
  serializedSize
    | .update r => 8 + (r.associatedData.map List.length).getD 0 +
        (r.authToken.map fun t => t.toList.length).getD 0 + r.input.length
    | .finish r => 8 + (r.authToken.map fun t => t.toList.length).getD 0 +
        (r.confirmationToken.map List.length).getD 0 + r.signature.length + r.input.length
    | .abort _ => 8
  translateError := .other
  pageSize_lt := by decide
  cmdSize_pos := by decide
  update_size _ := by simp
  finish_size _ := by simp
  update_room _ authToken := by cases authToken <;> simp
  abort_room _ := by simp
  translateError_ne_ok _ _ := nofun

/-- `AMLOGIC_KEYMASTER_SEND_BUF_SIZE`. -/
def KeymasterLib.sendBufSize (lib : KeymasterLib) : Nat := lib.pageSize - lib.messageSize - 16

/-- `AMLOGIC_KEYMASTER_RECV_BUF_SIZE`. -/
def KeymasterLib.recvBufSize (lib : KeymasterLib) : Nat := 4 * lib.pageSize

/-! ## The trusted application -/

/-- What becomes of one call of `TEEC_InvokeCommand`. -/
structure Invocation where
  rc : Int
  /-- The size that the TA reports. -/
  rspSize : Nat
  /-- What `Deserialize` makes of the reply. -/
  parsed : Option Response
  /-- The command came to the TA. -/
  reached : Bool
  taError : Bool
  reached_of_success : rc = 0 → reached = true
  reached_of_taError : taError = true → reached = true
  taError_iff : rc = 0 → ∀ rsp, parsed = some rsp → (taError = true ↔ rsp.error ≠ .ok)

def Invocation.success (inputConsumed : Nat) (output : Bytes) : Invocation where
  rc := 0
  rspSize := 0
  parsed := some ⟨.ok, inputConsumed, output⟩
  reached := true
  taError := false
  reached_of_success _ := rfl
  reached_of_taError := nofun
  taError_iff := by simp

/-- A command that was handed to `aml_keymaster_send`; without an invocation if it is too big to be
sent. -/
structure Exchange where
  request : Request
  invocation : Option Invocation

/-- The TA with the transport to it. -/
abbrev Ta := List Exchange → Request → Invocation

structure Operation where
  opHandle : Nat
  log : List Exchange

section Model

variable (lib : KeymasterLib) (ta : Ta)

/-! ## Sending -/

/-- The `uint32_t` in which `aml_keymaster_send` and `FinishOperation` hold the size. -/
def KeymasterLib.reqSize (req : Request) : Nat := lib.serializedSize req % 2 ^ 32

/-- The size of the response after `aml_keymaster_call`. -/
def amlKeymasterCall (inv : Invocation) : Nat :=
  if inv.rc ≠ 0 then lib.recvBufSize else inv.rspSize

/-- The part of `aml_keymaster_send` behind the call. -/
def readResponse (inv : Invocation) : Response :=
  if inv.rc < 0 then
    .failure (lib.translateError inv.rc)
  else if amlKeymasterCall lib inv + lib.cmdSize > lib.recvBufSize then
    .failure .insufficientBufferSpace
  else
    match inv.parsed with
    | none => .failure .unknownError
    | some rsp => rsp

def amlKeymasterSend (req : Request) (log : List Exchange) : Response × Exchange :=
  if lib.reqSize req > lib.sendBufSize then
    (.failure .invalidInputLength, ⟨req, none⟩)
  else
    (readResponse lib (ta log req), ⟨req, some (ta log req)⟩)

namespace Operation

/-- `ForwardCommand`, which sets the error of the response to that of `aml_keymaster_send`. -/
def forwardCommand (req : Request) (s : Operation) : Response × Operation :=
  ((amlKeymasterSend lib ta req s.log).1,
    { s with log := s.log ++ [(amlKeymasterSend lib ta req s.log).2] })

def updateOperation (r : UpdateRequest) : Operation → Response × Operation :=
  forwardCommand lib ta (.update r)

def abortOperation (opHandle : Nat) : Operation → Response × Operation :=
  forwardCommand lib ta (.abort opHandle)

def finishOperation (r : FinishRequest) (s : Operation) : Response × Operation :=
  if lib.reqSize (.finish r) > lib.sendBufSize then
    (.failure .invalidInputLength, (s.abortOperation lib ta r.opHandle).2)
  else
    s.forwardCommand lib ta (.finish r)

end Operation

/-! ## Calls of the client -/

structure Reply where
  status : KmError
  output : Bytes
deriving DecidableEq, Repr

namespace Operation

def updateAad (input : Bytes) (authToken : Option AuthToken) (s : Operation) : Reply × Operation :=
  let r := s.updateOperation lib ta ⟨s.opHandle, some input, authToken, []⟩
  (⟨r.1.error, []⟩, r.2)

/-- The loop of `update`, with the input from `input_pos` on. -/
def updateLoop (request : UpdateRequest) (maxChunkSize : Nat) :
    Nat → Bytes → Bytes → Operation → Option (Reply × Operation)
  | _, [], output, s => some (⟨.ok, output⟩, s)
  | 0, _ :: _, _, _ => none
  | fuel + 1, b :: rest, output, s =>
    let r := s.updateOperation lib ta { request with input := (b :: rest).take maxChunkSize }
    if r.1.error ≠ .ok then
      -- the handle is dropped, whatever the error is
      some (⟨r.1.error, output⟩, { r.2 with opHandle := 0 })
    else
      updateLoop request maxChunkSize fuel ((b :: rest).drop r.1.inputConsumed)
        (output ++ r.1.output) r.2

def update (fuel : Nat) (input : Bytes) (authToken : Option AuthToken) (s : Operation) :
    Option (Reply × Operation) :=
  let request : UpdateRequest := ⟨s.opHandle, none, authToken, []⟩
  let serializedSize := lib.serializedSize (.update request)
  if serializedSize > lib.sendBufSize then
    some (⟨.invalidInputLength, []⟩, s)
  else
    s.updateLoop lib ta request (lib.sendBufSize - serializedSize) fuel input []

/-- The request of `finish` before it has an input. -/
def finishRequest (signature : Option Bytes) (authToken : Option AuthToken)
    (confirmationToken : Option Bytes) (s : Operation) : FinishRequest :=
  ⟨s.opHandle, authToken, confirmationToken, signature.getD [], []⟩

/-- The end of `finish`, with what is in the output vector until then. -/
def sendFinish (request : FinishRequest) (output : Bytes) (s : Operation) : Reply × Operation :=
  let r := s.finishOperation lib ta request
  (if r.1.error ≠ .ok then ⟨r.1.error, output⟩ else ⟨.ok, r.1.output⟩, { r.2 with opHandle := 0 })

def finish (fuel : Nat) (input signature : Option Bytes) (authToken : Option AuthToken)
    (confirmationToken : Option Bytes) (s : Operation) : Option (Reply × Operation) :=
  let request := s.finishRequest signature authToken confirmationToken
  let serializedSize := lib.serializedSize (.finish request)
  if serializedSize > lib.sendBufSize then
    some (⟨.invalidInputLength, []⟩, s)
  else
    match input with
    | none => some (s.sendFinish lib ta request [])
    | some input =>
      let maxChunkSize := lib.sendBufSize - serializedSize
      if input.length > maxChunkSize then
        -- all but the last `maxChunkSize` bytes go through `update`
        match s.update lib ta fuel (input.take (input.length - maxChunkSize)) authToken with
        | none => none
        | some (reply, s') =>
          if reply.status ≠ .ok then
            some (reply, s')
          else
            some (s'.sendFinish lib ta
              { request with input := input.drop (input.length - maxChunkSize) } reply.output)
      else
        some (s.sendFinish lib ta { request with input := input } [])

def abort (s : Operation) : Reply × Operation :=
  let r := s.abortOperation lib ta s.opHandle
  (⟨r.1.error, []⟩, { r.2 with opHandle := 0 })

def destroy (s : Operation) : Operation :=
  if s.opHandle ≠ 0 then (s.abort lib ta).2 else s

end Operation

/-! ## Runs -/

inductive Call where
  | updateAad (input : Bytes) (authToken : Option AuthToken)
  | update (input : Bytes) (authToken : Option AuthToken)
  | finish (input signature : Option Bytes) (authToken : Option AuthToken)
      (confirmationToken : Option Bytes)
  | abort
deriving DecidableEq

def Operation.call (fuel : Nat) (s : Operation) : Call → Option (Reply × Operation)
  | .updateAad input authToken => some (s.updateAad lib ta input authToken)
  | .update input authToken => s.update lib ta fuel input authToken
  | .finish input signature authToken confirmationToken =>
    s.finish lib ta fuel input signature authToken confirmationToken
  | .abort => some (s.abort lib ta)

/-- One call after the other. After a call that does not return there is no state, and no result of
any later call. -/
def operationMachine (fuel : Nat) : Machine (Option Operation) Call (Option Reply) where
  step s c :=
    match s.bind fun op => op.call lib ta fuel c with
    | none => (none, none)
    | some (reply, op) => (some op, some reply)

end Model

/-! ## What sending does -/

section Sending

variable {lib : KeymasterLib} {ta : Ta} {s : Operation}

theorem KeymasterLib.sendBufSize_lt : lib.sendBufSize < 2 ^ 32 := by
  have hpage := lib.pageSize_lt
  unfold KeymasterLib.sendBufSize
  omega

theorem KeymasterLib.reqSize_eq {req : Request} (hfit : lib.serializedSize req ≤ lib.sendBufSize) :
    lib.reqSize req = lib.serializedSize req :=
  Nat.mod_eq_of_lt (Nat.lt_of_le_of_lt hfit lib.sendBufSize_lt)

theorem KeymasterLib.not_reqSize_gt {req : Request}
    (hfit : lib.serializedSize req ≤ lib.sendBufSize) : ¬ lib.reqSize req > lib.sendBufSize := by
  rw [lib.reqSize_eq hfit]
  exact Nat.not_lt.mpr hfit

theorem readResponse_of_fits {inv : Invocation} (hrc : inv.rc = 0)
    (hsize : inv.rspSize + lib.cmdSize ≤ lib.recvBufSize) {rsp : Response}
    (hparsed : inv.parsed = some rsp) : readResponse lib inv = rsp := by
  have hfits : ¬ amlKeymasterCall lib inv + lib.cmdSize > lib.recvBufSize := by
    simp only [amlKeymasterCall, hrc, ne_eq, not_true_eq_false, ite_false]
    omega
  simp [readResponse, hrc, hfits, hparsed]

theorem Operation.forwardCommand_fits {req : Request}
    (hfit : lib.serializedSize req ≤ lib.sendBufSize) :
    s.forwardCommand lib ta req =
      (readResponse lib (ta s.log req),
        { s with log := s.log ++ [⟨req, some (ta s.log req)⟩] }) := by
  simp [Operation.forwardCommand, amlKeymasterSend, if_neg (lib.not_reqSize_gt hfit)]

theorem Operation.finishOperation_fits {r : FinishRequest}
    (hfit : lib.serializedSize (.finish r) ≤ lib.sendBufSize) :
    s.finishOperation lib ta r = s.forwardCommand lib ta (.finish r) := by
  simp [Operation.finishOperation, if_neg (lib.not_reqSize_gt hfit)]

theorem KeymasterLib.chunk_fits {request : UpdateRequest} (hempty : request.input = [])
    {maxChunkSize : Nat}
    (hroom : lib.serializedSize (.update request) + maxChunkSize ≤ lib.sendBufSize) (rest : Bytes) :
    lib.serializedSize (.update { request with input := rest.take maxChunkSize }) ≤
      lib.sendBufSize := by
  have hbase : ({ request with input := [] } : UpdateRequest) = request := by
    rw [← hempty]
  rw [lib.update_size]
  rw [hbase, List.length_take]
  omega

theorem KeymasterLib.last_fits {request : FinishRequest} (hempty : request.input = [])
    {input : Bytes}
    (hroom : lib.serializedSize (.finish request) + input.length ≤ lib.sendBufSize) :
    lib.serializedSize (.finish { request with input := input }) ≤ lib.sendBufSize := by
  have hbase : ({ request with input := [] } : FinishRequest) = request := by
    rw [← hempty]
  rw [lib.finish_size]
  rwa [hbase]

end Sending

end AmlogicHal.Keymint

import AmlogicHal.Lib.Traced
import Mathlib.Algebra.Ring.Nat

/-!
# The gatekeeper HAL and the replies it trusts

A request is serialized, handed to the TA, and the reply in the receive buffer is deserialized. The
result code, the reported size and the bytes of the reply come from the TEE. The model records the
range of the receive buffer handed to `Deserialize`, and every read of the HAL in a deserialized
buffer.

* `Send` takes only a negative result code for a failure. After any other one it deserializes the
  whole receive buffer and the four bytes behind it, since the payload begins behind a header,
  whatever size is reported.
* `enroll` and `verify` read the fields of a structure out of a buffer without a look at its length.

`call_inBounds_iff` is the exact condition on the TEE under which a call reads nothing outside.
-/

namespace AmlogicHal.Gatekeeper

open Traced

abbrev Bytes := List (BitVec 8)

/-! ## Messages -/

/-- `gatekeeper_error_t`, with the values that the HAL knows. -/
inductive GkError where
  | none
  | invalid
  | retry
  | notImplemented
  | other (code : Nat)
deriving DecidableEq, Repr

inductive Request where
  | enroll (uid : BitVec 32) (passwordHandle providedPassword enrolledPassword : Bytes)
  | verify (uid : BitVec 32) (challenge : BitVec 64) (passwordHandle providedPassword : Bytes)
  | deleteUser (uid : BitVec 32)
  | deleteAllUsers
deriving DecidableEq, Repr

structure EnrollResponse where
  error : GkError
  retryTimeout : BitVec 32
  enrolledPasswordHandle : Bytes
deriving DecidableEq, Repr

structure VerifyResponse where
  error : GkError
  retryTimeout : BitVec 32
  authToken : Bytes
  requestReenroll : Bool
deriving DecidableEq, Repr

/-- A field of a structure that is laid over a buffer. -/
structure Field where
  offset : Nat
  size : Nat
deriving DecidableEq, Repr

/-- What the HAL takes from the gatekeeper library: sizes of requests and layouts of structures. -/
structure GatekeeperLib where
  getSerializedSize : Request → BitVec 32
  /-- `sizeof(password_handle_t)`. -/
  passwordHandleSize : Nat
  passwordHandleUserId : Field
  challenge : Field
  userId : Field
  authenticatorId : Field
  authenticatorType : Field
  timestamp : Field
  hmac : Field
  /-- `Data<T>()` gives the start of a buffer of some length for a `T` of some size, and not
  null. -/
  hasData : Nat → Nat → Bool

/-! ## The TEE -/

def sendBufSize : Nat := 8192
def recvBufSize : Nat := 8192

/-- The offset of `payload` in `gatekeeper_message`. -/
def payloadOffset : Nat := 4

/-- What the TEE does with a command, and what `Deserialize` makes of the payload. -/
structure TeeReply (ρ : Type) where
  result : BitVec 32
  /-- `params[2].value.b`. -/
  valueB : BitVec 32
  /-- How much of the receive buffer the TEE wrote. -/
  filled : Nat
  parsed : GkError × ρ
  filled_le : filled ≤ recvBufSize

/-! ## The device -/

/-- What the HAL does with memory that it got from the TEE. -/
inductive GkObs where
  /-- `Deserialize` is called on a range of the receive buffer, of which the TEE wrote some
  bytes. -/
  | deserialize (result : BitVec 32) (offset size filled : Nat)
  /-- A read in a deserialized buffer of a length, or through a null pointer. -/
  | read (length : Option Nat) (offset size : Nat)
deriving DecidableEq, Repr

open GkObs

structure GateKeeperDevice where
  error : Int
deriving DecidableEq, Repr

abbrev GkM := Traced GkObs GateKeeperDevice

/-- `aml_gatekeeper_call`: the size that is left in `response_size`. -/
def amlGatekeeperCall {ρ : Type} (reply : TeeReply ρ) : Nat :=
  if reply.result ≠ 0 then recvBufSize else reply.valueB.toNat

/-- The part of `Send` behind the call. -/
def receive {ρ : Type} (reply : TeeReply ρ) : GkM (GkError × ρ) :=
  if reply.result.toInt < 0 then
    pure (.invalid, reply.parsed.2)
  else do
    emit (.deserialize reply.result payloadOffset (amlGatekeeperCall reply) reply.filled)
    pure reply.parsed

variable (lib : GatekeeperLib)

/-- `Send`: the error it returns and the response, which is read only without an error. -/
def send {ρ : Type} (request : Request) (reply : TeeReply ρ) :
    GkM (GkError × ρ) :=
  if (lib.getSerializedSize request).toNat > sendBufSize then
    pure (.invalid, reply.parsed.2)
  else
    receive reply

def vec2SizedBuffer (vec : Bytes) : Bytes :=
  if vec.length = 0 ∨ vec.length > 2 ^ 32 - 1 then [] else vec

/-- The pointer that `Data<T>()` gives, as the length of the buffer it points to. -/
def dataPointer (size : Nat) (buffer : Bytes) : Option Nat :=
  if lib.hasData size buffer.length then some buffer.length else none

/-- Read bytes of a buffer through a pointer to it. What is outside is arbitrary, here zero. -/
def readBytes (pointer : Option Nat) (buffer : Bytes) (f : Field) : GkM Bytes := do
  emit (.read pointer f.offset f.size)
  pure ((List.range f.size).map fun i => buffer.getD (f.offset + i) 0)

def littleEndian (bytes : Bytes) : Nat := bytes.foldr (fun b n => b.toNat + 256 * n) 0

def bigEndian (bytes : Bytes) : Nat := littleEndian bytes.reverse

inductive StatusCode where
  | ok
  | reenroll
  | retryTimeout
deriving DecidableEq, Repr

structure AidlHWToken where
  challenge : Int
  userId : Int
  authenticatorId : Int
  authenticatorType : Int
  timestamp : Int
  mac : Bytes
deriving DecidableEq, Repr

structure GatekeeperEnrollResponse where
  statusCode : StatusCode
  timeoutMs : Int
  secureUserId : Int
  data : Bytes
deriving DecidableEq, Repr

structure GatekeeperVerifyResponse where
  statusCode : StatusCode
  timeoutMs : Int
  hardwareAuthToken : Option AidlHWToken
deriving DecidableEq, Repr

def sizedBuffer2AidlHWToken (buffer : Bytes) : GkM AidlHWToken := do
  let authToken := dataPointer lib 1 buffer
  let challenge ← readBytes authToken buffer lib.challenge
  let userId ← readBytes authToken buffer lib.userId
  let authenticatorId ← readBytes authToken buffer lib.authenticatorId
  let authenticatorType ← readBytes authToken buffer lib.authenticatorType
  let timestamp ← readBytes authToken buffer lib.timestamp
  let mac ← readBytes authToken buffer lib.hmac
  pure ⟨(BitVec.ofNat 64 (littleEndian challenge)).toInt,
    (BitVec.ofNat 64 (littleEndian userId)).toInt,
    (BitVec.ofNat 64 (littleEndian authenticatorId)).toInt,
    (BitVec.ofNat 32 (bigEndian authenticatorType)).toInt,
    (BitVec.ofNat 64 (bigEndian timestamp)).toInt, mac⟩

/-- The end of `enroll`. A service-specific error is no response. -/
def enrollResponse (r : GkError × EnrollResponse) :
    GkM (Option GatekeeperEnrollResponse) :=
  if r.1 ≠ .none then
    pure none
  else if r.2.error = .retry then
    pure (some ⟨.retryTimeout, r.2.retryTimeout.toInt, 0, []⟩)
  else if r.2.error ≠ .none then
    pure none
  else do
    let handle := r.2.enrolledPasswordHandle
    let userId ← readBytes (dataPointer lib lib.passwordHandleSize handle) handle
      lib.passwordHandleUserId
    let data ← readBytes (dataPointer lib 1 handle) handle ⟨0, handle.length⟩
    pure (some ⟨.ok, 0, (BitVec.ofNat 64 (littleEndian userId)).toInt, data⟩)

/-- The end of `verify`. -/
def verifyResponse (r : GkError × VerifyResponse) :
    GkM (Option GatekeeperVerifyResponse) :=
  if r.1 ≠ .none then
    pure none
  else if r.2.error = .retry then
    pure (some ⟨.retryTimeout, r.2.retryTimeout.toInt, none⟩)
  else if r.2.error ≠ .none then
    pure none
  else do
    let token ← sizedBuffer2AidlHWToken lib r.2.authToken
    pure (some ⟨if r.2.requestReenroll then .reenroll else .ok, 0, some token⟩)

def enroll (lib : GatekeeperLib) (uid : BitVec 32)
    (currentPasswordHandle currentPassword desiredPassword : Bytes)
    (reply : TeeReply EnrollResponse) : GkM (Option GatekeeperEnrollResponse) :=
  read fun device =>
    if device.error ≠ 0 then
      pure none
    else if desiredPassword.length = 0 then
      pure none
    else do
      let r ← send lib (.enroll uid (vec2SizedBuffer currentPasswordHandle)
        (vec2SizedBuffer desiredPassword) (vec2SizedBuffer currentPassword)) reply
      enrollResponse lib r

def verify (lib : GatekeeperLib) (uid : BitVec 32) (challenge : BitVec 64)
    (enrolledPasswordHandle providedPassword : Bytes) (reply : TeeReply VerifyResponse) :
    GkM (Option GatekeeperVerifyResponse) :=
  read fun device =>
    if device.error ≠ 0 then
      pure none
    else if enrolledPasswordHandle.length = 0 then
      pure none
    else do
      let r ← send lib (.verify uid challenge (vec2SizedBuffer enrolledPasswordHandle)
        (vec2SizedBuffer providedPassword)) reply
      verifyResponse lib r

inductive DeleteStatus where
  | ok
  | notImplemented
  | generalFailure
deriving DecidableEq, Repr

/-- The end of `deleteUser` and of `deleteAllUsers`, whose responses have an error and nothing
else. -/
def deleteStatus (r : GkError × GkError) : DeleteStatus :=
  if r.1 ≠ .none then .generalFailure
  else if r.2 = .notImplemented then .notImplemented
  else if r.2 ≠ .none then .generalFailure
  else .ok

/-- A delete request is sent whatever the request is. -/
def deleteUsers (request : Request) (reply : TeeReply GkError) :
    GkM DeleteStatus :=
  read fun device =>
    if device.error ≠ 0 then
      pure .generalFailure
    else do
      let r ← send lib request reply
      pure (deleteStatus r)

def deleteUser (lib : GatekeeperLib) (uid : BitVec 32) : TeeReply GkError → GkM DeleteStatus :=
  deleteUsers lib (.deleteUser uid)

def deleteAllUsers (lib : GatekeeperLib) : TeeReply GkError → GkM DeleteStatus :=
  deleteUsers lib .deleteAllUsers

/-! ## Bounds -/

/-- Only a call that succeeded is deserialized, and no byte is read that the TEE did not write or
that is outside of its buffer. -/
def GkObs.InBounds : GkObs → Prop
  | .deserialize result offset size filled =>
    result = 0 ∧ offset + size ≤ filled ∧ offset + size ≤ recvBufSize
  | .read length offset size => size = 0 ∨ ∃ n, length = some n ∧ offset + size ≤ n

/-- The fields can be read through a pointer to a `T` of some size. -/
def Readable (size : Nat) (buffer : Bytes) (fields : List Field) : Prop :=
  ∀ f ∈ fields, f.size = 0 ∨
    lib.hasData size buffer.length = true ∧ f.offset + f.size ≤ buffer.length

def GatekeeperLib.authTokenFields : List Field :=
  [lib.challenge, lib.userId, lib.authenticatorId, lib.authenticatorType, lib.timestamp, lib.hmac]

/-- The reply is one that the HAL may read: it is a failure that `Send` sees, or a success of which
the TEE wrote as much as it reports, and a response without an error has what is read from it. -/
def TeeReply.Honest {ρ : Type} (reply : TeeReply ρ) (complete : ρ → Prop) : Prop :=
  reply.result.toInt < 0 ∨ reply.result = 0 ∧
    payloadOffset + reply.valueB.toNat ≤ reply.filled ∧
      (reply.parsed.1 = .none → complete reply.parsed.2)

def EnrollResponse.Complete (r : EnrollResponse) : Prop :=
  r.error = .none → Readable lib lib.passwordHandleSize r.enrolledPasswordHandle
    [lib.passwordHandleUserId] ∧
      Readable lib 1 r.enrolledPasswordHandle [⟨0, r.enrolledPasswordHandle.length⟩]

def VerifyResponse.Complete (r : VerifyResponse) : Prop :=
  r.error = .none → Readable lib 1 r.authToken lib.authTokenFields

variable (lib : GatekeeperLib) {ρ : Type} {device : GateKeeperDevice}

theorem readBytes_all (size : Nat) (buffer : Bytes) (f : Field) :
    (readBytes (dataPointer lib size buffer) buffer f).All InBounds device ↔
    Readable lib size buffer [f] := by
  unfold readBytes dataPointer Readable
  simp only [all_bind, all_emit, all_pure, and_true, List.mem_singleton, forall_eq, InBounds]
  split
  · next h => simp [h]
  · next h => simp [h]

theorem receive_bind_all {β : Type} (reply : TeeReply ρ) (f : GkError × ρ → GkM β)
    {complete : ρ → Prop}
    (hf : ∀ e r, (f (e, r)).All InBounds device ↔ (e = .none → complete r)) :
    (receive reply >>= f).All InBounds device ↔ reply.Honest complete := by
  unfold receive TeeReply.Honest
  split
  · next hneg => simp [hneg, hf]
  · next hpos =>
    have hle := reply.filled_le
    have hdeserialized : InBounds (.deserialize reply.result payloadOffset
        (amlGatekeeperCall reply) reply.filled) ↔
          reply.result = 0 ∧ payloadOffset + reply.valueB.toNat ≤ reply.filled := by
      unfold InBounds amlGatekeeperCall
      constructor
      · rintro ⟨hok, hfilled, -⟩
        rw [if_neg (by simp [hok])] at hfilled
        exact ⟨hok, hfilled⟩
      · rintro ⟨hok, hfilled⟩
        rw [if_neg (by simp [hok])]
        exact ⟨hok, hfilled, Nat.le_trans hfilled hle⟩
    simp only [all_bind, all_emit, all_pure, and_true, run_bind, run_emit, run_pure, hdeserialized,
      hpos, false_or]
    rw [← Prod.eta reply.parsed, hf, and_assoc]

theorem send_bind_all {β : Type} (request : Request) (reply : TeeReply ρ) (f : GkError × ρ → GkM β)
    (complete : ρ → Prop)
    (hf : ∀ e r, (f (e, r)).All InBounds device ↔ (e = .none → complete r)) :
    (send lib request reply >>= f).All InBounds device ↔
      ((lib.getSerializedSize request).toNat ≤ sendBufSize → reply.Honest complete) := by
  unfold send
  split
  · next hbig => simp [hf, Nat.not_le.mpr hbig]
  · next hfits =>
    rw [receive_bind_all reply f hf]
    exact ⟨fun h _ => h, fun h => h (Nat.not_lt.mp hfits)⟩

/-- A failed call, a failed response and a retry are answered at once. -/
theorem triage_all {α : Type} (e error : GkError) (a b c : α) (success : GkM α) :
    (if e ≠ .none then pure a
      else if error = .retry then pure b
      else if error ≠ .none then pure c
      else success).All InBounds device ↔
        (e = .none → error = .none → success.All InBounds device) := by
  by_cases he : e = .none <;> cases error <;> simp [he]

section

variable (device)

theorem enrollResponse_all (e : GkError) (r : EnrollResponse) :
    (enrollResponse lib (e, r)).All InBounds device ↔ (e = .none → r.Complete lib) := by
  unfold enrollResponse EnrollResponse.Complete
  rw [triage_all]
  simp [readBytes_all]

theorem verifyResponse_all (e : GkError) (r : VerifyResponse) :
    (verifyResponse lib (e, r)).All InBounds device ↔ (e = .none → r.Complete lib) := by
  unfold verifyResponse VerifyResponse.Complete
  rw [triage_all]
  simp only [sizedBuffer2AidlHWToken, all_bind, readBytes_all, all_pure, and_true]
  simp [Readable, GatekeeperLib.authTokenFields]

end

/-! ## Calls -/

/-- A call with what the TEE does, if the request comes to it. -/
inductive GkCall where
  | enroll (uid : BitVec 32) (currentPasswordHandle currentPassword desiredPassword : Bytes)
      (reply : TeeReply EnrollResponse)
  | verify (uid : BitVec 32) (challenge : BitVec 64)
      (enrolledPasswordHandle providedPassword : Bytes) (reply : TeeReply VerifyResponse)
  | deleteUser (uid : BitVec 32) (reply : TeeReply GkError)
  | deleteAllUsers (reply : TeeReply GkError)

namespace GkCall

def InBounds (lib : GatekeeperLib) (device : GateKeeperDevice) : GkCall → Prop
  | .enroll uid currentHandle currentPassword desiredPassword reply =>
    (Gatekeeper.enroll lib uid currentHandle currentPassword desiredPassword reply).All
      GkObs.InBounds device
  | .verify uid challenge handle password reply =>
    (Gatekeeper.verify lib uid challenge handle password reply).All GkObs.InBounds device
  | .deleteUser uid reply => (Gatekeeper.deleteUser lib uid reply).All GkObs.InBounds device
  | .deleteAllUsers reply => (Gatekeeper.deleteAllUsers lib reply).All GkObs.InBounds device

def request : GkCall → Request
  | .enroll uid currentHandle currentPassword desiredPassword _ =>
    .enroll uid (vec2SizedBuffer currentHandle) (vec2SizedBuffer desiredPassword)
      (vec2SizedBuffer currentPassword)
  | .verify uid challenge handle password _ =>
    .verify uid challenge (vec2SizedBuffer handle) (vec2SizedBuffer password)
  | .deleteUser uid _ => .deleteUser uid
  | .deleteAllUsers _ => .deleteAllUsers

/-- `enroll` and `verify` refuse an empty password and an empty handle. -/
def HasArgument : GkCall → Prop
  | .enroll _ _ _ desiredPassword _ => desiredPassword.length ≠ 0
  | .verify _ _ handle _ _ => handle.length ≠ 0
  | .deleteUser _ _ | .deleteAllUsers _ => True

def Sent (device : GateKeeperDevice) (c : GkCall) : Prop :=
  device.error = 0 ∧ c.HasArgument ∧ (lib.getSerializedSize c.request).toNat ≤ sendBufSize

/-- The reply to the call is one that the HAL may read. -/
def Honest (lib : GatekeeperLib) : GkCall → Prop
  | .enroll _ _ _ _ reply => reply.Honest fun r => r.Complete lib
  | .verify _ _ _ _ reply => reply.Honest fun r => r.Complete lib
  | .deleteUser _ reply | .deleteAllUsers reply => reply.Honest fun _ => True

end GkCall

/-- `enroll` and `verify` check the device and one argument before they send. -/
theorem checked_send_all {α : Type} (device : GateKeeperDevice) (argument : Bytes)
    (request : Request) (reply : TeeReply ρ) {f : GkError × ρ → GkM (Option α)}
    {complete : ρ → Prop}
    (hf : ∀ e r, (f (e, r)).All InBounds device ↔ (e = .none → complete r)) :
    (if device.error ≠ 0 then pure none
      else if argument.length = 0 then pure none
      else send lib request reply >>= f).All InBounds device ↔
        (device.error = 0 ∧ argument.length ≠ 0 ∧
          (lib.getSerializedSize request).toNat ≤ sendBufSize → reply.Honest complete) := by
  split
  · next herror => simp [herror]
  · next herror =>
    split
    · next hempty => simp [hempty]
    · next hne =>
      rw [send_bind_all lib request reply f complete hf]
      simp [Decidable.not_not.mp herror, hne]

theorem deleteUsers_all (request : Request) (reply : TeeReply GkError) (device : GateKeeperDevice) :
    (deleteUsers lib request reply).All InBounds device ↔
      (device.error = 0 ∧ True ∧ (lib.getSerializedSize request).toNat ≤ sendBufSize →
        reply.Honest fun _ => True) := by
  unfold deleteUsers
  rw [all_read, all_ite]
  split
  · next herror => simp [herror]
  · next herror =>
    rw [send_bind_all lib request reply _ (fun _ => True) (by simp)]
    simp [Decidable.not_not.mp herror]

/-- The HAL deserializes only a reply of a call that succeeded, within what the TEE wrote and within
the receive buffer, and reads only inside the deserialized buffers, exactly if the request does not
come to the TEE or the reply is honest. -/
theorem call_inBounds_iff (lib : GatekeeperLib) (device : GateKeeperDevice) (c : GkCall) :
    c.InBounds lib device ↔ (c.Sent lib device → c.Honest lib) := by
  cases c with
  | deleteUser uid reply => exact deleteUsers_all lib _ reply device
  | deleteAllUsers reply => exact deleteUsers_all lib _ reply device
  | enroll uid currentHandle currentPassword desiredPassword reply =>
    exact checked_send_all lib device desiredPassword _ reply (enrollResponse_all lib device)
  | verify uid challenge handle password reply =>
    exact checked_send_all lib device handle _ reply (verifyResponse_all lib device)

/-! ## What a TEE can make the HAL read -/

/-- Packed structures: a password handle of 58 bytes and an auth token of 69. -/
def exampleLib : GatekeeperLib where
  getSerializedSize _ := 100
  passwordHandleSize := 58
  passwordHandleUserId := ⟨1, 8⟩
  challenge := ⟨1, 8⟩
  userId := ⟨9, 8⟩
  authenticatorId := ⟨17, 8⟩
  authenticatorType := ⟨25, 4⟩
  timestamp := ⟨29, 8⟩
  hmac := ⟨37, 32⟩
  hasData size length := size ≤ length

/-- A call that fails with the result 1 and writes nothing is deserialized, four bytes past the end
of the receive buffer; and a token of one byte is read as a whole structure. -/
theorem verify_reads_outside :
    ((verify exampleLib 0 0 [1] [2] ⟨1, 0, 0, (.invalid, ⟨.none, 0, [], false⟩), by decide⟩).run
        ⟨0⟩).log = [.deserialize 1 4 8192 0] ∧
      ¬ GkObs.InBounds (.deserialize 1 4 8192 0) ∧
      .read (some 1) 37 32 ∈ ((verify exampleLib 0 0 [1] [2]
        ⟨0, 30, 34, (.none, ⟨.none, 0, [7], false⟩), by decide⟩).run ⟨0⟩).log ∧
      ¬ GkObs.InBounds (.read (some 1) 37 32) := by
  refine ⟨by decide +kernel, ?_, by decide +kernel, ?_⟩
  · simp [InBounds]
  · simp [InBounds]

end AmlogicHal.Gatekeeper

import AmlogicHal.Keymint.Operation
import AmlogicHal.Lib.Traced
import Mathlib.Algebra.Order.Ring.Rat

/-!
# The buffers of the keymaster transport

`aml_keymaster_send` holds a request and its reply in two arrays on its stack. It hands ranges of
them to `Serialize` and to `Deserialize`; the size of the second range is what the TA reports. The
check of that size adds the size of the header in `size_t`, so it depends on the width of that type.

1. The range of the request is always inside the send buffer. With 64 bits the range of the reply is
   inside the receive buffer, too; with 32 bits the sum can wrap, and then the check lets the reply
   through (`ranges_inside_iff`).
2. Where the sum does not wrap, the function does what the model of the operations takes it to do
   (`Platform.amlKeymasterSend_eq`).
-/

namespace AmlogicHal.Keymint

open Traced

/-- A library on a platform with its `size_t`. -/
structure Platform extends KeymasterLib where
  /-- The width of `size_t`. -/
  sizeBits : Nat
  sizeBits_cases : sizeBits = 32 ∨ sizeBits = 64
  /-- `cmd` is a member of `keymaster_message`. -/
  cmdSize_le : cmdSize ≤ messageSize
  /-- The receive buffer and a header fit into the address space. -/
  header_fits : toKeymasterLib.recvBufSize + cmdSize < 2 ^ 32

/-- What `TEEC_InvokeCommand` gives back, and what `Deserialize` makes of the payload. -/
structure TeeResult where
  res : BitVec 32
  /-- `params[2].value.b`. -/
  valueB : BitVec 32
  parsed : Option Response

/-- The ranges that are handed to the keymaster library, as offsets in their buffer. -/
inductive RangeUse where
  | serialize (start len : Nat)
  | deserialize (start len : Nat)
deriving DecidableEq, Repr

variable (p : Platform)

/-- The range is inside its buffer, and that of a reply behind the header. -/
def RangeUse.Inside : RangeUse → Prop
  | .serialize start len => start + len ≤ p.sendBufSize
  | .deserialize start len => p.cmdSize ≤ start ∧ start + len ≤ p.recvBufSize

def RangeUse.RequestInside : RangeUse → Prop
  | .serialize start len => start + len ≤ p.sendBufSize
  | .deserialize _ _ => True

namespace Platform

/-- `rsp_size` after `aml_keymaster_call`. -/
def rspSize (r : TeeResult) : Nat :=
  if r.res ≠ 0 then p.recvBufSize else r.valueB.toNat

/-- `rsp_size + sizeof(msg->cmd)`. -/
def checkedSize (r : TeeResult) : Nat :=
  (p.rspSize r + p.cmdSize) % 2 ^ p.sizeBits

/-- The part of `aml_keymaster_send` behind the call. -/
def readReply (r : TeeResult) : Traced RangeUse Unit Response :=
  if r.res.toInt < 0 then
    pure (.failure (p.translateError r.res.toInt))
  else if p.checkedSize r > p.recvBufSize then
    pure (.failure .insufficientBufferSpace)
  else do
    -- `payload` follows `cmd`
    emit (.deserialize p.cmdSize (p.rspSize r))
    match r.parsed with
    | none => pure (.failure .unknownError)
    | some rsp => pure rsp

/-- `aml_keymaster_send` for a request of a `SerializedSize`, which goes into a `uint32_t`. -/
def amlKeymasterSend (serializedSize : Nat) (r : TeeResult) :
    Traced RangeUse Unit Response :=
  let reqSize := serializedSize % 2 ^ 32
  if reqSize > p.sendBufSize then
    pure (.failure .invalidInputLength)
  else do
    emit (.serialize 0 reqSize)
    p.readReply r

end Platform

open Platform

/-! ## The ranges -/

section Ranges

variable {p : Platform} {r : TeeResult}

/-- The sum in the check of the reported size does not wrap. -/
def Platform.NoWrap (r : TeeResult) : Prop :=
  p.sizeBits = 64 ∨ r.res ≠ 0 ∨ r.valueB.toNat + p.cmdSize < 2 ^ 32

theorem Platform.cmdSize_le_recvBufSize : p.cmdSize ≤ p.recvBufSize := by
  have hmember := p.cmdSize_le
  have hroom := p.update_room 0 none
  unfold KeymasterLib.recvBufSize
  omega

theorem Platform.rspSize_lt (r : TeeResult) : p.rspSize r < 2 ^ 32 := by
  have hfits := p.header_fits
  have hvalue := r.valueB.isLt
  unfold rspSize
  split
  · omega
  · exact hvalue

theorem Platform.checkedSize_eq (hwrap : p.NoWrap r) :
    p.checkedSize r = p.rspSize r + p.cmdSize := by
  have hfits := p.header_fits
  have hsize := p.rspSize_lt r
  have hbelow : p.rspSize r + p.cmdSize < 2 ^ p.sizeBits := by
    rcases p.sizeBits_cases with h32 | h64
    · rw [h32]
      rcases hwrap with h64 | hres | hsum
      · omega
      · rw [rspSize, if_pos hres]
        exact hfits
      · unfold rspSize
        split <;> omega
    · rw [h64]
      omega
  exact Nat.mod_eq_of_lt hbelow

/-- A size whose sum with the header wraps passes the check, and is too big. -/
theorem Platform.checkedSize_of_wrap (hwrap : ¬ p.NoWrap r) :
    p.checkedSize r ≤ p.recvBufSize ∧ p.recvBufSize < p.cmdSize + p.rspSize r := by
  simp only [NoWrap, not_or, not_not, Nat.not_lt] at hwrap
  obtain ⟨h64, hres, hsum⟩ := hwrap
  have hfits := p.header_fits
  have hheader := p.cmdSize_le_recvBufSize
  have hsize : p.rspSize r = r.valueB.toNat := if_neg (not_not.mpr hres)
  have h32 : p.sizeBits = 32 := p.sizeBits_cases.resolve_right h64
  have hmod : (r.valueB.toNat + p.cmdSize) % 2 ^ 32 = r.valueB.toNat + p.cmdSize - 2 ^ 32 := by
    omega
  rw [checkedSize, h32, hsize, hmod]
  omega

theorem Platform.all_readReply {P : RangeUse → Prop} :
    (p.readReply r).All P () ↔
      (¬ r.res.toInt < 0 → p.checkedSize r ≤ p.recvBufSize →
        P (.deserialize p.cmdSize (p.rspSize r))) := by
  unfold readReply
  split
  case isTrue hneg => simp [hneg]
  case isFalse hneg =>
    split
    case isTrue hbig =>
      simp only [all_pure, true_iff]
      intro _ hsmall
      exact absurd hsmall (Nat.not_le.mpr hbig)
    case isFalse hsmall =>
      have hparse : ∀ s, (match r.parsed with
          | none => pure (.failure .unknownError)
          | some rsp => pure rsp : Traced RangeUse Unit Response).All P s := by
        cases r.parsed <;> simp
      simp only [all_bind, all_emit, hparse, and_true]
      exact ⟨fun h _ _ => h, fun h => h hneg (Nat.not_lt.mp hsmall)⟩

theorem Platform.all_amlKeymasterSend {P : RangeUse → Prop} {serializedSize : Nat} :
    (p.amlKeymasterSend serializedSize r).All P () ↔
      (serializedSize % 2 ^ 32 ≤ p.sendBufSize →
        P (.serialize 0 (serializedSize % 2 ^ 32)) ∧ (p.readReply r).All P ()) := by
  unfold amlKeymasterSend
  rw [all_ite]
  split
  case isTrue hbig =>
    simp only [all_pure, true_iff]
    intro hsmall
    exact absurd hsmall (Nat.not_le.mpr hbig)
  case isFalse hsmall =>
    simp only [all_bind, all_emit]
    exact ⟨fun h _ => h, fun h => h (Nat.not_lt.mp hsmall)⟩

/-- The reply range is inside exactly if the sum in the check does not wrap. A result that is no
success leaves the size of the whole buffer, which the check refuses. -/
theorem Platform.readReply_inside_iff : (p.readReply r).All (RangeUse.Inside p) () ↔
    p.NoWrap r := by
  rw [all_readReply]
  constructor
  · intro h
    by_contra hwrap
    obtain ⟨hpasses, hbig⟩ := checkedSize_of_wrap hwrap
    have hsuccess : r.res = 0 := by
      simp only [NoWrap, not_or, not_not] at hwrap
      exact hwrap.2.1
    have hnonneg : ¬ r.res.toInt < 0 := by
      rw [hsuccess]
      decide
    obtain ⟨-, hend⟩ := h hnonneg hpasses
    omega
  · intro hwrap _ hpasses
    rw [checkedSize_eq hwrap] at hpasses
    exact ⟨Nat.le_refl _, by omega⟩

end Ranges

theorem ranges_inside_iff (p : Platform) (r : TeeResult) :
    ((∀ serializedSize, (p.amlKeymasterSend serializedSize r).All (RangeUse.Inside p) ()) ↔
      p.sizeBits = 64 ∨ r.res ≠ 0 ∨ r.valueB.toNat + p.cmdSize < 2 ^ 32) ∧
    ∀ serializedSize,
      (p.amlKeymasterSend serializedSize r).All (RangeUse.RequestInside p) () := by
  refine ⟨?_, fun serializedSize => ?_⟩
  · rw [← NoWrap, ← readReply_inside_iff]
    simp only [all_amlKeymasterSend]
    constructor
    · -- an empty request is sent
      intro h
      exact (h 0 (Nat.zero_le _)).2
    · intro hreply serializedSize hsmall
      exact ⟨by simpa [RangeUse.Inside] using hsmall, hreply⟩
  · rw [all_amlKeymasterSend, all_readReply]
    intro hsmall
    exact ⟨by simpa [RangeUse.RequestInside] using hsmall, fun _ _ => trivial⟩

/-- Pages of 4096 bytes and a `size_t` of 32 bits. -/
def examplePlatform : Platform where
  toKeymasterLib := exampleLib
  sizeBits := 32
  sizeBits_cases := .inl rfl
  cmdSize_le := Nat.le_refl 4
  header_fits := by decide

/-- A TA that reports 2^32 - 4 bytes: the sum with the header is zero, and `Deserialize` gets a
range of that size in a buffer of 16384 bytes. -/
theorem reply_pastBuffer :
    ((examplePlatform.amlKeymasterSend 8 ⟨0, 0xFFFFFFFC#32, none⟩).run ()).log =
        [.serialize 0 8, .deserialize 4 0xFFFFFFFC] ∧
      ¬ RangeUse.Inside examplePlatform (.deserialize 4 0xFFFFFFFC) := by
  refine ⟨by decide, ?_⟩
  rintro ⟨-, hend⟩
  revert hend
  decide

/-! ## The model of the operations -/

/-- A result of the TEE as the model of the operations has it. -/
structure TeeResult.Carries (r : TeeResult) (inv : Invocation) : Prop where
  rc : inv.rc = r.res.toInt
  rspSize : inv.rspSize = r.valueB.toNat
  parsed : inv.parsed = r.parsed

theorem TeeResult.Carries.call {p : Platform} {r : TeeResult} {inv : Invocation}
    (h : r.Carries inv) : amlKeymasterCall p.toKeymasterLib inv = p.rspSize r := by
  have hzero : inv.rc = 0 ↔ r.res = 0 := by
    rw [h.rc]
    exact ⟨fun hint => BitVec.eq_of_toInt_eq hint, fun hres => by rw [hres]; rfl⟩
  simp [amlKeymasterCall, Platform.rspSize, h.rspSize, hzero]

theorem Platform.amlKeymasterSend_eq {p : Platform} {r : TeeResult} {ta : Ta} {req : Request}
    {log : List Exchange} (hcarries : r.Carries (ta log req)) (hwrap : p.NoWrap r) :
    ((p.amlKeymasterSend (p.serializedSize req) r).run ()).val =
      (Keymint.amlKeymasterSend p.toKeymasterLib ta req log).1 := by
  have hread : ((p.readReply r).run ()).val = readResponse p.toKeymasterLib (ta log req) := by
    simp only [readResponse, readReply, hcarries.rc, hcarries.call, hcarries.parsed,
      checkedSize_eq hwrap]
    split
    · rfl
    · split
      · rfl
      · cases r.parsed <;> rfl
  have hsize : p.serializedSize req % 2 ^ 32 = p.reqSize req := rfl
  simp only [amlKeymasterSend, Keymint.amlKeymasterSend, hsize]
  by_cases hbig : p.reqSize req > p.sendBufSize
  · simp only [if_pos hbig, run_pure]
  · simp only [if_neg hbig, run_bind, run_emit, hread]

end AmlogicHal.Keymint

import AmlogicHal.Amadec.ThdSource
import Mathlib.Order.Iterate

/-!
# The TrueHD source after an invalid length

A call of `THD_MediaSource::read` that finds an invalid length returns `ERROR_UNSUPPORTED` and
leaves `mSyncMain` set. So the source does not search for a main sync word again: the next call
takes the next two bytes for the header of a unit, and steps over as many bytes as they say.

* `read_unsupported`: the source is synchronised after an invalid length.
* `read_delivered`: what a call does then, if it gets all that it asks for.
* `thdRun_spec`: where the source is after any number of calls.
* `majorSync_emitted_iff`: a unit further on is emitted if and only if the steps from the invalid
  length lead to it.
-/

namespace AmlogicHal.Amadec

/-! ## Definitions -/

variable (stream : Memory Byte)

def unitSize (p : Nat) : Nat := auSize (stream p ++ stream (p + 1))

def ValidSize (p : Nat) : Prop :=
  minAusize ≤ unitSize stream p ∧ unitSize stream p ≤ maxAusize

instance (p : Nat) : Decidable (ValidSize stream p) := inferInstanceAs (Decidable (_ ∧ _))

/-- At `p` there is a unit with a main sync word. -/
def MajorSync (p : Nat) : Prop :=
  ValidSize stream p ∧ u32At stream (p + 4) = truehdSync

instance (p : Nat) : Decidable (MajorSync stream p) := inferInstanceAs (Decidable (_ ∧ _))

/-- Where a synchronised source goes from `p`: behind the unit, or behind the two bytes of a header
that it cannot accept. -/
def nextHeader (p : Nat) : Nat :=
  if ValidSize stream p then p + unitSize stream p else p + 2

/-- The callback delivers all that a synchronised call asks for, and there is a buffer. -/
def ThdCall.Delivers (c : ThdCall) : Prop := 2 ≤ c.header.sum ∧ maxAusize ≤ c.body.sum ∧ c.acquired

def thdRun (calls : Nat → ThdCall) (s : ThdSource) : Nat → ThdSource
  | 0 => s
  | n + 1 => (thdMachine.step (thdRun calls s n) (calls n)).1

def thdResult (calls : Nat → ThdCall) (s : ThdSource) (n : Nat) : ThdResult :=
  (thdMachine.step (thdRun calls s n) (calls n)).2

/-- Whatever the calls are, if they get what they ask for, the unit at `p` is emitted at some
time. -/
def EventuallyEmits (s : ThdSource) (p : Nat) : Prop :=
  ∀ calls : Nat → ThdCall, (∀ i, (calls i).Delivers) →
    ∃ n, thdResult calls s n = .unit p (s.feed.stream.slice p (unitSize s.feed.stream p))

/-! ## One call -/

namespace ThdSource

variable {c : ThdCall} {s : ThdSource}

theorem readUnit_unsupported {head : List Byte} {ausize : Nat}
    (h : (s.readUnit head ausize c).2 = .unsupported) : (s.readUnit head ausize c).1 = s := by
  rw [readUnit] at h ⊢
  split
  next => rfl
  next hsize =>
    rw [if_neg hsize] at h
    split at h
    · cases h
    · dsimp only at h
      split at h <;> cases h

theorem read_unsupported (h : (s.read c).2 = .unsupported) : (s.read c).1.mSyncMain = true := by
  rw [read] at h ⊢
  split at h
  next hsync =>
    rw [if_pos hsync]
    rw [readNext] at h ⊢
    split at h
    · cases h
    next htwo =>
      rw [if_neg htwo, readUnit_unsupported h]
      exact hsync
  next hsync =>
    rw [if_neg hsync]
    rw [readFirst] at h ⊢
    dsimp only at h ⊢
    split at h
    · cases h
    next hfound => rw [if_neg hfound, readUnit_unsupported h]

theorem read_eq_readUnit (hsync : s.mSyncMain = true) (hheader : 2 ≤ c.header.sum) :
    s.read c =
      readUnit (s.feed.next 2) (unitSize s.feed.stream s.feed.pos) c
        { s with feed := s.feed.advance 2 } := by
  have hcount : readCount 2 c.header = 2 := Nat.min_eq_left hheader
  have hhead : Memory.slice (Memory.store (fun _ => (0 : Byte)) 0 (s.feed.next 2)) 0 2 =
      s.feed.next 2 :=
    Memory.slice_store _ 0 _
  rw [read, if_pos hsync, readNext, readBuffer_eq, hcount]
  rfl

theorem readUnit_delivered {head : List Byte} {ausize : Nat}
    (hsize : minAusize ≤ ausize ∧ ausize ≤ maxAusize) (hhead : head.length ≤ ausize)
    (hbody : maxAusize ≤ c.body.sum) (hacquired : c.acquired = true) :
    ∃ start bytes, (s.readUnit head ausize c).2 = .unit start bytes := by
  have hcount : (readCount (ausize - head.length) c.body : Int) = ausize - head.length := by
    rw [readCount]
    omega
  rw [readUnit, if_neg (by omega), if_neg (not_not.mpr hacquired), readBuffer_eq]
  rw [if_neg (not_not.mpr hcount)]
  exact ⟨_, _, rfl⟩

theorem read_delivered (hsync : s.mSyncMain = true) (hc : c.Delivers) :
    (s.read c).1.feed = { s.feed with pos := nextHeader s.feed.stream s.feed.pos } ∧
      (s.read c).1.mSyncMain = true ∧
      (s.read c).2 = if ValidSize s.feed.stream s.feed.pos
        then .unit s.feed.pos (s.feed.stream.slice s.feed.pos (unitSize s.feed.stream s.feed.pos))
        else .unsupported := by
  obtain ⟨hheader, hbody, hacquired⟩ := hc
  have hread := read_eq_readUnit hsync hheader
  by_cases hvalid : ValidSize s.feed.stream s.feed.pos
  · have htwo : (s.feed.next 2).length ≤ unitSize s.feed.stream s.feed.pos := by
      rw [Feed.length_next]
      exact Nat.le_trans (by decide) hvalid.1
    obtain ⟨start, bytes, hunit⟩ := readUnit_delivered hvalid htwo hbody hacquired
    rw [← hread] at hunit
    obtain ⟨hstart, ⟨p, hp, hbytes⟩, hfeed, hmain⟩ := read_synced hsync hunit
    obtain rfl : p = s.feed.pos := Int.ofNat_inj.mp (hp.symm.trans hstart)
    rw [hfeed, hunit, if_pos hvalid, nextHeader, if_pos hvalid, hbytes, Memory.length_slice, hstart]
    exact ⟨rfl, hmain, rfl⟩
  · have hsize : unitSize s.feed.stream s.feed.pos < minAusize ∨
        unitSize s.feed.stream s.feed.pos > maxAusize := by
      unfold ValidSize at hvalid
      omega
    rw [hread, readUnit, if_pos hsize, if_neg hvalid, nextHeader, if_neg hvalid]
    exact ⟨rfl, hsync, rfl⟩

end ThdSource

/-! ## Runs -/

variable {calls : Nat → ThdCall} {s : ThdSource}

section

variable (hcalls : ∀ i, (calls i).Delivers)
include hcalls

variable (hsync : s.mSyncMain = true)
include hsync

theorem thdRun_spec (n : Nat) :
    (thdRun calls s n).feed = { s.feed with pos := (nextHeader s.feed.stream)^[n] s.feed.pos } ∧
      (thdRun calls s n).mSyncMain = true := by
  induction n with
  | zero => exact ⟨rfl, hsync⟩
  | succ n ih =>
    obtain ⟨hfeed, hmain⟩ := ih
    obtain ⟨hnext, hmain', -⟩ := ThdSource.read_delivered hmain (hcalls n)
    rw [hfeed] at hnext
    rw [Function.iterate_succ_apply']
    exact ⟨hnext, hmain'⟩

theorem thdResult_eq (n : Nat) :
    let p := (nextHeader s.feed.stream)^[n] s.feed.pos
    thdResult calls s n =
      if ValidSize s.feed.stream p then .unit p (s.feed.stream.slice p (unitSize s.feed.stream p))
      else .unsupported := by
  obtain ⟨hfeed, hmain⟩ := thdRun_spec hcalls hsync n
  have hresult := (ThdSource.read_delivered hmain (hcalls n)).2.2
  rw [hfeed] at hresult
  exact hresult

theorem start_of_thdResult
    {n p : Nat} {bytes : List Byte} (h : thdResult calls s n = .unit p bytes) :
    (nextHeader s.feed.stream)^[n] s.feed.pos = p := by
  rw [thdResult_eq hcalls hsync n] at h
  split at h
  · exact Int.ofNat_inj.mp (ThdResult.unit.inj h).1
  · cases h

end

def fullCall : ThdCall := ⟨[], [2], [4000], true⟩

theorem fullCall_delivers : fullCall.Delivers := ⟨by decide, by decide, rfl⟩

theorem majorSync_emitted_iff (s : ThdSource) (c : ThdCall) (hinvalid : (s.read c).2 = .unsupported)
    (p : Nat) (hunit : MajorSync (s.read c).1.feed.stream p) :
    EventuallyEmits (s.read c).1 p ↔
      ∃ n, (nextHeader (s.read c).1.feed.stream)^[n] (s.read c).1.feed.pos = p := by
  have hsync := ThdSource.read_unsupported hinvalid
  constructor
  · intro hemits
    obtain ⟨n, hn⟩ := hemits (fun _ => fullCall) fun _ => fullCall_delivers
    exact ⟨n, start_of_thdResult (fun _ => fullCall_delivers) hsync hn⟩
  · rintro ⟨n, rfl⟩ calls hcalls
    refine ⟨n, ?_⟩
    rw [thdResult_eq hcalls hsync n, if_pos hunit.1]

/-- A stream that starts with a unit of 8 bytes with a main sync word, a length that is not
accepted, and two other bytes. Then there is a unit of 20 bytes with a main sync word, and behind it
there are units of 8 bytes. -/
def damagedStream (first second : Byte) : Memory Byte := fun i =>
  if i < 32 then
    [0x00, 0x04, 0x12, 0x34, 0xf8, 0x72, 0x6f, 0xba, 0x00, 0x01, first, second, 0x00, 0x0a, 0x12,
      0x34, 0xf8, 0x72,
      0x6f, 0xba].getD i 0
  else if (i - 32) % 8 = 1 then 4 else 0

def afterFirstUnit (first second : Byte) : ThdSource :=
  ((ThdSource.init (damagedStream first second) fun _ => 0).read
    ⟨List.replicate 8 [1], [], [], true⟩).1

/-- The two bytes give no length that is accepted. -/
theorem majorSync_emitted_afterTwo :
    ((afterFirstUnit 0x00 0x02).read fullCall).2 = .unsupported ∧
      MajorSync (damagedStream 0x00 0x02) 12 ∧
        EventuallyEmits ((afterFirstUnit 0x00 0x02).read fullCall).1 12 := by
  refine ⟨rfl, by decide, ?_⟩
  exact (majorSync_emitted_iff _ fullCall rfl 12 (by decide)).mpr ⟨1, rfl⟩

theorem le_nextHeader (p : Nat) : p ≤ nextHeader stream p := by
  rw [nextHeader]
  split <;> exact Nat.le_add_right _ _

/-- The two bytes are taken for the header of a unit of 8 bytes, and the main sync word is in it. -/
theorem majorSync_lost :
    ((afterFirstUnit 0x00 0x04).read fullCall).2 = .unsupported ∧
      MajorSync (damagedStream 0x00 0x04) 12 ∧
        (∀ k, ValidSize (damagedStream 0x00 0x04) (32 + 8 * k)) ∧
      ∀ calls : Nat → ThdCall, (∀ i, (calls i).Delivers) → ∀ n bytes,
        thdResult calls ((afterFirstUnit 0x00 0x04).read fullCall).1 n ≠ .unit 12 bytes := by
  refine ⟨rfl, by decide, fun k => ?_, fun calls hcalls n bytes hresult => ?_⟩
  · have hhigh : damagedStream 0x00 0x04 (32 + 8 * k) = 0 := by
      rw [damagedStream, if_neg (by omega), if_neg (by omega)]
    have hlow : damagedStream 0x00 0x04 (32 + 8 * k + 1) = 4 := by
      rw [damagedStream, if_neg (by omega), if_pos (by omega)]
    rw [ValidSize, unitSize, hhigh, hlow]
    decide
  · have hsync : ((afterFirstUnit 0x00 0x04).read fullCall).1.mSyncMain = true := rfl
    have hfeed : ((afterFirstUnit 0x00 0x04).read fullCall).1.feed =
        ⟨damagedStream 0x00 0x04, 10⟩ := rfl
    have hstart := start_of_thdResult hcalls hsync hresult
    rw [hfeed] at hstart
    dsimp only at hstart
    cases n with
    | zero => exact absurd hstart (by decide)
    | succ n =>
      have hnext : nextHeader (damagedStream 0x00 0x04) 10 = 18 := by decide
      have hbehind : 18 ≤ (nextHeader (damagedStream 0x00 0x04))^[n] 18 :=
        Function.id_le_iterate_of_id_le (le_nextHeader _) n 18
      rw [Function.iterate_succ_apply, hnext] at hstart
      omega

end AmlogicHal.Amadec

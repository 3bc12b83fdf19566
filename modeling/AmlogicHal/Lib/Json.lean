import Mathlib.Algebra.Order.Ring.Rat
import Mathlib.Data.List.Basic

/-!
# JSON values and parsers over them

The values that a JSON reader hands to a configuration parser, and the accessors of such a parser,
as jsoncpp documents them: an absent member is null, null converts to the empty string and to zero,
and an accessor that does not apply to the type of a value throws.

A parser stops because an accessor throws or because it rejects the document itself. Numbers are
exact. The text of a number with a fraction is a parameter: it depends on the settings of the
library.

`bind_ok` takes a parser apart that has returned a value, and `foldlM_invariant` is the induction
over its loops.
-/

namespace AmlogicHal

/-- Why a parser stops. -/
inductive ParseStop where
  | badType
  | rejected
deriving DecidableEq, Repr

/-- A parser that returns a value or stops. -/
abbrev Parse (α : Type) : Type := Except ParseStop α

namespace Parse

variable {α β : Type}

theorem bind_ok {x : Parse α} {f : α → Parse β} {b : β} (h : (x >>= f) = .ok b) :
    ∃ a, x = .ok a ∧ f a = .ok b := by
  cases x with
  | error e => cases h
  | ok a => exact ⟨a, rfl, h⟩

/-- Reject the document unless `p` holds. -/
def require (p : Prop) [Decidable p] : Parse Unit := if p then .ok () else .error .rejected

theorem require_ok {p : Prop} [Decidable p] {u : Unit} (h : require p = .ok u) : p := by
  unfold require at h
  split at h
  · assumption
  · cases h

/-- Reject the document if nothing was found. -/
def found : Option α → Parse α
  | none => .error .rejected
  | some a => .ok a

theorem found_ok {x : Option α} {a : α} (h : found x = .ok a) : x = some a := by
  cases x with
  | none => cases h
  | some b => rw [Except.ok.inj h]

theorem foldlM_invariant (I : β → Prop) {f : β → α → Parse β} (xs : List α) {b r : β}
    (h : xs.foldlM f b = .ok r) (h0 : I b) (hstep : ∀ b a b', a ∈ xs → I b →
      f b a = .ok b' → I b') :
    I r := by
  induction xs generalizing b with
  | nil =>
    cases h
    exact h0
  | cons x xs ih =>
    obtain ⟨b', hx, hrest⟩ := bind_ok h
    exact ih hrest (hstep b x b' List.mem_cons_self h0 hx) fun c a c' ha =>
      hstep c a c' (List.mem_cons_of_mem _ ha)

/-- The value that a caller sees of a parser that clears its result and returns when it rejects the
document. Nothing is returned when an accessor throws. -/
def cleared (empty : α) : Parse α → Option α
  | .ok a => some a
  | .error .rejected => some empty
  | .error .badType => none

theorem cleared_eq_some {empty a : α} {x : Parse α} (h : cleared empty x = some a) :
    x = .ok a ∨ a = empty := by
  unfold cleared at h
  split at h
  · exact .inl (by rw [Option.some.inj h])
  · exact .inr (Option.some.inj h).symm
  · cases h

end Parse

inductive Json where
  | null
  | bool (b : Bool)
  | int (i : Int)
  | real (q : Rat)
  | string (s : String)
  | array (xs : List Json)
  | object (fields : List (String × Json))

namespace Json

/-- `operator[](const char*)`. -/
def get (key : String) : Json → Parse Json
  | .null => .ok .null
  | .object fields => .ok ((fields.lookup key).getD .null)
  | _ => .error .badType

/-- `operator[](ArrayIndex)`. -/
def index (i : Nat) : Json → Parse Json
  | .null => .ok .null
  | .array xs => .ok (xs[i]?.getD .null)
  | _ => .error .badType

def size : Json → Nat
  | .array xs => xs.length
  | .object fields => fields.length
  | _ => 0

def empty : Json → Bool
  | .null => true
  | .array xs => xs.isEmpty
  | .object fields => fields.isEmpty
  | _ => false

/-- What a loop from zero to `size()` sees. -/
def elements (j : Json) : Parse (List Json) := (List.range j.size).mapM j.index

def asString (realText : Rat → String) : Json → Parse String
  | .null => .ok ""
  | .bool b => .ok (if b then "true" else "false")
  | .int i => .ok (toString i)
  | .real q => .ok (realText q)
  | .string s => .ok s
  | _ => .error .badType

def text (realText : Rat → String) (key : String) (j : Json) : Parse String := do
  (← j.get key).asString realText

/-- `asFloat()`, without rounding. -/
def asFloat : Json → Parse Rat
  | .null => .ok 0
  | .bool b => .ok (if b then 1 else 0)
  | .int i => .ok i
  | .real q => .ok q
  | _ => .error .badType

/-- `asBool()` of a value with `isBool()`. -/
def bool? : Json → Option Bool
  | .bool b => some b
  | _ => none

/-- `asUInt64()` of a value with `isUInt64()`. -/
def uint64? : Json → Option Nat
  | .int i => if 0 ≤ i ∧ i < 2 ^ 64 then some i.toNat else none
  | .real q => if 0 ≤ q ∧ q < 2 ^ 64 ∧ q.den = 1 then some q.num.toNat else none
  | _ => none

/-- `isString()`. -/
def string? : Json → Option String
  | .string s => some s
  | _ => none

theorem uint64?_lt {j : Json} {n : Nat} (h : j.uint64? = some n) : n < 2 ^ 64 := by
  cases j with
  | int i =>
    simp only [uint64?] at h
    split at h
    · cases h
      omega
    · cases h
  | real q =>
    simp only [uint64?] at h
    split at h
    · next hq =>
      cases h
      have hnum : (q.num : Rat) < (2 ^ 64 : Int) := by
        rw [Rat.coe_int_num_of_den_eq_one hq.2.2]
        exact_mod_cast hq.2.1
      have hlt : q.num < 2 ^ 64 := by exact_mod_cast hnum
      omega
    · cases h
  | null | bool | string | array | object => cases h

end Json

end AmlogicHal

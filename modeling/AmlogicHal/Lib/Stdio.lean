import Mathlib.Data.List.Basic

/-!
# Reading text with the C library

* `fgetsAll`: the pieces in which a loop over `fgets` gets a text. A piece ends after a newline, or
  when the buffer is full.
* `lines`: the lines of a text, each with its newline. `fgetsAll_eq_lines`: these are the pieces if
  every line fits into the buffer.
* `scanInt`, `scanHex`: the conversions `%d` and `%x` of `sscanf`, as integers without bounds. The
  rest of the text comes with the value, so a format is a sequence of conversions.
-/

namespace AmlogicHal.Stdio

open List

/-! ## Lines -/

/-- Put a character in front of the first piece. -/
def glue (c : Char) : List (List Char) → List (List Char)
  | [] => [[c]]
  | l :: ls => (c :: l) :: ls

/-- The pieces of a text for a buffer of `room` characters, of which `left` are free for the first
piece. -/
def pieces (room : Nat) : Nat → List Char → List (List Char)
  | _, [] => []
  | left, c :: cs =>
    if c = '\n' ∨ left ≤ 1 then [c] :: pieces room room cs else glue c (pieces room (left - 1) cs)

/-- What the calls of `fgets` with a buffer of `size` bytes return. The last byte is for the
terminator. -/
def fgetsAll (size : Nat) (cs : List Char) : List (List Char) := pieces (size - 1) (size - 1) cs

def lines : List Char → List (List Char)
  | [] => []
  | c :: cs => if c = '\n' then [c] :: lines cs else glue c (lines cs)

theorem nil_of_lines_nil {cs : List Char} (h : lines cs = []) : cs = [] := by
  cases cs with
  | nil => rfl
  | cons c cs =>
    rw [lines] at h
    split at h
    · exact absurd h (cons_ne_nil _ _)
    · cases hcs : lines cs <;> simp [hcs, glue] at h

theorem line_ne_nil {cs l : List Char} (h : l ∈ lines cs) : l ≠ [] := by
  induction cs generalizing l with
  | nil => exact absurd h not_mem_nil
  | cons c cs ih =>
    rw [lines] at h
    split at h
    · cases mem_cons.mp h with
      | inl heq => simp [heq]
      | inr hrest => exact ih hrest
    · cases hcs : lines cs with
      | nil =>
        rw [hcs] at h
        simp [mem_singleton.mp h]
      | cons l' ls =>
        rw [hcs] at h ih
        cases mem_cons.mp h with
        | inl heq => simp [heq]
        | inr hrest => exact ih (mem_cons_of_mem _ hrest)

/-- The induction is over the text. The first line is cut at `left` because a part of it may stand
in the buffer already. -/
theorem pieces_eq_lines {room : Nat} (cs : List Char) : ∀ {left : Nat},
    (∀ l ∈ (lines cs).head?, l.length ≤ left) → (∀ l ∈ (lines cs).tail, l.length ≤ room) →
      pieces room left cs = lines cs := by
  induction cs with
  | nil => exact fun _ _ => rfl
  | cons c cs ih =>
    intro left hhead htail
    rw [lines] at hhead htail ⊢
    rw [pieces]
    by_cases hc : c = '\n'
    · rw [if_pos hc] at hhead htail ⊢
      rw [if_pos (.inl hc), ih (fun l hl => htail l (mem_of_mem_head? hl))
        fun l hl => htail l (mem_of_mem_tail hl)]
    · rw [if_neg hc] at hhead htail ⊢
      cases hcs : lines cs with
      | nil =>
        -- the text ends here, and it makes no difference whether the buffer is full
        rw [nil_of_lines_nil hcs]
        split
        · rfl
        · rfl
      | cons l ls =>
        rw [hcs] at hhead htail ih
        have hl : l ≠ [] := line_ne_nil (hcs ▸ mem_cons_self)
        have hlength : l.length + 1 ≤ left := hhead _ rfl
        have hleft : 1 < left :=
          Nat.lt_of_lt_of_le (Nat.succ_lt_succ (length_pos_iff.mpr hl)) hlength
        rw [if_neg (by simp [hc, hleft]), ih ?_ htail]
        intro l' hl'
        cases hl'
        exact Nat.le_sub_one_of_lt hlength

theorem fgetsAll_eq_lines {size : Nat} {cs : List Char} (h : ∀ l ∈ lines cs, l.length < size) :
    fgetsAll size cs = lines cs :=
  pieces_eq_lines cs (fun l hl => Nat.le_sub_one_of_lt (h l (mem_of_mem_head? hl)))
    fun l hl => Nat.le_sub_one_of_lt (h l (mem_of_mem_tail hl))

/-! ## Conversions -/

def isSpace (c : Char) : Bool := [' ', '\t', '\n', '\x0b', '\x0c', '\r'].elem c

/-- The value of a digit in a base up to 16. -/
def digit (base : Nat) (c : Char) : Option Nat :=
  let value :=
    if '0' ≤ c ∧ c ≤ '9' then c.toNat - '0'.toNat
    else if 'a' ≤ c ∧ c ≤ 'f' then c.toNat - 'a'.toNat + 10
    else if 'A' ≤ c ∧ c ≤ 'F' then c.toNat - 'A'.toNat + 10
    else base
  if value < base then some value else none

/-- The digits at the start of a text, after digits of the value `acc`. -/
def scanDigits (base : Nat) : Nat → List Char → Nat × List Char
  | acc, [] => (acc, [])
  | acc, c :: cs =>
    match digit base c with
    | some d => scanDigits base (acc * base + d) cs
    | none => (acc, c :: cs)

/-- At least one digit. -/
def scanNat (base : Nat) : List Char → Option (Nat × List Char)
  | [] => none
  | c :: cs => (digit base c).map fun d => scanDigits base d cs

/-- A number with an optional sign, after white space. -/
def scanSigned (number : List Char → Option (Nat × List Char)) (cs : List Char) :
    Option (Int × List Char) :=
  match cs.dropWhile isSpace with
  | '-' :: cs => (number cs).map fun r => (-(r.1 : Int), r.2)
  | '+' :: cs => (number cs).map fun r => ((r.1 : Int), r.2)
  | cs => (number cs).map fun r => ((r.1 : Int), r.2)

/-- `%d`. -/
def scanInt (cs : List Char) : Option (Int × List Char) := scanSigned (scanNat 10) cs

/-- Hexadecimal digits, with `0x` in front of them or without. -/
def scanHexNat : List Char → Option (Nat × List Char)
  | '0' :: 'x' :: c :: cs =>
    if (digit 16 c).isSome then scanNat 16 (c :: cs) else some (0, 'x' :: c :: cs)
  | '0' :: 'X' :: c :: cs =>
    if (digit 16 c).isSome then scanNat 16 (c :: cs) else some (0, 'X' :: c :: cs)
  | cs => scanNat 16 cs

/-- `%x`. -/
def scanHex (cs : List Char) : Option (Int × List Char) := scanSigned scanHexNat cs

end AmlogicHal.Stdio

import AmlogicHal.Lib.Memory

/-!
# Strings in memory

A string in memory are the characters up to the first zero. `strcpy` writes the characters of a text
and a zero behind them, wherever that is. What is read back from a range is the text, if the range
has room for the zero.
-/

namespace AmlogicHal

open List

/-- The zero that ends a string. -/
def nul : Char := Char.ofNat 0

namespace Memory

variable {m : Memory Char} {text : List Char} {start limit : Nat}

def strcpy (m : Memory Char) (start : Nat) (text : List Char) : Memory Char :=
  m.store start (text ++ [nul])

/-- The characters in front of the first zero of a range. -/
def cstring (m : Memory Char) (start limit : Nat) : List Char :=
  (m.slice start limit).takeWhile (· ≠ nul)

def Terminated (m : Memory Char) (start limit : Nat) : Prop := nul ∈ m.slice start limit

theorem takeWhile_text (hfree : nul ∉ text) (rest : List Char) :
    (text ++ nul :: rest).takeWhile (· ≠ nul) = text := by
  rw [takeWhile_append_of_pos]
  · simp
  · intro c hc
    simp only [ne_eq, decide_eq_true_eq]
    rintro rfl
    exact hfree hc

theorem Terminated.exists_text (h : m.Terminated start limit) :
    ∃ text rest, nul ∉ text ∧ m.slice start limit = text ++ nul :: rest := by
  obtain ⟨text, rest, hslice, hfree⟩ := eq_append_cons_of_mem h
  exact ⟨text, rest, hfree, hslice⟩

theorem Terminated.cstring_eq {limit' : Nat} (h : m.Terminated start limit) (hle : limit ≤ limit') :
    m.cstring start limit' = m.cstring start limit := by
  obtain ⟨k, rfl⟩ := Nat.exists_eq_add_of_le hle
  obtain ⟨text, rest, hfree, hslice⟩ := h.exists_text
  rw [cstring, cstring, ← slice_append, hslice, takeWhile_text hfree, append_assoc,
    cons_append, takeWhile_text hfree]

variable (m)

theorem slice_strcpy (start : Nat) (hlen : text.length < limit) :
    ∃ rest, (m.strcpy start text).slice start limit = text ++ nul :: rest := by
  obtain ⟨k, rfl⟩ := Nat.exists_eq_add_of_le hlen
  refine ⟨(m.strcpy start text).slice (start + (text.length + 1)) k, ?_⟩
  have hwritten : (m.strcpy start text).slice start (text.length + 1) = text ++ [nul] := by
    have hstored := slice_store m start (text ++ [nul])
    rwa [length_append, length_singleton] at hstored
  rw [← slice_append, hwritten, append_assoc]
  rfl

theorem cstring_strcpy (hfree : nul ∉ text) (hlen : text.length < limit) :
    (m.strcpy start text).cstring start limit = text := by
  obtain ⟨rest, hslice⟩ := slice_strcpy m start hlen
  rw [cstring, hslice, takeWhile_text hfree]

theorem terminated_strcpy (hlen : text.length < limit) :
    (m.strcpy start text).Terminated start limit := by
  obtain ⟨rest, hslice⟩ := slice_strcpy m start hlen
  rw [Terminated, hslice]
  exact mem_append_right _ mem_cons_self

theorem slice_strcpy_before (text : List Char) {s n : Nat} (h : s + n ≤ start) :
    (m.strcpy start text).slice s n = m.slice s n :=
  slice_store_before m _ h

end Memory

end AmlogicHal

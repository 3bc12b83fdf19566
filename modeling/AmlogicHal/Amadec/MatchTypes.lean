import AmlogicHal.Lib.CStrings
import AmlogicHal.Lib.Traced
import Mathlib.Data.List.Infix

/-!
# Looking up a type in a list of settings

`match_types` looks for a type among the tokens of a settings string, which are separated by commas.
It compares a copy of each token in an array of 64 bytes. A token that is empty, too long for the
array, or not followed by a comma is copied with everything behind it, and the search ends there.

* `matchLoop_token`, `matchLoop_rest`: what a turn of the loop does, and the last turn.
* `matchTypes_iff`: for which tokens it finds the type exactly if it is there and writes only to the
  array.
-/

namespace AmlogicHal.Amadec

open Traced List

/-! ## The model -/

/-- A write of so many characters from a position of `typestr` on. -/
structure TypestrWrite where
  start : Nat
  count : Nat
deriving DecidableEq

open TypestrWrite

def TypestrWrite.Inside (w : TypestrWrite) : Prop := w.start + w.count ≤ 64

instance (w : TypestrWrite) : Decidable w.Inside := inferInstanceAs (Decidable (_ ≤ _))

def writeTypestr (start : Nat) (text : List Char) : Traced TypestrWrite (Memory Char) Unit := do
  emit ⟨start, text.length⟩
  modify fun typestr => typestr.store start text

variable (psets : List Char)

/-- The branch that copies the first token: `memcpy`, and the zero behind it. -/
def copyToken (psetlen : Nat) : Traced TypestrWrite (Memory Char) Unit := do
  writeTypestr 0 (psets.take psetlen)
  writeTypestr psetlen [nul]

/-- The other branch: `strcpy` of everything that is left. -/
def copySettings : Traced TypestrWrite (Memory Char) Unit :=
  writeTypestr 0 (psets ++ [nul])

/-- The condition that decides between the branches: there is a comma, behind a token that is not
empty and has room in the array. -/
def tokenLength : Option Nat :=
  (psets.idxOf? ',').filter fun psetlen => 0 < psetlen ∧ psetlen < 64

/-- `strlen(typestr) > 0`, the lengths are equal, and `strstr` finds one text in the other. -/
def sameType (filetypestr typestr : List Char) : Bool :=
  0 < typestr.length ∧ typestr.length = filetypestr.length ∧ typestr <:+: filetypestr

/-- `typestr` as a string. The zero that ends it is one of those that were just written. -/
def typestrOf (typestr : Memory Char) : List Char :=
  typestr.cstring 0 (psets.length + 1)

/-- The loop of `match_types`, when it is at `psets`. -/
def matchLoop (filetypestr psets : List Char) : Traced TypestrWrite (Memory Char) Int :=
  if _hne : psets = [] then pure 0
  else
    match tokenLength psets with
    | some psetlen => do
      copyToken psets psetlen
      read fun typestr =>
        if sameType filetypestr (typestrOf psets typestr) then pure 1
        else matchLoop filetypestr (psets.drop (psetlen + 1))
    | none => do
      copySettings psets
      read fun typestr => if sameType filetypestr (typestrOf psets typestr) then pure 1 else pure 0
termination_by psets.length
decreasing_by
  have hpos := length_pos_of_ne_nil _hne
  simp only [length_drop]
  omega

/-- `match_types`; `none` is `NULL`. -/
def matchTypes (filetypestr typesetting : Option (List Char)) :
    Traced TypestrWrite (Memory Char) Int :=
  match filetypestr, typesetting with
  | some filetypestr, some typesetting => matchLoop filetypestr typesetting
  | _, _ => pure 0

/-! ## One turn of the loop -/

variable {filetypestr psets token rest : List Char} {m : Memory Char}

theorem sameType_iff (hne : filetypestr ≠ []) {typestr : List Char} :
    sameType filetypestr typestr = true ↔ typestr = filetypestr := by
  simp only [sameType, decide_eq_true_eq]
  constructor
  · rintro ⟨-, hlength, hinfix⟩
    exact hinfix.eq_of_length hlength
  · rintro rfl
    exact ⟨length_pos_of_ne_nil hne, rfl, infix_rfl⟩

theorem copyToken_run (psets : List Char) {psetlen : Nat} (hlen : psetlen ≤ psets.length) :
    (copyToken psets psetlen).run m =
      ⟨(), m.strcpy 0 (psets.take psetlen), [⟨0, psetlen⟩, ⟨psetlen, 1⟩]⟩ := by
  have htake : (psets.take psetlen).length = psetlen := length_take_of_le hlen
  have hstore := Memory.store_append m 0 (psets.take psetlen) [nul]
  rw [Nat.zero_add, htake] at hstore
  simp [copyToken, writeTypestr, htake, hstore, Memory.strcpy]

theorem copySettings_run :
    (copySettings psets).run m = ⟨(), m.strcpy 0 psets, [⟨0, psets.length + 1⟩]⟩ := by
  simp [copySettings, writeTypestr, Memory.strcpy]

theorem typestrOf_strcpy (hfree : nul ∉ token) (hlen : token.length ≤ psets.length) :
    typestrOf psets (m.strcpy 0 token) = token :=
  Memory.cstring_strcpy m hfree (Nat.lt_succ_of_le hlen)

theorem inside_text (n : Nat) : Inside ⟨0, n + 1⟩ ↔ n < 64 := by
  rw [Inside, Nat.zero_add, Nat.succ_le_iff]

theorem inside_token {n : Nat} (hn : n < 64) : Inside ⟨0, n⟩ ∧ Inside ⟨n, 1⟩ := by
  simp only [Inside]
  omega

theorem tokenLength_of_no_comma (hcomma : ',' ∉ psets) : tokenLength psets = none := by
  rw [tokenLength, idxOf?_eq_none_iff.mpr hcomma]
  rfl

theorem tokenLength_append (hcomma : ',' ∉ token) (rest : List Char) :
    tokenLength (token ++ ',' :: rest) =
      if 0 < token.length ∧ token.length < 64 then some token.length else none := by
  have hidx : (token ++ ',' :: rest).idxOf? ',' = some token.length := by
    rw [idxOf?_eq_some_iff]
    refine ⟨by simp, by simp, fun j hj heq => hcomma ?_⟩
    rw [getElem_append_left hj] at heq
    exact heq ▸ getElem_mem hj
  rw [tokenLength, hidx, Option.filter_some]
  simp

theorem matchLoop_token (hne : filetypestr ≠ []) (hfree : nul ∉ token) (hcomma : ',' ∉ token)
    (hpos : 0 < token.length) (hlt : token.length < 64) (rest : List Char) (m : Memory Char) :
    (matchLoop filetypestr (token ++ ',' :: rest)).run m =
      if token = filetypestr then ⟨1, m.strcpy 0 token, [⟨0, token.length⟩, ⟨token.length, 1⟩]⟩
      else
        let r := (matchLoop filetypestr rest).run (m.strcpy 0 token)
        ⟨r.val, r.st, [⟨0, token.length⟩, ⟨token.length, 1⟩] ++ r.log⟩ := by
  have hcopied : (copyToken (token ++ ',' :: rest) token.length).run m =
      ⟨(), m.strcpy 0 token, [⟨0, token.length⟩, ⟨token.length, 1⟩]⟩ := by
    rw [copyToken_run _ (by simp), take_left]
  have htypestr : typestrOf (token ++ ',' :: rest) (m.strcpy 0 token) = token :=
    typestrOf_strcpy hfree (by simp)
  rw [matchLoop, dif_neg (by simp), tokenLength_append hcomma, if_pos ⟨hpos, hlt⟩]
  simp only [run_bind, hcopied, run_read, htypestr, run_ite, sameType_iff hne]
  split <;> simp

theorem matchLoop_rest (hne : filetypestr ≠ []) (hfree : nul ∉ psets) (hpsets : psets ≠ [])
    (htoken : tokenLength psets = none) (m : Memory Char) :
    (matchLoop filetypestr psets).run m =
      ⟨if psets = filetypestr then 1 else 0, m.strcpy 0 psets, [⟨0, psets.length + 1⟩]⟩ := by
  have htypestr : typestrOf psets (m.strcpy 0 psets) = psets :=
    typestrOf_strcpy hfree (Nat.le_refl _)
  rw [matchLoop, dif_neg hpsets, htoken]
  simp only [run_bind, copySettings_run, run_read, htypestr, run_ite, sameType_iff hne]
  split <;> simp

theorem matchLoop_nil : (matchLoop filetypestr []).run m = ⟨0, m, []⟩ := by
  rw [matchLoop, dif_pos rfl]
  rfl

/-! ## The loop as a function of the tokens -/

/-- A token that is copied on its own if there is a comma behind it. -/
def TokenFits (token : List Char) : Prop := 0 < token.length ∧ token.length < 64

instance (token : List Char) : Decidable (TokenFits token) := inferInstanceAs (Decidable (_ ∧ _))

/-- The tokens behind a token that does not fit are not looked at: none of them is the type, and all
of them have room in the array together. The last token has room in it. -/
def Searchable (filetypestr : List Char) : List (List Char) → Prop
  | [] => True
  | token :: tokens =>
    if tokens = [] then token.length < 64
    else if TokenFits token then token = filetypestr ∨ Searchable filetypestr tokens
    else filetypestr ∉ token :: tokens ∧ ([','].intercalate (token :: tokens)).length < 64

instance : ∀ tokens : List (List Char), Decidable (Searchable filetypestr tokens)
  | [] => .isTrue trivial
  | token :: tokens =>
    have : Decidable (Searchable filetypestr tokens) := instDecidableSearchable tokens
    inferInstanceAs (Decidable (if tokens = [] then _ else if TokenFits token then _ else _))

/-- The string is one token, or it has a first token and a comma behind it. -/
theorem tokens_cases (psets : List Char) :
    (',' ∉ psets ∧ psets.splitOn ',' = [psets]) ∨
      ∃ token rest, ',' ∉ token ∧ psets = token ++ ',' :: rest ∧
        psets.splitOn ',' = token :: rest.splitOn ',' := by
  by_cases hcomma : ',' ∈ psets
  · obtain ⟨token, rest, rfl, hfree⟩ := eq_append_cons_of_mem hcomma
    exact .inr ⟨token, rest, hfree, rfl, splitOn_append_cons_self_of_not_mem hfree rest⟩
  · exact .inl ⟨hcomma, splitOn_eq_singleton hcomma⟩

/-- By induction on the tokens: one turn of the loop for each of them, up to the first one that does
not fit. -/
theorem matchLoop_iff (hne : filetypestr ≠ []) (hcomma : ',' ∉ filetypestr) (psets : List Char)
    (m : Memory Char) (hfree : nul ∉ psets) :
    ((((matchLoop filetypestr psets).run m).val = 1 ↔ filetypestr ∈ psets.splitOn ',') ∧
        (matchLoop filetypestr psets).All Inside m) ↔
      Searchable filetypestr (psets.splitOn ',') := by
  rcases tokens_cases psets with ⟨hlast, htokens⟩ | ⟨token, rest, htoken, rfl, htokens⟩
  · rw [htokens]
    by_cases hpsets : psets = []
    · subst hpsets
      simp [All, matchLoop_nil, Searchable, hne]
    · have hrun := matchLoop_rest hne hfree hpsets (tokenLength_of_no_comma hlast) m
      simp [All, hrun, Searchable, inside_text, eq_comm]
  · have hrest : rest.splitOn ',' ≠ [] := splitOn_ne_nil ',' rest
    rw [htokens]
    simp only [Searchable, if_neg hrest]
    by_cases hfits : TokenFits token
    · have hrun := matchLoop_token hne (by simp_all) htoken hfits.1 hfits.2 rest m
      have ih := matchLoop_iff hne hcomma rest (m.strcpy 0 token) (by simp_all)
      have hinside := inside_token hfits.2
      by_cases heq : token = filetypestr
      · subst heq
        rw [All, hrun, if_pos rfl]
        simp [hfits, hinside.1, hinside.2]
      · rw [All, hrun, if_neg heq]
        simp [hfits, heq, Ne.symm heq, hinside.1, hinside.2, ← ih, All]
    · have hrun :=
        matchLoop_rest hne hfree (by simp) ((tokenLength_append htoken rest).trans (if_neg hfits)) m
      have hdiffers : token ++ ',' :: rest ≠ filetypestr := by
        rintro rfl
        simp at hcomma
      have hwhole : [','].intercalate (token :: rest.splitOn ',') = token ++ ',' :: rest := by
        rw [← htokens, intercalate_splitOn]
      rw [hwhole]
      simp [All, hrun, hfits, hdiffers, inside_text]
termination_by psets.length

/-! ## The result -/

theorem matchTypes_iff (filetypestr typesetting : List Char) (m : Memory Char)
    (hne : filetypestr ≠ []) (hcomma : ',' ∉ filetypestr) (hfree : nul ∉ typesetting) :
    ((((matchTypes (some filetypestr) (some typesetting)).run m).val = 1 ↔
          filetypestr ∈ typesetting.splitOn ',') ∧
        (matchTypes (some filetypestr) (some typesetting)).All TypestrWrite.Inside m) ↔
      Searchable filetypestr (typesetting.splitOn ',') :=
  matchLoop_iff hne hcomma typesetting m hfree

theorem matchTypes_second_token :
    (((matchTypes (some "mp3".toList) (some "aac,mp3,".toList)).run fun _ => nul).val = 1 ↔
        "mp3".toList ∈ "aac,mp3,".toList.splitOn ',') ∧
      (matchTypes (some "mp3".toList) (some "aac,mp3,".toList)).All TypestrWrite.Inside
        fun _ => nul :=
  (matchTypes_iff _ _ _ (by decide) (by decide) (by decide)).mpr (by decide)

/-- Behind an empty token nothing is found, and a token of 64 characters is written over the end of
the array. -/
theorem matchTypes_missed :
    (((matchTypes (some "mp3".toList) (some ",mp3".toList)).run fun _ => nul).val ≠ 1 ∧
        "mp3".toList ∈ ",mp3".toList.splitOn ',') ∧
      ¬ (matchTypes (some "mp3".toList) (some (replicate 64 'a'))).All TypestrWrite.Inside
        fun _ => nul := by
  refine ⟨⟨?_, by decide⟩, ?_⟩
  · rw [matchTypes, matchLoop_rest (by decide) (by decide) (by decide) (by decide)]
    decide
  · rw [matchTypes, All, matchLoop_rest (by decide) (by decide) (by decide) (by decide)]
    decide

end AmlogicHal.Amadec

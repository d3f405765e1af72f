import Mathlib.Data.List.Basic

/-!
# String literals of JSON

A literal is written with a backslash before quotes, backslashes and control characters.
Reading it back up to the closing quote gives the string and what follows it, whatever
the string contains.
-/

namespace JsonString

def quote : Char := Char.ofNat 34

def backslash : Char := Char.ofNat 92

/-! ## Writing -/

/-- The characters with an escape of their own, and the letter it ends in. -/
def letters : List (Char × Char) :=
  [(quote, quote), (backslash, backslash), (Char.ofNat 8, 'b'), (Char.ofNat 9, 't'),
    (Char.ofNat 10, 'n'), (Char.ofNat 12, 'f'), (Char.ofNat 13, 'r')]

def escapeChar (c : Char) : List Char :=
  match letters.lookup c with
  | some letter => [backslash, letter]
  | none =>
      if c.toNat < 32 then
        [backslash, 'u', '0', '0', Nat.digitChar (c.toNat / 16), Nat.digitChar (c.toNat % 16)]
      else [c]

def literal (cs : List Char) : List Char := quote :: (cs.flatMap escapeChar ++ [quote])

/-! ## Reading -/

/-- The value of a lower-case hexadecimal digit. -/
def hexValue (c : Char) : Option Nat :=
  if 48 ≤ c.toNat ∧ c.toNat ≤ 57 then some (c.toNat - 48)
  else if 97 ≤ c.toNat ∧ c.toNat ≤ 102 then some (c.toNat - 87)
  else none

/-- The character whose escape ends in the letter. -/
def ofLetter (letter : Char) : Option Char :=
  (letters.find? fun e => e.2 == letter).map Prod.fst

/-- Reads a literal whose opening quote has been read, and returns what follows it. -/
def readBody : List Char → Option (List Char × List Char)
  | [] => none
  | c :: cs =>
      if c = quote then some ([], cs)
      else if c = backslash then
        match cs with
        | 'u' :: '0' :: '0' :: hi :: lo :: rest => do
            let h ← hexValue hi
            let l ← hexValue lo
            let (tail, rest) ← readBody rest
            pure (Char.ofNat (16 * h + l) :: tail, rest)
        | letter :: rest => do
            let c ← ofLetter letter
            let (tail, rest) ← readBody rest
            pure (c :: tail, rest)
        | [] => none
      else do
        let (tail, rest) ← readBody cs
        pure (c :: tail, rest)

/-! ## Round trip -/

theorem hexValue_digitChar {n : Nat} (h : n < 16) : hexValue (Nat.digitChar n) = some n := by
  have hall : ∀ m < 16, hexValue (Nat.digitChar m) = some m := by decide
  exact hall n h

/-- A letter stands for one character, and none of them is a `u`. -/
theorem ofLetter_of_lookup {c letter : Char} (h : letters.lookup c = some letter) :
    ofLetter letter = some c ∧ letter ≠ 'u' := by
  have hmem : (c, letter) ∈ letters := by
    rcases List.lookup_eq_some_iff.1 h with ⟨pre, post, hsplit, -⟩
    rw [hsplit]
    exact List.mem_append_right _ List.mem_cons_self
  have hall : ∀ e ∈ letters, ofLetter e.2 = some e.1 ∧ e.2 ≠ 'u' := by decide
  exact hall _ hmem

/-- Only escaped characters need an escape. -/
theorem ne_of_lookup_none {c : Char} (h : letters.lookup c = none) : c ≠ quote ∧ c ≠ backslash := by
  constructor
  · rintro rfl
    revert h
    decide
  · rintro rfl
    revert h
    decide

theorem backslash_ne_quote : backslash ≠ quote := by decide

/-- What is read goes before the rest of the body. -/
def prepend (c : Char) (r : List Char × List Char) : List Char × List Char := (c :: r.1, r.2)

theorem readBody_quote (rest : List Char) : readBody (quote :: rest) = some ([], rest) := by
  rw [readBody.eq_def]
  simp

theorem readBody_plain {c : Char} (hquote : c ≠ quote) (hbackslash : c ≠ backslash)
    (rest : List Char) : readBody (c :: rest) = (readBody rest).map (prepend c) := by
  rw [readBody.eq_def]
  simp only [if_neg hquote, if_neg hbackslash]
  cases readBody rest <;> rfl

theorem readBody_letter {c letter : Char} (hletter : ofLetter letter = some c) (hu : letter ≠ 'u')
    (rest : List Char) :
    readBody (backslash :: letter :: rest) = (readBody rest).map (prepend c) := by
  rw [readBody.eq_def]
  simp only [if_neg backslash_ne_quote, if_true]
  split
  · rename_i h
    exact absurd (List.cons.inj h).1 hu
  · rename_i h
    obtain ⟨rfl, rfl⟩ := List.cons.inj h
    rw [hletter]
    cases readBody rest <;> rfl
  · rename_i h
    cases h

theorem readBody_control {n : Nat} (hn : n < 256) (rest : List Char) :
    readBody (backslash :: 'u' :: '0' :: '0' :: Nat.digitChar (n / 16) :: Nat.digitChar (n % 16) ::
      rest) = (readBody rest).map (prepend (Char.ofNat n)) := by
  have hhi : hexValue (Nat.digitChar (n / 16)) = some (n / 16) := hexValue_digitChar (by omega)
  have hlo : hexValue (Nat.digitChar (n % 16)) = some (n % 16) := hexValue_digitChar (by omega)
  have hsum : 16 * (n / 16) + n % 16 = n := by omega
  rw [readBody.eq_def]
  simp only [if_neg backslash_ne_quote, if_true, hhi, hlo, Option.bind_eq_bind, Option.bind_some,
    hsum]
  cases readBody rest <;> rfl

theorem readBody_escapeChar (c : Char) (rest : List Char) :
    readBody (escapeChar c ++ rest) = (readBody rest).map (prepend c) := by
  unfold escapeChar
  cases hlookup : letters.lookup c with
  | some letter =>
      rcases ofLetter_of_lookup hlookup with ⟨hletter, hu⟩
      exact readBody_letter hletter hu rest
  | none =>
      rcases ne_of_lookup_none hlookup with ⟨hquote, hbackslash⟩
      by_cases hcontrol : c.toNat < 32
      · have hread := readBody_control (n := c.toNat) (by omega) rest
        rw [Char.ofNat_toNat] at hread
        simpa [hcontrol] using hread
      · simpa [hcontrol] using readBody_plain hquote hbackslash rest

/-- Reading undoes writing, whatever follows. -/
theorem readBody_append (cs rest : List Char) :
    readBody (cs.flatMap escapeChar ++ quote :: rest) = some (cs, rest) := by
  induction cs with
  | nil => exact readBody_quote rest
  | cons c cs ih =>
      rw [List.flatMap_cons, List.append_assoc, readBody_escapeChar, ih]
      rfl

end JsonString

import NearKms.Host
import NearKms.Lib.Decimal
import NearKms.Lib.JsonString

/-!
# JSON values as text

What `to_string` makes of a value, and a reader for it. Arguments of cross-contract
calls and event logs travel as text; whoever reads the text gets the value back,
whatever strings it contains.
-/

namespace NearKms

namespace Json

open JsonString (quote literal readBody)

/-! ## Writing -/

def openBrace : Char := Char.ofNat 123

def closeBrace : Char := Char.ofNat 125

mutual

/-- The compact text of a value. -/
def chars : Json → List Char
  | .null => "null".toList
  | .bool true => "true".toList
  | .bool false => "false".toList
  | .number literal => literal.toList
  | .string s => JsonString.literal s.toList
  | .array [] => ['[', ']']
  | .array (item :: items) => '[' :: (item.chars ++ itemsChars items)
  | .object [] => [openBrace, closeBrace]
  | .object (member :: members) => openBrace :: (memberChars member ++ membersChars members)

/-- The items after the first one, up to the closing bracket. -/
def itemsChars : List Json → List Char
  | [] => [']']
  | item :: items => ',' :: (item.chars ++ itemsChars items)

def memberChars : String × Json → List Char
  | (key, value) => JsonString.literal key.toList ++ ':' :: value.chars

/-- The members after the first one, up to the closing brace. -/
def membersChars : List (String × Json) → List Char
  | [] => [closeBrace]
  | member :: members => ',' :: (memberChars member ++ membersChars members)

end

/-- `Value::to_string`. -/
def text (j : Json) : String := String.ofList j.chars

/-! ## Reading -/

def isNumberChar (c : Char) : Bool := c.isDigit || c == '-' || c == '+' || c == '.' || c == 'e'

/-- The words of the grammar. -/
def readWord (cs : List Char) : Option (Json × List Char) :=
  if "null".toList <+: cs then some (.null, cs.drop 4)
  else if "true".toList <+: cs then some (.bool true, cs.drop 4)
  else if "false".toList <+: cs then some (.bool false, cs.drop 5)
  else none

mutual

/-- Reads a value and returns what follows it. -/
def readValue : Nat → List Char → Option (Json × List Char)
  | 0, _ => none
  | _ + 1, [] => none
  | fuel + 1, c :: cs =>
      if c = quote then (readBody cs).map fun r => (.string (String.ofList r.1), r.2)
      else if c = '[' then
        if cs.head? = some ']' then some (.array [], cs.tail)
        else do
          let (item, cs) ← readValue fuel cs
          let (items, cs) ← readItems fuel cs
          pure (.array (item :: items), cs)
      else if c = openBrace then
        if cs.head? = some closeBrace then some (.object [], cs.tail)
        else do
          let (member, cs) ← readMember fuel cs
          let (members, cs) ← readMembers fuel cs
          pure (.object (member :: members), cs)
      else if isNumberChar c then
        some (.number (String.ofList ((c :: cs).takeWhile isNumberChar)),
          (c :: cs).dropWhile isNumberChar)
      else readWord (c :: cs)

/-- The items after the first one. -/
def readItems : Nat → List Char → Option (List Json × List Char)
  | 0, _ => none
  | _ + 1, [] => none
  | fuel + 1, c :: cs =>
      if c = ']' then some ([], cs)
      else if c = ',' then do
        let (item, cs) ← readValue fuel cs
        let (items, cs) ← readItems fuel cs
        pure (item :: items, cs)
      else none

/-- A key, a colon and a value. -/
def readMember : Nat → List Char → Option ((String × Json) × List Char)
  | 0, _ => none
  | _ + 1, [] => none
  | fuel + 1, c :: cs =>
      if c = quote then do
        let (key, cs) ← readBody cs
        if cs.head? = some ':' then
          let (value, cs) ← readValue fuel cs.tail
          pure ((String.ofList key, value), cs)
        else none
      else none

/-- The members after the first one. -/
def readMembers : Nat → List Char → Option (List (String × Json) × List Char)
  | 0, _ => none
  | _ + 1, [] => none
  | fuel + 1, c :: cs =>
      if c = closeBrace then some ([], cs)
      else if c = ',' then do
        let (member, cs) ← readMember fuel cs
        let (members, cs) ← readMembers fuel cs
        pure (member :: members, cs)
      else none

end

/-- Reads a text that is one value and nothing else. -/
def ofText (s : String) : Option Json :=
  match readValue (s.toList.length + 1) s.toList with
  | some (j, []) => some j
  | _ => none

/-! ## Values with well-formed numbers -/

mutual

/-- Every number is written as one. -/
def WellFormed : Json → Prop
  | .number literal => literal.toList ≠ [] ∧ literal.toList.all isNumberChar = true
  | .array items => WellFormedItems items
  | .object members => WellFormedMembers members
  | _ => True

def WellFormedItems : List Json → Prop
  | [] => True
  | item :: items => item.WellFormed ∧ WellFormedItems items

def WellFormedMembers : List (String × Json) → Prop
  | [] => True
  | (_, value) :: members => value.WellFormed ∧ WellFormedMembers members

end

/-- A natural number below a bound, as the integer types are read. -/
def asNatural (bound : Nat) : Json → Option Nat
  | .number literal => Decimal.read bound literal
  | _ => none

theorem asNatural_number {bound n : Nat} (h : n < bound) :
    (Json.number (toString n)).asNatural bound = some n :=
  Decimal.read_repr h

/-- What follows a number does not continue it. -/
def Stops (rest : List Char) : Prop := ∀ c, rest.head? = some c → isNumberChar c = false

theorem stops_cons {c : Char} (h : isNumberChar c = false) (rest : List Char) :
    Stops (c :: rest) := by
  intro d hd
  rw [← Option.some.inj hd]
  exact h

theorem readValue_word {j : Json} (hj : j = .null ∨ ∃ b, j = .bool b) (fuel : Nat)
    (rest : List Char) : readValue (fuel + 1) (j.chars ++ rest) = some (j, rest) := by
  rcases hj with rfl | ⟨b, rfl⟩
  · rfl
  · cases b <;> rfl

theorem readValue_number {literal : String} (hne : literal.toList ≠ [])
    (hall : literal.toList.all isNumberChar = true) (fuel : Nat) {rest : List Char}
    (hrest : Stops rest) :
    readValue (fuel + 1) (literal.toList ++ rest) = some (.number literal, rest) := by
  have htake : (literal.toList ++ rest).takeWhile isNumberChar = literal.toList ∧
      (literal.toList ++ rest).dropWhile isNumberChar = rest := by
    have hpos : ∀ c ∈ literal.toList, isNumberChar c = true := List.all_eq_true.1 hall
    rw [List.takeWhile_append_of_pos hpos, List.dropWhile_append_of_pos hpos]
    cases rest with
    | nil => simp
    | cons c rest => simp [hrest c rfl]
  cases hlist : literal.toList with
  | nil => exact absurd hlist hne
  | cons c cs =>
      rw [hlist] at htake hall
      have hc : isNumberChar c = true := by
        rw [List.all_cons, Bool.and_eq_true] at hall
        exact hall.1
      have hquote : c ≠ quote := by
        rintro rfl
        revert hc
        decide
      have hbracket : c ≠ '[' := by
        rintro rfl
        revert hc
        decide
      have hbrace : c ≠ openBrace := by
        rintro rfl
        revert hc
        decide
      rw [List.cons_append] at htake ⊢
      rw [readValue, if_neg hquote, if_neg hbracket, if_neg hbrace, if_pos hc, htake.1, htake.2,
        ← hlist, String.ofList_toList]

theorem readValue_string (s : String) (fuel : Nat) (rest : List Char) :
    readValue (fuel + 1) (chars (.string s) ++ rest) = some (.string s, rest) := by
  have hread := JsonString.readBody_append s.toList rest
  simp only [chars, literal, List.cons_append, List.append_assoc, List.nil_append]
  rw [readValue, if_pos rfl, hread]
  simp

/-- A value does not begin like the end of an array. -/
theorem exists_chars_eq_cons {j : Json} (hj : j.WellFormed) :
    ∃ c cs, j.chars = c :: cs ∧ c ≠ ']' := by
  cases j with
  | null => exact ⟨_, _, rfl, by decide⟩
  | bool b => cases b <;> exact ⟨_, _, rfl, by decide⟩
  | number literal =>
      rw [WellFormed] at hj
      rw [chars]
      cases hlist : literal.toList with
      | nil => exact absurd hlist hj.1
      | cons c cs =>
          refine ⟨c, cs, rfl, ?_⟩
          rintro rfl
          rw [hlist, List.all_cons, Bool.and_eq_true] at hj
          have hnumber : isNumberChar ']' = true := hj.2.1
          revert hnumber
          decide
  | string s => exact ⟨_, _, rfl, by decide⟩
  | array items => cases items <;> exact ⟨_, _, rfl, by decide⟩
  | object members => cases members <;> exact ⟨_, _, rfl, by decide⟩

theorem readValue_array {fuel : Nat} {item : Json} {items : List Json} {cs rest : List Char}
    (hitem : item.WellFormed)
    (hread : readValue fuel (item.chars ++ cs) = some (item, cs))
    (hitems : readItems fuel cs = some (items, rest)) :
    readValue (fuel + 1) ('[' :: (item.chars ++ cs)) = some (.array (item :: items), rest) := by
  have hhead : (item.chars ++ cs).head? ≠ some ']' := by
    rcases exists_chars_eq_cons hitem with ⟨c, cs', hchars, hc⟩
    simpa [hchars] using hc
  have hquote : '[' ≠ quote := by decide
  rw [readValue, if_neg hquote, if_pos rfl, if_neg hhead, hread]
  simp [hitems]

theorem length_memberChars (key : String) (value : Json) :
    value.chars.length < (memberChars (key, value)).length := by
  simp only [memberChars, List.length_append, List.length_cons]
  omega

theorem readMember_of_value {fuel : Nat} {key : String} {value : Json} {rest : List Char}
    (hread : readValue fuel (value.chars ++ rest) = some (value, rest)) :
    readMember (fuel + 1) (memberChars (key, value) ++ rest) = some ((key, value), rest) := by
  have hkey := JsonString.readBody_append key.toList (':' :: (value.chars ++ rest))
  simp only [memberChars, literal, List.cons_append, List.append_assoc, List.nil_append]
  rw [readMember, if_pos rfl, hkey]
  simp only [Option.bind_eq_bind, Option.bind_some, List.head?_cons, List.tail_cons, if_true, hread,
    String.ofList_toList]
  rfl

theorem readValue_object {fuel : Nat} {member : String × Json} {members : List (String × Json)}
    {cs rest : List Char}
    (hread : readMember fuel (memberChars member ++ cs) = some (member, cs))
    (hmembers : readMembers fuel cs = some (members, rest)) :
    readValue (fuel + 1) (openBrace :: (memberChars member ++ cs)) =
      some (.object (member :: members), rest) := by
  have hhead : (memberChars member ++ cs).head? ≠ some closeBrace := by
    rcases member with ⟨key, value⟩
    simp only [memberChars, literal, List.cons_append, List.head?_cons]
    decide
  have hquote : openBrace ≠ quote := by decide
  have hbracket : openBrace ≠ '[' := by decide
  rw [readValue, if_neg hquote, if_neg hbracket, if_pos rfl, if_neg hhead, hread]
  simp [hmembers]

theorem readItems_cons {fuel : Nat} {item : Json} {items : List Json} {cs rest : List Char}
    (hread : readValue fuel (item.chars ++ cs) = some (item, cs))
    (hitems : readItems fuel cs = some (items, rest)) :
    readItems (fuel + 1) (',' :: (item.chars ++ cs)) = some (item :: items, rest) := by
  have hbracket : ',' ≠ ']' := by decide
  rw [readItems, if_neg hbracket, if_pos rfl, hread]
  simp [hitems]

theorem readMembers_cons {fuel : Nat} {member : String × Json} {members : List (String × Json)}
    {cs rest : List Char}
    (hread : readMember fuel (memberChars member ++ cs) = some (member, cs))
    (hmembers : readMembers fuel cs = some (members, rest)) :
    readMembers (fuel + 1) (',' :: (memberChars member ++ cs)) =
      some (member :: members, rest) := by
  have hbrace : ',' ≠ closeBrace := by decide
  rw [readMembers, if_neg hbrace, if_pos rfl, hread]
  simp [hmembers]

/-- What follows an item or a member does not continue a number. -/
theorem stops_itemsChars (items : List Json) (rest : List Char) :
    Stops (itemsChars items ++ rest) := by
  cases items <;> exact stops_cons (by decide) _

theorem stops_membersChars (members : List (String × Json)) (rest : List Char) :
    Stops (membersChars members ++ rest) := by
  cases members <;> exact stops_cons (by decide) _

mutual

/-- Reading undoes writing, with as much fuel as the text is long. -/
theorem readValue_chars : ∀ (j : Json) (fuel : Nat) (rest : List Char), j.WellFormed →
    Stops rest → j.chars.length ≤ fuel → readValue fuel (j.chars ++ rest) = some (j, rest)
  | j, 0, rest, hj, _, hfuel => by
      rcases exists_chars_eq_cons hj with ⟨c, cs, hchars, -⟩
      rw [hchars] at hfuel
      simp at hfuel
  | .null, fuel + 1, rest, _, _, _ => readValue_word (Or.inl rfl) fuel rest
  | .bool b, fuel + 1, rest, _, _, _ => readValue_word (Or.inr ⟨b, rfl⟩) fuel rest
  | .number literal, fuel + 1, rest, hj, hrest, _ => by
      rw [WellFormed] at hj
      rw [chars]
      exact readValue_number hj.1 hj.2 fuel hrest
  | .string s, fuel + 1, rest, _, _, _ => readValue_string s fuel rest
  | .array [], fuel + 1, rest, _, _, _ => rfl
  | .array (item :: items), fuel + 1, rest, hj, _, hfuel => by
      rw [WellFormed, WellFormedItems] at hj
      rw [chars, List.length_cons, List.length_append] at hfuel
      rw [chars, List.cons_append, List.append_assoc]
      exact readValue_array hj.1
        (readValue_chars item fuel _ hj.1 (stops_itemsChars items rest) (by omega))
        (readItems_itemsChars items fuel rest hj.2 (by omega))
  | .object [], fuel + 1, rest, _, _, _ => rfl
  | .object ((key, value) :: members), fuel + 1, rest, hj, _, hfuel => by
      rw [WellFormed, WellFormedMembers] at hj
      rw [chars, List.length_cons, List.length_append] at hfuel
      rw [chars, List.cons_append, List.append_assoc]
      have hlength : value.chars.length < fuel := by
        have hmember := length_memberChars key value
        omega
      cases fuel with
      | zero => omega
      | succ fuel =>
          exact readValue_object
            (readMember_of_value
              (readValue_chars value fuel _ hj.1 (stops_membersChars members rest) (by omega)))
            (readMembers_membersChars members (fuel + 1) rest hj.2 (by omega))

theorem readItems_itemsChars : ∀ (items : List Json) (fuel : Nat) (rest : List Char),
    WellFormedItems items → (itemsChars items).length ≤ fuel →
      readItems fuel (itemsChars items ++ rest) = some (items, rest)
  | [], 0, rest, _, hfuel => by simp [itemsChars] at hfuel
  | [], fuel + 1, rest, _, _ => rfl
  | item :: items, 0, rest, _, hfuel => by simp [itemsChars] at hfuel
  | item :: items, fuel + 1, rest, hitems, hfuel => by
      rw [WellFormedItems] at hitems
      rw [itemsChars, List.length_cons, List.length_append] at hfuel
      rw [itemsChars, List.cons_append, List.append_assoc]
      exact readItems_cons
        (readValue_chars item fuel _ hitems.1 (stops_itemsChars items rest) (by omega))
        (readItems_itemsChars items fuel rest hitems.2 (by omega))

theorem readMembers_membersChars : ∀ (members : List (String × Json)) (fuel : Nat)
    (rest : List Char), WellFormedMembers members → (membersChars members).length ≤ fuel →
      readMembers fuel (membersChars members ++ rest) = some (members, rest)
  | [], 0, rest, _, hfuel => by simp [membersChars] at hfuel
  | [], fuel + 1, rest, _, _ => rfl
  | (key, value) :: members, 0, rest, _, hfuel => by simp [membersChars] at hfuel
  | (key, value) :: members, fuel + 1, rest, hmembers, hfuel => by
      rw [WellFormedMembers] at hmembers
      rw [membersChars, List.length_cons, List.length_append] at hfuel
      rw [membersChars, List.cons_append, List.append_assoc]
      have hlength : value.chars.length < fuel := by
        have hmember := length_memberChars key value
        omega
      cases fuel with
      | zero => omega
      | succ fuel =>
          exact readMembers_cons
            (readMember_of_value
              (readValue_chars value fuel _ hmembers.1 (stops_membersChars members rest)
                (by omega)))
            (readMembers_membersChars members (fuel + 1) rest hmembers.2 (by omega))

end

end Json

end NearKms

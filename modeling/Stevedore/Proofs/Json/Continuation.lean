import Stevedore.Json.Reader

/-! What is read from a text is read from it wherever a separator, a closing bracket or white space
follows, and more room changes nothing. -/
namespace Stevedore.Json
open Decimal Text

/-- What may follow a value. -/
def Ends (tail : List Char) : Prop :=
  ∀ c ∈ tail.head?, isSpace c ∨ c = ',' ∨ c = ']' ∨ c = '\x7d'

theorem ends_nil : Ends [] := by simp [Ends]

theorem ends_cons {c : Char} {tail : List Char}
    (stop : isSpace c ∨ c = ',' ∨ c = ']' ∨ c = '\x7d') : Ends (c :: tail) := by
  simpa [Ends] using stop

theorem not_number_of_ends {c : Char} {tail : List Char} (ends : Ends (c :: tail)) :
    c.isDigit = false ∧ c ≠ '.' ∧ c ≠ 'e' ∧ c ≠ 'E' := by
  have stop : isSpace c ∨ c = ',' ∨ c = ']' ∨ c = '\x7d' := ends c rfl
  simp only [isSpace, Bool.or_eq_true, decide_eq_true_eq] at stop
  rcases stop with ((((rfl | rfl) | rfl) | rfl) | rfl | rfl | rfl) <;> decide

theorem takeWhile_append_of_stop {p : Char → Bool} {tail : List Char} (cs : List Char)
    (stop : ∀ c ∈ tail.head?, p c = false) : (cs ++ tail).takeWhile p = cs.takeWhile p := by
  induction cs with
  | nil =>
    cases tail with
    | nil => rfl
    | cons c tail => simp [stop c rfl]
  | cons c cs ih => simp only [List.cons_append, List.takeWhile_cons, ih]

theorem dropWhile_append_of_stop {p : Char → Bool} {tail : List Char} (cs : List Char)
    (stop : ∀ c ∈ tail.head?, p c = false) : (cs ++ tail).dropWhile p = cs.dropWhile p ++ tail := by
  induction cs with
  | nil =>
    cases tail with
    | nil => rfl
    | cons c tail => simp [stop c rfl]
  | cons c cs ih =>
    simp only [List.cons_append, List.dropWhile_cons]
    split
    · exact ih
    · rfl

theorem no_digit_of_ends {tail : List Char} (ends : Ends tail) :
    ∀ c ∈ tail.head?, c.isDigit = false := by
  intro c first
  cases tail with
  | nil => simp at first
  | cons d tail =>
    obtain rfl : d = c := by simpa using first
    exact (not_number_of_ends ends).1

section Space

theorem skipSpace_append {cs rest : List Char} {c : Char} (tail : List Char)
    (found : skipSpace cs = c :: rest) : skipSpace (cs ++ tail) = c :: (rest ++ tail) := by
  induction cs with
  | nil => simp [skipSpace] at found
  | cons d cs ih =>
    simp only [skipSpace, List.cons_append, List.dropWhile_cons] at found ih ⊢
    split at found
    · rename_i space
      rw [if_pos space]
      exact ih found
    · rename_i solid
      obtain ⟨rfl, rfl⟩ := List.cons.inj found
      rw [if_neg solid]

theorem skipSpace_of_spaces {gap : List Char} (cs : List Char) (spaces : ∀ c ∈ gap, isSpace c) :
    skipSpace (gap ++ cs) = skipSpace cs := by
  induction gap with
  | nil => rfl
  | cons c gap ih =>
    have first : isSpace c = true := spaces c (by simp)
    have others := ih fun d member => spaces d (by simp [member])
    simpa [skipSpace, first] using others

theorem skipSpace_cons {c : Char} (cs : List Char) (solid : isSpace c = false) :
    skipSpace (c :: cs) = c :: cs := by
  simp [skipSpace, solid]

theorem skipSpace_skipSpace (cs : List Char) : skipSpace (skipSpace cs) = skipSpace cs := by
  induction cs with
  | nil => rfl
  | cons c cs ih =>
    cases space : isSpace c with
    | true => simpa [skipSpace, space] using ih
    | false => rw [skipSpace_cons cs space, skipSpace_cons cs space]

end Space

section Text

theorem readUnicode_append {cs rest : List Char} {c : Char} (tail : List Char)
    (ok : readUnicode cs = some (c, rest)) : readUnicode (cs ++ tail) = some (c, rest ++ tail) := by
  unfold readUnicode at ok
  split at ok
  · rw [List.cons_append, List.cons_append, List.cons_append, List.cons_append, readUnicode]
    split at ok
    · contradiction
    · split at ok
      · rename_i high
        rw [if_pos high]
        split at ok
        · simp only [List.cons_append]
          simp only [Option.bind_eq_some_iff, Option.map_eq_some_iff, Prod.mk.injEq] at ok
          obtain ⟨low, lowFound, joined, joinedFound, rfl, rfl⟩ := ok
          simp [lowFound, joinedFound]
        · contradiction
      · rename_i notHigh
        rw [if_neg notHigh]
        split at ok
        · contradiction
        · rename_i notLow
          rw [if_neg notLow]
          simp only [Option.some.injEq, Prod.mk.injEq] at ok
          obtain ⟨rfl, rfl⟩ := ok
          rfl
  · contradiction

theorem readText_plain {c : Char} (fuel : Nat) (acc rest : List Char) (noQuote : c ≠ '"')
    (noEscape : c ≠ '\\') (printed : 0x20 ≤ c.toNat) :
    readText (fuel + 1) acc (c :: rest) = readText fuel (c :: acc) rest := by
  rw [readText, if_neg (by omega)]
  · exact noQuote
  · exact fun _ slash => absurd slash noEscape
  · exact fun slash => absurd slash noEscape
  · exact fun _ _ slash => absurd slash noEscape

theorem readText_escape {c d : Char} (fuel : Nat) (acc rest : List Char) (notUnicode : c ≠ 'u')
    (found : escapeOf? c = some d) :
    readText (fuel + 1) acc ('\\' :: c :: rest) = readText fuel (d :: acc) rest := by
  rw [readText]
  · rw [found]
  · exact notUnicode

theorem readText_append {fuel fuel' : Nat} {acc cs rest : List Char} {s : String}
    (tail : List Char) (ok : readText fuel acc cs = some (s, rest)) (more : fuel ≤ fuel') :
    readText fuel' acc (cs ++ tail) = some (s, rest ++ tail) := by
  fun_induction readText fuel acc cs generalizing fuel' with
  | case1 | case2 | case4 | case6 | case7 | case9 => contradiction
  | case3 fuel acc after =>
    obtain ⟨fuel', rfl⟩ := Nat.exists_eq_add_of_lt more
    simp only [Option.some.injEq, Prod.mk.injEq] at ok
    obtain ⟨rfl, rfl⟩ := ok
    simp [readText]
  | case5 fuel acc after c left found ih =>
    obtain ⟨more', rfl⟩ := Nat.exists_eq_add_of_lt more
    simp only [List.cons_append, readText, readUnicode_append tail found]
    exact ih ok (by omega)
  | case8 fuel acc c after notUnicode d found ih =>
    obtain ⟨more', rfl⟩ := Nat.exists_eq_add_of_lt more
    rw [List.cons_append, List.cons_append, readText_escape _ _ _ notUnicode found]
    exact ih ok (by omega)
  | case10 fuel acc c after noQuote notUnicode notLast noEscape printed ih =>
    obtain ⟨more', rfl⟩ := Nat.exists_eq_add_of_lt more
    have plain : c ≠ '\\' := by
      intro slash
      cases after with
      | nil => exact notLast slash rfl
      | cons d after => exact noEscape d after slash rfl
    rw [List.cons_append, readText_plain _ _ _ noQuote plain (by omega)]
    exact ih ok (by omega)

end Text

section Number

theorem readFraction_append {cs rest tail : List Char} {fraction : Option (List Char)}
    (ok : readFraction cs = some (fraction, rest)) (ends : Ends tail) :
    readFraction (cs ++ tail) = some (fraction, rest ++ tail) := by
  unfold readFraction at ok
  split at ok
  · rename_i digits
    simp only [List.cons_append, readFraction, takeWhile_append_of_stop digits (no_digit_of_ends ends),
      dropWhile_append_of_stop digits (no_digit_of_ends ends)] at ok ⊢
    split at ok
    · contradiction
    · rename_i found
      simp only [Option.some.injEq, Prod.mk.injEq] at ok
      obtain ⟨rfl, rfl⟩ := ok
      rw [if_neg found]
  · rename_i noPoint
    simp only [Option.some.injEq, Prod.mk.injEq] at ok
    obtain ⟨rfl, rfl⟩ := ok
    rw [readFraction.eq_def]
    split
    · rename_i same
      cases cs with
      | nil =>
        rw [List.nil_append] at same
        exact absurd rfl (not_number_of_ends (same ▸ ends)).2.1
      | cons c cs =>
        obtain ⟨rfl, -⟩ := List.cons.inj same
        exact absurd rfl (noPoint cs)
    · rfl

theorem splitSign_append {cs : List Char} (tail : List Char) (some : cs ≠ []) :
    splitSign (cs ++ tail) = ((splitSign cs).1, (splitSign cs).2 ++ tail) := by
  obtain ⟨c, cs, rfl⟩ := List.exists_cons_of_ne_nil some
  by_cases minus : c = '-'
  · subst minus
    rfl
  · by_cases plus : c = '+'
    · subst plus
      rfl
    · simp [splitSign, minus, plus]

theorem readExponent_append {cs rest tail : List Char} {exponent : Option Int}
    (ok : readExponent cs = some (exponent, rest)) (ends : Ends tail) :
    readExponent (cs ++ tail) = some (exponent, rest ++ tail) := by
  cases cs with
  | nil =>
    simp only [readExponent, Option.some.injEq, Prod.mk.injEq] at ok
    obtain ⟨rfl, rfl⟩ := ok
    cases tail with
    | nil => rfl
    | cons c tail =>
      obtain ⟨-, -, notSmall, notLarge⟩ := not_number_of_ends ends
      simp [readExponent, notSmall, notLarge]
  | cons c cs =>
    simp only [List.cons_append, readExponent] at ok ⊢
    split at ok
    · rename_i letter
      rw [if_pos letter]
      have more : cs ≠ [] := by
        rintro rfl
        simp [splitSign] at ok
      rw [splitSign_append tail more]
      simp only [takeWhile_append_of_stop _ (no_digit_of_ends ends),
        dropWhile_append_of_stop _ (no_digit_of_ends ends)]
      split at ok
      · contradiction
      · rename_i found
        simp only [Option.some.injEq, Prod.mk.injEq] at ok
        obtain ⟨rfl, rfl⟩ := ok
        rw [if_neg found]
    · rename_i noLetter
      simp only [Option.some.injEq, Prod.mk.injEq] at ok
      obtain ⟨rfl, rfl⟩ := ok
      rw [if_neg noLetter, List.cons_append]

theorem readUnsigned_append {round : Rounding} {minus : Bool} {cs rest tail : List Char} {v : Json}
    (ok : readUnsigned round minus cs = some (v, rest)) (ends : Ends tail) :
    readUnsigned round minus (cs ++ tail) = some (v, rest ++ tail) := by
  simp only [readUnsigned, takeWhile_append_of_stop _ (no_digit_of_ends ends),
    dropWhile_append_of_stop _ (no_digit_of_ends ends)] at ok ⊢
  split at ok
  · contradiction
  · rename_i whole
    simp only [Option.bind_eq_some_iff, Option.map_eq_some_iff, Prod.mk.injEq] at ok
    obtain ⟨⟨fraction, left⟩, fractionOk, ⟨exponent, left'⟩, exponentOk, value, valueOk, rfl, rfl⟩ := ok
    rw [if_neg whole, readFraction_append fractionOk ends, Option.bind_some,
      readExponent_append exponentOk ends, Option.bind_some, valueOk, Option.map_some]

theorem readNumber_append {round : Rounding} {cs rest tail : List Char} {v : Json}
    (ok : readNumber round cs = some (v, rest)) (ends : Ends tail) :
    readNumber round (cs ++ tail) = some (v, rest ++ tail) := by
  unfold readNumber at ok
  split at ok
  · exact readUnsigned_append ok ends
  · rename_i noMinus
    cases cs with
    | nil => simp [readUnsigned] at ok
    | cons c cs =>
      rw [List.cons_append, readNumber]
      · exact readUnsigned_append ok ends
      · intro left same
        obtain ⟨rfl, -⟩ := List.cons.inj same
        exact noMinus cs rfl

theorem readUnsigned_first {round : Rounding} {minus : Bool} {cs rest : List Char} {v : Json}
    (ok : readUnsigned round minus cs = some (v, rest)) :
    ∃ c left, cs = c :: left ∧ c.isDigit = true := by
  cases cs with
  | nil => simp [readUnsigned] at ok
  | cons c cs =>
    refine ⟨c, cs, rfl, ?_⟩
    cases digit : c.isDigit with
    | true => rfl
    | false => simp [readUnsigned, digit] at ok

theorem readNumber_unsigned {round : Rounding} {cs : List Char} {found : Json × List Char}
    (ok : readUnsigned round false cs = some found) : readNumber round cs = some found := by
  obtain ⟨c, left, rfl, digit⟩ := readUnsigned_first ok
  rw [readNumber]
  · exact ok
  · intro rest same
    obtain ⟨rfl, -⟩ := List.cons.inj same
    contradiction

theorem readNumber_first {round : Rounding} {cs rest : List Char} {v : Json}
    (ok : readNumber round cs = some (v, rest)) :
    ∃ c left, cs = c :: left ∧ (c = '-' ∨ c.isDigit = true) := by
  unfold readNumber at ok
  split at ok
  · exact ⟨_, _, rfl, .inl rfl⟩
  · obtain ⟨c, left, same, digit⟩ := readUnsigned_first ok
    exact ⟨c, left, same, .inr digit⟩

end Number

section Value
variable {round : Rounding}

attribute [local simp] readValue readItems readFields

theorem readValue_skipSpace (fuel depth : Nat) (cs : List Char) :
    readValue round fuel depth (skipSpace cs) = readValue round fuel depth cs := by
  cases fuel with
  | zero => rw [readValue, readValue]
  | succ fuel => rw [readValue.eq_def, readValue.eq_def round _ _ cs]; simp only [skipSpace_skipSpace]

theorem readItems_nil (fuel depth : Nat) (acc : List Json) :
    readItems round fuel depth acc [] = none := by
  cases fuel with
  | zero => rw [readItems]
  | succ fuel =>
    cases fuel with
    | zero => simp
    | succ fuel => simp [skipSpace, readNumber, readUnsigned]

theorem readFields_nil (fuel depth : Nat) (acc : List (String × Json)) :
    readFields round fuel depth acc [] = none := by
  cases fuel with
  | zero => rw [readFields]
  | succ fuel => simp [skipSpace]

theorem readItems_skipSpace (fuel depth : Nat) (acc : List Json) (cs : List Char) :
    readItems round fuel depth acc (skipSpace cs) = readItems round fuel depth acc cs := by
  cases fuel with
  | zero => rw [readItems, readItems]
  | succ fuel => rw [readItems, readItems, readValue_skipSpace]

theorem readFields_skipSpace (fuel depth : Nat) (acc : List (String × Json)) (cs : List Char) :
    readFields round fuel depth acc (skipSpace cs) = readFields round fuel depth acc cs := by
  cases fuel with
  | zero => rw [readFields, readFields]
  | succ fuel =>
    rw [readFields.eq_def, readFields.eq_def round _ _ _ cs]; simp only [skipSpace_skipSpace]

theorem readValue_number {cs rest : List Char} {c : Char} (fuel depth : Nat)
    (first : skipSpace cs = c :: rest) (number : c = '-' ∨ c.isDigit = true) :
    readValue round (fuel + 1) depth cs = readNumber round (c :: rest) := by
  have other : ∀ d : Char, d ≠ '-' → d.isDigit = false → c ≠ d := by
    rintro d noSign noDigit rfl
    simp [noSign, noDigit] at number
  rw [readValue.eq_def]
  simp only [first]
  split
  case h_7 => rfl
  all_goals
    rename_i same
    exact absurd (List.cons.inj same).1 (other _ (by decide) (by decide))

theorem readValue_list {cs inside : List Char} {depth : Nat} (fuel : Nat)
    (found : skipSpace cs = '[' :: inside) (room : depth ≠ 0)
    (open_ : ∀ after, skipSpace inside ≠ ']' :: after) :
    readValue round (fuel + 1) depth cs =
      (readItems round fuel (depth - 1) [] inside).map fun (items, rest) => (.list items, rest) := by
  rw [readValue, found]
  simp only [room, if_false]
  rw [readItems_skipSpace]

theorem readValue_record {cs inside : List Char} {depth : Nat} (fuel : Nat)
    (found : skipSpace cs = '\x7b' :: inside) (room : depth ≠ 0)
    (open_ : ∀ after, skipSpace inside ≠ '\x7d' :: after) :
    readValue round (fuel + 1) depth cs =
      (readFields round fuel (depth - 1) [] inside).map fun (fields, rest) =>
        (ofFields fields, rest) := by
  rw [readValue, found]
  simp only [room, if_false]
  rw [readFields_skipSpace]

theorem open_append {cs : List Char} {close : Char} (tail : List Char) (some : skipSpace cs ≠ [])
    (open_ : ∀ after, skipSpace cs ≠ close :: after) :
    ∀ after, skipSpace (cs ++ tail) ≠ close :: after := by
  obtain ⟨c, after, first⟩ := List.exists_cons_of_ne_nil some
  rw [skipSpace_append tail first]
  rintro _ same
  obtain ⟨rfl, -⟩ := List.cons.inj same
  exact open_ after first

/-- What a reader with at least the room of another one reads from a longer text. -/
def Continues (round : Rounding) (tail : List Char) (fuel : Nat) : Prop :=
  ∀ fuel' depth depth', fuel ≤ fuel' → depth ≤ depth' →
    (∀ cs rest v, readValue round fuel depth cs = some (v, rest) →
      readValue round fuel' depth' (cs ++ tail) = some (v, rest ++ tail)) ∧
    (∀ acc cs rest items, readItems round fuel depth acc cs = some (items, rest) →
      readItems round fuel' depth' acc (cs ++ tail) = some (items, rest ++ tail)) ∧
    ∀ acc cs rest fields, readFields round fuel depth acc cs = some (fields, rest) →
      readFields round fuel' depth' acc (cs ++ tail) = some (fields, rest ++ tail)

theorem readItems_step {fuel fuel' depth depth' : Nat} {acc items : List Json}
    {cs rest tail : List Char} (ih : Continues round tail fuel) (fuels : fuel ≤ fuel')
    (depths : depth ≤ depth') (ok : readItems round (fuel + 1) depth acc cs = some (items, rest)) :
    readItems round (fuel' + 1) depth' acc (cs ++ tail) = some (items, rest ++ tail) := by
  obtain ⟨values, lists, -⟩ := ih fuel' depth depth' fuels depths
  rw [readItems] at ok ⊢
  split at ok
  · contradiction
  · rename_i v left valueOk
    rw [values _ _ _ valueOk]
    split at ok
    · rename_i found
      simp only [skipSpace_append tail found]
      exact lists _ _ _ _ ok
    · rename_i found
      simp only [skipSpace_append tail found]
      simp only [Option.some.injEq, Prod.mk.injEq] at ok ⊢
      exact ⟨ok.1, by rw [ok.2]⟩
    · contradiction

theorem readFields_step {fuel fuel' depth depth' : Nat} {acc fields : List (String × Json)}
    {cs rest tail : List Char} (ih : Continues round tail fuel) (fuels : fuel ≤ fuel')
    (depths : depth ≤ depth')
    (ok : readFields round (fuel + 1) depth acc cs = some (fields, rest)) :
    readFields round (fuel' + 1) depth' acc (cs ++ tail) = some (fields, rest ++ tail) := by
  obtain ⟨values, -, records⟩ := ih fuel' depth depth' fuels depths
  rw [readFields] at ok ⊢
  split at ok
  · rename_i quoted
    simp only [skipSpace_append tail quoted]
    split at ok
    · contradiction
    · rename_i nameOk
      rw [readText_append tail nameOk fuels]
      split at ok
      · rename_i colon
        simp only [skipSpace_append tail colon]
        split at ok
        · contradiction
        · rename_i valueOk
          rw [values _ _ _ valueOk]
          split at ok
          · rename_i found
            simp only [skipSpace_append tail found]
            exact records _ _ _ _ ok
          · rename_i found
            simp only [skipSpace_append tail found]
            simp only [Option.some.injEq, Prod.mk.injEq] at ok ⊢
            exact ⟨ok.1, by rw [ok.2]⟩
          · contradiction
      · contradiction
  · contradiction

theorem readValue_step {fuel fuel' depth depth' : Nat} {cs rest tail : List Char} {v : Json}
    (ends : Ends tail) (ih : Continues round tail fuel) (fuels : fuel ≤ fuel')
    (depths : depth ≤ depth') (ok : readValue round (fuel + 1) depth cs = some (v, rest)) :
    readValue round (fuel' + 1) depth' (cs ++ tail) = some (v, rest ++ tail) := by
  obtain ⟨-, lists, records⟩ := ih fuel' (depth - 1) (depth' - 1) fuels (by omega)
  rw [readValue.eq_def] at ok
  simp only at ok
  split at ok
  case h_1 found | h_2 found | h_3 found =>
    simp only [Option.some.injEq, Prod.mk.injEq] at ok
    obtain ⟨rfl, rfl⟩ := ok
    rw [readValue, skipSpace_append tail found]
    rfl
  case h_4 found =>
    obtain ⟨⟨s, left⟩, textOk, same⟩ := Option.map_eq_some_iff.mp ok
    obtain ⟨rfl, rfl⟩ := Prod.mk.inj same
    rw [readValue, skipSpace_append tail found]
    simp only [readText_append tail textOk fuels, Option.map_some]
  case h_5 inside found =>
    split at ok
    · contradiction
    · rename_i room
      split at ok
      · rename_i closed
        simp only [Option.some.injEq, Prod.mk.injEq] at ok
        obtain ⟨rfl, rfl⟩ := ok
        rw [readValue, skipSpace_append tail found]
        simp only [show depth' ≠ 0 by omega, if_false, skipSpace_append tail closed]
      · rename_i notClosed
        rw [readItems_skipSpace] at ok
        obtain ⟨⟨items, left⟩, itemsOk, same⟩ := Option.map_eq_some_iff.mp ok
        obtain ⟨rfl, rfl⟩ := Prod.mk.inj same
        have inner : skipSpace inside ≠ [] := by
          intro none_
          simp [← readItems_skipSpace _ _ _ inside, none_, readItems_nil] at itemsOk
        rw [readValue_list _ (skipSpace_append tail found) (by omega)
          (open_append tail inner notClosed), lists _ _ _ _ itemsOk, Option.map_some]
  case h_6 inside found =>
    split at ok
    · contradiction
    · rename_i room
      split at ok
      · rename_i closed
        simp only [Option.some.injEq, Prod.mk.injEq] at ok
        obtain ⟨rfl, rfl⟩ := ok
        rw [readValue, skipSpace_append tail found]
        simp only [show depth' ≠ 0 by omega, if_false, skipSpace_append tail closed]
      · rename_i notClosed
        rw [readFields_skipSpace] at ok
        obtain ⟨⟨fields, left⟩, fieldsOk, same⟩ := Option.map_eq_some_iff.mp ok
        obtain ⟨rfl, rfl⟩ := Prod.mk.inj same
        have inner : skipSpace inside ≠ [] := by
          intro none_
          simp [← readFields_skipSpace _ _ _ inside, none_, readFields_nil] at fieldsOk
        rw [readValue_record _ (skipSpace_append tail found) (by omega)
          (open_append tail inner notClosed), records _ _ _ _ fieldsOk, Option.map_some]
  case h_7 found =>
    obtain ⟨c, left, same, number⟩ := readNumber_first ok
    rw [readValue_number _ _ (skipSpace_append tail same) number]
    rw [same] at ok
    exact readNumber_append ok ends

theorem continues (round : Rounding) {tail : List Char} (ends : Ends tail) (fuel : Nat) :
    Continues round tail fuel := by
  induction fuel with
  | zero => exact fun _ _ _ _ _ => ⟨by simp [readValue], by simp [readItems], by simp [readFields]⟩
  | succ fuel ih =>
    intro fuel' depth depth' fuels depths
    obtain ⟨fuel', rfl⟩ : ∃ n, fuel' = n + 1 := ⟨fuel' - 1, by omega⟩
    exact ⟨fun _ _ _ ok => readValue_step ends ih (by omega) depths ok,
      fun _ _ _ _ ok => readItems_step ih (by omega) depths ok,
      fun _ _ _ _ ok => readFields_step ih (by omega) depths ok⟩

end Value
end Stevedore.Json

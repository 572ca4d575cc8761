import Stevedore.Proofs.Json.Number
import Stevedore.Proofs.Table

/-! Texts that spell a value, however they are spaced, and how they are put together. -/
namespace Stevedore.Json
open Text

/-- The value of a text that holds one value, with binary fractions rounded once and without a bound
on how deep lists and records are nested. -/
def exactly? (s : String) : Option Json := readWith exactly s.length s

/-- A reader with room for the text finds the value in it, wherever the text may end. -/
def Spells (text : List Char) (v : Json) : Prop :=
  ∀ fuel depth tail, 2 * text.length + 2 ≤ fuel → text.length ≤ depth → Ends tail →
    ∃ rest, readValue exactly fuel depth (text ++ tail) = some (v, rest) ∧
      skipSpace rest = skipSpace tail

theorem spells_of_exactly {s : String} {v : Json} (ok : exactly? s = some v) :
    Spells s.toList v := by
  intro fuel depth tail fuels depths ends
  simp only [exactly?, readWith] at ok
  split at ok
  · rename_i w left found
    split at ok
    · rename_i blank
      obtain rfl := Option.some.inj ok
      rw [String.length_toList] at depths
      refine ⟨left ++ tail, ((continues exactly ends _) _ _ _ fuels depths).1 _ _ _ found, ?_⟩
      rw [List.isEmpty_iff, skipSpace, List.dropWhile_eq_nil_iff] at blank
      exact skipSpace_of_spaces tail blank
    · contradiction
  · contradiction

theorem exactly_of_spells {text : List Char} {v : Json} (spells : Spells text v) :
    exactly? (String.ofList text) = some v := by
  obtain ⟨rest, found, blank⟩ := spells _ text.length [] le_rfl le_rfl ends_nil
  rw [List.append_nil] at found
  simp only [exactly?, readWith, String.toList_ofList, String.length_ofList, found, blank]
  rfl

section Plain

theorem spells_null : Spells ['n', 'u', 'l', 'l'] .null := by
  intro fuel depth tail fuels depths ends
  obtain ⟨fuel, rfl⟩ : ∃ n, fuel = n + 1 := ⟨fuel - 1, by omega⟩
  exact ⟨tail, rfl, rfl⟩

theorem spells_bool (b : Bool) : Spells (Json.bool b).write (.bool b) := by
  intro fuel depth tail fuels depths ends
  obtain ⟨fuel, rfl⟩ : ∃ n, fuel = n + 1 := ⟨fuel - 1, by omega⟩
  cases b with
  | true => exact ⟨tail, rfl, rfl⟩
  | false => exact ⟨tail, rfl, rfl⟩

theorem spells_number {text : List Char} {v : Json}
    (reads : ∀ tail, Ends tail → readNumber exactly (text ++ tail) = some (v, tail)) :
    Spells text v := by
  intro fuel depth tail fuels depths ends
  obtain ⟨fuel, rfl⟩ : ∃ n, fuel = n + 1 := ⟨fuel - 1, by omega⟩
  have number := reads tail ends
  obtain ⟨c, left, same, first⟩ := readNumber_first number
  have solid : isSpace c = false := by
    cases space : isSpace c with
    | false => rfl
    | true =>
      simp only [isSpace, Bool.or_eq_true, decide_eq_true_eq] at space
      rcases space with ((rfl | rfl) | rfl) | rfl <;> simp at first
  refine ⟨tail, ?_, rfl⟩
  rw [same] at number ⊢
  rw [readValue_number fuel depth (skipSpace_cons left solid) first, number]

theorem spells_integer {n : Int} (word : IsWord n) : Spells (Json.integer n).write (.integer n) := by
  rw [write]
  exact spells_number fun _ ends => readNumber_integer exactly word ends

theorem spells_float {x : Binary64} (finite : x.isFinite = true) :
    Spells (Json.float x).write (.float x) := by
  rw [write]
  exact spells_number fun _ ends => readNumber_float .json finite ends

end Plain

section Text

theorem hexNumber_hexadecimal {n : Nat} (control : n < 32) :
    hexNumber? (hexadecimal 4 n) = some n := by
  have all : ∀ n < 32, hexNumber? (hexadecimal 4 n) = some n := by decide +kernel
  exact all n control

theorem readText_control {c : Char} (control : c.toNat < 32) (fuel : Nat) (acc rest : List Char) :
    readText (fuel + 1) acc ('\\' :: 'u' :: (hexadecimal 4 c.toNat ++ rest)) =
      readText fuel (c :: acc) rest := by
  have digits := hexNumber_hexadecimal control
  simp only [hexadecimal] at digits ⊢
  simp only [List.cons_append, List.nil_append, readText, readUnicode, digits]
  rw [if_neg (by omega), if_neg (by omega), Char.ofNat_toNat]

theorem readText_escapedChar (c : Char) (fuel : Nat) (acc rest : List Char) :
    readText (fuel + 1) acc (escapedChar c ++ rest) = readText fuel (c :: acc) rest := by
  have escape {letter : Char} (notUnicode : letter ≠ 'u') (found : escapeOf? letter = some c) :=
    readText_escape fuel acc rest notUnicode found
  unfold escapedChar
  split_ifs with quote slash printed line back tab eight twelve
  · subst quote
    exact escape (by decide) rfl
  · subst slash
    exact escape (by decide) rfl
  · exact readText_plain fuel acc rest quote slash printed
  · subst line
    exact escape (by decide) rfl
  · subst back
    exact escape (by decide) rfl
  · subst tab
    exact escape (by decide) rfl
  · obtain rfl : c = Char.ofNat 8 := by rw [← eight, Char.ofNat_toNat]
    exact escape (by decide) rfl
  · obtain rfl : c = Char.ofNat 12 := by rw [← twelve, Char.ofNat_toNat]
    exact escape (by decide) rfl
  · exact readText_control (by omega) fuel acc rest

theorem readText_escaped (cs acc tail : List Char) {fuel : Nat} (enough : cs.length < fuel) :
    readText fuel acc (cs.flatMap escapedChar ++ '"' :: tail) =
      some (String.ofList (acc.reverse ++ cs), tail) := by
  induction cs generalizing acc fuel with
  | nil =>
    obtain ⟨fuel, rfl⟩ : ∃ n, fuel = n + 1 := ⟨fuel - 1, by omega⟩
    simp [readText]
  | cons c cs ih =>
    obtain ⟨fuel, rfl⟩ : ∃ n, fuel = n + 1 := ⟨fuel - 1, by omega⟩
    rw [List.flatMap_cons, List.append_assoc, readText_escapedChar,
      ih (c :: acc) (by simpa using enough)]
    simp

theorem length_le_escaped (cs : List Char) : cs.length ≤ (cs.flatMap escapedChar).length := by
  induction cs with
  | nil => exact le_rfl
  | cons c cs ih =>
    have some : 0 < (escapedChar c).length := by
      unfold escapedChar
      split_ifs <;> simp
    rw [List.flatMap_cons, List.length_append, List.length_cons]
    omega

/-- A quoted text is read up to its closing quote. -/
theorem readText_writeText (s : String) (tail : List Char) {fuel : Nat}
    (enough : (writeText s).length ≤ fuel) :
    ∃ inside, writeText s ++ tail = '"' :: inside ∧ readText fuel [] inside = some (s, tail) := by
  refine ⟨s.toList.flatMap escapedChar ++ '"' :: tail, by simp [writeText], ?_⟩
  have length := length_le_escaped s.toList
  simp only [writeText, List.length_cons, List.length_append] at enough
  rw [readText_escaped s.toList [] tail (by omega)]
  simp

theorem spells_text (s : String) : Spells (writeText s) (.text s) := by
  intro fuel depth tail fuels depths ends
  obtain ⟨fuel, rfl⟩ : ∃ n, fuel = n + 1 := ⟨fuel - 1, by omega⟩
  obtain ⟨inside, same, ok⟩ := readText_writeText s tail (show _ ≤ fuel by omega)
  refine ⟨tail, ?_, rfl⟩
  rw [same, readValue]
  simp only [skipSpace_cons inside (show isSpace '"' = false from rfl), ok, Option.map_some]

end Text

section Lists

/-- Texts that spell the values of a list, one after the other. -/
abbrev SpellAll (texts : List (List Char)) (values : List Json) : Prop :=
  List.Forall₂ Spells texts values

theorem skipSpace_comma (tail : List Char) : skipSpace (',' :: tail) = ',' :: tail := rfl

theorem skipSpace_bracket (tail : List Char) : skipSpace (']' :: tail) = ']' :: tail := rfl

theorem skipSpace_brace (tail : List Char) : skipSpace ('\x7d' :: tail) = '\x7d' :: tail := rfl

theorem readItems_spaces {gap : List Char} (spaces : ∀ c ∈ gap, isSpace c) (fuel depth : Nat)
    (acc : List Json) (cs : List Char) :
    readItems exactly fuel depth acc (gap ++ cs) = readItems exactly fuel depth acc cs := by
  rw [← readItems_skipSpace, skipSpace_of_spaces cs spaces, readItems_skipSpace]

theorem not_closed {fuel depth : Nat} {acc : List Json} {cs : List Char}
    {found : List Json × List Char} (ok : readItems exactly fuel depth acc cs = some found) :
    ∀ after, skipSpace cs ≠ ']' :: after := by
  intro after closed
  rw [← readItems_skipSpace, closed] at ok
  cases fuel with
  | zero => simp [readItems] at ok
  | succ fuel =>
    cases fuel with
    | zero => simp [readItems, readValue] at ok
    | succ fuel => simp [readItems, readValue, skipSpace_bracket, readNumber, readUnsigned] at ok

theorem readItems_joined {gap : List Char} {texts : List (List Char)} {values : List Json}
    (spaces : ∀ c ∈ gap, isSpace c) (spell : SpellAll texts values) (nonempty : texts ≠ [])
    (acc : List Json) (tail : List Char) {fuel depth : Nat}
    (fuels : 2 * (joinWith (',' :: gap) texts).length + 3 ≤ fuel)
    (depths : (joinWith (',' :: gap) texts).length ≤ depth) :
    readItems exactly fuel depth acc (joinWith (',' :: gap) texts ++ ']' :: tail) =
      some (acc.reverse ++ values, tail) := by
  induction spell generalizing acc fuel with
  | nil => contradiction
  | @cons text v texts values first others ih =>
    obtain ⟨fuel, rfl⟩ : ∃ n, fuel = n + 1 := ⟨fuel - 1, by omega⟩
    cases texts with
    | nil =>
      obtain rfl : values = [] := by simpa using others
      simp only [joinWith] at fuels depths ⊢
      obtain ⟨rest, ok, same⟩ := first fuel depth (']' :: tail) (by omega) depths
        (ends_cons (by simp))
      rw [readItems, ok]
      simp only [same, skipSpace_bracket, List.reverse_cons]
    | cons next texts =>
      simp only [joinWith, List.length_append, List.length_cons] at fuels depths
      have text_ : joinWith (',' :: gap) (text :: next :: texts) ++ ']' :: tail =
          text ++ ',' :: (gap ++ (joinWith (',' :: gap) (next :: texts) ++ ']' :: tail)) := by
        simp [joinWith]
      obtain ⟨rest, ok, same⟩ := first fuel depth
        (',' :: (gap ++ (joinWith (',' :: gap) (next :: texts) ++ ']' :: tail))) (by omega)
        (by omega) (ends_cons (by simp))
      rw [text_, readItems, ok]
      simp only [same, skipSpace_comma, readItems_spaces spaces]
      rw [ih (by simp) (v :: acc) (by omega) (by omega)]
      simp

theorem spells_list {gap : List Char} {texts : List (List Char)} {values : List Json}
    (spaces : ∀ c ∈ gap, isSpace c) (spell : SpellAll texts values) :
    Spells ('[' :: joinWith (',' :: gap) texts ++ [']']) (.list values) := by
  intro fuel depth tail fuels depths ends
  obtain ⟨fuel, rfl⟩ : ∃ n, fuel = n + 1 := ⟨fuel - 1, by omega⟩
  simp only [List.length_append, List.length_cons, List.length_nil] at fuels depths
  have found : skipSpace ('[' :: joinWith (',' :: gap) texts ++ [']'] ++ tail) =
      '[' :: (joinWith (',' :: gap) texts ++ ']' :: tail) := by
    rw [List.append_assoc, List.cons_append]
    rfl
  refine ⟨tail, ?_, rfl⟩
  cases texts with
  | nil =>
    obtain rfl : values = [] := by simpa using spell
    rw [readValue, found]
    simp only [show depth ≠ 0 by omega, if_false]
    rfl
  | cons text texts =>
    have items := readItems_joined spaces spell (by simp) [] tail
      (show _ ≤ fuel by omega) (show _ ≤ depth - 1 by omega)
    rw [readValue_list fuel found (by omega) (not_closed items), items]
    rfl

end Lists
section Records

/-- A quoted name, a colon and a text that spells a value. -/
def SpellsField (text : List Char) (field : String × Json) : Prop :=
  ∃ gap value, (∀ c ∈ gap, isSpace c) ∧ Spells value field.2 ∧
    text = writeText field.1 ++ ':' :: (gap ++ value)

abbrev SpellFields (texts : List (List Char)) (fields : List (String × Json)) : Prop :=
  List.Forall₂ SpellsField texts fields

theorem readFields_spaces {gap : List Char} (spaces : ∀ c ∈ gap, isSpace c) (fuel depth : Nat)
    (acc : List (String × Json)) (cs : List Char) :
    readFields exactly fuel depth acc (gap ++ cs) = readFields exactly fuel depth acc cs := by
  rw [← readFields_skipSpace, skipSpace_of_spaces cs spaces, readFields_skipSpace]

theorem readValue_spaces {gap : List Char} (spaces : ∀ c ∈ gap, isSpace c) (fuel depth : Nat)
    (cs : List Char) :
    readValue exactly fuel depth (gap ++ cs) = readValue exactly fuel depth cs := by
  rw [← readValue_skipSpace, skipSpace_of_spaces cs spaces, readValue_skipSpace]

/-- What is read after a field, past white space. -/
def afterField (fuel depth : Nat) (acc : List (String × Json)) :
    List Char → Option (List (String × Json) × List Char)
  | ',' :: rest => readFields exactly fuel depth acc rest
  | '\x7d' :: rest => some (acc.reverse, rest)
  | _ => none

/-- One field is read, and then what follows it decides. -/
theorem readFields_field {text tail : List Char} {field : String × Json}
    (spell : SpellsField text field) (acc : List (String × Json)) {fuel depth : Nat}
    (fuels : 2 * text.length + 2 ≤ fuel) (depths : text.length ≤ depth) (ends : Ends tail) :
    readFields exactly (fuel + 1) depth acc (text ++ tail) =
      afterField fuel depth (field :: acc) (skipSpace tail) := by
  obtain ⟨gap, value, spaces, reads, rfl⟩ := spell
  simp only [List.length_append, List.length_cons] at fuels depths
  obtain ⟨inside, opened, name⟩ := readText_writeText field.1 (':' :: (gap ++ value) ++ tail)
    (show _ ≤ fuel by omega)
  obtain ⟨rest, ok, same⟩ := reads fuel depth tail (by omega) (by omega) ends
  rw [List.append_assoc, opened, readFields]
  simp only [skipSpace_cons inside (show isSpace '"' = false from rfl), name]
  rw [List.cons_append, skipSpace_cons _ (show isSpace ':' = false from rfl)]
  simp only [List.append_assoc, readValue_spaces spaces, ok, same]
  rfl

theorem skipSpace_closing {closing : List Char} (spaces : ∀ c ∈ closing, isSpace c)
    (tail : List Char) : skipSpace (closing ++ '\x7d' :: tail) = '\x7d' :: tail := by
  rw [skipSpace_of_spaces _ spaces, skipSpace_brace]

theorem ends_closing {closing : List Char} (spaces : ∀ c ∈ closing, isSpace c)
    (tail : List Char) : Ends (closing ++ '\x7d' :: tail) := by
  cases closing with
  | nil => exact ends_cons (by simp)
  | cons c closing => exact ends_cons (.inl (spaces c (by simp)))

theorem readFields_joined {gap closing : List Char} {texts : List (List Char)}
    {fields : List (String × Json)} (spaces : ∀ c ∈ gap, isSpace c)
    (spaces' : ∀ c ∈ closing, isSpace c) (spell : SpellFields texts fields) (nonempty : texts ≠ [])
    (acc : List (String × Json)) (tail : List Char) {fuel depth : Nat}
    (fuels : 2 * (joinWith (',' :: gap) texts).length + 3 ≤ fuel)
    (depths : (joinWith (',' :: gap) texts).length ≤ depth) :
    readFields exactly fuel depth acc
      (joinWith (',' :: gap) texts ++ (closing ++ '\x7d' :: tail)) =
        some (acc.reverse ++ fields, tail) := by
  induction spell generalizing acc fuel with
  | nil => contradiction
  | @cons text field texts fields first others ih =>
    obtain ⟨fuel, rfl⟩ : ∃ n, fuel = n + 1 := ⟨fuel - 1, by omega⟩
    cases texts with
    | nil =>
      obtain rfl : fields = [] := by simpa using others
      simp only [joinWith] at fuels depths ⊢
      rw [readFields_field first acc (by omega) depths (ends_closing spaces' tail),
        skipSpace_closing spaces' tail, afterField]
      simp
    | cons next texts =>
      simp only [joinWith, List.length_append, List.length_cons] at fuels depths
      have text_ : joinWith (',' :: gap) (text :: next :: texts) ++ (closing ++ '\x7d' :: tail) =
          text ++ ',' :: (gap ++ (joinWith (',' :: gap) (next :: texts) ++
            (closing ++ '\x7d' :: tail))) := by
        simp [joinWith]
      rw [text_, readFields_field first acc (by omega) (by omega) (ends_cons (by simp)),
        skipSpace_comma, afterField]
      simp only [readFields_spaces spaces]
      rw [ih (by simp) (field :: acc) (by omega) (by omega)]
      simp

theorem not_closed_record {fuel depth : Nat} {acc : List (String × Json)} {cs : List Char}
    {found : List (String × Json) × List Char}
    (ok : readFields exactly fuel depth acc cs = some found) :
    ∀ after, skipSpace cs ≠ '\x7d' :: after := by
  intro after closed
  rw [← readFields_skipSpace, closed] at ok
  cases fuel with
  | zero => simp [readFields] at ok
  | succ fuel => simp [readFields, skipSpace_brace] at ok

theorem spells_record {gap closing : List Char} {texts : List (List Char)}
    {fields : List (String × Json)} (spaces : ∀ c ∈ gap, isSpace c)
    (spaces' : ∀ c ∈ closing, isSpace c) (spell : SpellFields texts fields) :
    Spells ('\x7b' :: joinWith (',' :: gap) texts ++ (closing ++ ['\x7d'])) (ofFields fields) := by
  intro fuel depth tail fuels depths ends
  obtain ⟨fuel, rfl⟩ : ∃ n, fuel = n + 1 := ⟨fuel - 1, by omega⟩
  simp only [List.length_append, List.length_cons, List.length_nil] at fuels depths
  have found : skipSpace ('\x7b' :: joinWith (',' :: gap) texts ++ (closing ++ ['\x7d']) ++ tail) =
      '\x7b' :: (joinWith (',' :: gap) texts ++ (closing ++ '\x7d' :: tail)) := by
    rw [List.append_assoc, List.append_assoc, List.cons_append]
    rfl
  refine ⟨tail, ?_, rfl⟩
  cases texts with
  | nil =>
    obtain rfl : fields = [] := by simpa using spell
    rw [readValue, found]
    simp only [show depth ≠ 0 by omega, if_false, joinWith, List.nil_append,
      skipSpace_closing spaces']
    rfl
  | cons text texts =>
    have inside := readFields_joined spaces spaces' spell (by simp) [] tail
      (show _ ≤ fuel by omega) (show _ ≤ depth - 1 by omega)
    rw [readValue_record fuel found (by omega) (not_closed_record inside), inside]
    rfl

end Records
section Written

mutual

/-- Whole numbers are of 64 bits, binary fractions finite, and the names of a record ascend. -/
def WellFormed : Json → Prop
  | .integer n => IsWord n
  | .float x => x.isFinite = true
  | .list items => AllWellFormed items
  | .record fields => fields.Pairwise (fun a b => a.1 < b.1) ∧ FieldsWellFormed fields
  | _ => True

def AllWellFormed : List Json → Prop
  | [] => True
  | v :: rest => WellFormed v ∧ AllWellFormed rest

def FieldsWellFormed : List (String × Json) → Prop
  | [] => True
  | field :: rest => WellFormed field.2 ∧ FieldsWellFormed rest

end

theorem ofFields_entries (t : Table Json) : ofFields t.entries = ofTable t := by
  rw [ofFields, Table.ofList_entries, ofTable]

theorem ofFields_of_ascending {fields : List (String × Json)}
    (ascending : fields.Pairwise (fun a b => a.1 < b.1)) : ofFields fields = .record fields :=
  ofFields_entries ⟨fields, ascending⟩

theorem no_spaces : ∀ c ∈ ([] : List Char), isSpace c := by simp

mutual

theorem spells_write : (v : Json) → v.WellFormed → Spells v.write v
  | .null, _ => spells_null
  | .bool b, _ => spells_bool b
  | .integer _, word => spells_integer word
  | .float _, finite => spells_float finite
  | .text s, _ => spells_text s
  | .list items, formed => by
    rw [write]
    exact spells_list no_spaces (spells_writeItems items formed)
  | .record fields, formed => by
    rw [write, ← ofFields_of_ascending formed.1]
    exact spells_record no_spaces no_spaces (spells_writeFields fields formed.2)

theorem spells_writeItems : (items : List Json) → AllWellFormed items →
    SpellAll (writeItems items) items
  | [], _ => .nil
  | v :: rest, formed => .cons (spells_write v formed.1) (spells_writeItems rest formed.2)

theorem spells_writeFields : (fields : List (String × Json)) → FieldsWellFormed fields →
    SpellFields (writeFields fields) fields
  | [], _ => .nil
  | (_, v) :: rest, formed =>
    .cons ⟨[], v.write, no_spaces, spells_write v formed.1, rfl⟩ (spells_writeFields rest formed.2)

end

end Written
end Stevedore.Json

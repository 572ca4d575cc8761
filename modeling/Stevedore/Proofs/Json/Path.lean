import Stevedore.Proofs.Json.Spelling

/-!
Values inside a JSON text, found without reading on. A reader goes down a path of names and first
items; it passes over the fields before the one it looks for, and does not look at what follows the
value at the end of the path.
-/
namespace Stevedore.Json

inductive Step where
  | field (name : String)
  | first

/-- The value at the start of a text, and the rest of the text. -/
def readHere (cs : List Char) : Option (Json × List Char) :=
  readValue exactly (2 * cs.length + 2) cs.length cs

/-- What follows the colon of the field with the given name. -/
def seek (name : String) : Nat → List Char → Option (List Char)
  | 0, _ => none
  | fuel + 1, cs =>
    match skipSpace cs with
    | '"' :: inside =>
      match readText (inside.length + 1) [] inside with
      | none => none
      | some (key, rest) =>
        match skipSpace rest with
        | ':' :: rest =>
          if key = name then some rest
          else
            match readHere rest with
            | none => none
            | some (_, rest) =>
              match skipSpace rest with
              | ',' :: rest => seek name fuel rest
              | _ => none
        | _ => none
    | _ => none

def Step.enter (cs : List Char) : Step → Option (List Char)
  | .field name =>
    match skipSpace cs with
    | '\x7b' :: rest => seek name rest.length rest
    | _ => none
  | .first =>
    match skipSpace cs with
    | '[' :: rest => some rest
    | _ => none

/-- The value at the end of a path, in a text that starts with JSON. -/
def at? (path : List Step) (cs : List Char) : Option Json :=
  (path.foldlM Step.enter cs).bind fun rest => (readHere rest).map (·.1)

theorem readHere_spells {gap text tail : List Char} {v : Json} (spaces : ∀ c ∈ gap, isSpace c)
    (spells : Spells text v) (ends : Ends tail) :
    ∃ rest, readHere (gap ++ (text ++ tail)) = some (v, rest) ∧ skipSpace rest = skipSpace tail := by
  rw [readHere, readValue_spaces spaces]
  simp only [List.length_append]
  exact spells _ _ tail (by omega) (by omega) ends

section Fields
variable {name key : String} {gap text tail : List Char} {fuel : Nat}

theorem seek_spaces (spaces : ∀ c ∈ gap, isSpace c) (cs : List Char) :
    seek name fuel (gap ++ cs) = seek name fuel cs := by
  cases fuel with
  | zero => rfl
  | succ fuel => rw [seek, seek, skipSpace_of_spaces cs spaces]

theorem seek_quoted (rest : List Char) : seek name (fuel + 1) (writeText key ++ ':' :: rest) =
    if key = name then some rest
    else
      match readHere rest with
      | none => none
      | some (_, rest) =>
        match skipSpace rest with
        | ',' :: rest => seek name fuel rest
        | _ => none := by
  obtain ⟨inside, opened, -⟩ := readText_writeText key (':' :: rest) le_rfl
  have enough : (writeText key).length ≤ inside.length + 1 := by
    have length := congrArg List.length opened
    simp only [List.length_append, List.length_cons] at length
    omega
  obtain ⟨inside', opened', ok⟩ := readText_writeText key (':' :: rest) enough
  obtain rfl : inside = inside' := (List.cons.inj (opened.symm.trans opened')).2
  rw [opened, seek]
  simp only [skipSpace_cons inside (show isSpace '"' = false from rfl), ok,
    skipSpace_cons rest (show isSpace ':' = false from rfl)]

/-- A field with another name is passed over. -/
theorem seek_past {field : String × Json} (spell : SpellsField text field)
    (other : field.1 ≠ name) (spaces : ∀ c ∈ gap, isSpace c) :
    seek name (fuel + 1) (text ++ ',' :: (gap ++ tail)) = seek name fuel tail := by
  obtain ⟨gap', value, spaces', spells, rfl⟩ := spell
  obtain ⟨rest, ok, same⟩ := readHere_spells spaces' spells
    (show Ends (',' :: (gap ++ tail)) from ends_cons (by simp))
  rw [List.append_assoc, List.cons_append, List.append_assoc, seek_quoted, if_neg other, ok]
  simp only [same, skipSpace_comma]
  exact seek_spaces spaces tail

/-- The field is found behind those with other names. -/
theorem seek_joined {pieces : List (List Char)} {fields : List (String × Json)}
    (spell : SpellFields pieces fields) (others : ∀ f ∈ fields, f.1 ≠ name)
    (spaces : ∀ c ∈ gap, isSpace c) (enough : pieces.length < fuel) (rest : List Char) :
    seek name fuel (pieces.flatMap (fun piece => piece ++ ',' :: gap) ++
      (writeText name ++ ':' :: rest)) = some rest := by
  induction spell generalizing fuel with
  | nil =>
    obtain ⟨fuel, rfl⟩ : ∃ n, fuel = n + 1 := ⟨fuel - 1, by simp at enough; omega⟩
    exact (seek_quoted rest).trans (if_pos rfl)
  | @cons piece field pieces fields first _ ih =>
    obtain ⟨other, others⟩ := List.forall_mem_cons.mp others
    obtain ⟨fuel, rfl⟩ : ∃ n, fuel = n + 1 := ⟨fuel - 1, by simp at enough; omega⟩
    rw [List.flatMap_cons, List.append_assoc, List.append_assoc, List.cons_append,
      seek_past first other spaces]
    exact ih others (by simpa using enough)

end Fields

/-- Wherever the text stands before something that may follow a value, the path leads to the value. -/
def Leads (path : List Step) (text : List Char) (v : Json) : Prop :=
  ∀ gap tail, (∀ c ∈ gap, isSpace c) → Ends tail → at? path (gap ++ (text ++ tail)) = some v

section Paths
variable {path : List Step} {text : List Char} {v : Json}

theorem at_of_leads (leads : Leads path text v) : at? path (' ' :: text) = some v := by
  have whole := leads [' '] [] (by simp [isSpace]) ends_nil
  rwa [List.append_nil] at whole

theorem leads_nil (spells : Spells text v) : Leads [] text v := by
  intro gap tail spaces ends
  obtain ⟨rest, ok, -⟩ := readHere_spells spaces spells ends
  rw [at?, List.foldlM_nil]
  exact (congrArg (Option.map (·.1)) ok).trans rfl

theorem at_cons (step : Step) (path : List Step) (cs : List Char) :
    at? (step :: path) cs = (step.enter cs).bind (at? path) := by
  rw [at?, List.foldlM_cons]
  cases step.enter cs <;> rfl

/-- The first item of a list is where the list opens. -/
theorem leads_first (leads : Leads path text v) (rest : List Char)
    (ends : ∀ tail, Ends (rest ++ tail)) :
    Leads (.first :: path) ('[' :: (text ++ rest)) v := by
  intro gap tail spaces _
  rw [at_cons, Step.enter, skipSpace_of_spaces _ spaces, List.cons_append,
    skipSpace_cons _ (show isSpace '[' = false from rfl), List.append_assoc]
  exact leads [] (rest ++ tail) (by simp) (ends tail)

/-- There are fewer fields before a name than characters. -/
theorem length_lt_joined (pieces : List (List Char)) (gap rest : List Char) (name : String) :
    pieces.length < (pieces.flatMap (fun piece => piece ++ ',' :: gap) ++
      (writeText name ++ ':' :: rest)).length := by
  induction pieces with
  | nil => simp
  | cons piece pieces ih =>
    simp only [List.flatMap_cons, List.length_append, List.length_cons] at ih ⊢
    omega

/-- The field of a record is where its name stands, behind fields with other names. -/
theorem leads_field {name : String} {gap gap' : List Char} {pieces : List (List Char)}
    {fields : List (String × Json)} (leads : Leads path text v)
    (spell : SpellFields pieces fields) (others : ∀ f ∈ fields, f.1 ≠ name)
    (spaces : ∀ c ∈ gap, isSpace c) (spaces' : ∀ c ∈ gap', isSpace c) (rest : List Char)
    (ends : ∀ tail, Ends (rest ++ tail)) :
    Leads (.field name :: path) ('\x7b' :: (pieces.flatMap (fun piece => piece ++ ',' :: gap) ++
      (writeText name ++ ':' :: (gap' ++ (text ++ rest))))) v := by
  intro blank tail blanks _
  have enough := length_lt_joined pieces gap (gap' ++ (text ++ (rest ++ tail))) name
  have found := seek_joined spell others spaces enough (gap' ++ (text ++ (rest ++ tail)))
  rw [at_cons, Step.enter, skipSpace_of_spaces _ blanks, List.cons_append,
    skipSpace_cons _ (show isSpace '\x7b' = false from rfl)]
  simp only [List.append_assoc, List.cons_append] at found ⊢
  rw [found]
  exact leads gap' (rest ++ tail) spaces' (ends tail)

end Paths

end Stevedore.Json

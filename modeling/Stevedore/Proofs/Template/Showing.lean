import Stevedore.Proofs.Table
import Stevedore.Template.Render

/-! What the parts of a template show: values as JSON, text put in as it is, sections left out where
nothing is bound, and lists with a comma between each two items. -/
namespace Stevedore.Template

/-- The elements give the text, whatever other templates there are. -/
def Shows (s : Sight) (elements : List Element) (text : List Char) : Prop :=
  ∀ bring, renderAll bring s elements = .ok text

/-- A name that is looked up in the innermost scope. -/
def here (names : List String) : Argument := .reference (.way false 0 names)

namespace Element

/-- A value written as JSON. -/
def json (at_ : Position) (names : List String) : Element :=
  .call at_ ⟨"json", [here names], [], []⟩

/-- Text that is put in as it is. -/
def inline (at_ : Position) (name : String) (names : List String) : Element :=
  .value at_ name (.way false 0 names)

/-- A section for a value that may be missing. -/
def optional (at_ : Position) (name : String) (body : List Element) : Element :=
  .block at_ ⟨"if", [.call "defined" [here [name]] []], [], []⟩ body none

/-- The items of a list with a comma between each two of them. -/
def each (at_ inner : Position) (name : String) (item : List Element) : Element :=
  .block at_ ⟨"each", [here [name]], [], []⟩
    (item ++ [.block inner ⟨"unless", [.reference (.variable 0 "last")], [], []⟩
      [.text [',', ' ']] none]) none

end Element

section Parts
variable {s : Sight} {rest : List Element} {text : List Char}

attribute [local simp] renderAll renderElement evaluate evaluateAll evaluateOptions

theorem ok_bind {ε α β : Type} (a : α) (f : α → Except ε β) : (Except.ok a >>= f) = f a := rfl

theorem renderAll_cons {bring : Head → Sight → Except Failure (List Char)} {e : Element}
    {first : List Char} (ok : renderElement bring s e = .ok first)
    (others : renderAll bring s rest = .ok text) :
    renderAll bring s (e :: rest) = .ok (first ++ text) := by
  rw [renderAll, ok, others]
  rfl

theorem shows_nil : Shows s [] [] := by
  intro bring
  rw [renderAll]

theorem shows_text (chars : List Char) (others : Shows s rest text) :
    Shows s (.text chars :: rest) (chars ++ text) := by
  intro bring
  exact renderAll_cons (by rw [renderElement]) (others bring)

theorem evaluate_here {names : List String} {value : Option Json}
    (found : s.find (.way false 0 names) = .ok value) : evaluate s (here names) = .ok value := by
  rw [here, evaluate, found]

theorem shownValue_text (chars : String) : shownValue (some (.text chars)) = chars.toList := rfl

theorem compute_json (value : Json) :
    compute "json" [some value] = .ok (some (.text value.compact)) := by
  simp [compute, function?]

theorem compute_defined {value : Json} (some_ : value ≠ .null) :
    compute "defined" [some value] = .ok (some (.bool true)) := by
  cases value with
  | null => exact absurd rfl some_
  | _ => simp [compute, function?]

theorem compute_defined_none : compute "defined" [none] = .ok (some (.bool false)) := by
  simp [compute, function?]

theorem isControl_json : isControl "json" = false := by decide

theorem isControl_defined : isControl "defined" = false := by decide

theorem isControl_if : isControl "if" = true := by decide

theorem isControl_unless : isControl "unless" = true := by decide

theorem isControl_each : isControl "each" = true := by decide

theorem shows_json {names : List String} {value : Json} (at_ : Position)
    (found : s.find (.way false 0 names) = .ok (some value)) (others : Shows s rest text) :
    Shows s (.json at_ names :: rest) (value.write ++ text) := by
  intro bring
  apply renderAll_cons _ (others bring)
  have written : shownValue (some (.text value.compact)) = value.write := by
    rw [shownValue_text, Json.compact, String.toList_ofList]
  rw [Element.json, renderElement]
  simp only [evaluateAll, evaluate_here found, evaluateOptions, isControl_json, ok_bind, pure_bind,
    Bool.false_eq_true, if_false, compute_json, written]
  rfl

theorem shows_inline {name : String} {names : List String} {chars : String} (at_ : Position)
    (plain : isHelper name = false)
    (found : s.find (.way false 0 names) = .ok (some (.text chars))) (others : Shows s rest text) :
    Shows s (.inline at_ name names :: rest) (chars.toList ++ text) := by
  intro bring
  apply renderAll_cons _ (others bring)
  have noControl : isControl name = false := by
    simp only [isHelper, Bool.or_eq_false_iff] at plain
    exact plain.1.2
  rw [Element.inline, renderElement]
  simp only [noControl, plain, found, ok_bind, Bool.false_eq_true, if_false]
  rfl

/-- A condition with a value that counts as true shows its body. -/
theorem renderElement_if {bring : Head → Sight → Except Failure (List Char)} {condition : Argument}
    {body : List Element} {flag : Bool} (at_ : Position) (shown : List Char)
    (found : evaluate s condition = .ok (some (.bool flag)))
    (ok : flag = true → renderAll bring s body = .ok shown) :
    renderElement bring s (.block at_ ⟨"if", [condition], [], []⟩ body none) =
      .ok (if flag then shown else []) := by
  rw [renderElement]
  simp only [evaluateAll, found, evaluateOptions, ok_bind, pure_bind, isControl_if, if_true, plan,
    controlled]
  cases flag with
  | false => rfl
  | true =>
    have inside := ok rfl
    change placed at_ ([s].mapM (fun s => renderAll bring s body) >>= fun parts =>
      pure parts.flatten) = _
    rw [List.mapM_cons, List.mapM_nil, inside]
    simp [placed]

theorem shows_optional {α : Type} {name : String} {body : List Element} {value : Option α}
    {encode : α → Json} {shown : α → List Char} (at_ : Position)
    (found : s.find (.way false 0 [name]) = .ok (value.map encode))
    (some_ : ∀ a, encode a ≠ .null) (inside : ∀ a, value = some a → Shows s body (shown a))
    (others : Shows s rest text) :
    Shows s (.optional at_ name body :: rest) ((value.map shown).getD [] ++ text) := by
  intro bring
  apply renderAll_cons _ (others bring)
  rw [Element.optional]
  cases value with
  | none =>
    have condition : evaluate s (.call "defined" [here [name]] []) = .ok (some (.bool false)) := by
      simp only [evaluate, evaluateAll, evaluate_here found, evaluateOptions, ok_bind, pure_bind,
        isControl_defined, Bool.false_eq_true, if_false]
      exact compute_defined_none
    exact renderElement_if at_ [] condition (by simp)
  | some a =>
    have condition : evaluate s (.call "defined" [here [name]] []) = .ok (some (.bool true)) := by
      simp only [evaluate, evaluateAll, evaluate_here found, evaluateOptions, ok_bind, pure_bind,
        isControl_defined, Bool.false_eq_true, if_false]
      exact compute_defined (some_ a)
    exact renderElement_if at_ _ condition fun _ => inside a rfl bring

theorem renderAll_append (bring : Head → Sight → Except Failure (List Char))
    {first second : List Element} {a b : List Char} (ok : renderAll bring s first = .ok a)
    (ok' : renderAll bring s second = .ok b) :
    renderAll bring s (first ++ second) = .ok (a ++ b) := by
  induction first generalizing a with
  | nil =>
    rw [renderAll] at ok
    obtain rfl := Except.ok.inj ok
    exact ok'
  | cons e first ih =>
    rw [renderAll] at ok
    cases shown : renderElement bring s e with
    | error f =>
      rw [shown] at ok
      cases ok
    | ok c =>
      cases more : renderAll bring s first with
      | error f =>
        rw [shown, ok_bind, more] at ok
        cases ok
      | ok d =>
        rw [shown, ok_bind, more, ok_bind] at ok
        obtain rfl := Except.ok.inj ok
        rw [List.cons_append, renderAll_cons shown (ih more), List.append_assoc]

theorem mapM_map_ok {ε α β γ : Type} (f : β → Except ε γ) (h : α → β) (g : α → γ) {items : List α}
    (ok : ∀ a ∈ items, f (h a) = .ok (g a)) : (items.map h).mapM f = .ok (items.map g) := by
  induction items with
  | nil => rfl
  | cons a rest ih =>
    rw [List.map_cons, List.mapM_cons, ok a (by simp), ih fun b member => ok b (by simp [member])]
    rfl

/-- What stands after an item: nothing after the last one. -/
def separator (count index : Nat) : List Char := if index + 1 == count then [] else [',', ' ']

theorem joinWith_cons_cons (between first second : List Char) (rest : List (List Char)) :
    Json.joinWith between (first :: second :: rest) =
      first ++ between ++ Json.joinWith between (second :: rest) := rfl

theorem flatten_separated (pieces : List (List Char)) (start : Nat) :
    ((pieces.zipIdx start).map fun p => p.1 ++ separator (start + pieces.length) p.2).flatten =
      Json.joinWith [',', ' '] pieces := by
  induction pieces generalizing start with
  | nil => rfl
  | cons piece rest ih =>
    have next := ih (start + 1)
    cases rest with
    | nil => simp [separator, Json.joinWith]
    | cons piece' rest =>
      have between : separator (start + (piece :: piece' :: rest).length) start = [',', ' '] := by
        simp [separator]
      have count : start + (piece :: piece' :: rest).length = start + 1 + (piece' :: rest).length := by
        simp only [List.length_cons]
        omega
      rw [List.zipIdx_cons, List.map_cons, List.flatten_cons, between, joinWith_cons_cons, ← next,
        count]

/-- The word between the items of a list is left out after the last one. -/
theorem shows_unless_last (inner : Position) (names : List String) (item : Json)
    (count index : Nat) :
    Shows (s.inner (itemScope names count index item))
      [.block inner ⟨"unless", [.reference (.variable 0 "last")], [], []⟩ [.text [',', ' ']] none]
      (separator count index) := by
  intro bring
  rw [← List.append_nil (separator count index)]
  apply renderAll_cons _ (by rw [renderAll])
  have found : (s.inner (itemScope names count index item)).find (.variable 0 "last") =
      .ok (some (.bool (index + 1 == count))) := by
    simp [Sight.find, Sight.inner, itemScope, Table.lookup_cons_eq]
  rw [renderElement]
  simp only [evaluateAll, evaluate, found, evaluateOptions, ok_bind, pure_bind, isControl_unless,
    if_true, plan, controlled]
  unfold separator
  cases index + 1 == count with
  | true => rfl
  | false => rfl

theorem shows_each {name : String} {items : List Json} (at_ inner : Position)
    (item : List Element) (shown : Json → List Char)
    (found : s.find (.way false 0 [name]) = .ok (some (.list items)))
    (inside : ∀ v ∈ items, ∀ scope : Scope, scope.base = v → scope.names = [] →
      Shows (s.inner scope) item (shown v))
    (others : Shows s rest text) :
    Shows s (.each at_ inner name item :: rest)
      (Json.joinWith [',', ' '] (items.map shown) ++ text) := by
  intro bring
  apply renderAll_cons _ (others bring)
  rw [Element.each, renderElement]
  simp only [evaluateAll, evaluate_here found, evaluateOptions, ok_bind, pure_bind, isControl_each,
    if_true, plan, controlled, scopes?, Option.isSome_none, Bool.and_false, Bool.false_eq_true,
    if_false, List.map_map]
  let body := item ++ [.block inner ⟨"unless", [.reference (.variable 0 "last")], [], []⟩
    [.text [',', ' ']] none]
  have parts (p : Json × Nat) (member : p ∈ items.zipIdx) :
      renderAll bring (s.inner (itemScope [] items.length p.2 p.1)) body =
        .ok (shown p.1 ++ separator items.length p.2) := by
    have found : p.1 ∈ items := by
      rw [← List.zipIdx_map_fst 0 items]
      exact List.mem_map_of_mem member
    exact renderAll_append bring (inside p.1 found _ rfl rfl bring)
      (shows_unless_last inner [] p.1 items.length p.2 bring)
  have joined := flatten_separated (items.map shown) 0
  rw [List.zipIdx_map, List.map_map, List.length_map, Nat.zero_add] at joined
  have all := mapM_map_ok (fun s => renderAll bring s body)
    (s.inner ∘ fun p : Json × Nat => itemScope [] items.length p.2 p.1)
    (fun p : Json × Nat => shown p.1 ++ separator items.length p.2) parts
  simp only [body] at all
  rw [all, ok_bind]
  exact congrArg Except.ok joined

end Parts
section Finding

/-- In sight of a record a name finds the last binding of the name. -/
theorem find_of (bindings : List (String × Json)) (name : String) :
    (Sight.of (Json.ofFields bindings)).find (.way false 0 [name]) =
      .ok (bindings.reverse.lookup name) := by
  rw [← Table.get?_ofList]
  rfl

theorem find_inner (s : Sight) (scope : Scope) :
    (s.inner scope).find (.way false 0 []) = .ok (some scope.base) := rfl

end Finding

end Stevedore.Template

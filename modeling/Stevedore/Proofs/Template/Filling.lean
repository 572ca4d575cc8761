import Stevedore.Proofs.Activity
import Stevedore.Proofs.Json.Flat
import Stevedore.Proofs.Template.Showing
import Mathlib.Data.List.Forall2

/-!
Templates as forms: fixed characters, and holes that are filled with text on one line. What is
filled in does not change the lines of a form.
-/
namespace Stevedore.Template

/-- Characters that are fixed, and holes. -/
abbrev Form := List (Option Char)

/-- The texts that a form gives. -/
inductive Fills : Form → List Char → Prop where
  | nil : Fills [] []
  | char (c : Char) {form : Form} {text : List Char} :
    Fills form text → Fills (some c :: form) (c :: text)
  | hole {piece : List Char} {form : Form} {text : List Char} :
    Flat piece → Fills form text → Fills (none :: form) (piece ++ text)

section Forms
variable {form form' : Form} {text text' : List Char}

theorem fills_append (fills : Fills form text) (fills' : Fills form' text') :
    Fills (form ++ form') (text ++ text') := by
  induction fills with
  | nil => exact fills'
  | char c _ ih => exact .char c ih
  | hole flat _ ih =>
    rw [List.append_assoc]
    exact .hole flat ih

theorem fills_chars (chars : List Char) : Fills (chars.map some) chars := by
  induction chars with
  | nil => exact .nil
  | cons c rest ih => exact .char c ih

theorem fills_hole {piece : List Char} (flat : Flat piece) : Fills [none] piece := by
  rw [← List.append_nil piece]
  exact .hole flat .nil

theorem flat_of_fills (fills : Fills form text) (flat : ∀ c, some c ∈ form → 0x20 ≤ c.toNat) :
    Flat text := by
  induction fills with
  | nil => exact flat_nil
  | char c _ ih =>
    exact flat_cons.mpr ⟨flat c List.mem_cons_self, ih fun c' member => flat c' (.tail _ member)⟩
  | hole piece _ ih => exact flat_append.mpr ⟨piece, ih fun c member => flat c (.tail _ member)⟩

/-- The fixed characters before the first hole. -/
def start (form : Form) : List Char := (form.takeWhile Option.isSome).reduceOption

theorem start_prefix (fills : Fills form text) : start form <+: text := by
  induction fills with
  | nil => exact List.nil_prefix
  | char c _ ih => exact List.cons_prefix_cons.mpr ⟨rfl, ih⟩
  | hole _ _ _ => exact List.nil_prefix

theorem splitOn_append {α : Type} [BEq α] [LawfulBEq α] {separator : α} {piece : List α}
    (absent : separator ∉ piece) (rest : List α) :
    (piece ++ rest).splitOn separator = (rest.splitOn separator).modifyHead (piece ++ ·) := by
  induction piece with
  | nil =>
    rw [List.nil_append]
    cases rest.splitOn separator <;> rfl
  | cons c piece ih =>
    obtain ⟨different, absent⟩ := not_or.mp (List.mem_cons.not.mp absent)
    have test : (c == separator) = false := beq_eq_false_iff_ne.mpr (Ne.symm different)
    rw [List.cons_append, List.splitOn, List.splitOnP_cons_eq_if_modifyHead, test]
    change (List.splitOn separator (piece ++ rest)).modifyHead (c :: ·) = _
    rw [ih absent, List.modifyHead_modifyHead]
    rfl

theorem fills_modifyHead {forms : List Form} {texts : List (List Char)} (fills : Fills form text)
    (each : List.Forall₂ Fills forms texts) :
    List.Forall₂ Fills (forms.modifyHead (form ++ ·)) (texts.modifyHead (text ++ ·)) := by
  cases each with
  | nil => exact .nil
  | cons first others => exact .cons (fills_append fills first) others

/-- Each line of a filled form fills the line of the form. -/
theorem fills_lines (fills : Fills form text) :
    List.Forall₂ Fills (form.splitOn (some '\n')) (text.splitOn '\n') := by
  -- a fixed break opens a line on both sides, and all else goes on with the first line of both
  induction fills with
  | nil => exact .cons .nil .nil
  | @char c form text _ ih =>
    by_cases line : c = '\n'
    · subst line
      exact .cons .nil ih
    · have absent : '\n' ∉ [c] := List.mem_singleton.not.mpr (Ne.symm line)
      have absent' : some '\n' ∉ [some c] :=
        List.mem_singleton.not.mpr fun same => line (Option.some.inj same).symm
      change List.Forall₂ Fills (([some c] ++ form).splitOn _) (([c] ++ text).splitOn _)
      rw [splitOn_append absent, splitOn_append absent']
      exact fills_modifyHead (.char c .nil) ih
  | @hole piece form text flat _ ih =>
    have absent : '\n' ∉ piece := fun member => absurd (flat _ member) (by decide)
    have absent' : some '\n' ∉ [(none : Option Char)] := by simp
    change List.Forall₂ Fills (([none] ++ form).splitOn _) _
    rw [splitOn_append absent, splitOn_append absent']
    exact fills_modifyHead (fills_hole flat) ih

end Forms

namespace Element

def form : Element → Form
  | .text chars => chars.map some
  | _ => [none]

/-- Wherever it is rendered, the element fills its form. -/
def Tame (s : Sight) (e : Element) : Prop :=
  ∀ bring piece, renderElement bring s e = .ok piece → Fills e.form piece

/-- A fixed text, or a bound value as JSON. -/
def isSimple : Element → Bool
  | .text _ => true
  | .call _ ⟨"json", [.reference (.way false 0 _)], [], []⟩ => true
  | _ => false

end Element

section Rendering
variable {s : Sight}

theorem ok_of_placed {α : Type} {at_ : Position} {r : Except Failure α} {value : α}
    (ok : placed at_ r = .ok value) : r = .ok value := by
  cases r with
  | error f => cases ok
  | ok v => exact ok

theorem compute_json_any (value : Option Json) :
    compute "json" [value] = .ok (some (.text (value.getD .null).compact)) := by
  simp [compute, function?]

theorem tame_json (at_ : Position) (names : List String) : (Element.json at_ names).Tame s := by
  intro bring piece ok
  rw [Element.json, renderElement] at ok
  have shown := ok_of_placed ok
  dsimp only at shown
  cases found : s.find (.way false 0 names) with
  | error f =>
    simp only [evaluateAll, evaluate, here, found] at shown
    cases shown
  | ok value =>
    simp only [evaluateAll, evaluate_here found, evaluateOptions, isControl_json, ok_bind, pure_bind,
      Bool.false_eq_true, if_false, compute_json_any] at shown
    obtain rfl := Except.ok.inj shown
    exact fills_hole (Json.flat_compact _)

theorem tame_of_isSimple {e : Element} (simple : e.isSimple = true) : e.Tame s := by
  unfold Element.isSimple at simple
  split at simple
  · intro bring piece ok
    rw [renderElement] at ok
    obtain rfl := Except.ok.inj ok
    exact fills_chars _
  · exact tame_json _ _
  · contradiction

/-- An element gives what it is known to show. -/
theorem piece_of_shows {e : Element} {text piece : List Char}
    {bring : Head → Sight → Except Failure (List Char)} (shows : Shows s [e] (text ++ []))
    (ok : renderElement bring s e = .ok piece) : piece = text := by
  have whole := shows bring
  rw [renderAll, ok] at whole
  simp only [renderAll, ok_bind] at whole
  simpa using Except.ok.inj whole

theorem tame_inline {name : String} {names : List String} {chars : String} (at_ : Position)
    (plain : isHelper name = false)
    (found : s.find (.way false 0 names) = .ok (some (.text chars))) (flat : Flat chars.toList) :
    (Element.inline at_ name names).Tame s := by
  intro bring piece ok
  rw [piece_of_shows (shows_inline at_ plain found shows_nil) ok]
  exact fills_hole flat

/-- What elements give that fill their forms fills the form of all of them. -/
theorem fills_of_renderAll {bring : Head → Sight → Except Failure (List Char)}
    {elements : List Element} {text : List Char} (tame : ∀ e ∈ elements, e.Tame s)
    (ok : renderAll bring s elements = .ok text) : Fills (elements.flatMap Element.form) text := by
  induction elements generalizing text with
  | nil =>
    rw [renderAll] at ok
    obtain rfl := Except.ok.inj ok
    exact .nil
  | cons e rest ih =>
    obtain ⟨first, others⟩ := List.forall_mem_cons.mp tame
    rw [renderAll] at ok
    obtain ⟨piece, shown, ok⟩ := except_bind_ok.mp ok
    obtain ⟨later, rendered, same⟩ := except_bind_ok.mp ok
    obtain rfl := Except.ok.inj same
    exact fills_append (first bring piece shown) (ih others rendered)

theorem last_of_renderAll {bring : Head → Sight → Except Failure (List Char)}
    {elements : List Element} {e : Element} {text : List Char}
    (ok : renderAll bring s (elements ++ [e]) = .ok text) :
    ∃ before piece, renderElement bring s e = .ok piece ∧ text = before ++ piece := by
  induction elements generalizing text with
  | nil =>
    rw [List.nil_append, renderAll] at ok
    obtain ⟨piece, shown, ok⟩ := except_bind_ok.mp ok
    rw [renderAll] at ok
    obtain rfl := Except.ok.inj ok
    exact ⟨[], piece, shown, by simp⟩
  | cons first rest ih =>
    rw [List.cons_append, renderAll] at ok
    obtain ⟨piece, -, ok⟩ := except_bind_ok.mp ok
    obtain ⟨later, rendered, same⟩ := except_bind_ok.mp ok
    obtain rfl := Except.ok.inj same
    obtain ⟨before, last, shown, rfl⟩ := ih rendered
    exact ⟨piece ++ before, last, shown, by rw [List.append_assoc]⟩

end Rendering
end Stevedore.Template

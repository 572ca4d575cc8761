import Stevedore.Proofs.File.Directory

/-!
What joining does to components. A relative text adds its own to those of the path before it, and an
absolute one replaces them, so that two names joined to a root may lead anywhere.
-/
namespace Stevedore.Path

/-- The components that the pieces of a text spell, whatever the text starts with. -/
def steps (text : String) : List Component :=
  ((pieces text.toList).filter fun piece => !isIdle piece).map componentOf

/-- What a relative text adds to the components of a path: a leading dot counts only where nothing
stands before it. -/
def added (p : Path) (text : String) : List Component :=
  if p.text.isEmpty then (⟨text⟩ : Path).components else steps text

theorem filter_body (cs : List Char) : (body cs).filter (fun piece => !isIdle piece) =
    (pieces cs).filter fun piece => !isIdle piece := by
  unfold body head
  split <;> simp [pieces, isIdle]

theorem components_eq_steps (p : Path) :
    p.components = headComponents p.text.toList ++ steps p.text := by
  rw [components, filter_body, steps]

theorem head_append {cs : List Char} (filled : cs ≠ []) (rest : List Char) :
    head (cs ++ '/' :: rest) = head cs := by
  match cs, filled with
  | [c], _ =>
    by_cases slash : c = '/'
    · subst slash
      rfl
    · by_cases dot : c = '.'
      · subst dot
        rfl
      · simp [head, slash, dot]
  | c :: c' :: more, _ =>
    unfold head
    split <;> split <;> simp_all

/-- Before a text that is joined to it, a path that is not empty ends in one more slash, or in its
own. -/
theorem exists_lead {p : Path} (filled : p.text.isEmpty = false) : ∃ before,
    p.lead = before ++ ['/'] ∧
      (∀ rest, head (before ++ '/' :: rest) = head p.text.toList) ∧
      (pieces before).filter (fun piece => !isIdle piece) =
        (pieces p.text.toList).filter fun piece => !isIdle piece := by
  rw [lead, filled, if_neg Bool.false_ne_true]
  split
  · next ended =>
    -- no slash is put in: the last one of the path itself stands behind the rest of it
    obtain ⟨before, split⟩ := List.getLast?_eq_some_iff.mp ended
    refine ⟨before, split, fun rest => ?_, ?_⟩
    · rw [split]
      cases before with
      | nil => rfl
      | cons c more => rw [head_append (by simp), head_append (by simp)]
    · rw [split, pieces_append]
      simp [pieces, isIdle]
  · have solid : p.text.toList ≠ [] := by simpa using filled
    exact ⟨p.text.toList, rfl, head_append solid, rfl⟩

/-- Joining a relative text keeps the components of a path and adds those of the text. -/
theorem components_join (p : Path) {text : String}
    (relative : (⟨text⟩ : Path).isAbsolute = false) :
    (p.join text).components = p.components ++ p.added text := by
  unfold added
  split
  · next empty =>
    have nothing : p.text = "" := by simpa using empty
    have joined : p.join text = ⟨text⟩ := by
      rw [join, empty, Bool.or_true, if_pos rfl]
    rw [joined, components_eq_steps p, nothing]
    rfl
  · next filled =>
    obtain ⟨before, lead, start, solid⟩ := exists_lead (Bool.eq_false_iff.mpr filled)
    have chars : (p.join text).text.toList = before ++ '/' :: text.toList := by
      rw [toList_join_relative p relative, lead, List.append_assoc, List.singleton_append]
    have same : headComponents (before ++ '/' :: text.toList) = headComponents p.text.toList := by
      rw [headComponents, start, headComponents]
    rw [components_eq_steps, components_eq_steps p, steps, chars, same, pieces_append,
      List.filter_append, solid, List.map_append, List.append_assoc]
    rfl

theorem join_absolute (p : Path) {text : String}
    (absolute : (⟨text⟩ : Path).isAbsolute = true) : p.join text = ⟨text⟩ := by
  rw [join, absolute, Bool.true_or, if_pos rfl]

theorem root_not_mem_steps (text : String) : Component.root ∉ steps text := by
  rw [steps, List.mem_map]
  rintro ⟨piece, -, spelled⟩
  unfold componentOf at spelled
  split at spelled <;> contradiction

theorem head_eq_slash_iff {cs : List Char} : head cs = ['/'] ↔ cs.head? = some '/' := by
  cases cs with
  | nil => simp [head]
  | cons c rest =>
    rw [List.head?_cons, Option.some_inj]
    unfold head
    split <;> simp_all

theorem root_mem_components_iff {p : Path} : .root ∈ p.components ↔ p.isAbsolute = true := by
  rw [components_eq_steps, List.mem_append, or_iff_left (root_not_mem_steps p.text), isAbsolute,
    beq_iff_eq, ← head_eq_slash_iff]
  unfold headComponents
  split <;> simp_all

theorem root_not_mem_added (p : Path) {text : String}
    (relative : (⟨text⟩ : Path).isAbsolute = false) : Component.root ∉ p.added text := by
  unfold added
  split
  · rw [root_mem_components_iff, relative]
    exact Bool.false_ne_true
  · exact root_not_mem_steps text

/-- Strictly below a root: at least two components come after its own, and none of them leads up or
starts anew. -/
def LiesBelow (p root : Path) : Prop :=
  ∃ further, p.components = root.components ++ further ∧ 2 ≤ further.length ∧
    .up ∉ further ∧ .root ∉ further

theorem liesBelow_of_split {root p : Path} {further : List Component}
    (split : p.components = root.components ++ further) :
    p.LiesBelow root ↔ 2 ≤ further.length ∧ .up ∉ further ∧ .root ∉ further := by
  constructor
  · rintro ⟨others, split', held⟩
    obtain rfl : further = others := List.append_cancel_left (split.symm.trans split')
    exact held
  · intro held
    exact ⟨further, split, held⟩

instance (p root : Path) : Decidable (p.LiesBelow root) :=
  decidable_of_iff (root.components <+: p.components ∧
    let further := p.components.drop root.components.length
    2 ≤ further.length ∧ .up ∉ further ∧ .root ∉ further) (by
      constructor
      · rintro ⟨led, held⟩
        exact ⟨_, (List.prefix_iff_eq_append.mp led).symm, held⟩
      · rintro ⟨further, split, held⟩
        rw [split, List.drop_left]
        exact ⟨List.prefix_append _ _, held⟩)

/-- Where two names that are joined to a root one after the other lead below it. The last absolute
one counts by itself; without one, the names add two components and none that leads up. -/
def Confined (root : Path) (first second : String) : Prop :=
  if (⟨second⟩ : Path).isAbsolute then (⟨second⟩ : Path).LiesBelow root
  else if (⟨first⟩ : Path).isAbsolute then ((⟨first⟩ : Path).join second).LiesBelow root
  else
    let further := root.added first ++ (root.join first).added second
    2 ≤ further.length ∧ .up ∉ further

instance (root : Path) (first second : String) : Decidable (Confined root first second) :=
  inferInstanceAs (Decidable (ite ..))

theorem liesBelow_join_iff {root : Path} {first second : String} :
    ((root.join first).join second).LiesBelow root ↔ Confined root first second := by
  unfold Confined
  split
  · next absolute => rw [join_absolute _ absolute]
  · next relative =>
    rw [Bool.not_eq_true] at relative
    split
    · next absolute => rw [join_absolute root absolute]
    · next relative' =>
      rw [Bool.not_eq_true] at relative'
      have split : ((root.join first).join second).components =
          root.components ++ (root.added first ++ (root.join first).added second) := by
        rw [components_join _ relative, components_join _ relative', List.append_assoc]
      rw [liesBelow_of_split split]
      have downward : Component.root ∉ root.added first ++ (root.join first).added second := by
        rw [List.mem_append, not_or]
        exact ⟨root_not_mem_added root relative', root_not_mem_added _ relative⟩
      exact and_congr_right fun _ => and_iff_left downward

end Stevedore.Path

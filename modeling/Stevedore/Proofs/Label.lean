import Mathlib.Data.List.DropRight
import Mathlib.Data.List.Infix
import Stevedore.Label
import Stevedore.Proofs.Json.Continuation

/-!
What is left of a text that becomes a label. Of its allowed characters it is the longest piece with
an alphanumeric character at both ends, so that a label in this form stays as it is. Nothing keeps
the piece short: a version is a label that clusters take only if its piece fits.
-/
namespace Stevedore.Label

/-- The characters of a text that may stand in a label. -/
def allowed (value : String) : List Char :=
  value.toList.filter fun c => c.isAlphanum || c ∈ ['-', '_', '.']

/-- There is an alphanumeric character at both ends. -/
def Edged (cs : List Char) : Prop :=
  ∃ some_ : cs ≠ [], (cs.head some_).isAlphanum = true ∧ (cs.getLast some_).isAlphanum = true

/-- A longest piece with an alphanumeric character at both ends. -/
structure LongestEdged (cs piece : List Char) : Prop where
  inside : piece <:+: cs
  edged : Edged piece
  longest : ∀ other, other <:+: cs → Edged other → other.length ≤ piece.length

/-- What clusters take as the value of a label that is not empty. -/
structure IsValue (label : String) : Prop where
  size : 1 ≤ label.length ∧ label.length ≤ 63
  characters : ∀ c ∈ label.toList, c.isAlphanum = true ∨ c ∈ ['-', '_', '.']
  edged : Edged label.toList

theorem isAlphanumeric_eq (c : Char) : isAlphanumeric c = c.isAlphanum := by
  have upper : c.isUpper = ('A' ≤ c && c ≤ 'Z') := Bool.decide_and ('A' ≤ c) (c ≤ 'Z')
  have lower : c.isLower = ('a' ≤ c && c ≤ 'z') := rfl
  have digit : c.isDigit = ('0' ≤ c && c ≤ '9') := rfl
  have split : c.isAlphanum = (c.isUpper || c.isLower || c.isDigit) := rfl
  rw [split, upper, lower, digit, isAlphanumeric, Bool.or_comm ('A' ≤ c && c ≤ 'Z')]

theorem isAllowed_eq (c : Char) : isAllowed c = (c.isAlphanum || c ∈ ['-', '_', '.']) := by
  simp [isAllowed, isAlphanumeric_eq, Bool.or_assoc]

theorem filter_isAllowed (value : String) : value.toList.filter isAllowed = allowed value :=
  List.filter_congr fun c _ => isAllowed_eq c

section Edges
variable {cs piece : List Char}

theorem trimEdges_eq (cs : List Char) :
    trimEdges cs = (cs.dropWhile fun c => !c.isAlphanum).rdropWhile fun c => !c.isAlphanum := by
  simp only [trimEdges, isAlphanumeric_eq]
  rfl

theorem isInfix_trimEdges (cs : List Char) : trimEdges cs <:+: cs := by
  rw [trimEdges_eq]
  exact (List.rdropWhile_prefix _ _).isInfix.trans (List.dropWhile_suffix _).isInfix

theorem edged_trimEdges (some_ : trimEdges cs ≠ []) : Edged (trimEdges cs) := by
  rw [trimEdges_eq] at some_ ⊢
  have start := (List.rdropWhile_prefix _ _).head some_
  have opened := List.head_dropWhile_not _ ((List.rdropWhile_prefix _ _).ne_nil some_)
  have closed := List.rdropWhile_last_not _ _ some_
  refine ⟨some_, ?_, by simpa using closed⟩
  rw [start]
  simpa using opened

theorem trimEdges_eq_nil_iff : trimEdges cs = [] ↔ ∀ c ∈ cs, c.isAlphanum = false := by
  constructor
  · intro none_
    rw [trimEdges_eq, List.rdropWhile_eq_nil_iff] at none_
    by_contra some_
    have rest : cs.dropWhile (fun c => !c.isAlphanum) ≠ [] := by
      simpa [List.dropWhile_eq_nil_iff] using some_
    have opened := List.head_dropWhile_not _ rest
    rw [none_ _ (List.head_mem rest)] at opened
    contradiction
  · intro none_
    by_contra some_
    obtain ⟨some_, first, -⟩ := edged_trimEdges some_
    rw [none_ _ ((isInfix_trimEdges cs).mem (List.head_mem some_))] at first
    contradiction

/-- Nothing is dropped from within a piece whose first character stays. -/
theorem infix_dropWhile {q : Char → Bool} (inside : piece <:+: cs)
    (first : ∀ c ∈ piece.head?, q c = false) : piece <:+: cs.dropWhile q := by
  obtain ⟨before, after, rfl⟩ := inside
  cases piece with
  | nil => exact List.nil_infix
  | cons c piece =>
    rw [List.append_assoc, Json.dropWhile_append_of_stop before (by simpa using first)]
    exact ⟨before.dropWhile q, after, by rw [List.append_assoc]⟩

theorem within_trimEdges (inside : piece <:+: cs) (edged : Edged piece) :
    piece <:+: trimEdges cs := by
  obtain ⟨some_, first, last⟩ := edged
  rw [trimEdges_eq]
  have opened : piece <:+: cs.dropWhile fun c => !c.isAlphanum := by
    refine infix_dropWhile inside fun c held => ?_
    rw [List.head?_eq_some_head some_, Option.mem_some_iff] at held
    rw [← held, first]
    rfl
  refine List.reverse_infix.mp ?_
  rw [List.rdropWhile, List.reverse_reverse]
  refine infix_dropWhile (List.reverse_infix.mpr opened) fun c held => ?_
  rw [List.head?_reverse, List.getLast?_eq_some_getLast some_, Option.mem_some_iff] at held
  rw [← held, last]
  rfl

theorem trimEdges_of_edged (edged : Edged cs) : trimEdges cs = cs :=
  (isInfix_trimEdges cs).eq_of_length_le (within_trimEdges (List.infix_refl cs) edged).length_le

/-- What trimming leaves is the only longest piece, if there is one. -/
theorem longestEdged_iff : LongestEdged cs piece ↔ piece = trimEdges cs ∧ piece ≠ [] := by
  constructor
  · rintro ⟨inside, edged, longest⟩
    have within := within_trimEdges inside edged
    have some_ : trimEdges cs ≠ [] := by
      intro none_
      rw [none_, List.infix_nil] at within
      exact edged.1 within
    have whole := longest _ (isInfix_trimEdges cs) (edged_trimEdges some_)
    exact ⟨within.eq_of_length_le whole, edged.1⟩
  · rintro ⟨rfl, some_⟩
    exact ⟨isInfix_trimEdges cs, edged_trimEdges some_,
      fun other inside edged => (within_trimEdges inside edged).length_le⟩

end Edges

section Sanitized
variable {value : String}

theorem toList_sanitize (value : String) : (sanitize value).toList = trimEdges (allowed value) := by
  rw [sanitize, String.toList_ofList, filter_isAllowed]

theorem allowed_of_mem_sanitize {c : Char} (member : c ∈ (sanitize value).toList) :
    c.isAlphanum = true ∨ c ∈ ['-', '_', '.'] := by
  rw [toList_sanitize] at member
  have kept := (List.mem_filter.mp ((isInfix_trimEdges _).mem member)).2
  rwa [Bool.or_eq_true, decide_eq_true_eq] at kept

theorem sanitize_eq_empty_iff : sanitize value = "" ↔ ∀ c ∈ value.toList, c.isAlphanum = false := by
  rw [← String.toList_eq_nil_iff, toList_sanitize, trimEdges_eq_nil_iff]
  refine forall_congr' fun c => ⟨fun none_ member => ?_, fun none_ member => ?_⟩
  · by_contra some_
    have alphanumeric : c.isAlphanum = true := by simpa using some_
    exact some_ (none_ (List.mem_filter.mpr ⟨member, by simp [alphanumeric]⟩))
  · exact none_ (List.mem_filter.mp member).1

theorem sanitize_eq_self_iff : sanitize value = value ↔ value = "" ∨
    (∀ c ∈ value.toList, c.isAlphanum = true ∨ c ∈ ['-', '_', '.']) ∧ Edged value.toList := by
  constructor
  · intro same
    refine or_iff_not_imp_left.mpr fun some_ => ⟨fun c member => ?_, ?_⟩
    · rw [← same] at member
      exact allowed_of_mem_sanitize member
    · have shown := toList_sanitize value
      rw [same] at shown
      rw [shown]
      refine edged_trimEdges ?_
      rwa [← shown, ne_eq, String.toList_eq_nil_iff]
  · rintro (rfl | ⟨all, edged⟩)
    · rfl
    · have kept : allowed value = value.toList :=
        List.filter_eq_self.mpr fun c member => by simpa using all c member
      rw [← String.toList_inj, toList_sanitize, kept, trimEdges_of_edged edged]

theorem edged_sanitize (some_ : sanitize value ≠ "") : Edged (sanitize value).toList := by
  rw [ne_eq, ← String.toList_eq_nil_iff, toList_sanitize] at some_
  rw [toList_sanitize]
  exact edged_trimEdges some_

theorem sanitize_sanitize (value : String) : sanitize (sanitize value) = sanitize value :=
  sanitize_eq_self_iff.mpr (or_iff_not_imp_left.mpr fun some_ =>
    ⟨fun _ member => allowed_of_mem_sanitize member, edged_sanitize some_⟩)

/-- Sanitizing finds the longest piece of the allowed characters with an alphanumeric character at
both ends, and leaves a text alone exactly when it has this form. -/
theorem sanitize_longest_piece (value : String) :
    (∀ piece, LongestEdged (allowed value) piece ↔
      piece = (sanitize value).toList ∧ sanitize value ≠ "") ∧
    (sanitize value = "" ↔ ∀ c ∈ value.toList, c.isAlphanum = false) ∧
    sanitize (sanitize value) = sanitize value ∧
    (sanitize value = value ↔ value = "" ∨
      (∀ c ∈ value.toList, c.isAlphanum = true ∨ c ∈ ['-', '_', '.']) ∧ Edged value.toList) := by
  refine ⟨fun piece => ?_, sanitize_eq_empty_iff, sanitize_sanitize value, sanitize_eq_self_iff⟩
  rw [longestEdged_iff, ← toList_sanitize]
  refine and_congr_right fun same => ?_
  rw [same]
  exact not_congr String.toList_eq_nil_iff

example : sanitize "é-1.0_½+rc--" = "1.0_rc" := by decide +kernel

end Sanitized

section Versions

theorem ofVersion_eq (version : String) :
    ofVersion version = if sanitize version = "" then "unknown" else sanitize version := by
  simp only [ofVersion, String.isEmpty_iff]

/-- In all but its length the label of a version is one that clusters take. -/
theorem formed_ofVersion (version : String) :
    1 ≤ (ofVersion version).length ∧
    (∀ c ∈ (ofVersion version).toList, c.isAlphanum = true ∨ c ∈ ['-', '_', '.']) ∧
      Edged (ofVersion version).toList := by
  have edged : Edged (ofVersion version).toList := by
    rw [ofVersion_eq]
    split
    · exact ⟨by simp, by decide, by decide⟩
    · next some_ => exact edged_sanitize some_
  refine ⟨?_, ?_, edged⟩
  · rw [← String.length_toList]
    exact List.length_pos_iff.mpr edged.1
  · rw [ofVersion_eq]
    split
    · simp
    · exact fun c member => allowed_of_mem_sanitize member

theorem length_ofVersion_le_iff (version : String) : (ofVersion version).length ≤ 63 ↔
    ∀ piece, piece <:+: allowed version → Edged piece → piece.length ≤ 63 := by
  have within {piece : List Char} (inside : piece <:+: allowed version) (edged : Edged piece) :
      piece <:+: (sanitize version).toList := by
    rw [toList_sanitize]
    exact within_trimEdges inside edged
  rw [ofVersion_eq]
  split
  · next none_ =>
    refine iff_of_true (by decide) fun piece inside edged => absurd (within inside edged) ?_
    simpa [none_] using edged.1
  · next some_ =>
    rw [← String.length_toList]
    constructor
    · exact fun short piece inside edged => (within inside edged).length_le.trans short
    · intro short
      refine short _ ?_ (edged_sanitize some_)
      rw [toList_sanitize]
      exact isInfix_trimEdges _

end Versions
end Stevedore.Label

import Stevedore.Json.Printer
import Stevedore.Proofs.Json.Number

/-! A JSON value stays on one line: whatever its texts are, no control character is written. -/
namespace Stevedore

/-- Text without control characters. -/
def Flat (cs : List Char) : Prop := ∀ c ∈ cs, 0x20 ≤ c.toNat

instance : DecidablePred Flat := List.decidableBAll fun c : Char => 0x20 ≤ c.toNat

section Building
variable {c : Char} {cs rest : List Char}

@[simp] theorem flat_nil : Flat [] := List.forall_mem_nil _

@[simp] theorem flat_cons : Flat (c :: cs) ↔ 0x20 ≤ c.toNat ∧ Flat cs := List.forall_mem_cons

@[simp] theorem flat_append : Flat (cs ++ rest) ↔ Flat cs ∧ Flat rest := List.forall_mem_append

theorem Flat.sublist (flat : Flat cs) (part : List.Sublist rest cs) : Flat rest :=
  fun c member => flat c (part.subset member)

theorem flat_flatMap {α : Type} {f : α → List Char} {items : List α}
    (each : ∀ a ∈ items, Flat (f a)) : Flat (items.flatMap f) := by
  intro c member
  obtain ⟨a, held, inside⟩ := List.mem_flatMap.mp member
  exact each a held c inside

abbrev AllFlat (pieces : List (List Char)) : Prop := ∀ piece ∈ pieces, Flat piece

theorem allFlat_nil : AllFlat [] := List.forall_mem_nil _

theorem allFlat_cons {pieces : List (List Char)} (first : Flat cs) (others : AllFlat pieces) :
    AllFlat (cs :: pieces) := List.forall_mem_cons.mpr ⟨first, others⟩

theorem allFlat_append {pieces others : List (List Char)} (first : AllFlat pieces)
    (second : AllFlat others) : AllFlat (pieces ++ others) :=
  List.forall_mem_append.mpr ⟨first, second⟩

theorem flat_joinWith {between : List Char} (flat : Flat between) {pieces : List (List Char)}
    (each : AllFlat pieces) : Flat (Json.joinWith between pieces) := by
  induction pieces with
  | nil => exact flat_nil
  | cons piece rest ih =>
    obtain ⟨first, others⟩ := List.forall_mem_cons.mp each
    cases rest with
    | nil => exact first
    | cons next rest =>
      have joined : Flat (piece ++ between ++ Json.joinWith between (next :: rest)) :=
        flat_append.mpr ⟨flat_append.mpr ⟨first, flat⟩, ih others⟩
      exact joined

end Building

section Numbers
open Decimal

theorem flat_toDigits (n : Nat) : Flat (Nat.toDigits 10 n) := by
  intro c member
  have digit := Json.isDigit_toDigits member
  simp only [Char.isDigit, Bool.and_eq_true, decide_eq_true_eq] at digit
  exact le_trans (by decide) (UInt32.le_iff_toNat_le.mp digit.1)

theorem flat_zeros (n : Nat) : Flat (zeros n) := by
  intro c member
  rw [List.eq_of_mem_replicate member]
  decide

theorem flat_size (layout : Layout) (s : Scaled) : Flat (layout.size s) := by
  have digits := flat_toDigits s.digits
  have whole (n : Nat) : Flat ((Nat.toDigits 10 s.digits).take n) :=
    digits.sublist (List.take_sublist _ _)
  have fraction (n : Nat) : Flat ((Nat.toDigits 10 s.digits).drop n) :=
    digits.sublist (List.drop_sublist _ _)
  have later : Flat (Nat.toDigits 10 s.digits).tail := digits.sublist (List.tail_sublist _)
  unfold Layout.size
  dsimp only
  split_ifs <;> simp [digits, whole, fraction, later, flat_toDigits, flat_zeros]

theorem flat_float (layout : Layout) (x : Binary64) : Flat (layout.write x) := by
  rw [Layout.write, flat_append]
  refine ⟨?_, flat_size layout _⟩
  split_ifs <;> decide

end Numbers

namespace Json
open Text

theorem flat_writeInteger (n : Int) : Flat (writeInteger n) := by
  unfold writeInteger
  split
  · exact flat_cons.mpr ⟨by decide, flat_toDigits _⟩
  · exact flat_toDigits _

theorem flat_hexadecimal (width n : Nat) : Flat (hexadecimal width n) := by
  induction width with
  | zero => exact flat_nil
  | succ width ih =>
    have digit : ∀ k < 16, 0x20 ≤ (hexDigit k).toNat := by decide
    exact flat_cons.mpr ⟨digit _ (Nat.mod_lt _ (by decide)), ih⟩

theorem flat_escapedChar (c : Char) : Flat (escapedChar c) := by
  unfold escapedChar
  split_ifs with quote slash printed
  · decide
  · decide
  · exact flat_cons.mpr ⟨printed, flat_nil⟩
  · decide
  · decide
  · decide
  · decide
  · decide
  · exact flat_cons.mpr ⟨by decide, flat_cons.mpr ⟨by decide, flat_hexadecimal 4 _⟩⟩

theorem flat_writeText (s : String) : Flat (writeText s) := by
  have inside : Flat (s.toList.flatMap escapedChar) := flat_flatMap fun c _ => flat_escapedChar c
  simp [writeText, inside]

mutual

theorem flat_write : (v : Json) → Flat v.write
  | .null => by decide
  | .bool true => by decide
  | .bool false => by decide
  | .integer n => by
    rw [write]
    exact flat_writeInteger n
  | .float x => by
    rw [write]
    exact flat_float .json x
  | .text s => by
    rw [write]
    exact flat_writeText s
  | .list items => by
    have inside := flat_joinWith (show Flat [','] by decide) (flat_writeItems items)
    simp [write, inside]
  | .record fields => by
    have inside := flat_joinWith (show Flat [','] by decide) (flat_writeFields fields)
    simp [write, inside]

theorem flat_writeItems : (items : List Json) → AllFlat (writeItems items)
  | [] => allFlat_nil
  | v :: rest => allFlat_cons (flat_write v) (flat_writeItems rest)

theorem flat_writeFields : (fields : List (String × Json)) → AllFlat (writeFields fields)
  | [] => allFlat_nil
  | (name, v) :: rest => by
    refine allFlat_cons ?_ (flat_writeFields rest)
    rw [flat_append, flat_cons]
    exact ⟨flat_writeText name, by decide, flat_write v⟩

end

theorem flat_compact (v : Json) : Flat v.compact.toList := by
  rw [compact, String.toList_ofList]
  exact flat_write v

end Json
end Stevedore

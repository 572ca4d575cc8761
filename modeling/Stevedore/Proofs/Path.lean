import Stevedore.Bundle.Basic
import Stevedore.Proofs.File.Directory
import Mathlib.Data.List.TakeWhile

/-!
The directory and the name of an absolute path. The directory is cut from the text of the path and
the name from its components, and what they make together has the components of the path.
-/
namespace Stevedore.Path

/-- Pieces that each end at a slash, and one more piece behind them. -/
theorem pieces_flatMap {parts : List (List Char)} {cs : List Char}
    (plain : ∀ piece ∈ parts, '/' ∉ piece) (last : '/' ∉ cs) :
    pieces (parts.flatMap (· ++ ['/']) ++ cs) = parts ++ [cs] := by
  induction parts with
  | nil => exact pieces_of_plain last
  | cons piece rest ih =>
    have later := ih fun other member => plain other (List.mem_cons_of_mem _ member)
    rw [List.flatMap_cons, List.append_assoc, List.append_assoc, List.singleton_append,
      pieces_append, pieces_of_plain (plain piece List.mem_cons_self), later]
    rfl

theorem joinPieces_append (front : List (List Char)) (piece : List Char) :
    joinPieces (front ++ [piece]) = front.flatMap (· ++ ['/']) ++ piece := by
  induction front with
  | nil => rfl
  | cons first rest ih =>
    have more : rest ++ [piece] ≠ [] := by simp
    rw [List.cons_append, joinPieces, ih, List.flatMap_cons]
    · simp
    · exact more

theorem filter_trimmed (parts : List (List Char)) :
    (parts.reverse.dropWhile isIdle).reverse.filter (fun piece => !isIdle piece) =
      parts.filter fun piece => !isIdle piece := by
  have idle : (parts.reverse.takeWhile isIdle).filter (fun piece => !isIdle piece) = [] := by
    refine List.filter_eq_nil_iff.mpr fun piece member => ?_
    simpa using List.mem_takeWhile_imp member
  have whole := congrArg (List.filter fun piece => !isIdle piece)
    (List.takeWhile_append_dropWhile (p := isIdle) (l := parts.reverse))
  rw [List.filter_append, idle, List.nil_append] at whole
  rw [List.filter_reverse, whole, ← List.filter_reverse, List.reverse_reverse]

theorem withoutLast_eq {before after : List (List Char)} {piece : List Char}
    (solid : isIdle piece = false) (idle : ∀ other ∈ after, isIdle other = true) :
    withoutLast (before ++ piece :: after) = some (before.reverse.dropWhile isIdle).reverse := by
  have found : (before ++ piece :: after).reverse.dropWhile isIdle = piece :: before.reverse := by
    rw [List.reverse_append, List.reverse_cons, List.append_assoc,
      List.dropWhile_append_of_pos (fun other member => idle other (List.mem_reverse.mp member))]
    simp [solid]
  rw [withoutLast, found]

section Absolute
variable {p : Path} {cs : List Char}

theorem exists_rest (absolute : p.isAbsolute = true) : ∃ cs, p.text.toList = '/' :: cs := by
  obtain ⟨cs, start⟩ := List.head?_eq_some_iff.mp (eq_of_beq absolute)
  exact ⟨cs, start⟩

theorem components_eq (start : p.text.toList = '/' :: cs) : p.components =
    .root :: ((pieces cs).filter fun piece => !isIdle piece).map componentOf := by
  simp [components, headComponents, body, head, start]

/-- Where the last component is a name, idle pieces may come after the piece that spells it. -/
theorem exists_pieces (start : p.text.toList = '/' :: cs) {name : List Char}
    (named : p.components.getLast? = some (.name name)) : ∃ before after,
      pieces cs = before ++ name :: after ∧ (∀ other ∈ after, isIdle other = true) ∧
      isIdle name = false := by
  rw [components_eq start, List.getLast?_cons, List.getLast?_map, Option.some_inj] at named
  cases last : ((pieces cs).filter fun piece => !isIdle piece).getLast? with
  | none => simp [last] at named
  | some piece =>
    have spelled : componentOf piece = .name name := by simpa [last] using named
    obtain rfl : piece = name := by
      unfold componentOf at spelled
      split at spelled
      · contradiction
      · exact Component.name.inj spelled
    obtain ⟨front, split⟩ := List.getLast?_eq_some_iff.mp last
    obtain ⟨first, second, whole, -, tail⟩ := List.filter_eq_append_iff.mp split
    obtain ⟨between, after, rfl, -, solid, ended⟩ := List.filter_eq_cons_iff.mp tail
    refine ⟨first ++ between, after, by rw [whole, List.append_assoc], ?_, by simpa using solid⟩
    intro other member
    simpa using List.filter_eq_nil_iff.mp ended other member

theorem directory_eq (start : p.text.toList = '/' :: cs) {parts : List (List Char)}
    (without : withoutLast (pieces cs) = some parts) :
    p.directory = String.ofList ('/' :: joinPieces parts) := by
  have cut : p.parent? = some ⟨String.ofList ('/' :: joinPieces parts)⟩ := by
    simp [parent?, body, head, start, without]
  rw [directory, cut]
  simp

/-- Before a name that is joined to it, a directory has a slash behind each of its pieces. -/
theorem lead_directory {parts : List (List Char)} (plain : ∀ piece ∈ parts, '/' ∉ piece)
    (solid : ∀ piece ∈ parts.getLast?, isIdle piece = false) :
    (⟨String.ofList ('/' :: joinPieces parts)⟩ : Path).lead =
      '/' :: parts.flatMap (· ++ ['/']) := by
  have full : (String.ofList ('/' :: joinPieces parts)).isEmpty = false := by simp
  rw [lead, full, if_neg Bool.false_ne_true, String.toList_ofList]
  cases last : parts.getLast? with
  | none =>
    rw [List.getLast?_eq_none_iff.mp last]
    rfl
  | some piece =>
    obtain ⟨front, rfl⟩ := List.getLast?_eq_some_iff.mp last
    have filled : piece ≠ [] := by
      rintro rfl
      simpa [isIdle] using solid [] last
    have unended : ('/' :: joinPieces (front ++ [piece])).getLast? ≠ some '/' := by
      rw [joinPieces_append, ← List.cons_append, List.getLast?_append_of_ne_nil _ filled]
      intro ended
      exact plain piece (by simp) (List.mem_of_getLast? ended)
    rw [if_neg unended, joinPieces_append]
    simp

/-- The directory keeps the pieces before the name, less idle ones at their end. -/
theorem exists_directory_pieces (start : p.text.toList = '/' :: cs)
    {before after : List (List Char)} {name : List Char}
    (split : pieces cs = before ++ name :: after) (solid : isIdle name = false)
    (idle : ∀ other ∈ after, isIdle other = true) : ∃ parts : List (List Char),
      (⟨p.directory⟩ : Path).lead = '/' :: parts.flatMap (· ++ ['/']) ∧
      (∀ piece ∈ parts, '/' ∉ piece) ∧
      parts.filter (fun piece => !isIdle piece) = before.filter fun piece => !isIdle piece := by
  have kept : ∀ piece ∈ (before.reverse.dropWhile isIdle).reverse, '/' ∉ piece := by
    intro piece member
    have inside : piece ∈ before :=
      List.mem_reverse.mp ((List.dropWhile_sublist _).mem (List.mem_reverse.mp member))
    exact plain_of_mem_pieces (split ▸ List.mem_append_left _ inside)
  have ended : ∀ piece ∈ (before.reverse.dropWhile isIdle).reverse.getLast?,
      isIdle piece = false := by
    intro piece last
    have stopped := List.head?_dropWhile_not isIdle before.reverse
    rw [← List.getLast?_reverse, Option.mem_def.mp last] at stopped
    exact stopped
  refine ⟨_, ?_, kept, filter_trimmed before⟩
  rw [directory_eq start (split ▸ withoutLast_eq solid idle), lead_directory kept ended]

theorem name_of_last (absolute : p.isAbsolute = true) {name : List Char}
    (named : p.components.getLast? = some (.name name)) : name ≠ [] ∧ '/' ∉ name := by
  obtain ⟨cs, start⟩ := exists_rest absolute
  obtain ⟨before, after, split, -, solid⟩ := exists_pieces start named
  constructor
  · rintro rfl
    simp [isIdle] at solid
  · exact plain_of_mem_pieces (split ▸ (by simp : name ∈ before ++ name :: after))

theorem components_join_directory (absolute : p.isAbsolute = true) {name : List Char}
    (named : p.components.getLast? = some (.name name)) :
    ((⟨p.directory⟩ : Path).join (String.ofList name)).components = p.components := by
  obtain ⟨cs, start⟩ := exists_rest absolute
  obtain ⟨before, after, split, idle, solid⟩ := exists_pieces start named
  obtain ⟨parts, lead, kept, same⟩ := exists_directory_pieces start split solid idle
  have plain : '/' ∉ name := (name_of_last absolute named).2
  have joined : ((⟨p.directory⟩ : Path).join (String.ofList name)).text.toList =
      '/' :: (parts.flatMap (· ++ ['/']) ++ name) := by
    rw [toList_join _ (by simpa using plain), lead, String.toList_ofList, List.cons_append]
  have rest : after.filter (fun piece => !isIdle piece) = [] :=
    List.filter_eq_nil_iff.mpr fun piece member => by simp [idle piece member]
  rw [components_eq joined, components_eq start, pieces_flatMap kept plain, split,
    List.filter_append, List.filter_append, same]
  simp [solid, rest]

theorem fileName_of_last {name : List Char} (source : Path)
    (named : p.components.getLast? = some (.name name)) :
    (⟨source, p⟩ : MountPair).fileName = String.ofList name := by
  simp [MountPair.fileName, fileName?, named]

end Absolute

/-- A file with an absolute destination that ends in a name appears there: its bundle is mounted at
the directory of the destination, and under that directory its key leads to the components of the
destination. The key is one name, and destinations with the same directory and key are the same. -/
theorem mounted_where_declared (p source : Path) (name : List Char)
    (absolute : p.isAbsolute = true) (named : p.components.getLast? = some (.name name)) :
    ((⟨p.directory⟩ : Path).join (⟨source, p⟩ : MountPair).fileName).components = p.components ∧
    (⟨source, p⟩ : MountPair).fileName ≠ "" ∧
    '/' ∉ (⟨source, p⟩ : MountPair).fileName.toList ∧
    ∀ (q other : Path) (name' : List Char), q.isAbsolute = true →
      q.components.getLast? = some (.name name') → q.directory = p.directory →
      (⟨other, q⟩ : MountPair).fileName = (⟨source, p⟩ : MountPair).fileName →
      q.components = p.components := by
  have own := fileName_of_last source named
  obtain ⟨filled, plain⟩ := name_of_last absolute named
  rw [own]
  refine ⟨components_join_directory absolute named, ?_, ?_, ?_⟩
  · simpa using filled
  · simpa using plain
  · intro q other name' absolute' named' directory key
    rw [fileName_of_last other named'] at key
    rw [← components_join_directory absolute' named', ← components_join_directory absolute named,
      directory, key]

/-- Two spellings of one path. -/
def crookedPath : Path := ⟨"//srv/./web/..//app.yml/."⟩

def plainerPath : Path := ⟨"//srv/./web/../app.yml"⟩

theorem crooked_mounted_where_declared : crookedPath.isAbsolute = true ∧
    crookedPath.components.getLast? = some (.name "app.yml".toList) ∧
    crookedPath.directory = "//srv/./web/.." ∧
    ((⟨crookedPath.directory⟩ : Path).join (⟨⟨"staging/app.yml"⟩, crookedPath⟩ :
      MountPair).fileName).components = crookedPath.components ∧
    plainerPath.components = crookedPath.components := by
  have absolute : crookedPath.isAbsolute = true := by decide +kernel
  have named : crookedPath.components.getLast? = some (.name "app.yml".toList) := by
    decide +kernel
  obtain ⟨joined, -, -, same⟩ := mounted_where_declared crookedPath ⟨"staging/app.yml"⟩
    "app.yml".toList absolute named
  refine ⟨absolute, named, by decide +kernel, joined, ?_⟩
  exact same plainerPath ⟨"staging/app.yml"⟩ "app.yml".toList (by decide +kernel)
    (by decide +kernel) (by decide +kernel) (by decide +kernel)

end Stevedore.Path

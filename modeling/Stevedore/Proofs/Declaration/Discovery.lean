import Stevedore.Declaration.Loading

/-!
Deployment files that are found and those that are named. A named file is read whether it is there or
not, while discovery passes over a variable that names no file.
-/
namespace Stevedore

theorem File.Tree.readText_of_missing {t : Tree} {p : Path} (missing : t.exists? p = false) :
    ∃ fault, t.readText p = .error fault := by
  rw [exists?] at missing
  rw [readText, read]
  cases located : t.locate p with
  | error fault => exact ⟨fault, rfl⟩
  | ok l =>
    rw [located] at missing
    have absent : t.entryAt l = none := by simpa using missing
    refine ⟨.notFound, ?_⟩
    simp only [bind, Except.bind, absent]

/-- Errors of one kind, whatever they say about it. -/
def LoadError.SameKind : LoadError → LoadError → Prop
  | .read _ _, .read _ _ | .unfit, .unfit | .notFound, .notFound | .invalid _, .invalid _ => True
  | _, _ => False

namespace Declaration
variable {s : Surroundings} {tree : File.Tree}

/-- The same declaration is loaded, or loading fails for the same kind of reason. -/
def LoadedAlike : Except LoadError Declaration → Except LoadError Declaration → Prop
  | .ok d, .ok d' => d = d'
  | .error e, .error e' => e.SameKind e'
  | _, _ => False

theorem loadedAlike_refl (r : Except LoadError Declaration) : LoadedAlike r r := by
  cases r with
  | ok d => exact rfl
  | error e => cases e <;> trivial

theorem loadedAlike_read_iff {path : Path} {fault : File.Fault}
    {r : Except LoadError Declaration} : LoadedAlike (.error (.read path fault)) r ↔
      ∃ path' fault', r = .error (.read path' fault') := by
  constructor
  · intro alike
    cases r with
    | ok d => exact alike.elim
    | error e =>
      cases e with
      | read path' fault' => exact ⟨path', fault', rfl⟩
      | unfit | notFound | invalid => exact alike.elim
  · rintro ⟨path', fault', rfl⟩
    trivial

theorem load_discovered {path : Path} (found : s.discover? tree = some path) :
    load s tree none = load s tree (some path) := by
  rw [load, load, found]
  rfl

theorem load_of_missing {path : Path} (missing : tree.exists? path = false) :
    ∃ fault, load s tree (some path) = .error (.read path fault) := by
  obtain ⟨fault, read⟩ := File.Tree.readText_of_missing missing
  refine ⟨fault, ?_⟩
  have unread : readFile tree path = .error (.read path fault) := by rw [readFile, read]
  change (readFile tree path >>= fun d => _) = _
  rw [unread]
  rfl

/-- What the variable names is what discovery finds just if it is there. -/
theorem loadedAlike_iff (s : Surroundings) (tree : File.Tree) :
    LoadedAlike (load s tree ((s.value? Surroundings.configPathVariable).map Path.mk))
        (load s tree none) ↔
      (∀ name, s.value? Surroundings.configPathVariable = some name → tree.exists? ⟨name⟩) ∨
        ∃ path fault, load s tree none = .error (.read path fault) := by
  cases named : s.value? Surroundings.configPathVariable with
  | none => simp [loadedAlike_refl]
  | some name =>
    rw [Option.map_some]
    cases there : tree.exists? ⟨name⟩ with
    | true =>
      have found : s.discover? tree = some ⟨name⟩ := by
        simp [Surroundings.discover?, Surroundings.configPaths, named, there]
      simp [load_discovered found, loadedAlike_refl, there]
    | false =>
      obtain ⟨fault, failed⟩ := load_of_missing (s := s) there
      rw [failed, loadedAlike_read_iff]
      simp [there]

end Declaration
end Stevedore

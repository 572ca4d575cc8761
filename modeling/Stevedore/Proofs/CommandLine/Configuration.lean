import Stevedore.Command.Reach
import Stevedore.Program
import Stevedore.Proofs.Activity
import Stevedore.Proofs.Declaration.Discovery
import Stevedore.Proofs.Table

/-!
Which deployment file a command line means. Where the line names none, the variable that stands in for
the option names it, and is then no longer one of the places where discovery looks.
-/
namespace Stevedore
namespace CommandLine

namespace Given
variable {environment : String → Option String} {g g' : Given} {p q : Parameter}

theorem setting?_count {v : Setting} (ok : g.count p v = .ok g') :
    g'.setting? q = if q.name = p.name then some v else g.setting? q := by
  unfold count at ok
  split at ok
  · contradiction
  · split at ok
    · contradiction
    · obtain rfl := Except.ok.inj ok
      exact Table.lookup_cons_eq _ _ _ _

/-- A variable stands in for its own parameter only, and only if that is not given. -/
theorem setting?_standIn (ok : g.standIn environment p = .ok g') :
    g'.setting? q = if q.name = p.name then
      (g.setting? p).or ((p.standIn.bind environment).map (⟨·, false⟩)) else g.setting? q := by
  have self : (if q.name = p.name then g.setting? p else g.setting? q) = g.setting? q := by
    split
    · next same => rw [setting?, setting?, same]
    · rfl
  unfold standIn at ok
  cases given : p.standIn.bind environment with
  | none =>
    rw [given] at ok
    obtain rfl := Except.ok.inj ok
    simp [self]
  | some value =>
    rw [given] at ok
    change (if g.isGiven p = true then _ else _) = _ at ok
    split at ok
    · next isGiven =>
      obtain ⟨v, held⟩ := Option.isSome_iff_exists.mp isGiven
      obtain rfl := Except.ok.inj ok
      simpa [held] using self.symm
    · next absent =>
      have held : g.setting? p = none := by simpa [isGiven] using absent
      simp [setting?_count ok, held]

theorem setting?_foldlM {ps : List Parameter} (other : ∀ p ∈ ps, q.name ≠ p.name)
    (ok : ps.foldlM (standIn environment) g = .ok g') : g'.setting? q = g.setting? q := by
  induction ps generalizing g with
  | nil =>
    obtain rfl := Except.ok.inj ok
    rfl
  | cons p rest ih =>
    rw [List.foldlM_cons] at ok
    obtain ⟨next, stood, ok⟩ := except_bind_ok.mp ok
    rw [ih (fun p member => other p (List.mem_cons_of_mem _ member)) ok, setting?_standIn stood,
      if_neg (other p List.mem_cons_self)]

theorem complete_config {l : Level} (ok : g.complete environment l = .ok g') :
    g'.setting? configOption = (g.setting? configOption).or
      ((environment Surroundings.configPathVariable).map (⟨·, false⟩)) := by
  have other : ∀ p ∈ logLevelOption :: l.ownOptions, configOption.name ≠ p.name := by
    cases l <;> decide
  rw [complete, Level.options, List.foldlM_cons] at ok
  obtain ⟨next, stood, ok⟩ := except_bind_ok.mp ok
  rw [setting?_foldlM other ok, setting?_standIn stood, if_pos rfl]
  rfl

theorem complete_operand {l : Level} (ok : g.complete environment l = .ok g') :
    g'.setting? fileOperand = g.setting? fileOperand := by
  have other : ∀ p ∈ l.options, fileOperand.name ≠ p.name := by cases l <;> decide
  exact setting?_foldlM other ok

/-- An empty variable is no path. -/
theorem complete_empty (absent : g.isGiven configOption = false)
    (empty : environment Surroundings.configPathVariable = some "") (l : Level) :
    g.complete environment l = .error .usage := by
  have uncounted : g.count configOption ⟨"", false⟩ = .error .usage := by
    rw [count, absent]
    rfl
  have stands : g.standIn environment configOption = .error .usage := by
    have named : configOption.standIn.bind environment = some "" := empty
    rw [standIn, named]
    change (if g.isGiven configOption = true then _ else _) = _
    rw [if_neg (by simp [absent]), uncounted]
  rw [complete, Level.options, List.foldlM_cons, stands]
  rfl

end Given

theorem foldl_kept {α β : Type} {f : β → α → β} {b : β} {items : List α}
    (kept : ∀ a ∈ items, f b a = b) : items.foldl f b = b := by
  induction items with
  | nil => rfl
  | cons a rest ih =>
    rw [List.foldl_cons, kept a List.mem_cons_self]
    exact ih fun a member => kept a (List.mem_cons_of_mem _ member)

theorem innermost_same {p : Parameter} {v : Option Setting} {levels : List Given}
    (filled : levels ≠ []) (same : ∀ g ∈ levels, g.setting? p = v) : innermost p levels = v := by
  obtain ⟨first, rest, rfl⟩ := List.exists_cons_of_ne_nil filled
  obtain ⟨here, later⟩ := List.forall_mem_cons.mp same
  rw [innermost, List.foldl_cons, here]
  cases v with
  | none => exact foldl_kept fun g member => by rw [later g member]
  | some v =>
    refine foldl_kept fun g member => ?_
    rw [later g member]
    exact ite_self _

theorem commandOf_config {l : Level} {g : Given} {c : Command} (ok : commandOf l g = .ok c)
    (absent : g.setting? fileOperand = none) (config : Option Path) :
    c.configOf config = config := by
  cases l with
  | program | config => contradiction
  | connect =>
    cases named : g.value? serviceOption with
    | none => simp [commandOf, named] at ok
    | some service =>
      simp only [commandOf, named] at ok
      obtain rfl := Except.ok.inj ok
      rfl
  | validate =>
    obtain rfl := Except.ok.inj ok
    rw [Command.configOf, Given.path?, Given.value?, absent]
    rfl
  | render | summary | generate =>
    obtain rfl := Except.ok.inj ok
    rfl

end CommandLine

namespace Command

/-- Commands that load a deployment file. -/
def loads : Command → Bool
  | .generate _ => false
  | _ => true

theorem printLines_nil : Step.printLines [] = pure () := rfl

theorem printLines_singleton (line : String) : Step.printLines [line] = Step.printLine line := by
  simp [Step.printLines]

/-- A command prints what it tells before, loads the deployment file, and goes on with what that
declares; the path has no part in anything else. -/
theorem perform_eq {c : Command} (loads : c.loads) (s : Surroundings) :
    ∃ after : Declaration → Step Unit, ∀ config, ∃ lines, c.perform s config = (do
      Step.printLines lines
      after (← Step.declared s (c.configOf config))) := by
  cases c with
  | render o =>
    apply Exists.intro
    refine fun config => ⟨[], ?_⟩
    simp only [perform, Step.render, Step.planned, bind_assoc, pure_bind, printLines_nil]
    rfl
  | connect service kubectl =>
    apply Exists.intro
    refine fun config => ⟨[], ?_⟩
    simp only [perform, Step.connect, Step.planned, bind_assoc, pure_bind, printLines_nil]
    rfl
  | summarize withPaths =>
    cases withPaths with
    | false =>
      apply Exists.intro
      refine fun config => ⟨[], ?_⟩
      simp only [perform, Step.summarize, Step.planned, Bool.false_eq_true, if_false, bind_assoc,
        pure_bind, printLines_nil]
      rfl
    | true =>
      apply Exists.intro
      refine fun config => ⟨Summary.searched s config, ?_⟩
      simp only [perform, Step.summarize, Step.planned, if_true, bind_assoc, pure_bind]
      rfl
  | validate file =>
    apply Exists.intro
    refine fun config => ⟨["Validating deployment file..."], ?_⟩
    simp only [perform, Step.validate, Step.planned, bind_assoc, pure_bind, printLines_singleton]
    rfl
  | generate output => contradiction

end Command
namespace CommandLine

/-- A line that names no deployment file, neither with the option nor as an operand. -/
def Unnamed (scanned : List (Level × Given)) : Prop :=
  ∀ x ∈ scanned, x.2.isGiven configOption = false ∧ x.2.isGiven fileOperand = false

theorem absent_iff {g : Given} {p : Parameter} : g.isGiven p = false ↔ g.setting? p = none := by
  simp [Given.isGiven]

section Reading
variable {environment : String → Option String} {words : List String}
  {scanned : List (Level × Given)} {i : Invocation}

/-- What is read of a line that was scanned: each level completed from the environment, the command
of the last one, and the innermost deployment file. -/
theorem read_ok (line : scan .program .nothing words = .ok scanned)
    (ok : read environment words = .ok i) : ∃ levels : List (Level × Given), List.Forall₂
      (fun x y => x.2.complete environment x.1 = .ok y.2) scanned levels ∧
      (∃ x ∈ levels, commandOf x.1 x.2 = .ok i.command) ∧
      i.config = (innermost configOption (levels.map (·.2))).map fun v => ⟨v.value⟩ := by
  unfold read at ok
  obtain ⟨scanned', line', ok⟩ := except_bind_ok.mp ok
  obtain rfl : scanned = scanned' := Except.ok.inj (line.symm.trans line')
  obtain ⟨levels, completed, ok⟩ := except_bind_ok.mp ok
  have whole : List.Forall₂ (fun x y => x.2.complete environment x.1 = .ok y.2) scanned levels := by
    refine (except_mapM_forall₂ completed).imp fun x y made => ?_
    obtain ⟨g, whole, made⟩ := except_bind_ok.mp made
    obtain rfl := Except.ok.inj made
    exact whole
  split at ok
  · next l g last =>
    obtain ⟨command, read, ok⟩ := except_bind_ok.mp ok
    obtain rfl := Except.ok.inj ok
    exact ⟨levels, whole, ⟨(l, g), List.mem_of_getLast? last, read⟩, rfl⟩
  · cases ok

theorem config_of_read (line : scan .program .nothing words = .ok scanned)
    (unnamed : Unnamed scanned) (ok : read environment words = .ok i) :
    i.config = (environment Surroundings.configPathVariable).map Path.mk ∧
      ∀ config, i.command.configOf config = config := by
  obtain ⟨levels, completed, ⟨last, member, command⟩, config⟩ := read_ok line ok
  constructor
  · have filled : levels.map (·.2) ≠ [] := by
      simpa using List.ne_nil_of_mem member
    have same : ∀ g ∈ levels.map (·.2), g.setting? configOption =
        (environment Surroundings.configPathVariable).map (⟨·, false⟩) := by
      intro g inside
      obtain ⟨y, member, rfl⟩ := List.mem_map.mp inside
      obtain ⟨x, scannedMember, whole⟩ := exists_of_forall₂ completed member
      rw [Given.complete_config whole, absent_iff.mp (unnamed x scannedMember).1, Option.none_or]
    rw [config, innermost_same filled same, Option.map_map]
    rfl
  · obtain ⟨x, scannedMember, whole⟩ := exists_of_forall₂ completed member
    refine commandOf_config command ?_
    rw [Given.complete_operand whole, absent_iff.mp (unnamed x scannedMember).2]

theorem read_of_empty (line : scan .program .nothing words = .ok scanned)
    (unnamed : Unnamed scanned)
    (empty : environment Surroundings.configPathVariable = some "") :
    read environment words = .error .usage := by
  rw [read, line]
  cases scanned with
  | nil => rfl
  | cons x rest =>
    obtain ⟨l, g⟩ := x
    have first := Given.complete_empty (unnamed _ List.mem_cons_self).1 empty l
    change (((l, g) :: rest).mapM (fun x : Level × Given =>
      (x.2.complete environment x.1 >>= fun g => pure (x.1, g) : Except Stop (Level × Given))) >>=
        _) = _
    rw [List.mapM_cons, first]
    rfl

end Reading

/-- Where a line names no deployment file, its command loads what discovery would find, or fails as
it would, just if the variable is unset or names what is there, or discovery finds something that
cannot be read. A variable that names nothing else is taken for the option, and discovery is not
tried; an empty one ends the program. -/
theorem loads_as_discovered_iff (s : Surroundings) (tree : File.Tree) {words : List String}
    {scanned : List (Level × Given)} (line : scan .program .nothing words = .ok scanned)
    (unnamed : Unnamed scanned) :
    (s.value? Surroundings.configPathVariable = some "" →
      Program.run s tree words = Program.stopped tree .usage) ∧
    ∀ i, read s.value? words = .ok i → i.command.loads →
      (∃ after : Declaration → Step Unit, ∀ config, ∃ lines, i.command.perform s config = (do
        Step.printLines lines
        after (← Step.declared s config))) ∧
      (Declaration.LoadedAlike (Declaration.load s tree i.config) (Declaration.load s tree none) ↔
        (∀ name, s.value? Surroundings.configPathVariable = some name → tree.exists? ⟨name⟩) ∨
          ∃ path fault, Declaration.load s tree none = .error (.read path fault)) := by
  constructor
  · intro empty
    rw [Program.run, read_of_empty line unnamed empty]
  · intro i ok loads
    obtain ⟨config, kept⟩ := config_of_read line unnamed ok
    refine ⟨?_, ?_⟩
    · obtain ⟨after, performed⟩ := Command.perform_eq loads s
      refine ⟨after, fun config => ?_⟩
      obtain ⟨lines, same⟩ := performed config
      rw [kept] at same
      exact ⟨lines, same⟩
    · rw [config]
      exact Declaration.loadedAlike_iff s tree

section Stray

def strayTree : File.Tree :=
  { entries := [(["fleetyard.yaml"], .file "name: demo\n".toUTF8.toList)], workingDirectory := [] }

/-- The variable names a file that is not there. -/
def straySurroundings : Surroundings :=
  { environment := [(Surroundings.configPathVariable, "missing.yaml")], accountHome := none }

def strayWords : List String := ["config", "validate"]

def strayScanned : List (Level × Given) :=
  [(.program, .nothing), (.config, .nothing), (.validate, .nothing)]

def strayInvocation : Invocation :=
  { config := some ⟨"missing.yaml"⟩, logLevel := "info", command := .validate none }

theorem stray_unnamed : Unnamed strayScanned := by
  simp [Unnamed, strayScanned, Given.isGiven, Given.setting?, Given.nothing]

theorem stray_loads_iff : scan .program .nothing strayWords = .ok strayScanned ∧
    Unnamed strayScanned ∧
    read straySurroundings.value? strayWords = .ok strayInvocation ∧
    strayInvocation.command.loads ∧
    (Declaration.LoadedAlike (Declaration.load straySurroundings strayTree strayInvocation.config)
        (Declaration.load straySurroundings strayTree none) ↔
      (∀ name, straySurroundings.value? Surroundings.configPathVariable = some name →
        strayTree.exists? ⟨name⟩) ∨
        ∃ path fault, Declaration.load straySurroundings strayTree none =
          .error (.read path fault)) := by
  have line : scan .program .nothing strayWords = .ok strayScanned := rfl
  have ok : read straySurroundings.value? strayWords = .ok strayInvocation := rfl
  exact ⟨line, stray_unnamed, ok, rfl,
    ((loads_as_discovered_iff straySurroundings strayTree line stray_unnamed).2 _ ok rfl).2⟩

/-- Discovery goes on to the file in the working directory, and the command fails. -/
theorem stray_not_loaded : scan .program .nothing strayWords = .ok strayScanned ∧
    Unnamed strayScanned ∧
    read straySurroundings.value? strayWords = .ok strayInvocation ∧
    (Declaration.load straySurroundings strayTree none).isOk ∧
    (∃ fault, Declaration.load straySurroundings strayTree strayInvocation.config =
      .error (.read ⟨"missing.yaml"⟩ fault)) ∧
    ¬ Declaration.LoadedAlike
      (Declaration.load straySurroundings strayTree strayInvocation.config)
      (Declaration.load straySurroundings strayTree none) := by
  have loaded : (Declaration.load straySurroundings strayTree none).isOk := by decide +kernel
  have missing : strayTree.exists? ⟨"missing.yaml"⟩ = false := by decide +kernel
  obtain ⟨fault, failed⟩ := Declaration.load_of_missing (s := straySurroundings) missing
  refine ⟨rfl, stray_unnamed, rfl, loaded, ⟨fault, failed⟩, fun alike => ?_⟩
  rw [strayInvocation, failed, Declaration.loadedAlike_read_iff] at alike
  obtain ⟨path, fault, unread⟩ := alike
  rw [unread] at loaded
  contradiction

end Stray

end CommandLine
end Stevedore

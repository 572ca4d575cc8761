import Stevedore.Proofs.Manifest.Addressing
import Stevedore.Proofs.Shell.Printing

/-!
When a shell that is given the line that connects to a service runs the two commands the line was made
from. Blanks join the words of a command and nothing is quoted but the path that picks the pod's name,
so the words themselves must mean nothing to a shell.
-/
namespace Stevedore
open Shell

namespace Kubectl

/-- The name of the pod is what another command prints. -/
def connectWords (k : Kubectl) (space lookup : String) (port : Nat) : List Word :=
  (k.base space ++ ["port-forward"]).map literal ++
    [[.command lookup.toList], literal (toString port)]

def pathOption : String := "-o=jsonpath="

def podPath : String := "\x7b.items[0].metadata.name\x7d"

/-- The last word loses its quotes. -/
def lookupWords (k : Kubectl) (space service : String) : List Word :=
  ((k.podLookup space service).dropLast ++ [pathOption ++ podPath]).map literal

/-- The line is read as one command with a substitution, and the text in that as another. -/
structure Recovers (k : Kubectl) (space service : String) (port : Nat) (line : String) : Prop where
  connect : words? line = some (k.connectWords space (joined (k.podLookup space service)) port)
  lookup : words? (joined (k.podLookup space service)) = some (k.lookupWords space service)

section Lines
variable (k : Kubectl) (space service lookup : String) (port : Nat)

theorem toList_joined (args : List String) : (joined args).toList = printLine (args.map literal) := by
  simp [joined, printLine, String.toList_intercalate, printWord_literal, Function.comp_def]

theorem printed_connect : (k.connectWords space lookup port).map printWord =
    (k.podConnect space ("$(" ++ lookup ++ ")") port).map String.toList := by
  have pod : printWord [.command lookup.toList] = ("$(" ++ lookup ++ ")").toList := by
    simp [printWord, Piece.print]
  simp [connectWords, podConnect, printWord_literal, Function.comp_def, pod]

theorem toList_connect : (joined (k.podConnect space ("$(" ++ lookup ++ ")") port)).toList =
    printLine (k.connectWords space lookup port) := by
  rw [printLine, printed_connect, joined, String.toList_intercalate]
  simp

theorem dropLast_podLookup : (k.podLookup space service).dropLast =
    k.base space ++ ["get", "pods", "-l", "cluster=" ++ service] := by
  simp [podLookup, List.dropLast_append_of_ne_nil]

/-- What follows the words of a lookup that are not quoted. -/
def quotedPath : List Char := ' ' :: (pathOption.toList ++ '\x27' :: (podPath.toList ++ ['\x27']))

theorem toList_podLookup : (joined (k.podLookup space service)).toList =
    printLine ((k.podLookup space service).dropLast.map literal) ++ quotedPath := by
  have last : k.podLookup space service = (k.podLookup space service).dropLast ++
      ["-o=jsonpath='\x7b.items[0].metadata.name\x7d'"] := by
    rw [dropLast_podLookup]
    simp [podLookup]
  have some_ : (k.podLookup space service).dropLast.map literal ≠ [] := by
    simp [dropLast_podLookup]
  rw [toList_joined, last, List.map_append, List.map_singleton, List.dropLast_concat,
    printLine_concat some_, printWord_literal]
  simp [quotedPath, pathOption, podPath]

variable {k : Kubectl} {space service : String}

theorem lookup_plain_iff : (∀ arg ∈ (k.podLookup space service).dropLast, Plain (literal arg)) ↔
    (∀ arg ∈ k.base space, Plain (literal arg)) ∧ ∀ c ∈ service.toList, c ∉ active := by
  have words : ∀ arg ∈ ["get", "pods", "-l"], Plain (literal arg) := by
    simp [plain_literal_iff, active, refused]
  have selector : Plain (literal ("cluster=" ++ service)) ↔ ∀ c ∈ service.toList, c ∉ active := by
    rw [plain_literal_iff, String.toList_append, List.forall_mem_append]
    simp [active, refused]
  rw [dropLast_podLookup, ← selector]
  constructor
  · intro plain
    exact ⟨fun arg member => plain arg (List.mem_append_left _ member), plain _ (by simp)⟩
  · rintro ⟨base, last⟩ arg member
    rcases List.mem_append.mp member with early | late
    · exact base arg early
    · rcases List.mem_append.mp (show arg ∈ ["get", "pods", "-l"] ++ ["cluster=" ++ service] from late)
        with constant | named
      · exact words arg constant
      · exact List.mem_singleton.mp named ▸ last

theorem plain_port (port : Nat) : Plain (literal (toString port)) := by
  have digits : (toString port).toList = Nat.toDigits 10 port := Nat.toList_repr
  have special : ∀ c ∈ ['#', '~'] ++ active, c.isDigit = false := by simp [active, refused]
  have ordinary : ∀ c ∈ Nat.toDigits 10 port, c ∉ ['#', '~'] ++ active := by
    intro c member held
    exact absurd (Json.isDigit_toDigits member) (by simp [special c held])
  rw [plain_literal_iff, digits]
  constructor
  · obtain ⟨c, rest, split⟩ := List.exists_cons_of_ne_nil (@Nat.toDigits_ne_nil port 10)
    have first := ordinary c (split ▸ List.mem_cons_self)
    rw [split]
    simp_all
  · intro c member held
    exact ordinary c member (List.mem_append_right _ held)

theorem plain_pathOption : Plain (literal pathOption) := by
  simp [plain_literal_iff, pathOption, active, refused]

theorem run_path (ws : List Word) (held : Option Word) :
    Reading.run ⟨ws, held, .bare⟩ (pathOption.toList ++ '\x27' :: (podPath.toList ++ ['\x27'])) =
      some ⟨ws, some (held.getD [] ++ literal (pathOption ++ podPath)), .bare⟩ := by
  have option : Reading.run ⟨ws, held, .bare⟩ pathOption.toList =
      some ⟨ws, some (held.getD [] ++ literal pathOption), .bare⟩ := by
    rw [← printWord_literal]
    cases held with
    | none => exact run_word ws plain_pathOption.printable
    | some v => exact run_pieces ws plain_pathOption.inactive (by simp [literal]) v
  have path := run_quoted ws (show '\x27' ∉ podPath.toList by simp [podPath])
  rw [Reading.run_append, option, Option.bind_some, path]
  simp [literal]

theorem run_quotedPath (ws : List Word) (held : Option Word) :
    Reading.run ⟨ws, held, .bare⟩ quotedPath =
      some ⟨ws ++ held.toList, some (literal (pathOption ++ podPath)), .bare⟩ := by
  have blank : Reading.step ⟨ws, held, .bare⟩ ' ' = some ⟨ws ++ held.toList, none, .bare⟩ := rfl
  rw [quotedPath, Reading.run_cons, blank, Option.bind_some, run_path]
  rfl

theorem enclosed_lookup
    (plain : ∀ arg ∈ (k.podLookup space service).dropLast, Plain (literal arg)) :
    Enclosed (joined (k.podLookup space service)).toList := by
  intro ws held
  have some_ : (k.podLookup space service).dropLast ≠ [] := by simp [dropLast_podLookup]
  have option : ∀ c ∈ pathOption.toList, c ∉ active := by simp [pathOption, active, refused]
  have path : '\x27' ∉ podPath.toList := by simp [podPath]
  rw [toList_podLookup, quotedPath, Reading.run_append,
    run_command_line ws held some_ plain rfl, Option.bind_some, Reading.run_cons,
    step_command ws held (.inl rfl) (by simp), Option.bind_some, Reading.run_append,
    run_command_word ws held option (by simp [pathOption]), Option.bind_some,
    run_command_quoted ws held path]
  simp only [List.nil_append, List.append_assoc, List.cons_append]

theorem words_connect (base : ∀ arg ∈ k.base space, Plain (literal arg)) {lookup : String}
    (enclosed : Enclosed lookup.toList) (port : Nat) :
    words? (joined (k.podConnect space ("$(" ++ lookup ++ ")") port)) =
      some (k.connectWords space lookup port) := by
  have forward : Plain (literal "port-forward") := by simp [plain_literal_iff, active, refused]
  have pod : Printable [.command lookup.toList] := ⟨⟨by simp, by simp, by simp⟩, by simp [enclosed]⟩
  have printables : ∀ w ∈ k.connectWords space lookup port, Printable w := by
    intro w member
    rcases List.mem_append.mp member with text | others
    · obtain ⟨arg, held, rfl⟩ := List.mem_map.mp text
      rcases List.mem_append.mp held with held | held
      · exact (base arg held).printable
      · exact List.mem_singleton.mp held ▸ forward.printable
    · rcases List.mem_pair.mp others with rfl | rfl
      · exact pod
      · exact (plain_port port).printable
  rw [words?, toList_connect]
  exact (read_printLine_iff (by simp [connectWords]) fun w member => (printables w member).enclosed).mpr
    fun w member => (printables w member).toPlain

theorem lookupWords_eq (k : Kubectl) (space service : String) : k.lookupWords space service =
    (k.podLookup space service).dropLast.map literal ++ [literal (pathOption ++ podPath)] := by
  rw [lookupWords, List.map_append, List.map_singleton]

theorem words_lookup
    (plain : ∀ arg ∈ (k.podLookup space service).dropLast, Plain (literal arg)) :
    words? (joined (k.podLookup space service)) = some (k.lookupWords space service) := by
  have some_ : (k.podLookup space service).dropLast.map literal ≠ [] := by simp [dropLast_podLookup]
  have printables : ∀ w ∈ (k.podLookup space service).dropLast.map literal, Printable w := by
    intro w member
    obtain ⟨arg, held, rfl⟩ := List.mem_map.mp member
    exact (plain arg held).printable
  obtain ⟨words, word, read, same⟩ := run_printLine some_ printables
  rw [words?, toList_podLookup, lookupWords_eq, Reading.run_append, read, Option.bind_some,
    run_quotedPath, ← same]
  rfl

theorem lost_quotedPath (ws : List Word) (held : Option Word) {mode : Mode}
    (opened : mode = .single ∨ mode = .double ∨ mode = .escaped true ∨
      ∃ quoted, mode = .dollar quoted) :
    (Reading.run ⟨ws, held, mode⟩ quotedPath).bind Reading.ended? = none := by
  simp only [quotedPath, pathOption, podPath, String.reduceToList]
  rcases opened with rfl | rfl | rfl | ⟨quoted, rfl⟩ <;> rfl

/-- No quote, escape or comment is open before the path, or the path would not be read as it is. -/
theorem ended_of_quotedPath {r : Reading} {ws : List Word} (some_ : ws ≠ [])
    (size : r.size ≤ (printLine ws).length) (read : (r.run quotedPath).bind Reading.ended? =
      some (ws ++ [literal (pathOption ++ podPath)])) : r.ended? = some ws := by
  obtain ⟨words, held, mode⟩ := r
  cases mode with
  | bare =>
    rw [run_quotedPath] at read
    exact congrArg some (List.append_cancel_right (Option.some.inj read))
  | single =>
    rw [lost_quotedPath words held (.inl rfl)] at read
    contradiction
  | double =>
    rw [lost_quotedPath words held (.inr (.inl rfl))] at read
    contradiction
  | escaped quoted =>
    cases quoted with
    | true =>
      rw [lost_quotedPath words held (.inr (.inr (.inl rfl)))] at read
      contradiction
    | false =>
      -- The blank before the path is escaped and belongs to the last word.
      have blank : Reading.step ⟨words, held, .escaped false⟩ ' ' =
          some ⟨words, some (held.getD [] ++ [.char ' ']), .bare⟩ := rfl
      rw [quotedPath, Reading.run_cons, blank, Option.bind_some, run_path] at read
      have last := (List.append_inj' (Option.some.inj read) rfl).2
      have longer := congrArg List.length (List.singleton_inj.mp last)
      simp only [Option.getD_some, List.length_append, List.length_singleton] at longer
      omega
  | dollar quoted =>
    rw [lost_quotedPath words held (.inr (.inr (.inr ⟨quoted, rfl⟩)))] at read
    contradiction
  | comment =>
    have idle : Reading.run ⟨words, held, .comment⟩ quotedPath = some ⟨words, held, .comment⟩ := by
      simp only [quotedPath, pathOption, podPath, String.reduceToList]
      rfl
    rw [idle, Option.bind_some] at read
    have sizes := Reading.size_of_ended read
    have last : held.toList.length ≤ 1 := by cases held <;> simp
    rw [printWords_append, printWords_singleton, printWords_eq some_] at sizes
    simp only [List.length_append, List.length_singleton] at sizes
    omega
  | command quoted depth text =>
    obtain ⟨r, ran, ended⟩ := Option.bind_eq_some_iff.mp read
    have unclosed : ')' ∉ quotedPath := by simp [quotedPath, pathOption, podPath]
    obtain ⟨depth, text, command⟩ := run_command_open rfl unclosed ran
    rw [Reading.ended?, command] at ended
    contradiction

theorem plain_of_lookup (read : words? (joined (k.podLookup space service)) =
    some (k.lookupWords space service)) :
    ∀ arg ∈ (k.podLookup space service).dropLast, Plain (literal arg) := by
  have some_ : (k.podLookup space service).dropLast.map literal ≠ [] := by simp [dropLast_podLookup]
  rw [words?, toList_podLookup, lookupWords_eq, Reading.run_append] at read
  obtain ⟨r', ran', ended'⟩ := Option.bind_eq_some_iff.mp read
  obtain ⟨r, ran, rest⟩ := Option.bind_eq_some_iff.mp ran'
  have size : r.size ≤ Reading.start.size + _ := (run_size ran).1
  have nothing : Reading.start.size = 0 := rfl
  rw [nothing, Nat.zero_add] at size
  have ended := ended_of_quotedPath some_ size (by rw [rest]; exact ended')
  intro arg member
  exact plain_of_read (by rw [ran]; exact ended) _ (List.mem_map_of_mem member)

/-- A shell runs what the line was made from exactly if it takes every word of it as it is. -/
theorem recovers_iff (port : Nat) : k.Recovers space service port
      (joined (k.podConnect space ("$(" ++ joined (k.podLookup space service) ++ ")") port)) ↔
    (∀ arg ∈ k.base space, Plain (literal arg)) ∧ ∀ c ∈ service.toList, c ∉ active := by
  constructor
  · intro recovers
    exact lookup_plain_iff.mp (plain_of_lookup recovers.lookup)
  · intro plain
    have words := lookup_plain_iff.mpr plain
    exact ⟨words_connect plain.1 (enclosed_lookup words) port, words_lookup words⟩

end Lines

theorem found_of_connect {k : Kubectl} {service : Service} {resolved : Resolved} {line : String}
    (connects : k.connect service resolved = .ok line) :
    ∃ settings, resolved.settingsFor service = .ok settings := by
  rw [connect] at connects
  rw [Resolved.settingsFor]
  split at connects
  · contradiction
  · next settings known => exact ⟨settings, by rw [known]⟩

/-- The line that connects to a service is run as the two commands it is made from exactly if a shell
takes every word about the account and the namespace as it is, and each character of the name. -/
theorem connect_recovered_iff (k : Kubectl) (service : Service) (resolved : Resolved) (line : String)
    (connects : k.connect service resolved = .ok line) :
    ∃ settings, resolved.settingsFor service = .ok settings ∧
      let space := settings.namespaceName
      let name := service.canonicalName
      let lookup := joined (k.podLookup space name)
      let arguments := k.podConnect space ("$(" ++ lookup ++ ")") settings.port.toNat
      line = joined arguments ∧
      (k.connectWords space lookup settings.port.toNat).map printWord = arguments.map String.toList ∧
      (k.Recovers space name settings.port.toNat line ↔
        (∀ arg ∈ k.base space, Plain (literal arg)) ∧ ∀ c ∈ name.toList, c ∉ active) := by
  obtain ⟨settings, found⟩ := found_of_connect connects
  obtain rfl := Except.ok.inj (connects.symm.trans (k.connect_of_found found))
  exact ⟨settings, found, rfl, k.printed_connect _ _ _, recovers_iff _⟩

end Kubectl

theorem sharing_connect_recovered : ∃ line,
    sharingKubectl.connect webEntry.subject sharingPlan.resolved = .ok line ∧
      sharingKubectl.Recovers "default" "web" 8080 line := by
  have found : sharingPlan.resolved.settingsFor webEntry.subject = .ok (completed "web" 8080) := rfl
  have connects := sharingKubectl.connect_of_found found
  obtain ⟨settings, found', -, -, recovered⟩ := Kubectl.connect_recovered_iff sharingKubectl
    webEntry.subject sharingPlan.resolved _ connects
  obtain rfl : completed "web" 8080 = settings := Except.ok.inj (found.symm.trans found')
  refine ⟨_, connects, recovered.mpr ⟨?_, ?_⟩⟩
  · have base : sharingKubectl.base (completed "web" 8080).namespaceName =
        ["kubectl", "--context", "-n", "-n", "default"] := by decide +kernel
    rw [base]
    simp [plain_literal_iff, active, refused]
  · simp [webEntry, Service.named, active, refused]

def spacedKubectl : Kubectl :=
  ⟨"kubectl", { Account.empty with kubeconfig := some "/home/ops/my kube/config" }⟩

/-- A path with a blank is two words. -/
theorem spaced_connect_not_recovered : ∃ line,
    spacedKubectl.connect webEntry.subject sharingPlan.resolved = .ok line ∧
      ¬spacedKubectl.Recovers "default" "web" 8080 line := by
  have found : sharingPlan.resolved.settingsFor webEntry.subject = .ok (completed "web" 8080) := rfl
  refine ⟨_, spacedKubectl.connect_of_found found, fun recovers => ?_⟩
  obtain ⟨plain, -⟩ := (Kubectl.recovers_iff 8080).mp recovers
  have path := plain "/home/ops/my kube/config" (by decide +kernel)
  simp [plain_literal_iff, active] at path

end Stevedore

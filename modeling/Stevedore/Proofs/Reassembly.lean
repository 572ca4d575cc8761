import Stevedore.Proofs.ConcurrentAssembly

/-!
Assembling a service again. How it ends depends on the files and not on the store, and what it writes
depends on them too, so that the second assembly of a service ends like the first one and finds all
that it writes in its place, whatever other services were assembled in between.
-/
namespace Stevedore.Assembler

section Settled
variable {a : Assembler SecretState} {tree : File.Tree} {service : Service}
  (deployment : Deployment) (resolved : Resolved)

/-- What a service has written stays where other services write, and so it is written again without a
trace. -/
theorem outcome_again (secretsAt : a.store = .secrets tree) {others : List Service}
    (apart : ∀ other ∈ others, other.canonicalName ≠ service.canonicalName) (state : SecretState) :
    let first := (a.assemble service deployment resolved).outcome state
    let settled := others.foldl
      (fun state s => ((a.assemble s deployment resolved).outcome state).2) first.2
    (a.assemble service deployment resolved).outcome settled = (first.1, settled) := by
  intro first settled
  have left : settled = SecretStore.keep
      (SecretStore.keep state (a.secretsOf tree deployment resolved service))
      (others.flatMap (a.secretsOf tree deployment resolved)) := by
    simp only [settled, first, foldl_assemble deployment resolved secretsAt,
      outcome_assemble deployment resolved secretsAt]
  have others_apart : ∀ s ∈ others.flatMap (a.secretsOf tree deployment resolved),
      ∀ t ∈ a.secretsOf tree deployment resolved service, s.name ≠ t.name := by
    intro s written
    obtain ⟨other, member, theirs⟩ := List.mem_flatMap.mp written
    exact a.names_apart_secretsOf tree deployment resolved (apart other member) s theirs
  have again : SecretStore.keep settled (a.secretsOf tree deployment resolved service) = settled := by
    rw [left, SecretStore.keep_comm others_apart, SecretStore.keep_keep]
  rw [outcome_assemble deployment resolved secretsAt, again]
  simp only [first, outcome_assemble deployment resolved secretsAt]

end Settled

/-- Assembly is idempotent: from whatever state of the store it starts, it ends a second time as it
did the first, with the same manifests or the same error, and leaves the secrets as it left them. -/
theorem assembled_again (templates : TemplateSet) (tree : File.Tree) (rules : List SidecarRule)
    (service : Service) (deployment : Deployment) (resolved : Resolved) (state : SecretState) :
    let a : Assembler SecretState := ⟨templates, .secrets tree, rules⟩
    let first := (a.assemble service deployment resolved).outcome state
    let second := (a.assemble service deployment resolved).outcome first.2
    second.1 = first.1 ∧ second.2.values = first.2.values := by
  intro a first second
  have again : second = (first.1, first.2) :=
    outcome_again deployment resolved rfl (List.forall_mem_nil _) state
  rw [again]
  exact ⟨rfl, rfl⟩

end Stevedore.Assembler

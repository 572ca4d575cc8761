import Stevedore.Proofs.Secrets
import Stevedore.Proofs.Job

/-!
Assemblies that share one store of secrets, in whatever order their calls come. No answer depends on
the state of the store, and what it keeps is a merge of what each assembly writes, so that every
order ends like assembly of one service after another.
-/
namespace Stevedore

namespace Job
variable {α β : Type} {tree : File.Tree} {P : BundleRequest → Prop}

/-- How a job ends with secrets made from the files. -/
def result (tree : File.Tree) : Job α → Except DeployError α
  | .ended r => r
  | .asks request next => result tree (next (SecretStore.answer tree request))

def secrets (tree : File.Tree) : Job α → List Secret
  | .ended _ => []
  | .asks request next =>
    SecretStore.written tree request ++ secrets tree (next (SecretStore.answer tree request))

theorem perform_secrets (job : Job α) (state : SecretState) :
    job.perform (.secrets tree) state =
      (job.result tree, SecretStore.keep state (job.secrets tree)) := by
  induction job generalizing state with
  | ended r => rfl
  | asks request next ih =>
    rw [perform, result, secrets, SecretStore.keep_append]
    simp only [BundleStore.secrets, SecretStore.create_eq]
    exact ih _ _

/-- All that the job may ask for has the property. -/
def Asks (P : BundleRequest → Prop) : Job α → Prop
  | .ended _ => True
  | .asks request next => P request ∧ ∀ answer, Asks P (next answer)

theorem asks_bind {job : Job α} {next : α → Job β} (first : job.Asks P)
    (later : ∀ value, (next value).Asks P) : (job >>= next).Asks P := by
  change (andThen next job).Asks P
  induction job with
  | ended r =>
    cases r with
    | error e => trivial
    | ok value => exact later value
  | asks request answered ih => exact ⟨first.1, fun answer => ih answer (first.2 answer)⟩

theorem asks_mapM {job : α → Job β} {items : List α} (each : ∀ item ∈ items, (job item).Asks P) :
    (items.mapM job).Asks P := by
  induction items with
  | nil => trivial
  | cons item rest ih =>
    rw [List.mapM_cons]
    refine asks_bind (each item List.mem_cons_self) fun value => ?_
    exact asks_bind (ih fun item member => each item (List.mem_cons_of_mem _ member))
      fun values => trivial

theorem made_of_mem_secrets {job : Job α} (asks : job.Asks P) {s : Secret}
    (member : s ∈ job.secrets tree) : ∃ request, P request ∧ SecretStore.made tree request = .ok s := by
  induction job with
  | ended r => contradiction
  | asks request next ih =>
    rw [secrets, List.mem_append] at member
    rcases member with now | later
    · exact ⟨request, asks.1, SecretStore.made_of_written now⟩
    · exact ih _ (asks.2 _) later

end Job

/-- Jobs that share one store of secrets. -/
structure Pool (α : Type) where
  secrets : SecretState
  jobs : List (Job α)

namespace Pool
variable {α : Type} {tree : File.Tree}

/-- The turn of one job: the store answers its call; a job that has ended has none. -/
def turn (tree : File.Tree) (pool : Pool α) (i : Nat) : Pool α :=
  match pool.jobs[i]? with
  | some (.asks request next) =>
    let (answer, secrets) := SecretStore.create tree request pool.secrets
    { secrets, jobs := pool.jobs.set i (next answer) }
  | _ => pool

def run (tree : File.Tree) (pool : Pool α) (order : List Nat) : Pool α :=
  order.foldl (turn tree) pool

/-- What a turn can do: nothing, or one call whose answer does not depend on the store. -/
theorem turn_cases (tree : File.Tree) (pool : Pool α) (i : Nat) :
    pool.turn tree i = pool ∨ ∃ request next, pool.jobs[i]? = some (.asks request next) ∧
      pool.turn tree i =
        { secrets := SecretStore.keep pool.secrets (SecretStore.written tree request)
          jobs := pool.jobs.set i (next (SecretStore.answer tree request)) } := by
  unfold turn
  split
  · next request next found =>
    exact .inr ⟨request, next, found, by rw [SecretStore.create_eq]⟩
  · exact .inl rfl

theorem map_result_turn (tree : File.Tree) (pool : Pool α) (i : Nat) :
    (pool.turn tree i).jobs.map (Job.result tree) = pool.jobs.map (Job.result tree) := by
  rcases turn_cases tree pool i with same | ⟨request, next, found, after⟩
  · rw [same]
  · rw [after, List.map_set]
    apply List.ext_getElem?
    intro j
    rw [List.getElem?_set]
    split
    · next same =>
      subst same
      have inside := (List.getElem?_eq_some_iff.mp found).1
      rw [List.length_map, if_pos inside, List.getElem?_map, found]
      rfl
    · rfl

/-- No turn changes how any of the jobs is going to end. -/
theorem map_result_run (tree : File.Tree) (pool : Pool α) (order : List Nat) :
    (pool.run tree order).jobs.map (Job.result tree) = pool.jobs.map (Job.result tree) := by
  induction order generalizing pool with
  | nil => rfl
  | cons i rest ih => exact (ih _).trans (map_result_turn tree pool i)

/-- The log has been kept, it is of the owners only, and with what a job has still to write the
part of its owner becomes the same as in the whole. -/
structure Merging (tree : File.Tree) (owners : List String) (whole : List Secret) (pool : Pool α)
    (log : List Secret) : Prop where
  kept : pool.secrets = SecretStore.keep .empty log
  counted : pool.jobs.length = owners.length
  known : ∀ s ∈ log, s.service ∈ owners
  parts : ∀ i (inside : i < owners.length) job, pool.jobs[i]? = some job →
    (log.filter fun s => s.service = owners[i]) ++ job.secrets tree =
      whole.filter fun s => s.service = owners[i]

variable {owners : List String} {whole log : List Secret} {pool : Pool α}

theorem merging_turn (distinct : owners.Nodup) (merging : Merging tree owners whole pool log)
    (i : Nat) : ∃ log', Merging tree owners whole (pool.turn tree i) log' := by
  rcases turn_cases tree pool i with same | ⟨request, next, found, after⟩
  · exact ⟨log, by rwa [same]⟩
  have inside : i < owners.length := by
    rw [← merging.counted]
    exact (List.getElem?_eq_some_iff.mp found).1
  have part := merging.parts i inside _ found
  rw [Job.secrets] at part
  -- what the job writes now is a piece of its owner's part of the whole
  have mine : ∀ s ∈ SecretStore.written tree request, s.service = owners[i] := by
    intro s member
    have held : s ∈ whole.filter fun s => s.service = owners[i] := by
      rw [← part]
      exact List.mem_append_right _ (List.mem_append_left _ member)
    exact of_decide_eq_true (List.mem_filter.mp held).2
  refine ⟨log ++ SecretStore.written tree request, ?_⟩
  rw [after]
  refine ⟨?_, ?_, ?_, ?_⟩
  · rw [SecretStore.keep_append, merging.kept]
  · rw [List.length_set, merging.counted]
  · intro s member
    rcases List.mem_append.mp member with before | now
    · exact merging.known s before
    · rw [mine s now]
      exact List.getElem_mem inside
  · intro j inside' job held
    rw [List.filter_append, List.append_assoc]
    rw [List.getElem?_set] at held
    split at held
    · next same =>
      subst same
      rw [if_pos (by rw [merging.counted]; exact inside)] at held
      obtain rfl := Option.some.inj held
      rw [SecretStore.filter_own mine]
      exact part
    · next different =>
      have other : ∀ s ∈ SecretStore.written tree request, s.service ≠ owners[j] := by
        intro s member same
        rw [mine s member] at same
        exact different ((List.getElem_inj distinct).mp same)
      rw [SecretStore.filter_other other, List.nil_append]
      exact merging.parts j inside' job held

theorem merging_run (distinct : owners.Nodup) (merging : Merging tree owners whole pool log)
    (order : List Nat) : ∃ log', Merging tree owners whole (pool.run tree order) log' := by
  induction order generalizing pool log with
  | nil => exact ⟨log, merging⟩
  | cons i rest ih =>
    obtain ⟨log', merging⟩ := merging_turn distinct merging i
    exact ih merging

/-- Once all jobs have ended, the log holds of every owner what the whole holds of it. -/
theorem filter_of_ended {results : List (Except DeployError α)}
    (merging : Merging tree owners whole pool log) (ended : pool.jobs = results.map .ended)
    (others : ∀ s ∈ whole, s.service ∈ owners) (owner : String) :
    (log.filter fun s => s.service = owner) = whole.filter fun s => s.service = owner := by
  by_cases known : owner ∈ owners
  · obtain ⟨i, inside, rfl⟩ := List.mem_iff_getElem.mp known
    have position : i < pool.jobs.length := by
      rw [merging.counted]
      exact inside
    have part := merging.parts i inside _ (List.getElem?_eq_getElem position)
    have done : pool.jobs[i].secrets tree = [] := by
      simp only [ended, List.getElem_map]
      rfl
    rwa [done, List.append_nil] at part
  · have none_ {list : List Secret} (held : ∀ s ∈ list, s.service ∈ owners) :
        (list.filter fun s => s.service = owner) = [] :=
      SecretStore.filter_other fun s member same => known (same ▸ held s member)
    rw [none_ merging.known, none_ others]

theorem run_append (pool : Pool α) (first second : List Nat) :
    pool.run tree (first ++ second) = (pool.run tree first).run tree second := List.foldl_append

theorem run_to_end (tree : File.Tree) {job : Job α} (pool : Pool α) (i : Nat)
    (found : pool.jobs[i]? = some job) :
    ∃ order r, (pool.run tree order).jobs = pool.jobs.set i (.ended r) := by
  induction job generalizing pool with
  | ended r =>
    obtain ⟨inside, same⟩ := List.getElem?_eq_some_iff.mp found
    refine ⟨[], r, ?_⟩
    rw [← same, List.set_getElem_self]
    rfl
  | asks request next ih =>
    have after : (pool.turn tree i).jobs =
        pool.jobs.set i (next (SecretStore.answer tree request)) := by
      unfold turn
      rw [found]
      simp only [SecretStore.create_eq]
    have inside := (List.getElem?_eq_some_iff.mp found).1
    obtain ⟨order, r, ended⟩ := ih _ (pool.turn tree i)
      (by rw [after, List.getElem?_set_self inside])
    refine ⟨i :: order, r, ?_⟩
    rw [after, List.set_set] at ended
    exact ended

/-- The jobs can be brought to their ends one after another. -/
theorem ended_below (tree : File.Tree) (pool : Pool α) (count : Nat) :
    ∃ order, (pool.run tree order).jobs.length = pool.jobs.length ∧
      ∀ i < count, ∀ job, (pool.run tree order).jobs[i]? = some job → ∃ r, job = .ended r := by
  induction count with
  | zero => exact ⟨[], rfl, fun i below => absurd below (Nat.not_lt_zero i)⟩
  | succ count ih =>
    obtain ⟨order, counted, ended⟩ := ih
    cases found : (pool.run tree order).jobs[count]? with
    | none =>
      refine ⟨order, counted, fun i below job held => ?_⟩
      rcases Nat.lt_succ_iff_lt_or_eq.mp below with before | rfl
      · exact ended i before job held
      · rw [found] at held
        contradiction
    | some job =>
      obtain ⟨more, r, after⟩ := run_to_end tree (pool.run tree order) count found
      refine ⟨order ++ more, ?_, fun i below job held => ?_⟩
      · rw [run_append, after, List.length_set, counted]
      · rw [run_append, after, List.getElem?_set] at held
        split at held
        · split at held
          · exact ⟨r, (Option.some.inj held).symm⟩
          · contradiction
        · next different =>
          have before : i < count := by omega
          exact ended i before job held

/-- Whatever has happened, all jobs can still be brought to their ends. -/
theorem all_end (tree : File.Tree) (pool : Pool α) :
    ∃ (order : List Nat) (results : List (Except DeployError α)),
      (pool.run tree order).jobs = results.map .ended := by
  obtain ⟨order, counted, ended⟩ := ended_below tree pool pool.jobs.length
  refine ⟨order, (pool.run tree order).jobs.map (Job.result tree), ?_⟩
  rw [List.map_map]
  conv_lhs => rw [← List.map_id (pool.run tree order).jobs]
  apply List.map_congr_left
  intro job member
  obtain ⟨i, inside, rfl⟩ := List.mem_iff_getElem.mp member
  obtain ⟨r, same⟩ := ended i (counted ▸ inside) _ (List.getElem?_eq_getElem inside)
  rw [same]
  rfl

end Pool
end Stevedore

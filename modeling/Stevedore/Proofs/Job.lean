import Stevedore.Assembly
import Stevedore.Proofs.Activity

/-! Assembly as a job, which asks for one bundle after another and goes on with each answer. A job
can be carried out against any store, and against the store of an assembler it does what assembly
does. -/
namespace Stevedore

inductive Job (α : Type) where
  | ended (result : Except DeployError α)
  | asks (request : BundleRequest) (next : Except StoreError String → Job α)

namespace Job
variable {σ α β : Type}

def andThen (next : α → Job β) : Job α → Job β
  | .ended (.ok value) => next value
  | .ended (.error e) => .ended (.error e)
  | .asks request answered => .asks request fun answer => andThen next (answered answer)

instance : Monad Job where
  pure value := .ended (.ok value)
  bind job next := andThen next job

instance : MonadLift (Except DeployError) Job := ⟨.ended⟩

theorem andThen_ended (job : Job α) : andThen (fun value => .ended (.ok value)) job = job := by
  induction job with
  | ended result => cases result <;> rfl
  | asks request answered ih =>
    rw [andThen]
    exact congrArg _ (funext ih)

theorem andThen_andThen {γ : Type} (job : Job α) (first : α → Job β) (second : β → Job γ) :
    andThen second (andThen first job) = andThen (fun value => andThen second (first value)) job := by
  induction job with
  | ended result => cases result <;> rfl
  | asks request answered ih =>
    simp only [andThen]
    exact congrArg _ (funext ih)

instance : LawfulMonad Job := LawfulMonad.mk' Job andThen_ended (fun _ _ => rfl) andThen_andThen

theorem lift_ok_bind (value : α) (next : α → Job β) :
    (liftM (.ok value : Except DeployError α) >>= next) = next value := rfl

/-- The job of one call. -/
def ask (request : BundleRequest) : Job String :=
  .asks request fun
    | .ok name => .ended (.ok name)
    | .error e => .ended (.error (.store e))

/-- How a job ends whose calls a store answers, and the state it leaves. -/
def perform (store : BundleStore σ) : Job α → σ → Except DeployError α × σ
  | .ended result, s => (result, s)
  | .asks request next, s =>
    let (answer, t) := store.create request s
    perform store (next answer) t

/-- Carried out against the store the job does what the activity does. -/
def Follows (store : BundleStore σ) (job : Job α) (x : Activity σ α) : Prop :=
  ∀ s, job.perform store s = x.outcome s

section
variable {store : BundleStore σ}

theorem follows_pure (value : α) : Follows store (pure value) (pure value) := fun _ => rfl

theorem follows_lift (result : Except DeployError α) :
    Follows store (liftM result) (liftM result) := fun _ => rfl

theorem perform_andThen (next : α → Job β) (job : Job α) (s : σ) :
    (andThen next job).perform store s =
      match job.perform store s with
      | (.ok value, t) => (next value).perform store t
      | (.error e, t) => (.error e, t) := by
  induction job generalizing s with
  | ended result => cases result <;> rfl
  | asks request answered ih => exact ih _ _

theorem follows_bind {job : Job α} {x : Activity σ α} {next : α → Job β}
    {next' : α → Activity σ β} (first : Follows store job x)
    (later : ∀ value, Follows store (next value) (next' value)) :
    Follows store (job >>= next) (x >>= next') := by
  intro s
  rw [Activity.outcome_bind, ← first s]
  refine (perform_andThen next job s).trans ?_
  rcases job.perform store s with ⟨_ | value, t⟩
  · rfl
  · exact later value t

theorem follows_mapM {job : α → Job β} {x : α → Activity σ β}
    (each : ∀ item, Follows store (job item) (x item)) (items : List α) :
    Follows store (items.mapM job) (items.mapM x) := by
  induction items with
  | nil => exact follows_pure []
  | cons item rest ih =>
    rw [List.mapM_cons, List.mapM_cons]
    refine follows_bind (each item) fun value => ?_
    exact follows_bind ih fun values => follows_pure (value :: values)

theorem follows_ask (request : BundleRequest) :
    Follows store (ask request) (Staging.create store request) := by
  intro s
  rw [ask, perform]
  rcases made : store.create request s with ⟨_ | name, t⟩ <;>
    simp only [perform, Activity.outcome, Staging.create, ExceptT.run, made]

end
end Job

namespace Assembler
variable {σ : Type}

def groupJob (account : Account) (service : Service) (namespaceName : String)
    (g : StagingGroup) : Job ConfigSource := do
  let name ← Job.ask (Staging.request account service namespaceName g)
  return .secret name g.mountPath g.env

/-- The assembly of a service, whoever answers its calls. -/
def job (a : Assembler σ) (service : Service) (deployment : Deployment) (resolved : Resolved) :
    Job ServiceManifests := do
  let settings ← resolved.settingsFor service
  let namespaceYaml ← a.namespaceManifest service resolved
  let serviceYaml ← a.serviceManifest service resolved
  let sidecars := a.sidecarsOf service resolved
  let profiles ← Staging.mergeProfiles service sidecars resolved
  let staged ← (Staging.groups deployment.stagingPath profiles).mapM
    (groupJob deployment.account service settings.namespaceName)
  let pod ← podOf service settings deployment resolved sidecars staged
  let deploymentYaml ← a.renderDeployment service settings deployment pod
  return { service := service.canonicalName, namespaceName := settings.namespaceName,
           namespaceYaml, serviceYaml, deploymentYaml }

theorem job_follows (a : Assembler σ) (service : Service) (deployment : Deployment)
    (resolved : Resolved) :
    Job.Follows a.store (a.job service deployment resolved)
      (a.assemble service deployment resolved) := by
  simp only [job, assemble, deploymentManifest, stagePod, Staging.stage, bind_assoc]
  cases found : resolved.settingsFor service with
  | error e => exact fun _ => rfl
  | ok settings =>
    simp only [Job.lift_ok_bind, Activity.lift_ok_bind]
    refine Job.follows_bind (Job.follows_lift _) fun namespaceYaml => ?_
    refine Job.follows_bind (Job.follows_lift _) fun serviceYaml => ?_
    refine Job.follows_bind (Job.follows_lift _) fun profiles => ?_
    have each (g : StagingGroup) :
        Job.Follows a.store (groupJob deployment.account service settings.namespaceName g)
          (Staging.stageGroup a.store deployment.account service settings.namespaceName g) :=
      Job.follows_bind (Job.follows_ask _) fun _ => Job.follows_pure _
    refine Job.follows_bind (Job.follows_mapM each _) fun staged => ?_
    refine Job.follows_bind (Job.follows_lift _) fun pod => ?_
    exact Job.follows_bind (Job.follows_lift _) fun _ => Job.follows_pure _

end Assembler
end Stevedore

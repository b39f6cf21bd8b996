import ClusterVitals.Cluster.Store
import ClusterVitals.Vitals.Effect

/-!
# Plans

What a pass does once its object is fetched: a list of effects in order, and how the pass ends.
`podPlan` and `certificatePlan` make the plans of the two kinds of passes. Before each container and
before each recognized certificate a pass looks at its deadline; `allowed` is the number of looks
that find time left, and `none` when there always is.

## Shape of a plan

The effects of a plan that is cut short are the first ones of the plan that is not, up to a last
report; this is what `beforeDeadline` does for the steps of both kinds.
-/

namespace ClusterVitals

/-- How a pass that went well goes on: with another look after a while, or not at all. -/
structure Outcome where
  requeueAfter : Option Duration
  deriving DecidableEq, Repr

/-- Nothing more to do. -/
def Outcome.done : Outcome := ⟨none⟩

/-- Another look after a while. -/
def Outcome.requeue (delay : Duration) : Outcome := ⟨some delay⟩

/-- How a pass ends. -/
abbrev PassResult := Except Error Outcome

/-- What a pass does with its object, and how it ends. -/
structure Plan where
  effects : List Effect
  result : PassResult

/-- An effect of a pass. A guarded one is not begun after the deadline. -/
structure Step where
  effect : Effect
  guarded : Bool

/-- The effects of the steps before the first guarded one that finds no time left, and whether there
was such a step. -/
def beforeDeadline : (allowed : Option Nat) → List Step → List Effect × Bool
  | _, [] => ([], false)
  | allowed, step :: rest =>
    if step.guarded then
      match allowed with
      | some 0 => ([], true)
      | some (n + 1) =>
        let (effects, cut) := beforeDeadline (some n) rest
        (step.effect :: effects, cut)
      | none =>
        let (effects, cut) := beforeDeadline none rest
        (step.effect :: effects, cut)
    else
      let (effects, cut) := beforeDeadline allowed rest
      (step.effect :: effects, cut)

/-- Without a deadline all steps are taken. -/
@[simp] theorem beforeDeadline_none (steps : List Step) :
    beforeDeadline none steps = (steps.map Step.effect, false) := by
  induction steps with
  | nil => rfl
  | cons step rest ih => simp [beforeDeadline, ih]

/-- When no time is left, the steps before the first guarded one are taken. -/
theorem beforeDeadline_zero (steps : List Step) :
    beforeDeadline (some 0) steps =
      ((steps.takeWhile (!·.guarded)).map Step.effect, steps.any (·.guarded)) := by
  induction steps with
  | nil => rfl
  | cons step rest ih => by_cases h : step.guarded <;> simp [beforeDeadline, h, ih]

/-- The effects before a deadline are the first ones of all. -/
theorem beforeDeadline_isPrefixOf (allowed : Option Nat) (steps : List Step) :
    (beforeDeadline allowed steps).1 <+: steps.map Step.effect := by
  induction steps generalizing allowed with
  | nil => simp [beforeDeadline]
  | cons step rest ih =>
    unfold beforeDeadline
    split
    · split
      · exact List.nil_prefix
      · exact List.cons_prefix_cons.2 ⟨rfl, ih _⟩
      · exact List.cons_prefix_cons.2 ⟨rfl, ih _⟩
    · exact List.cons_prefix_cons.2 ⟨rfl, ih _⟩

/-- The data keys under which a secret holds certificates. -/
def certificateKeys : List String :=
  ["ca.crt", "issuer.crt", "ca.pem", "issuer.pem", "crt.pem"]

/-- The steps for the containers of a pod, in the order of the pod. -/
def podSteps (pod : Pod) : List Step :=
  pod.containers.map fun status => ⟨.offer pod.key status, true⟩

/-- The step for one data entry of a secret. -/
def slotStep (key : ObjectKey) (now : Instant) (entry : String × List UInt8) : Step :=
  if entry.1 ∈ certificateKeys then ⟨.assess key entry.1 entry.2 now, true⟩
  else ⟨.report (.dataKeyIgnored key entry.1), false⟩

/-- The steps for the data of a secret, in the order of the data keys. -/
def secretSteps (key : ObjectKey) (now : Instant) (secret : Secret) : List Step :=
  secret.entries.map (slotStep key now)

/-- What a pass does with a pod. A pod that does not exist needs nothing. -/
def podPlan (key : ObjectKey) (late : Error) (allowed : Option Nat) : Except Error Pod → Plan
  | .ok pod =>
    let (effects, cut) := beforeDeadline allowed (podSteps pod)
    ⟨effects, if cut then .error late else .ok .done⟩
  | .error e =>
    if e.isNotFound then ⟨[], .ok .done⟩
    else ⟨[.report (.podUnfetched key)], .error e⟩

/-- What a pass does with a secret. The gauges of a secret that does not exist are removed. -/
def certificatePlan (key : ObjectKey) (recheckInterval : Duration) (now : Instant) (late : Error)
    (allowed : Option Nat) : Except Error Secret → Plan
  | .ok secret =>
    let (effects, cut) := beforeDeadline allowed (secretSteps key now secret)
    if cut then ⟨effects ++ [.report (.deadlineReached key)], .error late⟩
    else ⟨effects, .ok (.requeue recheckInterval)⟩
  | .error e =>
    if e.isNotFound then ⟨[.clear key], .ok (.requeue recheckInterval)⟩
    else ⟨[], .error e⟩

end ClusterVitals

import Sameness.Enquiry.Labels
import Sameness.Refinement.Run
import Sameness.Sample.Check

/-!
# Enquiries about refinements

A refined value is followed through a list of attempts to replace it and of questions about it,
and the laws of a refinement are checked on samples. The base value of a step is read first, and
what the type cannot do is refused before the base value is looked at further.
-/

namespace Sameness

/-! ### Steps with a refined value -/

/-- What to do with a base value. -/
inductive RefinementAction where
  /-- Construct from it; it has to be accepted. -/
  | demand
  /-- Construct from it if it is accepted. -/
  | attempt
  /-- The direct form of the same. -/
  | attemptDirect
  /-- Construct from it, with the current value as the default. -/
  | orKeep
  /-- Ask whether it is accepted. -/
  | test
  /-- Wrap it, if the refinement only renames. -/
  | wrap
  /-- Compare the current value with the one constructed from it. -/
  | compare
  /-- Identify the current value with the one constructed from it. -/
  | identify

/-- A step report with the base value that the carrier shows, if it shows one. -/
structure RefinementStepReport extends StepReport where
  /-- The base value stored in the current value. -/
  shown? : Option Datum

namespace Refining

variable {σ : Type} (R : Refining σ) (schema : Schema σ)

/-- The answer to a construction step and the value after it. An attempt is answered by an option,
any other construction by the value itself. -/
def construct (u : σ) (s : R.rule.Step) : Except Refusal Datum × σ :=
  (match s, s.outcome u with
    | _, .error f => .error (.fault f)
    | .attempt _, .ok v? | .attemptDirect _, .ok v? => .ok ((Schema.option schema).write v?)
    | _, .ok (some v) => .ok (schema.write v)
    | _, .ok none => .ok .null,
  s.next u)

/-- The answer to a step with a base value, and the value after it. -/
def perform (u : σ) (action : RefinementAction) (x : R.Base) : Except Refusal Datum × σ :=
  match action with
  | .demand => R.construct schema u (.demand x)
  | .attempt => R.construct schema u (.attempt x)
  | .attemptDirect => R.construct schema u (.attemptDirect x)
  | .orKeep => R.construct schema u (.orKeep x)
  | .test => (.ok (.bool (R.rule.accepts x)), u)
  | .wrap =>
    if h : R.renames = true then R.construct schema u (.wrap (R.unrestricted h) x)
    else (.error .notRenaming, u)
  | .compare => (compareWith schema.comparison u x, u)
  | .identify => (compareWith schema.identity u x, u)
where
  /-- Compare the current value with the one constructed from a base value. -/
  compareWith (comparison : Except Refusal (Comparison σ)) (u : σ) (x : R.Base) :
      Except Refusal Datum := do
    let c ← comparison
    let v ← Refusal.ofFault (R.rule.ofBase x)
    return .bool (c u v)

/-- The reports of a list of steps from the value `u` on. -/
def reports (u : σ) : List (RefinementAction × Datum) → List RefinementStepReport
  | [] => []
  | (action, d) :: steps =>
    let (answer, v) :=
      match R.base.read d with
      | .ok x => R.perform schema u action x
      | .error e => (.error e, u)
    let shown? := if R.shown then some (R.base.write (R.rule.toBase v)) else none
    ⟨⟨answer, schema.write v⟩, shown?⟩ :: reports v steps

end Refining

/-- The reports of a list of steps with a value of a refined type. -/
def Described.followRefinement (d : Described) (start : Datum)
    (steps : List (RefinementAction × Datum)) : Except Refusal (List RefinementStepReport) :=
  match d.schema.refining? with
  | none => .error .notRefinement
  | some R => do
    let u ← d.schema.read start
    return R.reports d.schema u steps

/-! ### The laws on samples -/

/-- The ground truth for the sameness of refined values. -/
inductive GroundTruth where
  /-- The identity of the type. -/
  | identity
  /-- The comparison of the type. -/
  | canonical
  | never
  | always

/-- The relation that a ground truth stands for. -/
def GroundTruth.resolve {σ : Type} (schema : Schema σ) :
    GroundTruth → Except Refusal (Comparison σ)
  | identity => schema.identity
  | canonical => schema.comparison
  | never => .ok fun _ _ => false
  | always => .ok fun _ _ => true

/-- Which laws of a refinement hold on samples. -/
structure RefinementLawReport where
  /-- The projection is injective. -/
  injective : Bool
  /-- A projection can be inserted again and gives the value back. -/
  reinserts? : Bool
  /-- The same, where a projection that is not accepted is a fault. -/
  reinserts : Except Fault Bool
  /-- Insertion agrees with the predicate and projects back. -/
  inserts : Bool
  /-- Insertion with a default projects to the base value or to that of the default. -/
  insertsD? : Option Bool

/-- The laws of a refined type on refined values `us` and base values `xs`. -/
def Described.refinementLaws (d : Described) (us xs : List Datum) (same : GroundTruth)
    (default? : Option Datum) : Except Refusal RefinementLawReport :=
  match d.schema.refining? with
  | none => .error .notRefinement
  | some R => do
    let us ← us.mapM d.schema.read
    let xs ← xs.mapM R.base.read
    let same ← same.resolve d.schema
    let c ← R.base.comparison
    let default? ← default?.mapM d.schema.read
    return {
      injective := R.rule.projectsInjectively c same us
      reinserts? := R.rule.reinserts? same us
      reinserts := R.rule.reinserts same us
      inserts := R.rule.insertsCorrectly c xs
      insertsD? := default?.map fun u => R.rule.insertsCorrectlyD c u xs }

end Sameness

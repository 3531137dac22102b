import Sameness.Catalogue.Schema

/-!
# Enquiries about labelled values

A labelled value is followed through a list of steps, some of which replace it by a move and some
of which ask about it. A step that is refused leaves the value as it was.
-/

namespace Sameness

/-- One step with a labelled value. -/
inductive LabelStep where
  /-- Take this value. -/
  | renew (v : Datum)
  /-- Transport this value to the present label. -/
  | adopt (v : Datum)
  /-- Transport the present value to the label of this one. -/
  | follow (v : Datum)
  /-- The payload under a label. -/
  | payloadAt (i : Datum)
  /-- The comparison with another value. -/
  | compare (v : Datum)
  /-- The position of a label. -/
  | positionOf (i : Datum)
  /-- The present label. -/
  | label
  /-- The position of the present payload. -/
  | position

/-- What came of a step, and the value after it. -/
structure StepReport where
  /-- The answer to the step. -/
  answer : Except Refusal Datum
  /-- The value after the step. -/
  current : Datum

namespace LabelStep

variable {n : Nat} {I : Type} [DecidableEq I] {L : Labels n I} {F : Fin n → Type}

/-- The answer to a step and the value after it, when the value before it is `u`. -/
def perform (index : Scalar I) (payloads : (k : Fin n) → Schema (F k)) (u : Labelled L F) :
    LabelStep → Except Refusal (Datum × Labelled L F)
  | renew v => do
    let v ← schema.read v
    return (.null, (Labelled.Move.renew v).apply u)
  | adopt v => do
    let v ← schema.read v
    return (.null, (Labelled.Move.adopt v).apply u)
  | follow v => do
    let v ← schema.read v
    return (.null, (Labelled.Move.follow v).apply u)
  | payloadAt i => do
    let i ← Refusal.malformed.unless (index.read? i)
    let x ← Refusal.ofFault (u.get i)
    return ((payloads u.position).write x, u)
  | compare v => do
    let c ← schema.comparison
    let v ← schema.read v
    return (.bool (c u v), u)
  | positionOf i => do
    let i ← Refusal.malformed.unless (index.read? i)
    let k ← Refusal.ofFault (L.position i)
    return (.int k.val, u)
  | label => .ok (index.write u.label, u)
  | position => .ok (.int u.position.val, u)
where
  /-- The schema of the labelled values. -/
  schema : Schema (Labelled L F) := .labelled index L payloads

/-- The reports of a list of steps from the value `u` on. -/
def reports (index : Scalar I) (payloads : (k : Fin n) → Schema (F k)) (u : Labelled L F) :
    List LabelStep → List StepReport
  | [] => []
  | s :: steps =>
    let write := (Schema.labelled index L payloads).write
    match s.perform index payloads u with
    | .ok (answer, v) => ⟨.ok answer, write v⟩ :: reports index payloads v steps
    | .error e => ⟨.error e, write u⟩ :: reports index payloads u steps

end LabelStep

/-- The reports of a list of steps with a value of a labelled type. -/
def Schema.followLabels :
    {α : Type} → Schema α → Datum → List LabelStep → Except Refusal (List StepReport)
  | _, labelled index L payloads, start, steps => do
    let u ← (labelled index L payloads).read start
    return LabelStep.reports index payloads u steps
  | _, _, _, _ => .error .malformed

end Sameness

import Sameness.Refinement.Basic

/-!
# Runs and towers

A **run** starts from a current refined value and goes through a list of attempts to replace it.
Each step offers a base value through one of the constructors; when the base value is not accepted
the step faults or has no value, and the current value stays as it was. `Refinement.run` is the
value at the end and `Refinement.outcomes` what the steps have yielded on the way. A first value
comes from a constructor that needs no value to fall back on (`Refinement.Constructs`); the values
that the constructors can make at all are those for which every default has been made before
(`Refinement.Constructible`).

A **tower** over a base type is a stack of ready-made refinements, each refining the carrier of the
one below. Base values are inserted layer by layer, and a value is projected back through all
layers. `Tower.accepts` is the conjunction of the predicates of all layers as one predicate on the
base type, `Tower.merged` is the tower of a single layer with that predicate, and `Tower.Sound` says
of a value that every layer accepts what it wraps. The values that can be **constructed** in a tower
are those that a run of construction steps leads to, layer by layer: the base values of a layer are
themselves constructed in the layers below.
-/

namespace Sameness

/-! ### Runs of construction steps -/

namespace Refinement

variable {σ β : Type} {R : Refinement σ β}

/-- One attempt to construct a refined value. -/
inductive Step (R : Refinement σ β) where
  /-- The base value has to be accepted. -/
  | demand (x : β)
  /-- The base value may be refused. -/
  | attempt (x : β)
  /-- The base value may be refused; the direct form. -/
  | attemptDirect (x : β)
  /-- The current value is the default. -/
  | orKeep (x : β)
  /-- The refinement accepts every base value. -/
  | wrap (free : R.Unrestricted) (x : β)

namespace Step

/-- The base value that a step offers. -/
def offered : Step R → β
  | demand x => x
  | attempt x => x
  | attemptDirect x => x
  | orKeep x => x
  | wrap _ x => x

/-- What a step yields when the current value is `u`: a value, no value, or a fault. -/
def outcome (u : σ) : Step R → Except Fault (Option σ)
  | demand x => (R.ofBase x).map some
  | attempt x => .ok (R.ofBase? x)
  | attemptDirect x => .ok (R.ofBaseDirect? x)
  | orKeep x => .ok (some (R.ofBaseD u x))
  | wrap free x => .ok (some (R.wrap free x))

/-- The current value after a step. -/
def next (u : σ) (s : Step R) : σ :=
  match s.outcome u with
  | .ok (some v) => v
  | _ => u

end Step

/-- The current value after a run of steps. -/
def run (u : σ) (steps : List (Step R)) : σ := steps.foldl Step.next u

@[simp] theorem run_nil (u : σ) : run u ([] : List (Step R)) = u := rfl

@[simp] theorem run_cons (u : σ) (s : Step R) (steps : List (Step R)) :
    run u (s :: steps) = run (s.next u) steps := rfl

/-- What the steps of a run yield, each with the value that the steps before it have left. -/
def outcomes (u : σ) : List (Step R) → List (Except Fault (Option σ))
  | [] => []
  | s :: steps => s.outcome u :: outcomes (s.next u) steps

/-- One of the constructors makes `u` of the base value `x`, with no value to fall back on. -/
inductive Constructs (R : Refinement σ β) (x : β) : σ → Prop where
  /-- The base value had to be accepted. -/
  | demand {u : σ} : R.ofBase x = .ok u → Constructs R x u
  /-- The base value might have been refused. -/
  | attempt {u : σ} : R.ofBase? x = some u → Constructs R x u
  /-- The base value might have been refused; the direct form. -/
  | attemptDirect {u : σ} : R.ofBaseDirect? x = some u → Constructs R x u
  /-- The refinement accepts every base value. -/
  | wrap (free : R.Unrestricted) : Constructs R x (R.wrap free x)

/-- The constructors can make `u`, with no other values to begin with than those they make. -/
inductive Constructible (R : Refinement σ β) : σ → Prop where
  /-- A first value. -/
  | first {x : β} {u : σ} : R.Constructs x u → Constructible R u
  /-- What comes of a base value with a default that can be made itself. -/
  | orElse {d : σ} (x : β) : Constructible R d → Constructible R (R.ofBaseD d x)

end Refinement

/-! ### Towers of refinements -/

/-- A stack of refinements over `β` whose uppermost carrier is `σ`. -/
inductive Tower (β : Type) : Type → Type 1 where
  | base : Tower β β
  | layer {σ τ : Type} (t : Tower β σ) (l : Layer σ τ) : Tower β τ

namespace Tower

variable {β : Type}

/-- The value that wraps `x` in every layer, whether or not the layers accept it. -/
def build : {σ : Type} → Tower β σ → β → σ
  | _, base, x => x
  | _, layer t l, x => l.refinement.build (t.build x)

/-- The base value at the bottom of all layers. -/
def toBase : {σ : Type} → Tower β σ → σ → β
  | _, base, u => u
  | _, layer t l, u => t.toBase (l.refinement.toBase u)

/-- The predicates of all layers, from the lowest up, each read at the value that the layers below
make of `x`. -/
def accepts : {σ : Type} → Tower β σ → β → Bool
  | _, base, _ => true
  | _, layer t l, x => t.accepts x && l.refinement.accepts (t.build x)

/-- The value for `x`, inserted layer by layer, if every layer accepts it. -/
def ofBase? : {σ : Type} → Tower β σ → β → Option σ
  | _, base, x => some x
  | _, layer t l, x => (t.ofBase? x).bind l.refinement.ofBase?

/-- The value for `x`, inserted layer by layer; the first layer that does not accept it faults. -/
def ofBase : {σ : Type} → Tower β σ → β → Except Fault σ
  | _, base, x => .ok x
  | _, layer t l, x => t.ofBase x >>= l.refinement.ofBase

/-- The comparison that the values of a tower inherit through all layers. -/
def inherit (c : Comparison β) : {σ : Type} → Tower β σ → Comparison σ
  | _, base => c
  | _, layer t l => l.refinement.inherit (t.inherit c)

/-- The predicates of the layers as predicates on the base, from the lowest layer up. -/
def predicates : {σ : Type} → Tower β σ → List (β → Bool)
  | _, base => []
  | _, layer t l => t.predicates ++ [fun x => l.refinement.accepts (t.build x)]

/-- The refinement that a tower is as a whole. -/
def refinement {σ : Type} (t : Tower β σ) : Refinement σ β where
  accepts := t.accepts
  toBase := t.toBase
  build := t.build

/-- All layers merged into one, which refines the base by the conjunction of their predicates. -/
def merged {σ : Type} (t : Tower β σ) : Tower β (Refined t.accepts) :=
  .layer .base (.refine t.accepts)

/-- Every layer accepts the value it wraps. -/
def Sound : {σ : Type} → Tower β σ → σ → Prop
  | _, base, _ => True
  | _, layer t l, u =>
    l.refinement.accepts (l.refinement.toBase u) = true ∧ t.Sound (l.refinement.toBase u)

/-- The value can be constructed: at the base any value can, and in a layer what a constructor
makes of a constructed base value, and what a step with a constructed base value makes of a value
constructed before. -/
inductive Constructed : {σ : Type} → Tower β σ → σ → Prop where
  /-- Any base value. -/
  | base (x : β) : Constructed .base x
  /-- A first value in a layer. -/
  | first {σ τ : Type} {t : Tower β σ} {l : Layer σ τ} {x : σ} {u : τ} :
      Constructed t x → l.refinement.Constructs x u → Constructed (.layer t l) u
  /-- The value after a step in a layer. -/
  | next {σ τ : Type} {t : Tower β σ} {l : Layer σ τ} {u : τ} {s : l.refinement.Step} :
      Constructed (.layer t l) u → Constructed t s.offered → Constructed (.layer t l) (s.next u)

end Tower

end Sameness

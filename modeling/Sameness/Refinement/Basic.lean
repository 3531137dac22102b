import Sameness.Basic

/-!
# Refinements

A **refinement** of a base type `β` is a type `σ` meant to stand for the base values that a
predicate accepts. It comes with a projection to the base and a raw builder from it. The builder
does not look at the predicate; the constructors below do, each with its own answer to a base value
that is not accepted:

* `Refinement.ofBase` faults,
* `Refinement.ofBase?` has no value,
* `Refinement.ofBaseD` falls back to a default.

No law is part of the type: whether projecting a built value gives the base value back is a property
that a refinement may have or lack (`Refinement.Faithful`), and checkers look for it on samples
(`Refinement.insertsCorrectly`).

Two ready-made carriers store the base value itself. `Refined p` stands for the base values that
satisfy `p`, and `Renamed β name` is `β` under a new name, with no restriction. Their values are
meant to be made through the constructors; a carrier does not record that its value was accepted. A
`Layer` is one of the two, taken as a single step from a base to a carrier. Building and projecting
are inverse to each other in every layer, whatever its predicate says.
-/

namespace Sameness

/-- A type `σ` standing for the values of `β` that a predicate accepts. The projection is taken to
return a value of the base type itself, not of another type that converts to it, and so whatever is
inherited through the projection is inherited from the base. -/
structure Refinement (σ β : Type) where
  /-- The predicate on base values. -/
  accepts : β → Bool
  /-- The base value that a refined value stands for. -/
  toBase : σ → β
  /-- The refined value for a base value that is assumed to be accepted. -/
  build : β → σ

namespace Refinement

variable {σ β : Type} (R : Refinement σ β)

/-- The refined value for `x`, which has to be accepted. -/
def ofBase (x : β) : Except Fault σ :=
  if R.accepts x then .ok (R.build x) else .error .predicateFails

/-- The refined value for `x`, if it is accepted. -/
def ofBase? (x : β) : Option σ := if R.accepts x then some (R.build x) else none

/-- The form of `ofBase?` that asks for no decision procedure. Predicates here are Boolean
already, so the two coincide. -/
def ofBaseDirect? (x : β) : Option σ := R.ofBase? x

/-- The refined value for `x` if it is accepted, and `default` otherwise. -/
def ofBaseD (default : σ) (x : β) : σ :=
  match R.ofBase? x with
  | some u => u
  | none => default

/-- The predicate accepts every base value, so that the refinement only wraps its base. -/
def Unrestricted : Prop := ∀ x, R.accepts x = true

/-- The refined value for `x` under a refinement that accepts every base value. -/
def wrap (_free : R.Unrestricted) (x : β) : σ := R.build x

/-- The refinement is **faithful**: what is built from an accepted base value projects back to that
value. Nothing is asked of base values that are not accepted. -/
def Faithful : Prop := ∀ x, R.accepts x = true → R.toBase (R.build x) = x

/-- The comparison that refined values inherit from their base. -/
def inherit (c : Comparison β) : Comparison σ := c.along R.toBase

variable {R} {x : β}

theorem ofBase_of_accepts (h : R.accepts x = true) : R.ofBase x = .ok (R.build x) := by
  simp [ofBase, h]

theorem ofBase_of_not_accepts (h : R.accepts x = false) : R.ofBase x = .error .predicateFails := by
  simp [ofBase, h]

theorem ofBase?_of_accepts (h : R.accepts x = true) : R.ofBase? x = some (R.build x) := by
  simp [ofBase?, h]

theorem ofBase?_of_not_accepts (h : R.accepts x = false) : R.ofBase? x = none := by
  simp [ofBase?, h]

theorem ofBaseD_of_accepts (h : R.accepts x = true) (u : σ) : R.ofBaseD u x = R.build x := by
  simp [ofBaseD, ofBase?, h]

theorem ofBaseD_of_not_accepts (h : R.accepts x = false) (u : σ) : R.ofBaseD u x = u := by
  simp [ofBaseD, ofBase?, h]

theorem isSome_ofBase? (R : Refinement σ β) (x : β) : (R.ofBase? x).isSome = R.accepts x := by
  cases h : R.accepts x <;> simp [ofBase?, h]

theorem ofBase?_eq_some_iff {u : σ} :
    R.ofBase? x = some u ↔ R.accepts x = true ∧ R.build x = u := by
  simp [ofBase?]

theorem ofBase_eq_ok_iff {u : σ} :
    R.ofBase x = .ok u ↔ R.accepts x = true ∧ R.build x = u := by
  cases h : R.accepts x <;> simp [ofBase, h]

/-- The two constructors differ only in how they refuse. -/
theorem ofBase_eq_elim (R : Refinement σ β) (x : β) :
    R.ofBase x = (R.ofBase? x).elim (.error .predicateFails) .ok := by
  cases h : R.accepts x <;> simp [ofBase, ofBase?, h]

@[simp] theorem inherit_apply (c : Comparison β) (u v : σ) :
    R.inherit c u v = c (R.toBase u) (R.toBase v) := rfl

end Refinement

/-! ### Ready-made refinements -/

/-- A base value that is meant to satisfy `p`. -/
structure Refined {β : Type} (p : β → Bool) where
  /-- The stored base value. -/
  val : β
deriving DecidableEq

/-- A base value under a new name. -/
structure Renamed (β : Type) (name : String) where
  /-- The stored base value. -/
  val : β
deriving DecidableEq

/-- The refinement of `β` by the predicate `p`. -/
def Refined.refinement {β : Type} (p : β → Bool) : Refinement (Refined p) β where
  accepts := p
  toBase u := u.val
  build x := ⟨x⟩

/-- The refinement of `β` that accepts everything and only renames. -/
def Renamed.refinement (β : Type) (name : String) : Refinement (Renamed β name) β where
  accepts _ := true
  toBase u := u.val
  build x := ⟨x⟩

theorem Renamed.unrestricted (β : Type) (name : String) :
    (Renamed.refinement β name).Unrestricted := fun _ => rfl

/-! ### Layers -/

/-- A ready-made refinement of `β`, by its carrier. -/
inductive Layer (β : Type) : Type → Type where
  /-- A layer that refines by a predicate. -/
  | refine (p : β → Bool) : Layer β (Refined p)
  /-- A layer that renames. -/
  | rename (name : String) : Layer β (Renamed β name)

namespace Layer

variable {σ β : Type}

/-- The refinement that a layer is. -/
def refinement : Layer β σ → Refinement σ β
  | refine p => Refined.refinement p
  | rename name => Renamed.refinement β name

@[simp] theorem toBase_build (l : Layer β σ) (x : β) :
    l.refinement.toBase (l.refinement.build x) = x := by
  cases l <;> rfl

@[simp] theorem build_toBase (l : Layer β σ) (u : σ) :
    l.refinement.build (l.refinement.toBase u) = u := by
  cases l <;> rfl

theorem toBase_injective (l : Layer β σ) ⦃u v : σ⦄
    (h : l.refinement.toBase u = l.refinement.toBase v) : u = v := by
  rw [← l.build_toBase u, h, l.build_toBase]

end Layer

end Sameness

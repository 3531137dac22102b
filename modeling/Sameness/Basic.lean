/-!
# Comparisons

A **comparison** on `α` is a Boolean-valued function of two values of `α`. It is meant to decide
identity, but nothing in its type says so: the checkers of samples look for the law
(`Sample.lawful`), and everything built here is built from an arbitrary comparison. In particular
the order of the two arguments is always kept, since a comparison need not be symmetric.

A comparison is obtained from

* any relation whose results can be read as true or false (`Comparison.ofRelation`),
* decidable identity (`Comparison.identity`),
* a comparison of images under a map (`Comparison.along`), with or without a left inverse of the
  map at hand.

The outcome for two values can be kept as a `Verdict`, a truth value that is evidence when it holds,
or as a `Split`, which keeps the two values and is consumed by a case for the same value and a case
for two different ones.

A `Fault` is what was wrong with a request for a value: a base value that does not satisfy the
predicate of a refinement, a label that was never declared, or a payload asked for under a label
that the value does not carry.
-/

namespace Sameness

/-! ### Truth values -/

/-- The results of a relation that can be read as true or false. -/
class Truth (τ : Type) where
  /-- Whether the value counts as true. -/
  isTrue : τ → Bool

/-- A Boolean is its own truth value. -/
instance : Truth Bool := ⟨fun b => b⟩

/-- A machine integer is true when it is not zero, so two true results may differ. -/
instance : Truth Int32 := ⟨fun n => n != 0⟩

@[simp] theorem Truth.isTrue_bool (b : Bool) : Truth.isTrue b = b := rfl

@[simp] theorem Truth.isTrue_int32 (n : Int32) : Truth.isTrue n = (n != 0) := rfl

/-! ### Comparisons and where they come from -/

/-- A Boolean-valued binary relation on `α`, read as "the two values are the same". -/
abbrev Comparison (α : Type) := α → α → Bool

namespace Comparison

variable {α β τ : Type}

/-- A relation taken as a comparison: its results are read as truth values. -/
def ofRelation [Truth τ] (r : α → α → τ) : Comparison α := fun x y => Truth.isTrue (r x y)

/-- Identity of values, where it is decidable. -/
def identity [DecidableEq α] : Comparison α := fun x y => decide (x = y)

/-- The comparison of images: `x` and `y` are the same when `f x` and `f y` are. It decides
identity on `α` when `c` does on `β` and `f` is injective. -/
def along (c : Comparison β) (f : α → β) : Comparison α := fun x y => c (f x) (f y)

/-- The comparison along a map that a total left inverse makes injective. The inverse is the
reason the comparison is right and takes no part in it. -/
def alongInverse (c : Comparison β) (f : α → β) (_back : β → α) : Comparison α := c.along f

/-- The comparison along a map that a partial left inverse makes injective. The inverse is the
reason the comparison is right and takes no part in it. -/
def alongPartialInverse (c : Comparison β) (f : α → β) (_back? : β → Option α) : Comparison α :=
  c.along f

/-- The comparison with its two arguments exchanged. -/
def swap (c : Comparison α) : Comparison α := fun x y => c y x

/-- Whether the comparison tells its arguments apart. -/
def differ (c : Comparison α) (x y : α) : Bool := !c x y

/-- Whether the comparison finds a value the same as itself. -/
def selfSame (c : Comparison α) (x : α) : Bool := c x x

/-- The comparison **decides identity**: it finds two values the same exactly when they are one
and the same value. -/
def Decides (c : Comparison α) : Prop := ∀ x y, c x y = true ↔ x = y

/-- The comparison is **symmetric and transitive**. A value need not be the same as itself, and two
values that are the same need not be identical. -/
structure PartialEquivalence (c : Comparison α) : Prop where
  /-- The order of the arguments does not matter. -/
  symm : ∀ {x y}, c x y = true → c y x = true
  /-- Two steps make one. -/
  trans : ∀ {x y z}, c x y = true → c y z = true → c x z = true

@[simp] theorem ofRelation_apply [Truth τ] (r : α → α → τ) (x y : α) :
    ofRelation r x y = Truth.isTrue (r x y) := rfl

@[simp] theorem identity_eq_true_iff [DecidableEq α] {x y : α} :
    identity x y = true ↔ x = y := decide_eq_true_iff

@[simp] theorem along_apply (c : Comparison β) (f : α → β) (x y : α) :
    c.along f x y = c (f x) (f y) := rfl

@[simp] theorem swap_apply (c : Comparison α) (x y : α) : c.swap x y = c y x := rfl

@[simp] theorem differ_apply (c : Comparison α) (x y : α) : c.differ x y = !c x y := rfl

namespace PartialEquivalence

variable {c : Comparison α} {d : Comparison β}

/-- Two values that are both the same as a third, standing on the left, are the same. -/
theorem of_common (hc : c.PartialEquivalence) {x y z : α} (hx : c z x = true) (hy : c z y = true) :
    c x y = true := hc.trans (hc.symm hx) hy

/-- Two values that are the same compare alike with every third on the right. -/
theorem congr_left (hc : c.PartialEquivalence) {x y : α} (hxy : c x y = true) (z : α) :
    c x z = c y z := Bool.eq_iff_iff.mpr ⟨hc.trans (hc.symm hxy), hc.trans hxy⟩

/-- The property passes to the comparison along any map. -/
protected theorem along (hd : d.PartialEquivalence) (f : α → β) : (d.along f).PartialEquivalence :=
  ⟨hd.symm, hd.trans⟩

end PartialEquivalence

end Comparison

/-! ### Truth values compared -/

/-- Exclusive or: whether two truth values differ. -/
def exclusiveOr (x y : Bool) : Bool := x != y

/-- Two truth values are the same when their exclusive or is false. -/
def Comparison.bool : Comparison Bool := fun x y => !exclusiveOr x y

/-- Any two values of the one-element type are the same. -/
def Comparison.unit : Comparison Unit := fun _ _ => true

@[simp] theorem Comparison.bool_eq_true_iff {x y : Bool} : Comparison.bool x y = true ↔ x = y := by
  simp [Comparison.bool, exclusiveOr]

/-! ### Verdicts and splits -/

section Views

variable {α β : Type}

/-- The outcome of a comparison; when it `holds` the two values are the same. -/
structure Verdict where
  /-- Whether the compared values were found the same. -/
  holds : Bool

/-- A verdict may be tested like a truth value. -/
instance : Truth Verdict := ⟨Verdict.holds⟩

/-- The verdict of a comparison on two values. -/
def Comparison.verdict (c : Comparison α) (x y : α) : Verdict := ⟨c x y⟩

@[simp] theorem Comparison.holds_verdict (c : Comparison α) (x y : α) :
    (c.verdict x y).holds = c x y := rfl

/-- Two values waiting for a case split on whether `c` finds them the same. Both are kept, since
under a coarse comparison two values that are the same may still be distinguishable. -/
structure Split (c : Comparison α) where
  left : α
  right : α

/-- The split of two values. -/
def Comparison.split (c : Comparison α) (x y : α) : Split c := ⟨x, y⟩

namespace Split

variable {c : Comparison α}

/-- Whether the two values are the same. -/
def isSame (s : Split c) : Bool := c s.left s.right

/-- The case split: `onSame` sees the left value when the two are the same, `onDifferent` sees
both otherwise. -/
def fold (s : Split c) (onSame : α → β) (onDifferent : α → α → β) : β :=
  if s.isSame then onSame s.left else onDifferent s.left s.right

@[simp] theorem isSame_split (c : Comparison α) (x y : α) : (c.split x y).isSame = c x y := rfl

end Split

end Views

/-! ### Faults -/

/-- What was wrong with a request for a value. -/
inductive Fault where
  /-- The base value fails the predicate of the refinement it was to enter. -/
  | predicateFails
  /-- The label is not one of the declared labels. -/
  | undeclaredLabel
  /-- The label is declared, but the value carries another one. -/
  | otherLabel
deriving DecidableEq, Repr

/-- The text of a fault. -/
def Fault.message : Fault → String
  | predicateFails => "sub: value does not satisfy the subtype predicate"
  | undeclaredLabel => "Tagged: index outside the declared index set"
  | otherLabel => "Tagged: payload requested at another index"

/-- Different faults have different texts. -/
theorem Fault.message_injective {e e' : Fault} (h : e.message = e'.message) : e = e' := by
  cases e <;> cases e' <;> simp [message] at h ⊢

/-- A result that tells the text of a fault has failed with that fault. -/
theorem Fault.mapError_message_eq_error_iff {α : Type} {r : Except Fault α} {e : Fault} :
    r.mapError message = .error e.message ↔ r = .error e := by
  cases r with
  | ok x => exact ⟨nofun, nofun⟩
  | error e' =>
    refine ⟨fun h => ?_, fun h => h ▸ rfl⟩
    rw [message_injective (Except.error.inj h)]

end Sameness

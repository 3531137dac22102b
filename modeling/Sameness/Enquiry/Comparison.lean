import Sameness.Basic
import Sameness.Catalogue.Types
import Sameness.Sample.Basic

/-!
# Enquiries about a comparison

Questions that can be asked of a described type and written values: how two values compare, which
laws the comparison obeys on a sample, how two pairs compare by components, and which capabilities
the type has at all. A type is examined before any value is read, and values are read in the order
in which they are given.
-/

namespace Sameness

/-! ### Two values compared -/

/-- What a case split on two values came to. -/
inductive Branch where
  /-- The case for the same value, with the left one. -/
  | same (x : Datum)
  /-- The case for two different values. -/
  | different (x y : Datum)

/-- All that can be said of two values. -/
structure ComparisonReport where
  same : Bool
  differ : Bool
  /-- Whether they are the same in the other order. -/
  swapped : Bool
  /-- Whether the left value is the same as itself. -/
  leftSelf : Bool
  /-- Whether the right value is the same as itself. -/
  rightSelf : Bool
  holds : Bool
  verdict : Bool
  /-- Whether the split found them the same. -/
  splitSame : Bool
  left : Datum
  right : Datum
  /-- The branch taken by the split. -/
  branch : Branch

namespace Described

/-- The comparison of two values. -/
def compareReport (d : Described) (x y : Datum) : Except Refusal ComparisonReport := do
  let c ← d.schema.comparison
  let x ← d.schema.read x
  let y ← d.schema.read y
  let write := d.schema.write
  let split := c.split x y
  return {
    same := c x y
    differ := c.differ x y
    swapped := c.swap x y
    leftSelf := c.selfSame x
    rightSelf := c.selfSame y
    holds := (c.verdict x y).holds
    verdict := Truth.isTrue (c.verdict x y)
    splitSame := split.isSame
    left := write split.left
    right := write split.right
    branch := split.fold (fun x => .same (write x)) fun x y => .different (write x) (write y) }

end Described

/-! ### The laws on a sample -/

/-- Which laws a sample obeys. -/
structure LawReport where
  /-- Reflexivity. -/
  reflexive : Bool
  /-- Symmetry. -/
  symmetric : Bool
  /-- Transitivity. -/
  transitive : Bool
  /-- All laws of an equivalence. -/
  lawful : Bool
  /-- Agreement with the identity of the type, where it is reported. -/
  decides? : Option Bool

/-- The laws of the comparison of a type on a sample, and its agreement with the identity of the
type if `withIdentity` is set. -/
def Described.lawReport (d : Described) (withIdentity : Bool) (xs : List Datum) :
    Except Refusal LawReport := do
  let c ← d.schema.comparison
  let xs ← xs.mapM d.schema.read
  let decides? ←
    if withIdentity then do
      let same ← d.schema.identity
      pure (some (Sample.decides c xs same))
    else pure none
  return {
    reflexive := Sample.reflexive c xs
    symmetric := Sample.symmetric c xs
    transitive := Sample.transitive c xs
    lawful := Sample.lawful c xs
    decides? }

/-- The laws of the comparison of a named type on a sample, next to its identity where the
catalogue says so. -/
def Catalogue.lawReport (name : String) (xs : List Datum) : Except Refusal LawReport :=
  match find? name with
  | some d => d.lawReport (identityReported.contains name) xs
  | none => .error .malformed

/-! ### Pairs and truth values -/

/-- The comparison of two pairs and what it says of their components. -/
structure PairReport where
  /-- Whether the pairs are the same. -/
  same : Bool
  /-- Whether the first components are. -/
  first : Bool
  /-- Whether the second components are. -/
  second : Bool

/-- The comparison of two pairs by components. -/
def Described.pairReport (d : Described) (x y : Datum) : Except Refusal PairReport :=
  match d with
  | ⟨_, .pair s t⟩ => do
    let c ← s.comparison
    let e ← t.comparison
    let u ← (Schema.pair s t).read x
    let v ← (Schema.pair s t).read y
    return ⟨c.pair e u v, Comparison.first c u v, Comparison.second e u v⟩
  | _ => .error .malformed

/-- Two truth values compared, and two values of the one-element type. -/
structure TruthReport where
  /-- Whether the truth values differ. -/
  exclusiveOr : Bool
  /-- Whether they are the same. -/
  same : Bool
  /-- Whether the values of the one-element type are the same. -/
  unit : Bool

/-- The comparison of two truth values. -/
def truthReport (x y : Bool) : TruthReport :=
  ⟨exclusiveOr x y, Comparison.bool x y, Comparison.unit () ()⟩

/-! ### Capabilities -/

/-- What can be done with a type. -/
structure CapabilityReport where
  /-- Whether its values can be compared. -/
  comparable : Bool
  /-- Whether it is a refinement. -/
  refinement : Bool
  /-- Whether it is a refinement that only renames. -/
  renames : Bool

/-- The capabilities of a type. -/
def Described.capabilities (d : Described) : CapabilityReport where
  comparable := (d.schema.shape? .canonical).isSome
  refinement := d.schema.refining?.isSome
  renames := d.schema.refining?.any (·.renames)

end Sameness

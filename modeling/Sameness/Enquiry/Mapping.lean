import Sameness.Integer
import Sameness.Sample.Basic

/-!
# Enquiries about functions and relations

Questions about the functions and relations on 32-bit integers: their values, whether two of them
agree on a sample, which points a function leaves unchanged through a projection, whether an image
is injective, and whether one function undoes another.
-/

namespace Sameness

/-- 32-bit integers, each read in turn. -/
def readInts (xs : List Datum) : Except Refusal (List Int32) := xs.mapM Described.int32.schema.read

/-- Pairs of a 32-bit integer and a value of a described type, each read in turn. -/
def Described.readPairs (d : Described) (ps : List (Datum × Datum)) :
    Except Refusal (List (Int32 × d.Carrier)) :=
  ps.mapM fun p => do
    let x ← Described.int32.schema.read p.1
    let y ← d.schema.read p.2
    return (x, y)

/-! ### Images -/

namespace ImageTerm

/-- The values of an image on a sample. -/
def values (f : ImageTerm) (xs : List Datum) : Except Refusal (List Datum) := do
  let f ← f.resolve
  let xs ← readInts xs
  return xs.map fun x => f.codomain.described.schema.write (f.apply x)

/-- Whether two images into one codomain agree on a sample. -/
def agree (f g : ImageTerm) (xs : List Datum) : Except Refusal Bool := do
  let f ← f.resolve
  let g ← g.resolve
  let xs ← readInts xs
  let c ← f.codomain.described.schema.comparison
  let g ← Refusal.malformed.unless (g.into? f.codomain)
  return Sample.functionsAgree c f.apply g xs

/-- The graph of an image on pairs of an argument and a possible value. -/
def graph (f : ImageTerm) (ps : List (Datum × Datum)) : Except Refusal (List Bool) := do
  let f ← f.resolve
  let c ← f.codomain.described.schema.comparison
  let ps ← f.codomain.described.readPairs ps
  return ps.map fun p => c.graph f.apply p.1 p.2

/-- Which points of a sample keep their image when the function is applied to them. -/
def fixedBy (k : ImageTerm) (f : IntFun) (xs : List Datum) : Except Refusal (List Bool) := do
  let k ← k.resolve
  let c ← k.codomain.described.schema.comparison
  let xs ← readInts xs
  return xs.map (c.fixedThrough f.eval k.apply)

end ImageTerm

/-! ### Domains with an integer inside -/

/-- A described type whose values hold a 32-bit integer. -/
structure IntDomain where
  /-- The type. -/
  described : Described
  /-- The integer inside a value. -/
  value : described.Carrier → Int32
  /-- A value with a given integer inside. -/
  wrap : Int32 → described.Carrier

/-- The domains by name. -/
def IntDomain.find? : String → Option IntDomain
  | "i32" => some ⟨.int32, id, id⟩
  | "keyed" => some ⟨.keyed, Keyed.key, fun n => Keyed.mk n 0⟩
  | "ble" => some ⟨.atMost, AtMost.value, AtMost.mk⟩
  | "bnear" => some ⟨.near, Near.value, Near.mk⟩
  | _ => none

namespace IntDomain

/-- Whether an image of the integer inside is injective on a sample. -/
def injective (D : IntDomain) (f : ImageTerm) (xs : List Datum) : Except Refusal Bool := do
  let f ← f.resolve
  let c ← D.described.schema.comparison
  let d ← f.codomain.described.schema.comparison
  let xs ← xs.mapM D.described.schema.read
  return Sample.injective c d (fun x => f.apply (D.value x)) xs

/-- Whether one function undoes another, and what follows. -/
structure CancellationReport where
  /-- The second function undoes the first. -/
  cancels : Bool
  /-- So does its restriction to an interval. -/
  cancelsPartly : Bool
  /-- The first function is injective. -/
  injective : Bool
  /-- The comparison along the first function, with the second as its inverse, decides identity. -/
  inverseDecides : Bool
  /-- So does the one with the restriction as its partial inverse. -/
  partialInverseDecides : Bool

/-- Whether `g` undoes `f` on a sample, everywhere and between the bounds. -/
def cancellation (D : IntDomain) (f g : IntFun) (lo hi : Int) (xs : List Datum) :
    Except Refusal CancellationReport := do
  let c ← D.described.schema.comparison
  let same ← D.described.schema.identity
  let xs ← xs.mapM D.described.schema.read
  let image : D.described.Carrier → Int32 := fun x => f.eval (D.value x)
  let back : Int32 → D.described.Carrier := fun y => D.wrap (g.eval y)
  let back? : Int32 → Option D.described.Carrier := fun y =>
    if y.toInt < lo ∨ hi < y.toInt then none else some (back y)
  let integers := RelationTerm.integers
  return {
    cancels := Sample.cancels c image back xs
    cancelsPartly := Sample.cancelsPartly c image back? xs
    injective := Sample.injective c integers image xs
    inverseDecides := Sample.decides (integers.alongInverse image back) xs same
    partialInverseDecides := Sample.decides (integers.alongPartialInverse image back?) xs same }

end IntDomain

/-! ### Relations -/

namespace RelationTerm

/-- The verdicts of a relation on pairs. -/
def verdicts (r : RelationTerm) (ps : List (Datum × Datum)) : Except Refusal (List Bool) := do
  let r ← r.resolve
  let ps ← Described.int32.readPairs ps
  return ps.map fun p => Comparison.ofRelation r p.1 p.2

/-- Whether two relations agree on a sample. -/
def agree (r s : RelationTerm) (xs : List Datum) : Except Refusal Bool := do
  let r ← r.resolve
  let s ← s.resolve
  let xs ← readInts xs
  return Sample.relationsAgree r s xs

/-- Which laws a relation obeys on a sample. -/
structure LawReport where
  /-- Reflexivity. -/
  reflexive : Bool
  /-- Symmetry. -/
  symmetric : Bool
  /-- Transitivity. -/
  transitive : Bool
  /-- Agreement with identity. -/
  decides : Bool
  /-- Agreement with another relation, if one is given. -/
  decidesSame? : Option Bool

/-- The laws of a relation on a sample. -/
def lawReport (r : RelationTerm) (xs : List Datum) (same? : Option RelationTerm) :
    Except Refusal LawReport := do
  let r ← r.resolve
  let xs ← readInts xs
  let same? ← same?.mapM resolve
  return {
    reflexive := Sample.reflexive r xs
    symmetric := Sample.symmetric r xs
    transitive := Sample.transitive r xs
    decides := Sample.decides r xs (Comparison.identity : Comparison Int32)
    decidesSame? := same?.map fun same => Sample.decides r xs same }

end RelationTerm

end Sameness

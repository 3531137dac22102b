import Sameness.Integer
import Sameness.PointSet
import Sameness.Sample.Basic

/-!
# Enquiries about point sets

A `PointTerm` is the written form of a point-set expression, before its points are read. It is
elaborated against a schema and the shape of its comparison into a `PointExpr` over that
comparison; a product term needs a schema of pairs, and the arithmetic tests need 32-bit integers.
-/

namespace Sameness

/-- The written form of a point-set expression. -/
inductive PointTerm where
  /-- Everything or nothing. -/
  | const (b : Bool)
  | ofList (as : List Datum)
  | allBut (a : Datum)
  | insert (a : Datum) (p : PointTerm)
  | erase (p : PointTerm) (a : Datum)
  | complement (p : PointTerm)
  | union (p q : PointTerm)
  | inter (p q : PointTerm)
  /-- A set of first components times a set of second components. -/
  | product (p q : PointTerm)
  | negative
  /-- The integers below `k`. -/
  | lessThan (k : Int)
  | digit
  /-- The integers whose image by `k` is unchanged by `f`. -/
  | fixedThrough (f : IntFun) (k : ImageTerm)

namespace PointTerm

/-- The expression that a term stands for at a schema whose comparison has the shape `s`. The
points of a term are read before its subterms are elaborated, and these from left to right. -/
def elaborate : PointTerm → {α : Type} → (d : Schema α) → (s : Shape α) →
    d.shape? .canonical = some s → Except Refusal (PointExpr s.compare)
  | const b, _, _, _, _ => .ok (.const b)
  | ofList as, _, d, _, _ => Refusal.andThen (as.mapM d.read) fun as => .ok (.ofList as)
  | allBut a, _, d, _, _ => Refusal.andThen (d.read a) fun a => .ok (.allBut a)
  | insert a p, _, d, s, h =>
    Refusal.andThen (d.read a) fun a => do
      let p ← p.elaborate d s h
      return .insert a p
  | erase p a, _, d, s, h =>
    Refusal.andThen (d.read a) fun a => do
      let p ← p.elaborate d s h
      return .erase p a
  | complement p, _, d, s, h => do
    let p ← p.elaborate d s h
    return .complement p
  | union p q, _, d, s, h => do
    let p ← p.elaborate d s h
    let q ← q.elaborate d s h
    return .union p q
  | inter p q, _, d, s, h => do
    let p ← p.elaborate d s h
    let q ← q.elaborate d s h
    return .inter p q
  | product p q, _, .pair d e, s, h =>
    match hd : d.shape? .canonical, he : e.shape? .canonical with
    | some t, some u => do
      let p ← p.elaborate d t hd
      let q ← q.elaborate e u he
      have hs : .pair t u = s := by simpa [Schema.shape?, hd, he] using h
      return hs ▸ .product p q
    | _, _ => .error .noComparison
  | negative, _, .scalar .int32, _, _ => .ok (.test fun (x : Int32) => decide (x < 0))
  | lessThan k, _, .scalar .int32, _, _ => .ok (.test fun (x : Int32) => decide (x.toInt < k))
  | digit, _, .scalar .int32, _, _ => .ok (.test (Refined.refinement Described.isDigit).accepts)
  | fixedThrough f k, _, .scalar .int32, _, _ =>
    Refusal.andThen k.resolve fun k =>
      Refusal.andThen k.codomain.described.schema.comparison fun c =>
        .ok (.test (c.fixedThrough f.eval k.apply))
  | _, _, _, _, _ => .error .malformed

end PointTerm

/-- Which values of a sample belong to the set of a term. -/
def Described.membership (d : Described) (p : PointTerm) (xs : List Datum) :
    Except Refusal (List Bool) :=
  match h : d.schema.shape? .canonical with
  | none => .error .noComparison
  | some s =>
    match p.elaborate d.schema s h with
    | .error e => .error e
    | .ok p => do
      let xs ← xs.mapM d.schema.read
      return xs.map p.denote

end Sameness

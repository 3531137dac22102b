import Sameness.Catalogue.Types
import Sameness.Sample.Basic

/-!
# Functions, images and relations of 32-bit integers

Three small languages. An `IntFun` is a function, computed exactly on integers and wrapped to 32
bits in two's complement; division and its remainder round toward zero, and the modulus is
Euclidean, hence never negative. An **image** is a function from 32-bit integers into one of
thirteen described types, built from functions on integers; its written form, an `ImageTerm`, may
contain a written value, so that it has to be resolved before it can be applied. A `RelationTerm` is
a relation whose results are integers, read as true when they are not zero: some are raw arithmetic,
some are comparisons, and some are derived from an image.
-/

namespace Sameness

/-! ### Numbers in decimal -/

/-- A number in decimal. -/
def decimal : Int → String
  | .ofNat n => Nat.repr n
  | .negSucc n => "-" ++ Nat.repr (n + 1)

/-! ### Functions -/

/-- An expression for a function on 32-bit integers. -/
inductive IntFun where
  | id
  | const (k : Int)
  | add (k : Int)
  | mul (k : Int)
  | neg
  | square
  | abs
  /-- The Euclidean remainder by a constant. -/
  | mod (k : Int)
  /-- The remainder by a constant that has the sign of the argument. -/
  | rem (k : Int)
  /-- The quotient by a constant, toward zero. -/
  | div (k : Int)
  | xor (k : Int)
  | and (k : Int)
  /-- The argument brought between two bounds, the lower one first. -/
  | clamp (lo hi : Int)
  /-- A table of values with one for all other arguments; the first entry counts. -/
  | table (entries : List (Int × Int)) (otherwise : Int)
  /-- The function `outer` after the function `inner`. -/
  | compose (outer inner : IntFun)

/-- The function that an expression stands for. -/
def IntFun.eval : IntFun → Int32 → Int32
  | id, x => x
  | const k, _ => .ofInt k
  | add k, x => .ofInt (x.toInt + k)
  | mul k, x => .ofInt (x.toInt * k)
  | neg, x => .ofInt (-x.toInt)
  | square, x => .ofInt (x.toInt * x.toInt)
  | abs, x => .ofInt x.toInt.natAbs
  | mod k, x => .ofInt (x.toInt.emod k)
  | rem k, x => .ofInt (x.toInt.tmod k)
  | div k, x => .ofInt (x.toInt.tdiv k)
  | xor k, x => x ^^^ .ofInt k
  | and k, x => x &&& .ofInt k
  | clamp lo hi, x =>
    .ofInt (if x.toInt < lo then lo else if hi < x.toInt then hi else x.toInt)
  | table entries otherwise, x => .ofInt ((entries.lookup x.toInt).getD otherwise)
  | compose outer inner, x => outer.eval (inner.eval x)

@[simp] theorem IntFun.eval_compose (outer inner : IntFun) :
    (compose outer inner).eval = outer.eval ∘ inner.eval := rfl

/-! ### Images -/

/-- The types that images lie in. -/
inductive Codomain where
  | int32
  | bool
  | unit
  | text
  | pair
  | keyed
  | atMost
  | near
  | option
  | either
  | optionEven
  | digit
  | small
deriving DecidableEq

/-- The described type of a codomain. -/
def Codomain.described : Codomain → Described
  | int32 => .int32
  | bool => .bool
  | unit => .unit
  | text => .text
  | pair => .pairInt
  | keyed => .keyed
  | atMost => .atMost
  | near => .near
  | option => .optionInt
  | either => .eitherInt
  | optionEven => .option .even
  | digit => .digit
  | small => .small

/-- A function from 32-bit integers into a described type. -/
structure Image where
  codomain : Codomain
  apply : Int32 → codomain.described.Carrier

/-- The function of an image, seen as one into a given codomain. -/
def Image.into? (f : Image) (u : Codomain) : Option (Int32 → u.described.Carrier) :=
  if h : f.codomain = u then some (h ▸ f.apply) else none

/-! ### Written images -/

/-- The written form of an image. -/
inductive ImageTerm where
  /-- The integer itself. -/
  | int32 (f : IntFun)
  /-- Whether the integer is odd. -/
  | bool (f : IntFun)
  /-- The one value there is. -/
  | unit
  | text (f : IntFun)
  | pair (f g : IntFun)
  /-- A key and a note. -/
  | keyed (f g : IntFun)
  /-- The integer, compared by order. -/
  | atMost (f : IntFun)
  /-- The integer, compared up to one. -/
  | near (f : IntFun)
  /-- The integer, for arguments within two bounds. -/
  | option (f : IntFun) (lo hi : Int)
  /-- The first integer on the left for negative arguments, else the second on the right. -/
  | either (f g : IntFun)
  /-- The integer without sign, if it is even. -/
  | optionEven (f : IntFun)
  /-- The integer if it is a digit, else a default. -/
  | digit (default : Datum) (f : IntFun)
  /-- The integer, under the label 0 for negative arguments and 2 for the others. -/
  | small (f : IntFun)

/-- The image that a term stands for, once its default has been read. -/
def ImageTerm.resolve : ImageTerm → Except Refusal Image
  | int32 f => .ok ⟨.int32, f.eval⟩
  | bool f => .ok ⟨.bool, fun x => f.eval x % 2 != 0⟩
  | unit => .ok ⟨.unit, fun _ => ()⟩
  | text f => .ok ⟨.text, fun x => decimal (f.eval x).toInt⟩
  | pair f g => .ok ⟨.pair, fun x => (f.eval x, g.eval x)⟩
  | keyed f g => .ok ⟨.keyed, fun x => Keyed.mk (f.eval x) (g.eval x)⟩
  | atMost f => .ok ⟨.atMost, fun x => AtMost.mk (f.eval x)⟩
  | near f => .ok ⟨.near, fun x => Near.mk (f.eval x)⟩
  | option f lo hi =>
    .ok ⟨.option, fun x => if x.toInt < lo ∨ hi < x.toInt then none else some (f.eval x)⟩
  | either f g => .ok ⟨.either, fun x => if x < 0 then .left (f.eval x) else .right (g.eval x)⟩
  | optionEven f =>
    .ok ⟨.optionEven, fun x => (Refined.refinement _).ofBase? (f.eval x).toUInt32⟩
  | digit default f => do
    let u ← Described.digit.schema.read default
    return ⟨.digit, fun x => (Refined.refinement _).ofBaseD u (f.eval x)⟩
  | small f =>
    .ok ⟨.small, fun x =>
      if x < 0 then Described.smallUnderZero (f.eval x) else Described.smallUnderTwo (f.eval x)⟩

/-! ### Relations -/

/-- The written form of a relation. -/
inductive RelationTerm where
  /-- The comparison of the integers. -/
  | canonical
  | identity
  | never
  | always
  | le
  | lt
  /-- At most `k` apart. -/
  | near (k : Int)
  /-- The bits in common. -/
  | bits
  /-- The wrapped difference. -/
  | difference
  /-- A table of digits, one row for each left argument; zero outside it. -/
  | matrix (rows : List String)
  | graph (f : IntFun)
  /-- A relation taken as a comparison. -/
  | ofRelation (r : RelationTerm)
  /-- A relation taken as a decision procedure. -/
  | ofDecision (r : RelationTerm)
  /-- The comparison of images. -/
  | along (f : ImageTerm)
  /-- The comparison along an injective image. -/
  | alongInjection (f : ImageTerm)
  /-- The comparison along an image with a left inverse. -/
  | alongInverse (f : ImageTerm) (back : Int)
  /-- The comparison along an image with a partial left inverse. -/
  | alongPartialInverse (f : ImageTerm) (back? : Option Int)

namespace RelationTerm

/-- A truth value as an integer. -/
def ofBool (b : Bool) : Int32 := if b then 1 else 0

/-- A comparison with its verdicts as integers. -/
def ofComparison (c : Comparison Int32) : Int32 → Int32 → Int32 := fun x y => ofBool (c x y)

/-- The digit in a row of digits. -/
def digitAt (row : String) (y : Nat) : Int32 :=
  match row.toList[y]? with
  | some c => .ofInt ((c.toNat : Int) - '0'.toNat)
  | none => 0

/-- The digit in row `x` and column `y`, or zero when there is none. -/
def entry (rows : List String) (x y : Int32) : Int32 :=
  if x < 0 ∨ y < 0 then 0
  else
    match rows[x.toInt.toNat]? with
    | some row => digitAt row y.toInt.toNat
    | none => 0

/-- The comparison of 32-bit integers. -/
abbrev integers : Comparison Int32 := Scalar.int32.compare

/-- A comparison of integers derived from an image and the comparison of its codomain. -/
def alongImage (f : ImageTerm)
    (derive : {β : Type} → Comparison β → (Int32 → β) → Comparison Int32) :
    Except Refusal (Int32 → Int32 → Int32) := do
  let f ← f.resolve
  let d ← f.codomain.described.schema.comparison
  return ofComparison (derive d f.apply)

/-- The relation that a term stands for. -/
def resolve : RelationTerm → Except Refusal (Int32 → Int32 → Int32)
  | canonical => .ok (ofComparison integers)
  | identity => .ok (ofComparison .identity)
  | never => .ok fun _ _ => 0
  | always => .ok fun _ _ => 1
  | le => .ok (ofComparison fun x y => decide (x ≤ y))
  | lt => .ok (ofComparison fun x y => decide (x < y))
  | near k => .ok (ofComparison fun x y => decide (((x.toInt - y.toInt).natAbs : Int) ≤ k))
  | bits => .ok fun x y => x &&& y
  | difference => .ok fun x y => x - y
  | matrix rows => .ok (entry rows)
  | graph f => .ok (ofComparison (integers.graph f.eval))
  | ofRelation r => do
    let r ← r.resolve
    return ofComparison (.ofRelation r)
  | ofDecision r => do
    let r ← r.resolve
    return ofComparison (.ofRelation r)
  | along f => alongImage f fun d g => d.along g
  | alongInjection f => alongImage f fun d g => d.along g
  | alongInverse f back => alongImage f fun d g => d.alongInverse g fun _ => .ofInt back
  | alongPartialInverse f back? =>
    alongImage f fun d g => d.alongPartialInverse g fun _ => back?.map .ofInt

end RelationTerm

end Sameness

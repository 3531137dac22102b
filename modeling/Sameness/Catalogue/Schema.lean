import Sameness.Catalogue.Scalar
import Sameness.Refinement.Basic
import Sameness.Shape

/-!
# Schemas

A **schema** describes a type completely enough to read and write its values, to say whether it
has a comparison, and to use it as a refinement if it is one. It is to a type what a `Shape` is to
a comparison, and `Schema.shape?` leads from one to the other: a composite type has a comparison
exactly when all its components do.

Two notions of sameness are told apart. The **canonical** comparison is the one a type declares;
its **identity** compares all that a value stores. Either may be missing.
-/

namespace Sameness

/-! ### Types described from outside -/

/-- A type with a written form of its own. -/
structure Custom (α : Type) where
  /-- The value that a datum denotes, if it denotes one. -/
  read? : Datum → Option α
  /-- The written form of a value. -/
  write : α → Datum
  /-- The comparison the type declares, if any. -/
  canonical? : Option (Comparison α)
  /-- The comparison of all fields, if there is one. -/
  identity? : Option (Comparison α)

/-- Which sameness is meant. -/
inductive Notion where
  /-- The comparison a type declares. -/
  | canonical
  /-- The comparison of all that a value stores. -/
  | identity
deriving DecidableEq

/-- The comparison of a custom type under a notion of sameness. -/
def Custom.compare? {α : Type} (r : Custom α) : Notion → Option (Comparison α)
  | .canonical => r.canonical?
  | .identity => r.identity?

/-! ### Schemas -/

/-- A description of a type and of its written form. -/
inductive Schema : Type → Type 1 where
  /-- A scalar type. -/
  | scalar {α : Type} (k : Scalar α) : Schema α
  /-- A type described from outside. -/
  | custom {α : Type} (r : Custom α) : Schema α
  /-- Pairs, written as lists of two. -/
  | pair {α β : Type} (s : Schema α) (t : Schema β) : Schema (α × β)
  /-- Tuples, written as lists. -/
  | tuple {n : Nat} {F : Fin n → Type} (fields : (k : Fin n) → Schema (F k)) : Schema (Tuple F)
  /-- Variants, written as a position and a value. The written position `-1`, without a value, asks
  for the variant that is left where replacing its value failed. It is read as `unchosen?`, and is
  malformed without one. What is left need not be vacant, since an attempt may fail before the old
  value is given up; vacant variants are always written so, wherever they come from. -/
  | variant {n : Nat} {F : Fin n → Type} (alternatives : (k : Fin n) → Schema (F k))
      (unchosen? : Option (Variant F)) : Schema (Variant F)
  /-- Options, written as nothing or as a list of one. -/
  | option {α : Type} (s : Schema α) : Schema (Option α)
  /-- Labelled values, written as a label and a payload. -/
  | labelled {n : Nat} {I : Type} [DecidableEq I] (index : Scalar I) (L : Labels n I)
      {F : Fin n → Type} (payloads : (k : Fin n) → Schema (F k)) : Schema (Labelled L F)
  /-- The base values that satisfy a predicate, written as base values. -/
  | refined {β : Type} (p : β → Bool) (base : Schema β) : Schema (Refined p)
  /-- The base type under a new name, written as base values. -/
  | renamed {β : Type} (name : String) (base : Schema β) : Schema (Renamed β name)
  /-- A refinement with a carrier of its own, written as base values. It inherits the comparison of
  its base if `inherits` is set, and `identity?` compares what it stores. -/
  | refinement {σ β : Type} (R : Refinement σ β) (base : Schema β) (inherits : Bool)
      (identity? : Option (Comparison σ)) : Schema σ

namespace Schema

/-! ### Reading and writing -/

/-- The value that a datum denotes. Components are read in order, a label before its payload, and
a refined value is constructed from its base value; the first refusal is the refusal of the
whole. -/
def read : {α : Type} → Schema α → Datum → Except Refusal α
  | _, scalar k, d => Refusal.malformed.unless (k.read? d)
  | _, custom r, d => Refusal.malformed.unless (r.read? d)
  | _, pair s t, .list [d, e] => do
    let x ← s.read d
    let y ← t.read e
    return (x, y)
  | _, @tuple n _ fields, .list ds =>
    if h : ds.length = n then Tuple.collect fun k => (fields k).read (ds.get (k.cast h.symm))
    else .error .malformed
  | _, @variant n _ alternatives unchosen?, .list (.int i :: ds) =>
    match ds with
    | [] => if i = -1 then Refusal.malformed.unless unchosen? else .error .malformed
    | [d] =>
      if h : 0 ≤ i ∧ i.toNat < n then do
        let x ← (alternatives ⟨i.toNat, h.2⟩).read d
        return .chosen ⟨i.toNat, h.2⟩ x
      else .error .malformed
    | _ => .error .malformed
  | _, option _, .null => .ok none
  | _, option s, .list [d] => do
    let x ← s.read d
    return some x
  | _, labelled index L payloads, .labelled i d => do
    let i ← Refusal.malformed.unless (index.read? i)
    if h : L.Declares i then do
      let x ← (payloads (L.index i h)).read d
      return .make i h x
    else .error (.fault .undeclaredLabel)
  | _, refined p base, d => do
    let x ← base.read d
    Refusal.ofFault ((Refined.refinement p).ofBase x)
  | _, @renamed β name base, d => do
    let x ← base.read d
    Refusal.ofFault ((Renamed.refinement β name).ofBase x)
  | _, refinement R base _ _, d => do
    let x ← base.read d
    Refusal.ofFault (R.ofBase x)
  | _, _, _ => .error .malformed

/-- The written form of a value. -/
def write : {α : Type} → Schema α → α → Datum
  | _, scalar k, x => k.write x
  | _, custom r, x => r.write x
  | _, pair s t, (x, y) => .list [s.write x, t.write y]
  | _, tuple fields, t => .list (t.toList fun k x => (fields k).write x)
  | _, variant _ _, .vacant => .list [.int (-1)]
  | _, variant alternatives _, .chosen k x => .list [.int k.val, (alternatives k).write x]
  | _, option _, none => .null
  | _, option s, some x => .list [s.write x]
  | _, labelled index _ payloads, u =>
    .labelled (index.write u.label) ((payloads u.position).write u.payload)
  | _, refined _ base, u => base.write u.val
  | _, renamed _ base, u => base.write u.val
  | _, refinement R base _ _, u => base.write (R.toBase u)

/-! ### The comparison of a described type -/

/-- The shape of the comparison of a type under a notion of sameness. A composite type has one when
all its components do. Labelled values have no identity of their own; a refined value is
identified by what it stores. -/
def shape? (notion : Notion) : {α : Type} → Schema α → Option (Shape α)
  | _, scalar k => some (.leaf k.compare)
  | _, custom r => (r.compare? notion).map .leaf
  | _, pair s t => do
    let s ← s.shape? notion
    let t ← t.shape? notion
    return .pair s t
  | _, tuple fields =>
    if h : ∀ k, ((fields k).shape? notion).isSome = true then
      some (.tuple fun k => ((fields k).shape? notion).get (h k))
    else none
  | _, variant alternatives _ =>
    if h : ∀ k, ((alternatives k).shape? notion).isSome = true then
      some (.variant fun k => ((alternatives k).shape? notion).get (h k))
    else none
  | _, option s => (s.shape? notion).map .option
  | _, labelled _ _ payloads =>
    if h : notion = .canonical ∧ ∀ k, ((payloads k).shape? notion).isSome = true then
      some (.labelled fun k => ((payloads k).shape? notion).get (h.2 k))
    else none
  | _, refined p base => (base.shape? notion).map (.inherited (Refined.refinement p))
  | _, @renamed β name base => (base.shape? notion).map (.inherited (Renamed.refinement β name))
  | _, refinement R base inherits identity? =>
    match notion with
    | .canonical => if inherits then (base.shape? notion).map (.inherited R) else none
    | .identity => identity?.map .leaf

/-- The comparison that a type declares. -/
def comparison {α : Type} (s : Schema α) : Except Refusal (Comparison α) :=
  Refusal.noComparison.unless ((s.shape? .canonical).map Shape.compare)

/-- The comparison of all that the values of a type store. -/
def identity {α : Type} (s : Schema α) : Except Refusal (Comparison α) :=
  Refusal.noIdentity.unless ((s.shape? .identity).map Shape.compare)

end Schema

/-! ### Types as refinements -/

/-- A type seen as a refinement of a described base. -/
structure Refining (σ : Type) where
  /-- The base type. -/
  Base : Type
  /-- The refinement. -/
  rule : Refinement σ Base
  /-- The description of the base. -/
  base : Schema Base
  /-- Whether the carrier shows the base value it stores. -/
  shown : Bool
  /-- Whether the refinement only renames its base. -/
  renames : Bool
  /-- A refinement that only renames is unrestricted. -/
  unrestricted : renames = true → rule.Unrestricted

/-- The refinement that a type is, if it is one. -/
def Schema.refining? : {α : Type} → Schema α → Option (Refining α)
  | _, refined p base => some ⟨_, Refined.refinement p, base, true, false, nofun⟩
  | _, @renamed β name base =>
    some ⟨_, Renamed.refinement β name, base, true, true, fun _ => Renamed.unrestricted β name⟩
  | _, refinement R base _ _ => some ⟨_, R, base, false, false, nofun⟩
  | _, _ => none

/-! ### Described types -/

/-- A type together with its schema. -/
structure Described where
  /-- The type. -/
  Carrier : Type
  /-- Its schema. -/
  schema : Schema Carrier

namespace Described

/-- A scalar type. -/
abbrev scalar {α : Type} (k : Scalar α) : Described := ⟨α, .scalar k⟩

/-- A type described from outside. -/
abbrev custom {α : Type} (r : Custom α) : Described := ⟨α, .custom r⟩

/-- The pairs over two types. -/
abbrev pair (a b : Described) : Described := ⟨a.Carrier × b.Carrier, .pair a.schema b.schema⟩

/-- The tuples over a list of types. -/
abbrev tuple (cs : List Described) : Described :=
  ⟨Tuple fun k : Fin cs.length => cs[k].Carrier, .tuple fun k => cs[k].schema⟩

/-- The variants over a list of types. -/
abbrev variant (cs : List Described) : Described :=
  ⟨Variant fun k : Fin cs.length => cs[k].Carrier, .variant (fun k => cs[k].schema) none⟩

/-- The schemas of the two sides of a binary sum. -/
def sideSchemas (a b : Described) : (k : Fin 2) → Schema (sides a.Carrier b.Carrier k)
  | 0 => a.schema
  | 1 => b.schema

/-- The binary sum of two types. -/
abbrev either (a b : Described) : Described :=
  ⟨Either a.Carrier b.Carrier, .variant (sideSchemas a b) none⟩

/-- The binary sum of two types, with the value that is left where replacing it failed. -/
abbrev eitherOr (a b : Described) (unchosen : Either a.Carrier b.Carrier) : Described :=
  ⟨Either a.Carrier b.Carrier, .variant (sideSchemas a b) (some unchosen)⟩

/-- The options over a type. -/
abbrev option (a : Described) : Described := ⟨Option a.Carrier, .option a.schema⟩

/-- The labelled values over a list of labels with their payload types. -/
abbrev labelled {I : Type} [DecidableEq I] (index : Scalar I) (cs : List (I × Described))
    (distinct : ∀ j k : Fin cs.length, cs[j].1 = cs[k].1 → j = k) : Described :=
  ⟨Labelled ⟨fun k : Fin cs.length => cs[k].1, distinct⟩ fun k => cs[k].2.Carrier,
    .labelled index _ fun k => cs[k].2.schema⟩

/-- The values of a type that satisfy a predicate. -/
abbrev refined (a : Described) (p : a.Carrier → Bool) : Described :=
  ⟨Refined p, .refined p a.schema⟩

/-- A type under a new name. -/
abbrev renamed (a : Described) (name : String) : Described :=
  ⟨Renamed a.Carrier name, .renamed name a.schema⟩

end Described

end Sameness

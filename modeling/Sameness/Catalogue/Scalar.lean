import Sameness.Basic

/-!
# Written values and scalar types

A `Datum` is a value as it is written down, before it is read at some type, and a `Refusal` is the
reason why a request about written values or about a type has no answer.

A `Scalar` type has no components: the one-element type, truth values, machine integers of each
width and sign, text, text as 16-bit units, and enumerations by name. Characters are read as the
machine integers of their width. Each scalar type has a written form and a comparison that decides
identity.
-/

namespace Sameness

/-! ### Written values -/

/-- A written value. -/
inductive Datum where
  /-- Nothing: the one-element type, or an empty option. -/
  | null
  | bool (b : Bool)
  | int (n : Int)
  | text (s : String)
  /-- The components of a value, in order. -/
  | list (ds : List Datum)
  /-- A label with the payload it carries. -/
  | labelled (label payload : Datum)

/-- Why a request has no answer. -/
inductive Refusal where
  /-- A value could not be constructed. -/
  | fault (f : Fault)
  /-- The type has no comparison. -/
  | noComparison
  /-- The type is not a refinement. -/
  | notRefinement
  /-- The type is a refinement that does not accept every base value by nature. -/
  | notRenaming
  /-- The type has no identity of its own. -/
  | noIdentity
  /-- The request is not well formed. -/
  | malformed

/-- A fault of a construction, as the refusal of the request that asked for it. -/
def Refusal.ofFault {α : Type} (r : Except Fault α) : Except Refusal α := r.mapError .fault

/-- A value that has to be there. -/
def Refusal.unless {α : Type} (r : Refusal) : Option α → Except Refusal α
  | some x => .ok x
  | none => .error r

/-- The result of a computation handed to one that may live in a larger universe. -/
def Refusal.andThen {α : Type} {β : Type 1} (r : Except Refusal α) (f : α → Except Refusal β) :
    Except Refusal β :=
  match r with
  | .ok x => f x
  | .error e => .error e

/-! ### Scalar types -/

/-- A type without components. -/
inductive Scalar : Type → Type where
  | unit : Scalar Unit
  | bool : Scalar Bool
  | int8 : Scalar Int8
  | int16 : Scalar Int16
  | int32 : Scalar Int32
  | int64 : Scalar Int64
  | uint8 : Scalar UInt8
  | uint16 : Scalar UInt16
  | uint32 : Scalar UInt32
  | uint64 : Scalar UInt64
  | text : Scalar String
  | units16 : Scalar (List UInt16)
  /-- One of a list of names. -/
  | named (names : List String) : Scalar (Fin names.length)

namespace Scalar

/-! ### Reading and writing -/

/-- The number that `wrap n` denotes has to be `n`, so that `n` is in range. -/
def inRange? {α : Type} (wrap : Int → α) (toInt : α → Int) (n : Int) : Option α :=
  if toInt (wrap n) = n then some (wrap n) else none

/-- The value that a datum denotes, if it denotes one. -/
def read? : {α : Type} → Scalar α → Datum → Option α
  | _, unit, .null => some ()
  | _, bool, .bool b => some b
  | _, int8, .int n => inRange? Int8.ofInt Int8.toInt n
  | _, int16, .int n => inRange? Int16.ofInt Int16.toInt n
  | _, int32, .int n => inRange? Int32.ofInt Int32.toInt n
  | _, int64, .int n => inRange? Int64.ofInt Int64.toInt n
  | _, uint8, .int n => inRange? (fun i => UInt8.ofNat i.toNat) (fun w => (w.toNat : Int)) n
  | _, uint16, .int n => inRange? (fun i => UInt16.ofNat i.toNat) (fun w => (w.toNat : Int)) n
  | _, uint32, .int n => inRange? (fun i => UInt32.ofNat i.toNat) (fun w => (w.toNat : Int)) n
  | _, uint64, .int n => inRange? (fun i => UInt64.ofNat i.toNat) (fun w => (w.toNat : Int)) n
  | _, text, .text s => some s
  | _, units16, .list ds => ds.mapM fun
    | .int n => inRange? (fun i => UInt16.ofNat i.toNat) (fun w => (w.toNat : Int)) n
    | _ => none
  | _, named names, .text s => names.finIdxOf? s
  | _, _, _ => none

/-- The written form of a value. -/
def write : {α : Type} → Scalar α → α → Datum
  | _, unit, _ => .null
  | _, bool, b => .bool b
  | _, int8, n => .int n.toInt
  | _, int16, n => .int n.toInt
  | _, int32, n => .int n.toInt
  | _, int64, n => .int n.toInt
  | _, uint8, n => .int n.toNat
  | _, uint16, n => .int n.toNat
  | _, uint32, n => .int n.toNat
  | _, uint64, n => .int n.toNat
  | _, text, s => .text s
  | _, units16, us => .list (us.map fun u => .int u.toNat)
  | _, named names, k => .text names[k]

/-! ### Comparison -/

/-- The comparison of a scalar type. -/
def compare : {α : Type} → Scalar α → Comparison α
  | _, unit => Comparison.unit
  | _, bool => Comparison.bool
  | _, int8 => (Comparison.identity : Comparison Int8)
  | _, int16 => (Comparison.identity : Comparison Int16)
  | _, int32 => (Comparison.identity : Comparison Int32)
  | _, int64 => (Comparison.identity : Comparison Int64)
  | _, uint8 => (Comparison.identity : Comparison UInt8)
  | _, uint16 => (Comparison.identity : Comparison UInt16)
  | _, uint32 => (Comparison.identity : Comparison UInt32)
  | _, uint64 => (Comparison.identity : Comparison UInt64)
  | _, text => (Comparison.identity : Comparison String)
  | _, units16 => (Comparison.identity : Comparison (List UInt16))
  | _, named names => (Comparison.identity : Comparison (Fin names.length))

end Scalar

end Sameness

import Sameness.Basic
import Sameness.Catalogue.Types
import Sameness.Integer

/-!
# Demonstrations

Five short texts that show the library at work: comparisons of ready-made types, of composite
types and of types with a derived comparison, a refinement by a predicate, and refinements with a
carrier of their own. Each is the list of its lines.
-/

namespace Sameness.Demonstration

/-- A truth value as a digit. -/
def digit (b : Bool) : String := if b then "1" else "0"

/-! ### Ready-made comparisons -/

/-- Whether two values are equal, in a sentence. -/
def verdictLine {α : Type} (c : Comparison α) (x y : α) (what : String) : String :=
  what ++ ": " ++ if c x y then "equal" else "different"

/-- Comparisons of text and numbers, a verdict used as a condition, and a case split. -/
def readyMade : List String :=
  let text := Scalar.text.compare
  let split := Scalar.int32.compare.split 7 9
  [verdictLine text "abc" "abc" "strings",
    verdictLine Scalar.uint32.compare 10 11 "naturals"] ++
  (if Truth.isTrue (text.verdict "x" "x") then ["eqP holds"] else []) ++
  [split.fold (fun x => "same value " ++ decimal x.toInt) fun x y =>
    decimal x.toInt ++ " vs " ++ decimal y.toInt]

/-! ### Composite comparisons -/

/-- The comparison of rows: a number and a text. -/
def compareRow : Comparison (Int32 × String) := .pair Scalar.int32.compare Scalar.text.compare

/-- The two fields that a cell may carry. -/
inductive Field where
  | id
  | name
deriving DecidableEq

/-- The fields of a cell as labels. -/
def fields : Labels 2 Field where
  label
    | 0 => .id
    | 1 => .name
  distinct := by decide

/-- What a cell carries under its fields. -/
def Payload : Fin 2 → Type
  | 0 => Int32
  | 1 => String

/-- The comparison of what a cell carries. -/
def comparePayload : (k : Fin 2) → Comparison (Payload k)
  | 0 => Scalar.int32.compare
  | 1 => Scalar.text.compare

theorem fields_declares_id : fields.Declares .id := by decide

theorem fields_declares_name : fields.Declares .name := by decide

/-- A cell that carries its number. -/
def idCell (n : Int32) : Labelled fields Payload := .make .id fields_declares_id n

/-- A cell that carries its name. -/
def nameCell (s : String) : Labelled fields Payload := .make .name fields_declares_name s

/-- Comparisons of pairs and of labelled values, and transport to a label. -/
def composites : List String :=
  let compareCell : Comparison (Labelled fields Payload) := .labelled comparePayload
  let compareField : Comparison Field := .identity
  let moved := (idCell 7).transport (nameCell "seven")
  ["(1, a) == (1, a): " ++ digit (compareRow (1, "a") (1, "a")),
    "(1, a) == (1, b): " ++ digit (compareRow (1, "a") (1, "b")),
    "id 7 == id 7: " ++ digit (compareCell (idCell 7) (idCell 7)),
    "id 7 == name seven: " ++ digit (compareCell (idCell 7) (nameCell "seven")),
    "tagged_as(a, c) keeps tag id: " ++ digit (compareField moved.label .id)]

/-! ### Derived comparisons -/

/-- Colours compared by packed words and by one channel. -/
def derived : List String :=
  let black : Colour := ⟨0, 0, 0⟩
  let red : Colour := ⟨255, 0, 0⟩
  let green : Colour := ⟨0, 255, 0⟩
  ["red == red: " ++ digit (Colour.compare red red),
    "red == green: " ++ digit (Colour.compare red green),
    "same red channel as black: " ++ digit (Colour.compareRed black green)]

/-! ### Refinements -/

/-- The even numbers. -/
def even : Refinement (Refined fun (x : UInt32) => x % 2 == 0) UInt32 := Refined.refinement _

/-- A line for a number that may be even. -/
def evenLine (x : UInt32) : String :=
  match even.ofBase? x with
  | some u => decimal x.toNat ++ " is even, val = " ++ decimal (even.toBase u).toNat
  | none => decimal x.toNat ++ " is not even"

/-- Even numbers, inserted with and without a default, and compared. -/
def evenNumbers : List String :=
  match even.ofBase 2, even.ofBase 6 with
  | .ok two, .ok six =>
    let compare := even.inherit Scalar.uint32.compare
    [0, 3, 8, 11].map evenLine ++
    ["insubd(2, 7) = " ++ decimal (even.toBase (even.ofBaseD two 7)).toNat,
      "insubd(2, 6) = " ++ decimal (even.toBase (even.ofBaseD two 6)).toNat,
      "sub(6) == insubd(2, 6): " ++ digit (compare six (even.ofBaseD two 6))]
  | _, _ => []

/-- A line for a number that may be a percentage. -/
def percentLine (x : Int32) : String :=
  decimal x.toInt ++ ": " ++ if (Percent.refinement.ofBase? x).isSome then "valid" else "rejected"

/-- Percentages, and text wrapped as an address. -/
def ownCarriers : List String :=
  let email := Renamed.refinement String "email"
  let wrap := email.wrap (Renamed.unrestricted String "email")
  let mail := wrap "ada@example.org"
  [-5, 0, 55, 100, 101].map percentLine ++
  ["email: " ++ email.toBase mail,
    "same email: " ++ digit (email.inherit Scalar.text.compare mail (wrap "ada@example.org"))]

/-! ### By name -/

/-- The lines of a demonstration by its name. -/
def find? : String → Option (List String)
  | "canonical_equality" => some readyMade
  | "composite_equality" => some composites
  | "derived_equality" => some derived
  | "even_naturals" => some evenNumbers
  | "custom_subtype" => some ownCarriers
  | _ => none

end Sameness.Demonstration

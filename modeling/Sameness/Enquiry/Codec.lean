import Sameness.Catalogue.Types
import Sameness.Sample.Basic

/-!
# Enquiries about encodings

An **encoding** is a map between two described types with a left inverse, total or partial, that
makes the comparison along it right. Three record types come with one: colours as packed words,
ordinals as places, and temperatures in kelvin.
-/

namespace Sameness

/-- A left inverse of a map, defined everywhere or on a part of the codomain. -/
inductive Inverse (α β : Type) where
  /-- A value comes back from everything. -/
  | total (back : β → α)
  /-- A value may come back. -/
  | partly (back? : β → Option α)

/-- A map between described types with a left inverse. -/
structure Encoding where
  /-- What is encoded. -/
  source : Described
  /-- What it is encoded as. -/
  target : Described
  /-- The encoding. -/
  encode : source.Carrier → target.Carrier
  /-- The decoding. -/
  inverse : Inverse source.Carrier target.Carrier

namespace Encoding

/-- Colours as packed words. -/
def colour : Encoding := ⟨.colour, .uint32, Colour.pack, .partly Colour.unpack?⟩

/-- Ordinals as places. -/
def ordinal : Encoding := ⟨.ordinal, .int32, Ordinal.place, .partly Ordinal.ofPlace?⟩

/-- Temperatures in kelvin. -/
def celsius : Encoding := ⟨.celsius, .int32, Celsius.toKelvin, .total Celsius.ofKelvin⟩

/-- The encodings by the name of the encoded type. -/
def find? : String → Option Encoding
  | "rgb" => some colour
  | "ordinal" => some ordinal
  | "celsius" => some celsius
  | _ => none

/-- What an encoding does to samples. -/
structure Report where
  /-- The encoded values. -/
  encoded : List Datum
  /-- The decoded values. -/
  decoded : List Datum
  /-- Decoding undoes encoding. -/
  cancels : Bool
  /-- The encoding is injective. -/
  injective : Bool
  /-- The comparison of the encoded type is an equivalence. -/
  lawful : Bool

/-- The encoding of the values `xs`, the decoding of the values `ys`, and the laws on `xs`. -/
def report (E : Encoding) (xs ys : List Datum) : Except Refusal Report := do
  let c ← E.source.schema.comparison
  let d ← E.target.schema.comparison
  let xs ← xs.mapM E.source.schema.read
  let ys ← ys.mapM E.target.schema.read
  return {
    encoded := xs.map fun x => E.target.schema.write (E.encode x)
    decoded := ys.map fun y =>
      match E.inverse with
      | .total back => E.source.schema.write (back y)
      | .partly back? => (Schema.option E.source.schema).write (back? y)
    cancels :=
      match E.inverse with
      | .total back => Sample.cancels c E.encode back xs
      | .partly back? => Sample.cancelsPartly c E.encode back? xs
    injective := Sample.injective c d E.encode xs
    lawful := Sample.lawful c xs }

end Encoding

end Sameness

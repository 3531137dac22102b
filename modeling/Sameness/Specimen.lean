import Sameness.Basic
import Sameness.Compound.Basic
import Sameness.Refinement.Basic

/-!
# Specimens

Small types to try the library on. Records have a comparison of their own that is derived or
deliberately unusual: keyed records that ignore a note, comparisons that are not symmetric, not
transitive or never true, and types compared through an injective map or along a map with a left
inverse. Most of them also have an identity, by all fields, which need not agree with the
comparison. Colours are compared by the one word into which their three channels are packed.

Other types are refinements whose carriers do not store the base value itself. The first three are
lawful: projecting what was built from an accepted base value gives that value back. The others are
not, each in its own way: the builder forgets large values, or the projection does.
-/

namespace Sameness

/-! ### Compared by key -/

/-- A key with a note that takes no part in the comparison. -/
structure Keyed where
  /-- What the comparison looks at. -/
  key : Int32
  /-- What it ignores. -/
  note : Int32
deriving DecidableEq

/-- Keyed records are the same when their keys are. -/
def Keyed.compare : Comparison Keyed := (Comparison.identity : Comparison Int32).along Keyed.key

/-- A token, known by its kind alone. -/
structure Token where
  kind : Int32

/-- Tokens are the same when their kinds are. -/
def Token.compare : Comparison Token := (Comparison.identity : Comparison Int32).along Token.kind

/-- A point of the plane. -/
structure Point where
  x : Int32
  y : Int32
deriving DecidableEq

/-- Points are the same when their coordinates are, compared as a pair. -/
def Point.compare : Comparison Point :=
  (Comparison.pair (Comparison.identity : Comparison Int32)
    (Comparison.identity : Comparison Int32)).along fun p => (p.x, p.y)

/-! ### Comparisons that break a law -/

/-- A number whose comparison is an order. -/
structure AtMost where
  value : Int32
deriving DecidableEq

/-- The left number is at most the right one: reflexive and transitive, not symmetric. -/
def AtMost.compare : Comparison AtMost := fun x y => decide (x.value ≤ y.value)

theorem AtMost.compare_self (x : AtMost) : AtMost.compare x x = true :=
  decide_eq_true (Int32.le_refl x.value)

theorem AtMost.compare_trans {x y z : AtMost} (hxy : AtMost.compare x y = true)
    (hyz : AtMost.compare y z = true) : AtMost.compare x z = true :=
  decide_eq_true (Int32.le_trans (of_decide_eq_true hxy) (of_decide_eq_true hyz))

/-- A number compared up to one. -/
structure Near where
  value : Int32
deriving DecidableEq

/-- The numbers are at most one apart: reflexive and symmetric, not transitive. -/
def Near.compare : Comparison Near :=
  fun x y => decide ((x.value.toInt - y.value.toInt).natAbs ≤ 1)

theorem Near.compare_self (x : Near) : Near.compare x x = true :=
  decide_eq_true (by rw [Int.sub_self]; decide)

/-- A number that is never the same as any. -/
structure Apart where
  value : Int32
deriving DecidableEq

/-- Never: symmetric and transitive, not reflexive. -/
def Apart.compare : Comparison Apart := fun _ _ => false

/-- A number read as a set of bits. -/
structure Bits where
  value : Int32
deriving DecidableEq

/-- The bits in common, read as a truth value. -/
def Bits.compare : Comparison Bits := .ofRelation fun x y => x.value &&& y.value

/-! ### Compared along a map with an inverse -/

/-- A temperature in tenths of a degree Celsius. -/
structure Celsius where
  tenths : Int32
deriving DecidableEq

/-- The temperature in tenths of a kelvin. -/
def Celsius.toKelvin (t : Celsius) : Int32 := t.tenths + 2732

/-- The temperature of so many tenths of a kelvin. -/
def Celsius.ofKelvin (k : Int32) : Celsius := ⟨k - 2732⟩

/-- Temperatures are compared in kelvin. -/
def Celsius.compare : Comparison Celsius :=
  (Comparison.identity : Comparison Int32).alongInverse Celsius.toKelvin Celsius.ofKelvin

/-- A place in an order of at most a hundred. -/
structure Ordinal where
  /-- The place, from zero. -/
  place : Int32
deriving DecidableEq

/-- The ordinal at a place below one hundred. -/
def Ordinal.ofPlace? (n : Int32) : Option Ordinal := if 0 ≤ n ∧ n < 100 then some ⟨n⟩ else none

/-- Ordinals are compared by place. -/
def Ordinal.compare : Comparison Ordinal :=
  (Comparison.identity : Comparison Int32).alongPartialInverse Ordinal.place Ordinal.ofPlace?

/-! ### Colours -/

/-- Three channels of eight bits. -/
@[ext] structure Colour where
  red : UInt8
  green : UInt8
  blue : UInt8
deriving DecidableEq

namespace Colour

/-- The channels in one word, red on top and blue at the bottom. -/
def pack (c : Colour) : UInt32 :=
  c.red.toUInt32 <<< 16 ||| c.green.toUInt32 <<< 8 ||| c.blue.toUInt32

/-- The colour of a packed word, if it is one. -/
def unpack? (w : UInt32) : Option Colour :=
  if w > 0xFFFFFF then none
  else some ⟨(w >>> 16).toUInt8, (w >>> 8).toUInt8, w.toUInt8⟩

/-- Colours are compared by their packed words. -/
def compare : Comparison Colour :=
  (Comparison.identity : Comparison UInt32).alongPartialInverse pack unpack?

/-- Colours with the same red channel are the same to this comparison. -/
def compareRed : Comparison Colour := (Comparison.identity : Comparison UInt8).along Colour.red

end Colour

/-! ### Lawful refinements -/

/-- An even number, stored as its half. -/
structure EvenHalf where
  half : UInt32
deriving DecidableEq

/-- The even 32-bit numbers. -/
def EvenHalf.refinement : Refinement EvenHalf UInt32 where
  accepts x := x % 2 == 0
  toBase u := u.half * 2
  build x := ⟨x / 2⟩

/-- A percentage, stored in basis points. -/
structure Percent where
  /-- Hundredths of a percent. -/
  basisPoints : Int32
deriving DecidableEq

/-- The whole percentages from 0 to 100. -/
def Percent.refinement : Refinement Percent Int32 where
  accepts x := 0 ≤ x && x ≤ 100
  toBase p := p.basisPoints / 100
  build x := ⟨x * 100⟩

/-- An odd number, stored as it is. -/
structure Odd where
  value : Int32
deriving DecidableEq

/-- The odd 32-bit numbers of either sign: the remainder by two has the sign of the number. -/
def Odd.refinement : Refinement Odd Int32 where
  accepts x := x % 2 != 0
  toBase u := u.value
  build x := ⟨x⟩

/-! ### Lawless refinements -/

/-- A natural number cut off at 100. -/
structure Capped where
  /-- The number, at most 100. -/
  value : Int32
deriving DecidableEq

/-- The builder replaces numbers above 100 by 100. -/
def Capped.refinement : Refinement Capped Int32 where
  accepts x := 0 ≤ x
  toBase u := u.value
  build x := ⟨if x ≤ 100 then x else 100⟩

/-- A natural number that shows only its last digit. -/
structure LastDigit where
  value : Int32
deriving DecidableEq

/-- The projection gives the last decimal digit of the stored number. -/
def LastDigit.refinement : Refinement LastDigit Int32 where
  accepts x := 0 ≤ x
  toBase u := u.value % 10
  build x := ⟨x⟩

/-- An even number that is projected wrongly from 100 on. -/
structure Drifting where
  value : UInt32
deriving DecidableEq

/-- The projection of a large number is one more than the number, and so not accepted again. -/
def Drifting.refinement : Refinement Drifting UInt32 where
  accepts x := x % 2 == 0
  toBase u := if u.value ≥ 100 then u.value + 1 else u.value
  build x := ⟨x⟩

/-- An odd number cut off on both sides. -/
structure Banded where
  /-- The number, between -51 and 51. -/
  value : AtMost
deriving DecidableEq

/-- The builder replaces numbers above 50 by 51 and numbers below -50 by -51. -/
def Banded.refinement : Refinement Banded AtMost where
  accepts x := Truth.isTrue (x.value &&& 1)
  toBase u := u.value
  build x :=
    if x.value > 50 then ⟨⟨51⟩⟩ else if x.value < -50 then ⟨⟨-51⟩⟩ else ⟨x⟩

end Sameness

import Sameness.Catalogue.Schema
import Sameness.Compound.Tree
import Sameness.Specimen

/-!
# The catalogue of types

The types that can be asked about by name, each as a `Described` type. They are put together from
scalar types, specimens and trees. Some names stand for types that have no written values at all;
they are there because it can still be asked which capabilities such a type has, and a composite
over one of them has lost its comparison.
-/

namespace Sameness

namespace Described

/-! ### Scalar types -/

abbrev unit := scalar .unit

abbrev bool := scalar .bool

abbrev int32 := scalar .int32

abbrev uint32 := scalar .uint32

/-- Characters of eight bits, by code. -/
abbrev char8 := scalar .int8

abbrev text := scalar .text

/-- The three primary colours by name. -/
abbrev primary := scalar (.named ["red", "green", "blue"])

/-- The names of the fields of a cell. -/
abbrev cellField := scalar (.named ["id", "name"])

/-! ### Record types -/

/-- A record of one 32-bit integer, written as that integer. -/
def ofInt32 {α : Type} (wrap : Int32 → α) (value : α → Int32)
    (canonical? identity? : Option (Comparison α)) : Custom α where
  read? d := (Scalar.int32.read? d).map wrap
  write x := Scalar.int32.write (value x)
  canonical? := canonical?
  identity? := identity?

/-- A record of two 32-bit integers, written as a list of two. -/
def ofInt32Pair {α : Type} (wrap : Int32 → Int32 → α) (value : α → Int32 × Int32)
    (canonical? identity? : Option (Comparison α)) : Custom α where
  read?
    | .list [d, e] => do
      let x ← Scalar.int32.read? d
      let y ← Scalar.int32.read? e
      return wrap x y
    | _ => none
  write x := .list [Scalar.int32.write (value x).1, Scalar.int32.write (value x).2]
  canonical? := canonical?
  identity? := identity?

abbrev keyed := custom <|
  ofInt32Pair Keyed.mk (fun x => (x.key, x.note)) Keyed.compare (some .identity)

abbrev atMost := custom <| ofInt32 AtMost.mk AtMost.value AtMost.compare (some .identity)

abbrev near := custom <| ofInt32 Near.mk Near.value Near.compare (some .identity)

abbrev apart := custom <| ofInt32 Apart.mk Apart.value Apart.compare (some .identity)

abbrev bits := custom <| ofInt32 Bits.mk Bits.value Bits.compare (some .identity)

abbrev celsius := custom <| ofInt32 Celsius.mk Celsius.tenths Celsius.compare (some .identity)

abbrev ordinal := custom <| ofInt32 Ordinal.mk Ordinal.place Ordinal.compare (some .identity)

abbrev point := custom <| ofInt32Pair Point.mk (fun p => (p.x, p.y)) Point.compare (some .identity)

/-- Tokens, which have no identity of their own. -/
abbrev token := custom <| ofInt32 Token.mk Token.kind Token.compare none

/-- Colours, written as a list of three channels. -/
abbrev colour : Described := custom {
  read? := fun
    | .list [r, g, b] => do
      let red ← Scalar.uint8.read? r
      let green ← Scalar.uint8.read? g
      let blue ← Scalar.uint8.read? b
      return Colour.mk red green blue
    | _ => none
  write := fun c =>
    .list [Scalar.uint8.write c.red, Scalar.uint8.write c.green, Scalar.uint8.write c.blue]
  canonical? := some Colour.compare
  identity? := none }

/-- The tree that a datum denotes: a position and what the layer holds there. -/
def readTree? : Datum → Option (Tree String)
  | .list [.int 0, .null] => some .unit
  | .list [.int 1, .bool b] => some (.bool b)
  | .list [.int 2, d] => (Scalar.int64.read? d).map .int
  | .list [.int 3, .text s] => some (.text s)
  | .list [.int 4, .list [d, e]] => do
    let l ← readTree? d
    let r ← readTree? e
    return .pair l r
  | .list [.int 5, .null] => some (.maybe none)
  | .list [.int 5, .list [d]] => do
    let t ← readTree? d
    return .maybe (some t)
  | _ => none

/-- The written form of a tree. -/
def writeTree : Tree String → Datum
  | .unit => .list [.int 0, .null]
  | .bool b => .list [.int 1, .bool b]
  | .int n => .list [.int 2, Scalar.int64.write n]
  | .text s => .list [.int 3, .text s]
  | .pair l r => .list [.int 4, .list [writeTree l, writeTree r]]
  | .maybe none => .list [.int 5, .null]
  | .maybe (some t) => .list [.int 5, .list [writeTree t]]

abbrev tree := custom ⟨readTree?, writeTree, some Tree.compare, none⟩

/-- A type without values, comparison or identity, which stands for any type without a
comparison. -/
abbrev incomparable : Described := @custom Empty ⟨fun _ => none, nofun, none, none⟩

/-! ### Composite types -/

abbrev pairInt := pair int32 int32

abbrev optionInt := option int32

/-- A 32-bit integer on either side. -/
abbrev eitherInt := either int32 int32

/-- A labelled value whose labels 0 and 2 carry the same type. -/
abbrev small := labelled .int32 [((0 : Int32), int32), (1, char8), (2, int32)] (by decide)

/-- A number under the label 0, which is at position 0. -/
def smallUnderZero (n : Int32) : small.Carrier := ⟨⟨0, Nat.zero_lt_succ 2⟩, n⟩

/-- A number under the label 2, which is at position 2. -/
def smallUnderTwo (n : Int32) : small.Carrier := ⟨⟨2, Nat.lt_succ_self 2⟩, n⟩

/-- A labelled value over the fields of a cell. -/
abbrev cell := labelled (.named ["id", "name"]) [(0, int32), (1, text)] (by decide)

/-- A labelled value over the fields of a measurement. -/
abbrev measure := labelled (.named ["metres", "label"]) [(0, int32), (1, text)] (by decide)

/-- A labelled value whose labels are not in order. -/
abbrev sparse :=
  labelled .int32 [((5 : Int32), optionInt), (-3, text), (9, optionInt)] (by decide)

/-- A labelled value over three numeric labels. -/
abbrev mixed := labelled .int64 [((1 : Int64), int32), (97, bool), (7, int32)] (by decide)

/-- A labelled value with a single label. -/
abbrev solo := labelled .int32 [((0 : Int32), int32)] (by decide)

/-- A labelled value over the truth values. -/
abbrev flag := labelled .bool [(true, text), (false, unit)] (by decide)

/-- A labelled value whose payloads have comparisons coarser than identity. -/
abbrev labelledKeyed :=
  labelled .int32 [((0 : Int32), keyed), (1, keyed), (2, atMost)] (by decide)

/-- A labelled value that may carry a labelled value. -/
abbrev labelledSmall := labelled .int32 [((0 : Int32), small), (1, int32)] (by decide)

/-! ### Refined types -/

/-- Even 32-bit numbers. -/
abbrev even := refined uint32 fun (x : UInt32) => x % 2 == 0

/-- Whether a number is a decimal digit. -/
def isDigit (x : Int32) : Bool := 0 ≤ x && x < 10

abbrev digit := refined int32 isDigit

/-- Text that is not empty. -/
abbrev nonempty := refined text fun (s : String) => s != ""

/-- Positive numbers. -/
abbrev positive := refined int32 fun (x : Int32) => 0 < x

/-- Pairs of bounds in order. -/
abbrev interval := refined pairInt fun (u : Int32 × Int32) => u.1 ≤ u.2

/-- Tokens of the sixteen kinds of keywords. -/
abbrev keyword := refined token fun (t : Token) => t.kind < 16

/-- Numbers with a bit in common with six. -/
abbrev truthy := refined int32 fun (x : Int32) => Truth.isTrue (x &&& 6)

/-- No numbers at all. -/
abbrev empty := refined int32 fun (_ : Int32) => false

/-- Multiples of four, as a refinement of the even numbers. -/
abbrev multipleOf4 := refined even fun (u : even.Carrier) => u.val % 4 == 0

/-- Keyed records whose key is not negative. -/
abbrev keyedNatural := refined keyed fun (x : Keyed) => 0 ≤ x.key

/-- Numbers compared by order that are not negative. -/
abbrev atMostNatural := refined atMost fun (x : AtMost) => 0 ≤ x.value

/-- Labelled values under the label 0. -/
abbrev smallAtZero := refined small fun (u : small.Carrier) => u.label == 0

/-- Options that are not empty. -/
abbrev present := refined optionInt fun (x : Option Int32) => x.isSome

/-- Electronic mail addresses. -/
abbrev email := renamed text "email"

/-- Names. -/
abbrev name := renamed text "name"

/-- Numbers that identify a user. -/
abbrev userId := renamed int32 "user id"

/-- Keyed records under a new name. -/
abbrev keyedRenamed := renamed keyed "keyed"

/-- Even numbers under a new name. -/
abbrev evenRenamed := renamed even "even"

/-- Digits among the numbers that identify a user. -/
abbrev digitId := refined userId fun (u : userId.Carrier) => 0 ≤ u.val && u.val < 10

/-- Percentages in basis points, which have no identity of their own. -/
abbrev percent : Described := ⟨_, .refinement Percent.refinement int32.schema true none⟩

/-- Even numbers stored by halves, which have no comparison. -/
abbrev evenHalf : Described :=
  ⟨_, .refinement EvenHalf.refinement uint32.schema false (some .identity)⟩

/-- Odd numbers. -/
abbrev odd : Described := ⟨_, .refinement Odd.refinement int32.schema true (some .identity)⟩

/-- Numbers cut off at 100. -/
abbrev capped : Described := ⟨_, .refinement Capped.refinement int32.schema true (some .identity)⟩

/-- Numbers that show their last digit. -/
abbrev lastDigit : Described :=
  ⟨_, .refinement LastDigit.refinement int32.schema true (some .identity)⟩

/-- Even numbers that are projected wrongly from 100 on. -/
abbrev drifting : Described :=
  ⟨_, .refinement Drifting.refinement uint32.schema true (some .identity)⟩

/-- Odd numbers cut off on both sides, compared by order. -/
abbrev banded : Described :=
  ⟨_, .refinement Banded.refinement atMost.schema true (some .identity)⟩

end Described

/-! ### Names -/

namespace Catalogue

open Described

/-- The scalar types. -/
def scalars : List (String × Described) :=
  [("unit", unit), ("bool", bool), ("i8", char8), ("i16", scalar .int16), ("i32", int32),
    ("i64", scalar .int64), ("u8", scalar .uint8), ("u16", scalar .uint16), ("u32", uint32),
    ("u64", scalar .uint64), ("char", char8), ("char32", uint32), ("color", primary),
    ("field", cellField), ("str", text), ("view", text), ("u16str", scalar .units16)]

/-- The record types. -/
def records : List (String × Described) :=
  [("keyed", keyed), ("ble", atMost), ("bnear", near), ("bnever", apart), ("bbits", bits),
    ("celsius", celsius), ("ordinal", ordinal), ("point", point), ("token", token),
    ("rgb", colour), ("tree", tree)]

/-- Pairs and tuples. -/
def products : List (String × Described) :=
  [("pair_is", pair int32 text), ("pair_ic", pair int32 char8), ("pii", pairInt),
    ("pair_pp", pair pairInt pairInt), ("tup0", tuple []), ("tup1", tuple [int32]),
    ("tup3", tuple [int32, char8, bool]),
    ("tup5", tuple [int32, text, bool, optionInt, unit]),
    ("pair_nest", pair (option (either int32 text)) (tuple [bool, scalar .uint8])),
    ("pair_kk", pair keyed keyed), ("tup_kk", tuple [keyed, atMost, keyed]),
    ("pair_bb", pair atMost atMost), ("pair_small", pair small small),
    ("pair_ec", pair even char8)]

/-- Options and variants. -/
def sums : List (String × Described) :=
  [("sum_ii", eitherInt), ("sum_is", either int32 text), ("sum_bi", either bool int32),
    ("var1", variant [unit]), ("var3", variant [int32, text, unit]),
    ("var5", variant [unit, int32, int32, text, optionInt]),
    -- a new integer is computed before the old one is given up: if that fails, the old one is left
    ("vsum", eitherOr int32 int32 (Either.left (0 : Int32))),
    ("opt_i", optionInt), ("opt_opt_i", option optionInt), ("opt_unit", option unit),
    ("opt_str", option text), ("opt_bc", option (pair bool char8)), ("opt_k", option keyed),
    ("sum_kk", either keyed keyed), ("opt_ble", option atMost), ("sum_bb", either atMost near),
    ("opt_never", option apart), ("opt_small", option small), ("opt_even", option even),
    ("sum_ee", either even even)]

/-- Labelled values. -/
def labelledTypes : List (String × Described) :=
  [("small", small), ("measure", measure), ("cell", cell), ("sparse", sparse),
    ("mixedix", mixed), ("solo", solo), ("flag", flag), ("tagk", labelledKeyed),
    ("tagtag", labelledSmall)]

/-- Refinements. -/
def refinements : List (String × Described) :=
  [("even", even), ("digit", digit), ("nonempty", nonempty), ("positive", positive),
    ("interval", interval), ("keyword", keyword), ("truthy", truthy), ("empty", empty),
    ("mult4", multipleOf4), ("iddigit", digitId), ("sigk", keyedNatural),
    ("sigb", atMostNatural), ("sigtag", smallAtZero), ("sigopt", present), ("email", email),
    ("name", name), ("userid", userId), ("ntk", keyedRenamed), ("nteven", evenRenamed),
    ("percent", percent), ("evennat", evenHalf), ("odd", odd), ("clamp", capped),
    ("lastdigit", lastDigit), ("noback", drifting), ("clampb", banded)]

/-- Types that are only asked for their capabilities. -/
def withoutComparison : List (String × Described) :=
  [("float", incomparable), ("double", incomparable), ("long_double", incomparable),
    ("opaque", incomparable), ("version", incomparable), ("box_opaque", incomparable),
    ("pair_i_opaque", pair int32 incomparable), ("pair_double_i", pair incomparable int32),
    ("tup_i_opaque", tuple [int32, incomparable]), ("var_i_opaque", variant [int32, incomparable]),
    ("opt_double", option incomparable), ("opt_evennat", option evenHalf),
    ("sig_opaque", refined incomparable fun _ => true),
    ("nt_double", renamed incomparable "double"),
    ("tagged_opaque", labelled .int32 [((0 : Int32), int32), (1, incomparable)] (by decide))]

/-- All named types. -/
def types : List (String × Described) :=
  scalars ++ records ++ products ++ sums ++ labelledTypes ++ refinements ++ withoutComparison

/-- The type of a name. -/
def find? (name : String) : Option Described := types.lookup name

/-- The names of the types whose comparison is reported next to their identity when the laws are
checked: truth values, integers, characters, and some others for which the two may differ. -/
def identityReported : List String :=
  ["bool", "i8", "i16", "i32", "i64", "u8", "u16", "u32", "u64", "char", "char32", "keyed", "ble",
    "bnear", "bnever", "bbits", "str", "opt_i", "point", "sigk"]

end Catalogue

end Sameness

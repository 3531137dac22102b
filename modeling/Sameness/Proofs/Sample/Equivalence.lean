import Sameness.Sample.Basic
import Sameness.Specimen

/-!
# Equivalences on samples

To compare along a map is to compare images, so a law of an equivalence that holds of the images of
a sample holds of the sample along the map, and conversely (`Sample.reflexive_along` and its
companions). Nothing is asked of the map: one that is not injective still makes an equivalence.
Whether that equivalence is the right one is another matter. Against the comparison that the domain
has already, the one along the map is right on a sample exactly when the map is injective there
(`Sample.injective_eq_decides_along`), as long as the map respects the two comparisons.

All equivalences come from numbers. To classify the values of a sample is to give each a number, so
that two of them are related exactly when they have the same number. The laws of an equivalence hold
of a relation on a sample exactly when the relation classifies it (`Sample.laws_iff_classified`):

* **From a classification to the laws** there is nothing to do but to read the laws off equality of
  numbers.
* **From the laws to a classification**, each value gets as its number the place of the first value
  of the sample that is related to it (`Sample.classOf`). Reflexivity makes sure that there is one,
  transitivity that related values find the same one, and symmetry that values which find the same
  one are related.

The relation need not be a comparison, and its results need not be Boolean: only their truth counts.
-/

namespace Sameness.Sample

/-! ### Laws along a map -/

section Along

variable {α β : Type} {c : Comparison α} {d : Comparison β} {f : α → β} {xs : List α}

theorem reflexive_along (d : Comparison β) (f : α → β) (xs : List α) :
    reflexive (d.along f) xs = reflexive d (xs.map f) := by
  rw [reflexive, reflexive, List.all_map]
  rfl

theorem symmetric_along (d : Comparison β) (f : α → β) (xs : List α) :
    symmetric (d.along f) xs = symmetric d (xs.map f) := by
  simp only [symmetric, List.all_map]
  rfl

theorem transitive_along (d : Comparison β) (f : α → β) (xs : List α) :
    transitive (d.along f) xs = transitive d (xs.map f) := by
  simp only [transitive, List.all_map]
  rfl

/-! ### Agreement with the comparison of the domain -/

/-- A map respects a comparison that decides identity, whatever reflexive comparison its images
have. -/
theorem Respects.of_decides (hc : c.Decides) (hd : ∀ y, d y y = true) : Respects c d f xs := by
  intro x _ y _ hxy
  rw [(hc x y).mp hxy]
  exact hd (f y)

/-- **Injectivity is agreement.** One direction of the agreement is injectivity, and the other is
what the map respects. -/
theorem injective_eq_decides_along (h : Respects c d f xs) :
    injective c d f xs = decides (d.along f) xs c := by
  rw [Bool.eq_iff_iff, injective_eq_true_iff, decides_eq_true_iff]
  refine forall₂_congr fun x hx => forall₂_congr fun y hy => ?_
  refine Iff.trans ?_ Bool.eq_iff_iff.symm
  exact ⟨fun hinj => ⟨hinj, h x hx y hy⟩, fun hiff => hiff.mp⟩

/-- Where a map is injective on a sample and respects the two comparisons, the images of two values
of the sample compare as the values do. -/
theorem along_eq_of_injective (hresp : Respects c d f xs) (hinj : injective c d f xs = true)
    {x y : α} (hx : x ∈ xs) (hy : y ∈ xs) : d (f x) (f y) = c x y := by
  have hagree : decides (d.along f) xs c = true :=
    (injective_eq_decides_along hresp).symm.trans hinj
  exact decides_eq_true_iff.mp hagree x hx y hy

/-- **A comparison along a map** agrees on a sample with the comparison of the domain exactly when
the map is injective there, provided that the map respects the two comparisons, which it does when
the domain's decides identity and the codomain's is reflexive. Apart from that, and for any map at
all, the comparison along it is reflexive, symmetric or transitive on a sample exactly when the
comparison of the codomain is on the images. -/
theorem laws_along (c : Comparison α) (d : Comparison β) (f : α → β) (xs : List α) :
    (Respects c d f xs → injective c d f xs = decides (d.along f) xs c) ∧
      (c.Decides → (∀ y, d y y = true) → Respects c d f xs) ∧
      reflexive (d.along f) xs = reflexive d (xs.map f) ∧
      symmetric (d.along f) xs = symmetric d (xs.map f) ∧
      transitive (d.along f) xs = transitive d (xs.map f) :=
  ⟨injective_eq_decides_along, Respects.of_decides, reflexive_along d f xs, symmetric_along d f xs,
    transitive_along d f xs⟩

/-- The key of a record, as a number that is compared by order. -/
def keyOrder (x : Keyed) : AtMost := ⟨x.key⟩

/-- Three keyed records, two of them with one key. -/
def keySample : List Keyed := [⟨1, 2⟩, ⟨3, 0⟩, ⟨1, 5⟩]

/-- The order respects the keys. It does not agree with them, since 1 is below 3, but along the map
to it records are compared reflexively and transitively all the same. -/
theorem laws_along_keyOrder :
    Respects Keyed.compare AtMost.compare keyOrder keySample ∧
      decides (AtMost.compare.along keyOrder) keySample Keyed.compare = false ∧
      reflexive (AtMost.compare.along keyOrder) keySample = true ∧
      transitive (AtMost.compare.along keyOrder) keySample = true := by
  obtain ⟨hagree, -, hrefl, -, htrans⟩ :=
    laws_along Keyed.compare AtMost.compare keyOrder keySample
  have hresp : Respects Keyed.compare AtMost.compare keyOrder keySample := by
    unfold Respects
    decide
  refine ⟨hresp, ?_, ?_, ?_⟩
  · rw [← hagree hresp]
    decide
  · rw [hrefl]
    decide
  · rw [htrans]
    decide

end Along

/-! ### Classifications -/

open Truth (isTrue)

variable {α τ : Type} [Truth τ] {r : α → α → τ} {xs : List α}

/-- The numbers **classify** the sample: two values are related exactly when they have the same
number. -/
def Classifies (label : α → Nat) (r : α → α → τ) (xs : List α) : Prop :=
  ∀ x ∈ xs, ∀ y ∈ xs, isTrue (r x y) = true ↔ label x = label y

/-- The class of a value, known by the place of the first value of the sample that is related to
it. -/
def classOf (r : α → α → τ) (xs : List α) (x : α) : Nat := xs.findIdx fun z => isTrue (r z x)

/-! ### From a classification to the laws -/

namespace Classifies

variable {label : α → Nat}

protected theorem reflexive (h : Classifies label r xs) : reflexive r xs = true :=
  reflexive_eq_true_iff.mpr fun x hx => (h x hx x hx).mpr rfl

protected theorem symmetric (h : Classifies label r xs) : symmetric r xs = true := by
  rw [symmetric_eq_true_iff]
  intro x hx y hy
  rw [Bool.eq_iff_iff, h x hx y hy, h y hy x hx]
  exact eq_comm

protected theorem transitive (h : Classifies label r xs) : transitive r xs = true := by
  rw [transitive_eq_true_iff]
  intro x hx y hy z hz hxy hyz
  have hlabel : label x = label y := (h x hx y hy).mp hxy
  exact (h x hx z hz).mpr (hlabel.trans ((h y hy z hz).mp hyz))

end Classifies

/-! ### From the laws to a classification -/

/-- The first value related to `x` is there, and it is related to `x`. -/
theorem getElem_classOf (hrefl : reflexive r xs = true) {x : α} (hx : x ∈ xs) :
    ∃ h : classOf r xs x < xs.length, isTrue (r xs[classOf r xs x] x) = true := by
  have hself : isTrue (r x x) = true := reflexive_eq_true_iff.mp hrefl x hx
  have hlt : classOf r xs x < xs.length := List.findIdx_lt_length_of_exists ⟨x, hx, hself⟩
  exact ⟨hlt, List.findIdx_getElem (p := fun z => isTrue (r z x))⟩

/-- What is related to `x` is related to whatever `x` is related to, and is found there no later. -/
theorem classOf_le (htrans : transitive r xs = true) {x y : α} (hx : x ∈ xs) (hy : y ∈ xs)
    (hxy : isTrue (r x y) = true) : classOf r xs y ≤ classOf r xs x :=
  List.findIdx_le_findIdx fun z hz hzx =>
    transitive_eq_true_iff.mp htrans z hz x hx y hy hzx hxy

/-- **The classes classify.** -/
theorem classifies_classOf (hrefl : reflexive r xs = true) (hsymm : symmetric r xs = true)
    (htrans : transitive r xs = true) : Classifies (classOf r xs) r xs := by
  have hswap : ∀ {x y}, x ∈ xs → y ∈ xs → isTrue (r x y) = true → isTrue (r y x) = true := by
    intro x y hx hy hxy
    rw [← symmetric_eq_true_iff.mp hsymm x hx y hy]
    exact hxy
  intro x hx y hy
  constructor
  · intro hxy
    have hle : classOf r xs y ≤ classOf r xs x := classOf_le htrans hx hy hxy
    have hge : classOf r xs x ≤ classOf r xs y := classOf_le htrans hy hx (hswap hx hy hxy)
    exact Nat.le_antisymm hge hle
  · intro hclass
    obtain ⟨hlt, hfx⟩ := getElem_classOf hrefl hx
    obtain ⟨hlt', hfy⟩ := getElem_classOf hrefl hy
    -- both values have found the same one
    have hsame : xs[classOf r xs x] = xs[classOf r xs y] := by simp only [hclass]
    rw [← hsame] at hfy
    have hmem : xs[classOf r xs x] ∈ xs := List.getElem_mem hlt
    exact transitive_eq_true_iff.mp htrans x hx _ hmem y hy (hswap hmem hx hfx) hfy

/-- The laws of an equivalence hold of a relation on a sample exactly when it classifies it. -/
theorem laws_iff_classified :
    reflexive r xs = true ∧ symmetric r xs = true ∧ transitive r xs = true ↔
      ∃ label : α → Nat, Classifies label r xs := by
  constructor
  · rintro ⟨hrefl, hsymm, htrans⟩
    exact ⟨classOf r xs, classifies_classOf hrefl hsymm htrans⟩
  · rintro ⟨label, h⟩
    exact ⟨h.reflexive, h.symmetric, h.transitive⟩

/-! ### Lawful comparisons -/

/-- That `differ` negates the comparison is never in doubt, so lawfulness is the laws of an
equivalence. -/
theorem lawful_eq (c : Comparison α) (xs : List α) :
    lawful c xs = (reflexive c xs && symmetric c xs && transitive c xs) := by
  have hdiffer : (xs.all fun x => xs.all fun y => c.differ x y != c x y) = true := by simp
  rw [lawful, hdiffer, Bool.true_and]

/-- **Accepted relations are exactly the classifications.** A relation is reflexive, symmetric and
transitive on a sample exactly when there are numbers for the values under which two values of the
sample are related if and only if they have the same number. A comparison is lawful on a sample
exactly when there are such numbers for it, and the check of its negation never changes the
verdict. -/
theorem accepted_iff_classified (r : α → α → τ) (c : Comparison α) (xs : List α) :
    (reflexive r xs = true ∧ symmetric r xs = true ∧ transitive r xs = true ↔
        ∃ label : α → Nat, Classifies label r xs) ∧
      (lawful c xs = true ↔ ∃ label : α → Nat, Classifies label c xs) ∧
      lawful c xs = (reflexive c xs && symmetric c xs && transitive c xs) := by
  refine ⟨laws_iff_classified, ?_, lawful_eq c xs⟩
  rw [lawful_eq, Bool.and_eq_true, Bool.and_eq_true, and_assoc]
  exact laws_iff_classified

/-- The classes of four keyed records, two of them with one key. -/
example : [⟨1, 2⟩, ⟨3, 0⟩, ⟨1, 5⟩, ⟨4, 0⟩].map
    (classOf Keyed.compare [⟨1, 2⟩, ⟨3, 0⟩, ⟨1, 5⟩, ⟨4, 0⟩]) = [0, 1, 0, 3] := by decide

end Sameness.Sample

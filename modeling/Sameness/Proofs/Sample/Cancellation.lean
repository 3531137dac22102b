import Sameness.Proofs.Compound
import Sameness.Proofs.Sample.Equivalence

/-!
# Cancellation

A left inverse of a map is a reason for the map to be injective, and hence for the comparison along
it to be right. On a sample the reason can be checked one value at a time, while injectivity is
about two: if the images of `x` and `y` are the same, then one and the same value comes back from
both images, and it is the same as `x` and as `y` (`Sample.injective_of_cancelsPartly`). That value
may lie outside the sample, and symmetry and transitivity of the comparison are what joins the two
halves. The comparison along the map never runs the inverse.

A total inverse is a partial one that always has a value (`Sample.cancelsPartly_some`), so
everything is proved for partial ones. Conversely, a partial inverse is a total one that is
**restricted** to where it is defined. To cancel through the restriction is to cancel through the
total inverse and to find every image where the inverse is defined
(`Sample.cancelsPartly_restrict`). Nothing is asked of the comparison, since it only ever sees what
comes back, on the left, and the value itself, on the right: the latter is put into a filled option,
and an empty one is never the same as that. Options among the values leave three answers to tell
apart. An inverse can have no value, it can have the empty option as its value, or a filled one; for
an empty option only the second is right.
-/

namespace Sameness.Sample

variable {α β : Type} {c : Comparison α} {d : Comparison β} {f : α → β} {xs : List α}

/-! ### Cancellation and injectivity -/

/-- An option is the same as a filled one exactly when it holds a value that is. -/
theorem option_some_eq_true_iff {o : Option α} {x : α} :
    c.option o (some x) = true ↔ ∃ z, o = some z ∧ c z x = true := by
  cases o <;> simp

/-- A total inverse is a partial one that always has a value. -/
theorem cancelsPartly_some (c : Comparison α) (f : α → β) (back : β → α) (xs : List α) :
    cancelsPartly c f (fun y => some (back y)) xs = cancels c f back xs := rfl

/-- **Cancellation implies injectivity**, also through a value outside the sample. -/
theorem injective_of_cancelsPartly (hc : c.PartialEquivalence) (hd : d.Decides)
    {back? : β → Option α} (h : cancelsPartly c f back? xs = true) :
    injective c d f xs = true := by
  have hback : ∀ x ∈ xs, ∃ z, back? (f x) = some z ∧ c z x = true := fun x hx =>
    option_some_eq_true_iff.mp (cancelsPartly_eq_true_iff.mp h x hx)
  rw [injective_eq_true_iff]
  intro x hx y hy hxy
  have himage : f x = f y := (hd _ _).mp hxy
  obtain ⟨z, hz, hzx⟩ := hback x hx
  obtain ⟨z', hz', hzy⟩ := hback y hy
  -- the two images are one, so that the same value comes back from both
  obtain rfl : z = z' := Option.some.inj (hz.symm.trans (himage ▸ hz'))
  exact hc.of_common hzx hzy

/-- An injective map into a comparison that decides identity gives one that does so on the
sample. -/
theorem decides_along_of_injective [DecidableEq α] (hd : d.Decides)
    (h : injective Comparison.identity d f xs = true) :
    decides (d.along f) xs (Comparison.identity : Comparison α) = true := by
  rwa [← injective_eq_decides_along (.of_decides .identity hd.refl)]

/-! ### Derived comparisons -/

/-- **Cancellation suffices.** Let a comparison be symmetric and transitive, and let the comparison
of the images decide identity. A map that cancels on a sample, through a total or a partial inverse,
is injective there. If the comparison of the domain decides identity as well, then so does, on the
sample, the comparison that is derived from the map and its inverse. -/
theorem injective_and_decides_of_cancels [DecidableEq α] (hc : c.PartialEquivalence)
    (hd : d.Decides) (f : α → β) (back : β → α) (back? : β → Option α) (xs : List α) :
    (cancels c f back xs = true → injective c d f xs = true) ∧
      (cancelsPartly c f back? xs = true → injective c d f xs = true) ∧
      (c.Decides →
        (cancels c f back xs = true →
          decides (d.alongInverse f back) xs (Comparison.identity : Comparison α) = true) ∧
        (cancelsPartly c f back? xs = true →
          decides (d.alongPartialInverse f back?) xs (Comparison.identity : Comparison α) =
            true)) := by
  have hpartly : ∀ {b : β → Option α}, cancelsPartly c f b xs = true →
      injective c d f xs = true := fun h => injective_of_cancelsPartly hc hd h
  have htotal : cancels c f back xs = true → injective c d f xs = true := fun h =>
    hpartly ((cancelsPartly_some c f back xs).trans h)
  refine ⟨htotal, hpartly, fun hdec => ?_⟩
  -- from here on the comparison of the domain is identity itself
  obtain rfl := hdec.eq_identity
  exact ⟨fun h => decides_along_of_injective hd (htotal h),
    fun h => decides_along_of_injective hd (hpartly h)⟩

/-- Records compared by key are no more than symmetric and transitive; the key cancels although the
note is lost. Places below one hundred are compared by identity, and reading them back is
partial. -/
theorem injective_and_decides_of_cancels_specimens :
    Keyed.compare.PartialEquivalence ∧ (Comparison.identity : Comparison Int32).Decides ∧
      cancels Keyed.compare Keyed.key (fun k => ⟨k, 0⟩) keySample = true ∧
      injective Keyed.compare Comparison.identity Keyed.key keySample = true ∧
      cancelsPartly Comparison.identity Ordinal.place Ordinal.ofPlace? [⟨0⟩, ⟨99⟩] = true ∧
      decides Ordinal.compare [⟨0⟩, ⟨99⟩] (Comparison.identity : Comparison Ordinal) = true := by
  have hd : (Comparison.identity : Comparison Int32).Decides := .identity
  have hkey : Keyed.compare.PartialEquivalence := hd.partialEquivalence.along Keyed.key
  have hcancel : cancels Keyed.compare Keyed.key (fun k => ⟨k, 0⟩) keySample = true := by decide
  have hplace : cancelsPartly Comparison.identity Ordinal.place Ordinal.ofPlace? [⟨0⟩, ⟨99⟩] =
      true := by decide
  have hord : (Comparison.identity : Comparison Ordinal).Decides := .identity
  exact ⟨hkey, hd, hcancel,
    (injective_and_decides_of_cancels hkey hd _ _ (fun _ => none) _).1 hcancel, hplace,
    ((injective_and_decides_of_cancels hord.partialEquivalence hd _ Ordinal.mk _ _).2.2 hord).2
      hplace⟩

/-- Transitivity is needed: a constant map cancels up to one, and is not injective up to one. -/
example :
    cancels Near.compare (fun _ => (0 : Int32)) (fun _ => ⟨1⟩) [⟨0⟩, ⟨2⟩] = true ∧
      injective Near.compare (Comparison.identity : Comparison Int32) (fun _ => 0)
        [⟨0⟩, ⟨2⟩] = false := by decide

/-! ### Restrictions -/

variable {back : β → α} {defined : β → Bool} {y : β}

/-- The inverse `back` **restricted** to where `defined` holds; elsewhere it has no value. -/
def restrict (defined : β → Bool) (back : β → α) : β → Option α :=
  fun y => if defined y then some (back y) else none

theorem restrict_of_defined (h : defined y = true) : restrict defined back y = some (back y) :=
  if_pos h

theorem restrict_of_not_defined (h : defined y = false) : restrict defined back y = none :=
  if_neg (Bool.eq_false_iff.mp h)

/-! ### Cancellation through a restriction -/

/-- **One value.** What comes back is the same as a filled option if there is something that comes
back and it is the same as what fills the option. -/
theorem option_restrict (c : Comparison α) (defined : β → Bool) (back : β → α) (y : β) (x : α) :
    c.option (restrict defined back y) (some x) = (c (back y) x && defined y) := by
  rcases h : defined y with _ | _
  · -- whatever the total inverse has here, nothing comes back
    rw [restrict_of_not_defined h, Comparison.option_none_some, Bool.and_false]
  · rw [restrict_of_defined h, Comparison.option_some_some, Bool.and_true]

/-- **The whole sample.** One loop that asks both questions of each value has the verdict of two
loops with one question each. -/
theorem cancelsPartly_restrict (c : Comparison α) (f : α → β) (back : β → α) (defined : β → Bool)
    (xs : List α) :
    cancelsPartly c f (restrict defined back) xs =
      (cancels c f back xs && xs.all fun x => defined (f x)) := by
  rw [Bool.eq_iff_iff, Bool.and_eq_true_iff, cancelsPartly_eq_true_iff, cancels_eq_true_iff,
    List.all_eq_true, ← forall₂_and]
  refine forall₂_congr fun x _ => ?_
  rw [option_restrict, Bool.and_eq_true_iff]

/-! ### Options among the values -/

theorem option_option_some_none_iff {o : Option (Option α)} :
    c.option.option o (some none) = true ↔ o = some none := by
  rcases o with _ | _ | z <;> simp

theorem option_option_some_some_iff {o : Option (Option α)} {x : α} :
    c.option.option o (some (some x)) = true ↔ ∃ z, o = some (some z) ∧ c z x = true := by
  rcases o with _ | _ | z <;> simp

/-- Empty options come back as empty options, and filled ones as options filled with the same. -/
theorem cancelsPartly_option_iff {f : Option α → β} {back? : β → Option (Option α)}
    {xs : List (Option α)} :
    cancelsPartly c.option f back? xs = true ↔
      (none ∈ xs → back? (f none) = some none) ∧
        ∀ x, some x ∈ xs → ∃ z, back? (f (some x)) = some (some z) ∧ c z x = true := by
  rw [cancelsPartly_eq_true_iff]
  constructor
  · intro h
    exact ⟨fun hx => option_option_some_none_iff.mp (h none hx),
      fun x hx => option_option_some_some_iff.mp (h (some x) hx)⟩
  · -- a value of the sample is itself an option, and the two kinds come back differently
    rintro ⟨hempty, hfilled⟩ (_ | x) hx
    · exact option_option_some_none_iff.mpr (hempty hx)
    · exact option_option_some_some_iff.mpr (hfilled x hx)

/-- **Partial cancellation is total cancellation and definedness.** Let an inverse be restricted to
where it is defined. For any comparison, any map and any sample, the map cancels through the
restriction exactly when it cancels through the inverse itself and takes every value of the sample
to where the inverse is defined. The values may be options: an empty one of the sample has to come
back as the empty option, and no value at all will not do, while a filled one has to come back
filled with something that is the same. -/
theorem cancelsPartly_eq_cancels_and_defined :
    (∀ {α β : Type} (c : Comparison α) (f : α → β) (back : β → α) (defined : β → Bool)
      (xs : List α),
      cancelsPartly c f (restrict defined back) xs =
        (cancels c f back xs && xs.all fun x => defined (f x))) ∧
    ∀ {α β : Type} (c : Comparison α) (f : Option α → β) (back? : β → Option (Option α))
      (xs : List (Option α)),
      cancelsPartly c.option f back? xs = true ↔
        (none ∈ xs → back? (f none) = some none) ∧
          ∀ x, some x ∈ xs → ∃ z, back? (f (some x)) = some (some z) ∧ c z x = true :=
  ⟨cancelsPartly_restrict, fun _ _ _ _ => cancelsPartly_option_iff⟩

/-- The place of an ordinal, and -1 if there is none. -/
def placeIfAny (o : Option Ordinal) : Int32 := (o.map Ordinal.place).getD (-1)

/-- The ordinal at a place, if it is one, undoes this. As long as -1 is among the numbers for which
that is asked, the missing ordinal comes back as one that is missing. If only places are allowed
then nothing comes back for it, and that is not the same, although nothing is wrong with what would
have come back. -/
theorem cancelsPartly_eq_cancels_and_defined_places :
    cancels Ordinal.compare.option placeIfAny Ordinal.ofPlace? [none, some ⟨7⟩] = true ∧
      cancelsPartly Ordinal.compare.option placeIfAny
        (restrict (fun n => decide (n < 10)) Ordinal.ofPlace?) [none, some ⟨7⟩] = true ∧
      restrict (fun n => decide (n < 10)) Ordinal.ofPlace? (placeIfAny none) = some none ∧
      cancelsPartly Ordinal.compare.option placeIfAny
        (restrict (fun n => decide (0 ≤ n)) Ordinal.ofPlace?) [none, some ⟨7⟩] = false ∧
      restrict (fun n => decide (0 ≤ n)) Ordinal.ofPlace? (placeIfAny none) = none := by
  have htotal :
      cancels Ordinal.compare.option placeIfAny Ordinal.ofPlace? [none, some ⟨7⟩] = true := by
    decide
  obtain ⟨hrestrict, hoption⟩ := cancelsPartly_eq_cancels_and_defined
  have hbelow : cancelsPartly Ordinal.compare.option placeIfAny
      (restrict (fun n => decide (n < 10)) Ordinal.ofPlace?) [none, some ⟨7⟩] = true := by
    rw [hrestrict, htotal]
    decide
  obtain ⟨hempty, -⟩ := (hoption _ _ _ _).mp hbelow
  refine ⟨htotal, hbelow, hempty (by decide), ?_, restrict_of_not_defined (by decide)⟩
  rw [hrestrict, htotal]
  decide

end Sameness.Sample

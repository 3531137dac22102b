import Mathlib.Data.List.Induction
import Sameness.Proofs.Compound
import Sameness.Proofs.Labelled.RoundTrip

/-!
# Transport keeps the label of its target

To transport a value is to take it if it has the label of the target, and the target otherwise. The
result has the label of the target either way (`Labelled.label_transport`), and this settles what
transport does to a comparison and over a run.

* **Comparison.** Values are compared after the second has been transported to the label of the
  first. The transport never changes the answer: labels are distinct, so that it does nothing where
  the labels are equal, and where they are not the stored positions tell the two apart. What remains
  is the comparison of the stored payloads by position (`Comparison.labelled_is_positional`).
* **Runs that adopt.** Each new value is transported to the present one. The label stays that of the
  first value, and the run ends in the last value that has it.
* **Runs that follow.** The present value is transported to each new one. The label is that of the
  newest value, and the payload is the oldest one that has been under this label without
  interruption: the run ends in the first value of the longest stretch at the end in which all
  labels are equal (`Labelled.LastStretch`).
-/

namespace Sameness

variable {n : Nat} {I : Type} {L : Labels n I} {F : Fin n → Type}

namespace Labelled

/-! ### One transport -/

section Transport

variable [DecidableEq I] {u v : Labelled L F}

theorem transport_of_label_eq (h : u.label = v.label) : u.transport v = v := if_pos h

theorem transport_of_label_ne (h : u.label ≠ v.label) : u.transport v = u := if_neg h

/-- The result of a transport has the label of the target, whether or not there is something to
move. -/
@[simp] theorem label_transport (u v : Labelled L F) : (u.transport v).label = u.label := by
  by_cases h : u.label = v.label
  · rw [transport_of_label_eq h, h]
  · rw [transport_of_label_ne h]

end Transport

/-- The payload of `v`, read at the position of a value with the same label. -/
def payloadAt (v : Labelled L F) {u : Labelled L F} (h : u.label = v.label) : F u.position :=
  (label_eq_iff.mp h).symm ▸ v.payload

end Labelled

/-! ### Comparison by position -/

namespace Comparison

open Labelled

variable [DecidableEq I]

/-- Values are the same when their labels are equal and the payloads are the same under that
label. -/
theorem labelled_iff_payloadAt {c : (k : Fin n) → Comparison (F k)} {u v : Labelled L F} :
    Comparison.labelled c u v = true ↔
      ∃ h : u.label = v.label, c u.position u.payload (v.payloadAt h) = true := by
  rw [labelled_eq_along_storage, along_apply, storage, storage]
  obtain ⟨j, x⟩ := u
  obtain ⟨k, y⟩ := v
  by_cases h : j = k
  · subst h
    rw [variant_chosen_self]
    constructor
    · intro hxy
      exact ⟨rfl, hxy⟩
    · rintro ⟨_, hxy⟩
      exact hxy
  · rw [variant_chosen_of_ne h]
    refine iff_of_false Bool.false_ne_true ?_
    rintro ⟨hlabel, -⟩
    exact h (label_eq_iff.mp hlabel)

/-- **Labelled values are compared by position.** The comparison looks at labels and at a
transported value, and all the same it is the positional comparison of what the two values store: it
holds exactly when the labels are equal and the payloads, the left one on the left, are the same to
the comparison that belongs to that label. Under different labels it never holds, even if the
payloads coincide. A value may be compared after its transport as well as before, provided that the
labels are equal. -/
theorem labelled_is_positional (c : (k : Fin n) → Comparison (F k)) (u v : Labelled L F) :
    Comparison.labelled c u v = variant c u.storage v.storage ∧
      (Comparison.labelled c u v = true ↔
        ∃ h : u.label = v.label, c u.position u.payload (v.payloadAt h) = true) ∧
      (u.label ≠ v.label → Comparison.labelled c u v = false) ∧
      Comparison.labelled c u v =
        (identity u.label v.label && Comparison.labelled c u (u.transport v)) := by
  have hne : u.label ≠ v.label → Comparison.labelled c u v = false := fun h => if_neg h
  refine ⟨by rw [labelled_eq_along_storage, along_apply], labelled_iff_payloadAt, hne, ?_⟩
  by_cases h : u.label = v.label
  · rw [identity_eq_true_iff.mpr h, transport_of_label_eq h, Bool.true_and]
  · have hlabels : identity u.label v.label = false := decide_eq_false h
    rw [hne h, hlabels, Bool.false_and]

end Comparison

namespace Labelled

/-- A number under one of four labels. -/
abbrev FourNumbers := Labelled fourLabels fun _ => Nat

/-- Numbers are compared by order, under whatever label. -/
def fourOrders (_ : Fin 4) : Comparison Nat := fun a b => decide (a ≤ b)

/-- The lower number stands on the left of the higher one and not on its right, and a number is not
compared with its like under another label. -/
theorem labelled_is_positional_fourLabels :
    (Comparison.labelled fourOrders : Comparison FourNumbers) ⟨1, 3⟩ ⟨1, 5⟩ = true ∧
      (Comparison.labelled fourOrders : Comparison FourNumbers) ⟨1, 5⟩ ⟨1, 3⟩ = false ∧
      (⟨1, 3⟩ : FourNumbers).label ≠ (⟨2, 3⟩ : FourNumbers).label ∧
      (Comparison.labelled fourOrders : Comparison FourNumbers) ⟨1, 3⟩ ⟨2, 3⟩ = false := by
  have hpositional := Comparison.labelled_is_positional (L := fourLabels) (F := fun _ => Nat)
    fourOrders
  obtain ⟨-, hup, -⟩ := hpositional ⟨1, 3⟩ ⟨1, 5⟩
  obtain ⟨hdown, -⟩ := hpositional ⟨1, 5⟩ ⟨1, 3⟩
  obtain ⟨-, -, hother, -⟩ := hpositional ⟨1, 3⟩ ⟨2, 3⟩
  have hlabels : (⟨1, 3⟩ : FourNumbers).label ≠ (⟨2, 3⟩ : FourNumbers).label := by decide
  exact ⟨hup.mpr ⟨rfl, by decide⟩, hdown.trans (by decide), hlabels, hother hlabels⟩

/-! ### Runs that adopt -/

section Adopt

variable [DecidableEq I]

theorem label_run_adopt (u : Labelled L F) (vs : List (Labelled L F)) :
    (run u (vs.map .adopt)).label = u.label := by
  induction vs generalizing u with
  | nil => rfl
  | cons v vs ih =>
    rw [List.map_cons, run_cons, ih]
    exact label_transport u v

/-- A run that adopts ends in the last value that has the label of the first, or else in the
first. -/
theorem run_adopt_eq (u : Labelled L F) (vs : List (Labelled L F)) :
    run u (vs.map .adopt) = (vs.filter fun v => v.label = u.label).getLast?.getD u := by
  induction vs generalizing u with
  | nil => rfl
  | cons v vs ih =>
    rw [List.map_cons, run_cons, ih, Move.apply, label_transport, List.filter_cons]
    by_cases h : v.label = u.label
    · -- the value adopted here is what the rest of the run falls back on
      rw [transport_of_label_eq h.symm, if_pos (decide_eq_true h), List.getLast?_cons]
      rfl
    · rw [transport_of_label_ne (Ne.symm h), if_neg (by simpa using h)]

end Adopt

/-! ### The last stretch of equal labels -/

/-- All values of a list have the same label. -/
def OneLabel (vs : List (Labelled L F)) : Prop := ∀ v ∈ vs, ∀ w ∈ vs, v.label = w.label

/-- The list `s` is the **last stretch** of `vs`: the longest suffix with one label. -/
structure LastStretch (s vs : List (Labelled L F)) : Prop where
  /-- The stretch stands at the end. -/
  suffix : s <:+ vs
  /-- All its labels are equal. -/
  oneLabel : OneLabel s
  /-- No longer suffix has this property. -/
  longest : ∀ t, t <:+ vs → OneLabel t → t.length ≤ s.length

theorem OneLabel.of_forall {i : I} {vs : List (Labelled L F)} (h : ∀ v ∈ vs, v.label = i) :
    OneLabel vs := fun v hv w hw => (h v hv).trans (h w hw).symm

theorem OneLabel.mono {s t : List (Labelled L F)} (h : OneLabel t) (hst : s ⊆ t) : OneLabel s :=
  fun v hv w hw => h v (hst hv) w (hst hw)

namespace LastStretch

variable {s seen : List (Labelled L F)} {u v : Labelled L F}

protected theorem singleton (u : Labelled L F) : LastStretch [u] [u] where
  suffix := List.suffix_rfl
  oneLabel := .of_forall (i := u.label) (by simp)
  longest _ ht _ := ht.length_le

/-- With a new value at the end, a suffix with one label reaches back before it no further than the
last stretch does. -/
theorem suffix_of_suffix_concat {t : List (Labelled L F)} (h : LastStretch s seen)
    (ht : t <:+ seen ++ [v]) (hone : OneLabel t) : t = [] ∨ ∃ r, t = r ++ [v] ∧ r <:+ s := by
  rcases List.suffix_concat_iff.mp ht with rfl | ⟨r, rfl, hseen⟩
  · exact .inl rfl
  · have hone' : OneLabel r := hone.mono (List.subset_append_left r [v])
    have hle : r.length ≤ s.length := h.longest r hseen hone'
    exact .inr ⟨r, rfl, List.suffix_of_suffix_length_le hseen h.suffix hle⟩

theorem concat_of_label_eq (h : LastStretch s seen) (hu : u ∈ s) (hv : v.label = u.label) :
    LastStretch (s ++ [v]) (seen ++ [v]) where
  suffix := List.suffix_append_self_iff.mpr h.suffix
  oneLabel := by
    refine .of_forall (i := u.label) fun w hw => ?_
    rcases List.mem_append.mp hw with hws | hwv
    · exact h.oneLabel w hws u hu
    · rw [List.mem_singleton.mp hwv, hv]
  longest t ht hone := by
    rcases h.suffix_of_suffix_concat ht hone with rfl | ⟨r, rfl, hr⟩
    · exact Nat.zero_le _
    · rw [List.length_append, List.length_append]
      exact Nat.add_le_add_right hr.length_le _

/-- The last stretch begins anew with a value of another label. -/
theorem concat_of_label_ne (h : LastStretch s seen) (hu : u ∈ s) (hv : v.label ≠ u.label) :
    LastStretch [v] (seen ++ [v]) where
  suffix := List.suffix_append seen [v]
  oneLabel := .of_forall (i := v.label) (by simp)
  longest t ht hone := by
    rcases h.suffix_of_suffix_concat ht hone with rfl | ⟨_ | ⟨w, r⟩, rfl, hr⟩
    · exact Nat.zero_le _
    · exact Nat.le_refl _
    · -- a value before `v` would join the two labels
      have hw : w.label = u.label := h.oneLabel w (hr.subset List.mem_cons_self) u hu
      have hvw : v.label = w.label := hone v (by simp) w (by simp)
      exact absurd (hvw.trans hw) hv

/-- **One step** of a run that follows keeps the present value at the head of the last stretch. -/
theorem follow [DecidableEq I] (h : LastStretch s seen) (hu : s.head? = some u)
    (v : Labelled L F) :
    ∃ t, LastStretch t (seen ++ [v]) ∧ t.head? = some (v.transport u) := by
  have hmem : u ∈ s := List.mem_of_mem_head? hu
  by_cases hv : v.label = u.label
  · refine ⟨s ++ [v], h.concat_of_label_eq hmem hv, ?_⟩
    rw [transport_of_label_eq hv, List.head?_append, hu]
    rfl
  · refine ⟨[v], h.concat_of_label_ne hmem hv, ?_⟩
    rw [transport_of_label_ne hv]
    rfl

end LastStretch

/-! ### Runs that follow -/

variable [DecidableEq I]

theorem run_follow_concat (u v : Labelled L F) (vs : List (Labelled L F)) :
    run u ((vs ++ [v]).map .follow) = v.transport (run u (vs.map .follow)) := by
  rw [run, List.map_append, List.foldl_append]
  rfl

theorem label_run_follow (u : Labelled L F) (vs : List (Labelled L F)) :
    (run u (vs.map .follow)).label = ((u :: vs).getLast (List.cons_ne_nil u vs)).label := by
  rcases List.eq_nil_or_concat vs with rfl | ⟨vs, v, rfl⟩
  · rfl
  · have hlast : (u :: (vs ++ [v])).getLast (List.cons_ne_nil u _) = v :=
      List.getLast_concat (l := u :: vs)
    simp only [List.concat_eq_append]
    rw [run_follow_concat, label_transport, hlast]

/-- **A whole run** that follows ends at the head of the last stretch of all values it has seen. -/
theorem exists_lastStretch_run_follow (u : Labelled L F) (vs : List (Labelled L F)) :
    ∃ s, LastStretch s (u :: vs) ∧ s.head? = some (run u (vs.map .follow)) := by
  induction vs using List.reverseRecOn with
  | nil => exact ⟨[u], .singleton u, rfl⟩
  | append_singleton vs v ih =>
    obtain ⟨s, hs, hhead⟩ := ih
    rw [run_follow_concat]
    exact hs.follow hhead v

/-! ### Transport over runs -/

/-- **Transport over runs.** A run that adopts one value after the other keeps the label of its
first value throughout, and it ends in the last value with that label, or in the first value if none
of the others has it. A run that follows one value after the other ends with the label of the newest
value, and in the first value of the longest stretch of equal labels at the end. If every payload is
the same as itself, a transported value is the same as what its transport results in exactly when
its label is that of the target. -/
theorem transport_over_runs (c : (k : Fin n) → Comparison (F k)) (start : Labelled L F)
    (vs : List (Labelled L F)) :
    (∀ past, past <+: vs → (run start (past.map .adopt)).label = start.label) ∧
      run start (vs.map .adopt) =
        (vs.filter fun v => v.label = start.label).getLast?.getD start ∧
      (run start (vs.map .follow)).label =
        ((start :: vs).getLast (List.cons_ne_nil start vs)).label ∧
      (∃ s, LastStretch s (start :: vs) ∧ s.head? = some (run start (vs.map .follow))) ∧
      ((∀ k x, c k x x = true) → ∀ u v : Labelled L F,
        Comparison.labelled c (u.transport v) v = true ↔ u.label = v.label) := by
  refine ⟨fun past _ => label_run_adopt start past, run_adopt_eq start vs,
    label_run_follow start vs, exists_lastStretch_run_follow start vs, fun hrefl u v => ?_⟩
  rw [Comparison.labelled_iff_payloadAt]
  constructor
  · rintro ⟨h, -⟩
    exact (label_transport u v).symm.trans h
  · intro h
    rw [transport_of_label_eq h]
    exact ⟨rfl, hrefl _ _⟩

/-- The values that are brought in by the moves of `fourLabelsRun`: one under the label 9, and then
two under the label -3. -/
def fourLabelsSeen : List FourNumbers := fourLabelsRun.map Move.value

/-- A run that starts from the value 9 under the label -3 ends under this label, whether it adopts
or follows. The one that adopts ends in the last value under the label. The one that follows ends in
the first value after the interruption by another label. -/
theorem transport_over_runs_fourLabels :
    fourLabelsSeen.take 1 <+: fourLabelsSeen ∧
      (run ⟨1, 9⟩ ((fourLabelsSeen.take 1).map .adopt)).label = -3 ∧
      run ⟨1, 9⟩ (fourLabelsSeen.map .adopt) = ⟨1, 4⟩ ∧
      (run ⟨1, 9⟩ (fourLabelsSeen.map .follow)).label = -3 ∧
      (∃ s, LastStretch s (⟨1, 9⟩ :: fourLabelsSeen) ∧ s.head? = some ⟨1, 6⟩) ∧
      (∀ k x, fourOrders k x x = true) ∧
      Comparison.labelled fourOrders
        (transport ⟨1, 9⟩ ⟨1, 4⟩ : FourNumbers) ⟨1, 4⟩ = true := by
  have hpast : fourLabelsSeen.take 1 <+: fourLabelsSeen := List.take_prefix 1 fourLabelsSeen
  have hrefl : ∀ k x, fourOrders k x x = true := by simp [fourOrders]
  obtain ⟨hkeep, hadopt, hfollow, hstretch, hsame⟩ :=
    transport_over_runs (L := fourLabels) (F := fun _ => Nat) fourOrders ⟨1, 9⟩ fourLabelsSeen
  exact ⟨hpast, (hkeep _ hpast).trans rfl, hadopt.trans rfl, hfollow.trans rfl, hstretch, hrefl,
    (hsame hrefl ⟨1, 9⟩ ⟨1, 4⟩).mpr rfl⟩

end Labelled

end Sameness

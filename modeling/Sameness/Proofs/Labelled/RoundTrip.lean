import Sameness.Compound.Labelled

/-!
# Labels, positions and payloads fit together

A labelled value stores a position, and its label is read off the list of declared labels. Since no
label is declared twice, the search for a label undoes that reading (`Labels.position_eq_ok_iff`),
and everything else is derived from this:

* **Making, then projecting** under the same label gives the payload back (`Labelled.get_make`).
* **Projecting, then making** under the label of a value gives the value back
  (`Labelled.make_payload`).
* **Projecting under any label** has one of three answers, told apart by whether the label is the
  one of the value and whether it is declared at all (`Labelled.get_eq`).

The invariant that ties label and payload is in the type, so no move can break it; what a run of
moves leads to is moreover one of the values that were put in (`Labelled.run_mem`).
-/

namespace Sameness

variable {n : Nat} {I : Type} [DecidableEq I] {L : Labels n I} {F : Fin n → Type}

/-! ### Positions of labels -/

namespace Labels

/-- The position of a label is the one at which it is declared. There is only one. -/
theorem position_eq_ok_iff {i : I} {k : Fin n} : L.position i = .ok k ↔ L.label k = i := by
  rw [← L.search_eq_some_iff, position]
  by_cases h : L.Declares i
  · obtain ⟨j, hj⟩ := Option.isSome_iff_exists.mp h
    simp [h, index, hj]
  · have hnone : L.search i = none := by simpa [Declares] using h
    simp [h, hnone]

/-- A label has no position exactly when it is not declared. -/
theorem position_eq_error_iff {i : I} {e : Fault} :
    L.position i = .error e ↔ ¬ L.Declares i ∧ e = .undeclaredLabel := by
  rw [position]
  split
  · simp [*]
  · simp [*, eq_comm]

theorem declares_label (k : Fin n) : L.Declares (L.label k) := L.declares_iff.mpr ⟨k, rfl⟩

/-- Distinct labels: the index of the label at a position is that position. -/
theorem index_label (k : Fin n) (h : L.Declares (L.label k)) : L.index (L.label k) h = k :=
  L.distinct _ _ (L.label_index h)

end Labels

namespace Labelled

/-! ### Making and projecting -/

theorem label_make (i : I) (h : L.Declares i) (x : F (L.index i h)) : (make i h x).label = i :=
  L.label_index h

/-- **Projecting**, under any label: the payload under the label of the value, a fault for each
other declared label, and another fault for a label that is not declared. -/
theorem get_eq (u : Labelled L F) (i : I) :
    u.get i = if i = u.label then .ok u.payload
      else if L.Declares i then .error .otherLabel else .error .undeclaredLabel := by
  rw [get]
  -- the search comes first, so a label that is not declared is refused before positions are
  -- compared
  rcases hp : L.position i with e | k
  · obtain ⟨hnot, rfl⟩ := Labels.position_eq_error_iff.mp hp
    have hne : i ≠ u.label := fun hi => hnot (hi ▸ L.declares_label u.position)
    rw [if_neg hne, if_neg hnot]
    rfl
  · obtain rfl := Labels.position_eq_ok_iff.mp hp
    rw [if_pos (L.declares_label k)]
    by_cases hk : k = u.position
    · have hlabel : L.label k = u.label := congrArg L.label hk
      rw [if_pos hlabel]
      exact if_pos hk
    · -- positions are compared, but labels are distinct, so that another position is another label
      have hlabel : L.label k ≠ u.label := fun h => hk (L.distinct _ _ h)
      rw [if_neg hlabel]
      exact if_neg hk

theorem get_eq_ok_iff {u : Labelled L F} {i : I} {x : F u.position} :
    u.get i = .ok x ↔ i = u.label ∧ u.payload = x := by
  rw [get_eq]
  split
  · simp [*]
  · split <;> simp [*]

theorem get_eq_otherLabel_iff {u : Labelled L F} {i : I} :
    u.get i = .error .otherLabel ↔ L.Declares i ∧ i ≠ u.label := by
  rw [get_eq]
  split
  · simp [*]
  · split <;> simp [*]

theorem get_eq_undeclaredLabel_iff {u : Labelled L F} {i : I} :
    u.get i = .error .undeclaredLabel ↔ ¬ L.Declares i := by
  -- the label of the value is itself a declared one
  have hdecl : L.Declares u.label := L.declares_label u.position
  rw [get_eq]
  split
  · simp [*]
  · split <;> simp [*]

/-- Making and projecting under one label gives the payload back. -/
theorem get_make (i : I) (h : L.Declares i) (x : F (L.index i h)) :
    (make i h x).get i = .ok x := by
  rw [get_eq, if_pos (label_make i h x).symm]
  rfl

/-- The payload of a value, made again under the label of the value, is that value. -/
theorem make_payload (u : Labelled L F) (h : L.Declares u.label) :
    make u.label h ((L.index_label u.position h).symm ▸ u.payload) = u := by
  obtain ⟨k, x⟩ := u
  have hk : L.index (L.label k) h = k := L.index_label k h
  change (⟨L.index (L.label k) h, hk.symm ▸ x⟩ : Labelled L F) = ⟨k, x⟩
  -- the index is `k` again, and the payload has only been moved along that equation
  congr 1
  exact eqRec_heq _ x

/-! ### What holds of a value at any time -/

/-- The label, the position and the payload of a value **fit together**. -/
structure Coherent (u : Labelled L F) : Prop where
  /-- The label is declared at the position where the payload is stored. -/
  position_label : L.position u.label = .ok u.position
  /-- What is projected under the label of the value makes the value again. -/
  make_get : ∃ (h : L.Declares u.label) (x : F u.position), u.get u.label = .ok x ∧
    make u.label h ((L.index_label u.position h).symm ▸ x) = u
  /-- There is something to project under the label of the value and under no other. -/
  get_ok : ∀ i, (∃ x, u.get i = .ok x) ↔ i = u.label
  /-- Another declared label is refused as another label. -/
  get_other : ∀ i, (u.get i).mapError Fault.message =
    .error "Tagged: payload requested at another index" ↔ L.Declares i ∧ i ≠ u.label
  /-- A label that is not declared is refused as such. -/
  get_undeclared : ∀ i, (u.get i).mapError Fault.message =
    .error "Tagged: index outside the declared index set" ↔ ¬ L.Declares i

/-- Every labelled value is coherent. -/
theorem coherent (u : Labelled L F) : u.Coherent where
  position_label := Labels.position_eq_ok_iff.mpr rfl
  make_get := by
    have hdecl : L.Declares u.label := L.declares_label u.position
    exact ⟨hdecl, u.payload, get_eq_ok_iff.mpr ⟨rfl, rfl⟩, u.make_payload hdecl⟩
  get_ok i := by simp [get_eq_ok_iff]
  get_other _ := Fault.mapError_message_eq_error_iff.trans get_eq_otherLabel_iff
  get_undeclared _ := Fault.mapError_message_eq_error_iff.trans get_eq_undeclaredLabel_iff

/-! ### Runs of moves -/

/-- **One move** leaves the present value or replaces it by the one that the move brings in. -/
theorem Move.apply_eq_or (u : Labelled L F) (m : Move L F) :
    m.apply u = u ∨ m.apply u = m.value := by
  cases m with
  | renew v => exact .inr rfl
  | adopt v =>
    rw [apply, transport]
    split
    · exact .inr rfl
    · exact .inl rfl
  | follow v =>
    rw [apply, transport]
    split
    · exact .inl rfl
    · exact .inr rfl

/-- **A whole run** ends in the value that it started from or in one that some move brought in. -/
theorem run_mem (u : Labelled L F) (moves : List (Move L F)) :
    run u moves ∈ u :: moves.map Move.value := by
  induction moves generalizing u with
  | nil => exact List.mem_singleton.mpr rfl
  | cons m moves ih =>
    rw [run_cons, List.map_cons]
    rcases m.apply_eq_or u with h | h
    · -- the rest of the run starts from `u` and does not see what `m` brought in
      rw [h]
      rcases List.mem_cons.mp (ih u) with hu | hrest
      · rw [hu]
        exact List.mem_cons_self
      · exact List.mem_cons_of_mem _ (List.mem_cons_of_mem _ hrest)
    · rw [h]
      exact List.mem_cons_of_mem _ (ih m.value)

/-! ### The round trip -/

/-- **Labels, positions and payloads.** The search for a label finds the position at which it is
declared, and faults exactly when there is none. What is made under a declared label has that label
and gives its payload back under it. After any run of moves the current value is one of those put
in, and it is coherent: its label leads to its position, projecting and making again under its label
gives it back, and every other label is refused, with a text that says whether the label is
declared. -/
theorem round_trip (L : Labels n I) (F : Fin n → Type) :
    (∀ i, (∀ k, L.position i = .ok k ↔ L.label k = i) ∧
      ((L.position i).mapError Fault.message =
        .error "Tagged: index outside the declared index set" ↔ ¬ L.Declares i) ∧
      (L.Declares i ↔ ∃ k, L.label k = i)) ∧
    (∀ (i : I) (h : L.Declares i) (x : F (L.index i h)),
      (make i h x).label = i ∧ (make i h x).get i = .ok x) ∧
    ∀ (start : Labelled L F) (moves : List (Move L F)),
      run start moves ∈ start :: moves.map Move.value ∧ (run start moves).Coherent := by
  refine ⟨fun i => ⟨fun k => Labels.position_eq_ok_iff, ?_, L.declares_iff⟩,
    fun i h x => ⟨label_make i h x, get_make i h x⟩,
    fun start moves => ⟨run_mem start moves, coherent _⟩⟩
  have hfault : L.position i = .error .undeclaredLabel ↔ ¬ L.Declares i :=
    Labels.position_eq_error_iff.trans (and_iff_left rfl)
  exact Fault.mapError_message_eq_error_iff.trans hfault

/-- Four labels that are not in order. -/
def fourLabels : Labels 4 Int := ⟨fun | 0 => 5 | 1 => -3 | 2 => 9 | 3 => 0, by decide⟩

/-- A run in which one value is not adopted, one is followed and one is adopted. -/
def fourLabelsRun : List (Move fourLabels fun _ => Nat) :=
  [.adopt ⟨2, 8⟩, .follow ⟨1, 6⟩, .adopt ⟨1, 4⟩]

/-- Under the label 9 a payload is given back, and the run leads to a value that has a payload under
the label -3, none under 9, and does not know the label 4. -/
theorem round_trip_fourLabels :
    (∃ h : fourLabels.Declares 9, (make (F := fun _ => Nat) 9 h 8).get 9 = .ok 8) ∧
      (∃ x, (run ⟨0, 7⟩ fourLabelsRun).get (-3) = .ok x) ∧
      ((run ⟨0, 7⟩ fourLabelsRun).get 9).mapError Fault.message =
        .error "Tagged: payload requested at another index" ∧
      ((run ⟨0, 7⟩ fourLabelsRun).get 4).mapError Fault.message =
        .error "Tagged: index outside the declared index set" := by
  have h := round_trip fourLabels fun _ => Nat
  have hrun := (h.2.2 ⟨0, 7⟩ fourLabelsRun).2
  have hdecl : fourLabels.Declares 9 := by decide
  exact ⟨⟨hdecl, (h.2.1 9 hdecl 8).2⟩, (hrun.get_ok _).mpr (by decide),
    (hrun.get_other _).mpr (by decide), (hrun.get_undeclared _).mpr (by decide)⟩

end Labelled

end Sameness

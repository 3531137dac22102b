import Mathlib.Data.List.Forall2
import Sameness.Refinement.Basic
import Sameness.Refinement.Run
import Sameness.Specimen

/-!
# What runs of construction steps come to

All constructors agree on what they do to a current value: a step replaces it by what the builder
makes of the offered base value when that is accepted, and leaves it alone otherwise
(`Refinement.Step.next_eq`). What every step keeps therefore holds after a whole run
(`Refinement.run_induction`).

The constructors refuse a base value each in its own way, but this makes no difference to the
current value, which after any run is the builder's value of the **last accepted base value**
(`Refinement.run_eq_last_accepted`). Where they differ is what the steps themselves yield
(`Refinement.outcomes`): a fault comes from a demand with a base value that is not accepted, and
from nowhere else, whatever the current value is by then.
-/

namespace Sameness.Refinement

variable {σ β : Type} {R : Refinement σ β}

/-! ### One step -/

namespace Step

variable {s : Step R}

/-- With an accepted base value every constructor yields the builder's value. -/
theorem outcome_of_accepts (h : R.accepts s.offered = true) (u : σ) :
    s.outcome u = .ok (some (R.build s.offered)) := by
  cases s with
  | demand x =>
    rw [offered] at h ⊢
    rw [outcome, ofBase_of_accepts h]
    rfl
  | attempt x =>
    rw [offered] at h ⊢
    rw [outcome, ofBase?_of_accepts h]
  | attemptDirect x =>
    rw [offered] at h ⊢
    rw [outcome, ofBaseDirect?, ofBase?_of_accepts h]
  | orKeep x =>
    rw [offered] at h ⊢
    rw [outcome, ofBaseD_of_accepts h]
  | wrap free x => rfl

/-- With a refused base value the current value stays, whether the constructor faults, has no
value or falls back. -/
theorem next_of_not_accepts (h : R.accepts s.offered = false) (u : σ) : s.next u = u := by
  cases s with
  | demand x =>
    rw [offered] at h
    rw [next, outcome, ofBase_of_not_accepts h]
    rfl
  | attempt x =>
    rw [offered] at h
    rw [next, outcome, ofBase?_of_not_accepts h]
  | attemptDirect x =>
    rw [offered] at h
    rw [next, outcome, ofBaseDirect?, ofBase?_of_not_accepts h]
  | orKeep x =>
    rw [offered] at h
    rw [next, outcome, ofBaseD_of_not_accepts h]
  | wrap free x =>
    -- nothing is refused here
    rw [offered, free x] at h
    cases h

/-- **One step**, whichever constructor it uses: the builder's value if the offered base value is
accepted, and the current value otherwise. -/
theorem next_eq (s : Step R) (u : σ) :
    s.next u = if R.accepts s.offered then R.build s.offered else u := by
  split
  · rw [next, outcome_of_accepts ‹_›]
  · exact next_of_not_accepts (Bool.not_eq_true _ ▸ ‹_›) u

end Step

/-! ### First values and runs -/

/-- A first value is the builder's value of an accepted base value. -/
theorem Constructs.eq_build {x : β} {u : σ} (h : R.Constructs x u) :
    R.accepts x = true ∧ u = R.build x := by
  cases h with
  | demand h =>
    obtain ⟨hacc, rfl⟩ := ofBase_eq_ok_iff.mp h
    exact ⟨hacc, rfl⟩
  | attempt h =>
    obtain ⟨hacc, rfl⟩ := ofBase?_eq_some_iff.mp h
    exact ⟨hacc, rfl⟩
  | attemptDirect h =>
    obtain ⟨hacc, rfl⟩ := ofBase?_eq_some_iff.mp h
    exact ⟨hacc, rfl⟩
  | wrap free => exact ⟨free x, rfl⟩

/-- **A whole run** keeps what every one of its steps keeps. -/
theorem run_induction {P : σ → Prop} {u : σ} (hu : P u) {steps : List (Step R)}
    (hstep : ∀ s ∈ steps, ∀ v, P v → P (s.next v)) : P (run u steps) := by
  induction steps generalizing u with
  | nil => exact hu
  | cons s steps ih =>
    rw [run_cons]
    exact ih (hstep s List.mem_cons_self u hu) fun s' hs' => hstep s' (List.mem_cons_of_mem s hs')

/-! ### The last accepted value -/

/-- A step faults exactly when it demands a base value that is not accepted. -/
theorem Step.outcome_eq_error_iff {s : Step R} {u : σ} {e : Fault} :
    s.outcome u = .error e ↔
      (∃ x, s = .demand x ∧ R.accepts x = false) ∧ e = .predicateFails := by
  cases s with
  | demand x =>
    rcases h : R.accepts x with _ | _
    · rw [outcome, ofBase_of_not_accepts h]
      constructor
      · intro he
        exact ⟨⟨x, rfl, h⟩, (Except.error.inj he).symm⟩
      · rintro ⟨-, rfl⟩
        rfl
    · rw [outcome_of_accepts h]
      simp [h]
  -- the others have a value to yield, or at least an empty option
  | attempt x => simp [outcome]
  | attemptDirect x => simp [outcome]
  | orKeep x => simp [outcome]
  | wrap free x => simp [outcome]

/-- **Throughout a run** the steps yield what each of them yields at any current value. -/
theorem forall₂_outcomes {P : Step R → Except Fault (Option σ) → Prop} {steps : List (Step R)}
    (h : ∀ s ∈ steps, ∀ v, P s (s.outcome v)) (u : σ) :
    List.Forall₂ P steps (outcomes u steps) := by
  induction steps generalizing u with
  | nil => exact .nil
  | cons s steps ih =>
    have hrest : ∀ s' ∈ steps, ∀ v, P s' (s'.outcome v) := fun s' hs' =>
      h s' (List.mem_cons_of_mem s hs')
    exact .cons (h s List.mem_cons_self u) (ih hrest (s.next u))

/-- A run leaves the builder's value of the last accepted base value, or else what it began with. -/
theorem run_eq (u : σ) (steps : List (Step R)) :
    run u steps = ((steps.map Step.offered).filter R.accepts).getLast?.elim u R.build := by
  induction steps generalizing u with
  | nil => rfl
  | cons s steps ih =>
    rw [run_cons, ih, s.next_eq, List.map_cons, List.filter_cons]
    split
    · -- the value built here is what the rest of the run falls back on
      rw [List.getLast?_cons]
      cases ((steps.map Step.offered).filter R.accepts).getLast? <;> rfl
    · rfl

/-- **A run ends in the last accepted value**, whichever constructors its steps use: its final value
is the builder's value of the last base value that is accepted, or the initial value if none is. The
steps that fault are exactly the demands whose base value is not accepted. If the refinement accepts
every base value, so that wrapping steps may be among the others, then no step faults or is
refused. -/
theorem run_eq_last_accepted (u : σ) (steps : List (Step R)) :
    run u steps = ((steps.map Step.offered).filter R.accepts).getLast?.elim u R.build ∧
      List.Forall₂ (fun s o => ∀ e, o = .error e ↔
          (∃ x, s = .demand x ∧ R.accepts x = false) ∧ e = .predicateFails)
        steps (outcomes u steps) ∧
      (R.Unrestricted →
        List.Forall₂ (fun s o => o = .ok (some (R.build s.offered))) steps (outcomes u steps)) := by
  refine ⟨run_eq u steps, ?_, fun hfree => ?_⟩
  · exact forall₂_outcomes (fun _ _ _ _ => Step.outcome_eq_error_iff) u
  · exact forall₂_outcomes (fun s _ v => s.outcome_of_accepts (hfree s.offered) v) u

/-- Steps of which only the first is accepted; the third one faults. -/
def cappedRun : List Capped.refinement.Step :=
  [.demand 150, .attempt (-3), .demand (-1), .orKeep (-8)]

/-- Lengths under a name of their own. -/
def metres : Refinement (Renamed Int32 "metres") Int32 := Renamed.refinement Int32 "metres"

/-- Wrapping steps among others. -/
def metresRun : List metres.Step :=
  [.wrap (Renamed.unrestricted Int32 "metres") 3, .demand (-5), .orKeep 4]

/-- A lawless builder has the last word on the last accepted value as well, and cuts it off. Lengths
are all accepted, at every step. -/
theorem run_eq_last_accepted_cappedRun :
    run ⟨7⟩ cappedRun = ⟨100⟩ ∧
      (outcomes ⟨7⟩ cappedRun)[2]? = some (.error .predicateFails) ∧
      metres.Unrestricted ∧ run ⟨0⟩ metresRun = ⟨4⟩ ∧
      List.Forall₂ (fun s o => o = .ok (some (metres.build s.offered))) metresRun
        (outcomes ⟨0⟩ metresRun) := by
  have hfree : metres.Unrestricted := Renamed.unrestricted Int32 "metres"
  obtain ⟨hcapped, -, -⟩ := run_eq_last_accepted ⟨7⟩ cappedRun
  obtain ⟨hlast, -, hall⟩ := run_eq_last_accepted ⟨0⟩ metresRun
  exact ⟨hcapped.trans (by decide), rfl, hfree, hlast.trans (by decide), hall hfree⟩

end Sameness.Refinement

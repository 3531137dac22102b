import Sameness.Basic
import Sameness.Compound.Basic

/-!
# Labelled values

A labelled value is a label out of a finite declared list together with a payload whose type
depends on the label. The payload is stored by **position** in the list of labels, so that a
value's label and the type of its payload can never disagree; the labels themselves are arbitrary
and need not be related to the positions in any way.

The main operations find the position of a label (`Labels.position`), make and project values
under a label, and **transport** one value to the label of another (`Labelled.transport`). The
comparison of labelled values looks at the labels first and then at the transported payloads.

Wherever labels are compared, their comparison is taken to decide identity (`DecidableEq I`): labels
are names, and two of them are the same only if they are one.
-/

namespace Sameness

/-! ### Declared labels -/

/-- A list of `n` pairwise distinct labels. They are distinct as labels; the comparison of labels is
taken to decide identity, so that it also finds them different. -/
structure Labels (n : Nat) (I : Type) where
  /-- The label at a position. -/
  label : Fin n → I
  /-- No label is declared twice. -/
  distinct : ∀ j k, label j = label k → j = k

namespace Labels

variable {n : Nat} {I : Type} [DecidableEq I] (L : Labels n I)

/-- The position at which a label is declared, if it is. -/
def search (i : I) : Option (Fin n) := (List.finRange n).find? fun k => decide (L.label k = i)

/-- Whether a label is declared. -/
def Declares (i : I) : Prop := (L.search i).isSome = true

instance (i : I) : Decidable (L.Declares i) := inferInstanceAs (Decidable (_ = true))

/-- The position of a declared label. -/
def index (i : I) (h : L.Declares i) : Fin n := (L.search i).get h

/-- The position of a label, or the fault that it is not declared. -/
def position (i : I) : Except Fault (Fin n) :=
  if h : L.Declares i then .ok (L.index i h) else .error .undeclaredLabel

theorem search_eq_some_iff {i : I} {k : Fin n} : L.search i = some k ↔ L.label k = i := by
  constructor
  · intro h
    simpa using List.find?_some h
  · intro h
    cases hs : L.search i with
    | none =>
      have := List.find?_eq_none.mp hs k (List.mem_finRange k)
      simp [h] at this
    | some j =>
      have hj : L.label j = i := by simpa using List.find?_some hs
      rw [L.distinct j k (hj.trans h.symm)]

theorem declares_iff {i : I} : L.Declares i ↔ ∃ k, L.label k = i := by
  simp [Declares, Option.isSome_iff_exists, search_eq_some_iff]

@[simp] theorem label_index {i : I} (h : L.Declares i) : L.label (L.index i h) = i :=
  (L.search_eq_some_iff).mp (Option.some_get h).symm

end Labels

/-! ### Values -/

/-- A payload at the position of one of the labels `L`. -/
structure Labelled {n : Nat} {I : Type} (L : Labels n I) (F : Fin n → Type) where
  /-- The position of the label. -/
  position : Fin n
  /-- The value carried under that label. -/
  payload : F position

namespace Labelled

variable {n : Nat} {I : Type} [DecidableEq I] {L : Labels n I} {F : Fin n → Type}

/-- The payload `x` under the declared label `i`. -/
def make (i : I) (h : L.Declares i) (x : F (L.index i h)) : Labelled L F := ⟨L.index i h, x⟩

/-- The label of a value. -/
def label (u : Labelled L F) : I := L.label u.position

/-- The payload, as an alternative among the payload types of all labels. -/
def storage (u : Labelled L F) : Variant F := .chosen u.position u.payload

/-- The value with its payload mapped, under the same label. -/
def map {G : Fin n → Type} (f : (k : Fin n) → F k → G k) (u : Labelled L F) : Labelled L G :=
  ⟨u.position, f u.position u.payload⟩

/-- The payload of `u`, asked for under the label `i`. -/
def get (u : Labelled L F) (i : I) : Except Fault (F u.position) := do
  let k ← L.position i
  if k = u.position then pure u.payload else throw .otherLabel

/-- The value `v` moved to the label of `u`. When the labels differ there is nothing to move and
the result is `u`. That they are the same is found by a comparison that decides identity. -/
def transport (u v : Labelled L F) : Labelled L F := if u.label = v.label then v else u

end Labelled

/-- Labelled values are the same when their labels are, and the payload of the second, transported
to the label of the first, is the same there. The payloads may be compared in any way, but the
comparison of labels is taken to decide identity. -/
def Comparison.labelled {n : Nat} {I : Type} [DecidableEq I] {L : Labels n I} {F : Fin n → Type}
    (c : (k : Fin n) → Comparison (F k)) : Comparison (Labelled L F) := fun u v =>
  if u.label = v.label then Comparison.variant c u.storage (u.transport v).storage else false

/-! ### Moves -/

/-- One step in the life of a labelled value. -/
inductive Labelled.Move {n : Nat} {I : Type} (L : Labels n I) (F : Fin n → Type) where
  /-- Forget the present value and take this one. -/
  | renew (v : Labelled L F)
  /-- Transport this value to the present label. -/
  | adopt (v : Labelled L F)
  /-- Transport the present value to the label of this one. -/
  | follow (v : Labelled L F)

/-- The value after a move. -/
def Labelled.Move.apply {n : Nat} {I : Type} [DecidableEq I] {L : Labels n I} {F : Fin n → Type}
    (u : Labelled L F) : Labelled.Move L F → Labelled L F
  | .renew v => v
  | .adopt v => u.transport v
  | .follow v => v.transport u

namespace Labelled

variable {n : Nat} {I : Type} {L : Labels n I} {F : Fin n → Type}

/-- The value that a move brings in. -/
def Move.value : Move L F → Labelled L F
  | renew v => v
  | adopt v => v
  | follow v => v

/-- The value after a run of moves. -/
def run [DecidableEq I] (u : Labelled L F) (moves : List (Move L F)) : Labelled L F :=
  moves.foldl Move.apply u

@[simp] theorem run_nil [DecidableEq I] (u : Labelled L F) : run u [] = u := rfl

@[simp] theorem run_cons [DecidableEq I] (u : Labelled L F) (m : Move L F)
    (moves : List (Move L F)) : run u (m :: moves) = run (m.apply u) moves := rfl

end Labelled

end Sameness

import Mathlib.Algebra.BigOperators.Group.List.Basic
import Mathlib.Algebra.GroupWithZero.Nat
import Mathlib.Data.List.Basic
import Mathlib.Data.List.Count

/-! Lists at places. The members of the lists at finitely many places that pass a test
are counted together, and a list that is replaced changes the count by its own part. -/

set_option autoImplicit false

namespace PlaceCount

variable {ι α : Type}

/-- How many members of the lists at the places pass the test. -/
def total (places : List ι) (lists : ι → List α) (test : α → Bool) : Nat :=
  (places.map fun place => (lists place).countP test).sum

theorem countP_le_total {places : List ι} {place : ι} (member : place ∈ places)
    (lists : ι → List α) (test : α → Bool) :
    (lists place).countP test ≤ total places lists test := by
  induction places with
  | nil => cases member
  | cons first rest ih =>
      simp only [total, List.map_cons, List.sum_cons]
      rcases List.mem_cons.mp member with same | later
      · subst same
        exact Nat.le_add_right _ _
      · have others := ih later
        unfold total at others
        omega

theorem total_eq_zero {places : List ι} {lists : ι → List α} {test : α → Bool}
    (fails : ∀ place ∈ places, (lists place).countP test = 0) :
    total places lists test = 0 := by
  induction places with
  | nil => rfl
  | cons first rest ih =>
      have others := ih fun place member => fails place (List.mem_cons_of_mem _ member)
      have here := fails first List.mem_cons_self
      simp only [total, List.map_cons, List.sum_cons] at others ⊢
      rw [here, others]

variable [DecidableEq ι]

theorem total_update_of_notMem {places : List ι} {place : ι} (absent : place ∉ places)
    (lists : ι → List α) (list : List α) (test : α → Bool) :
    total places (Function.update lists place list) test = total places lists test := by
  unfold total
  congr 1
  apply List.map_congr_left
  intro other member
  have differs : other ≠ place := fun same => absent (same ▸ member)
  rw [Function.update_of_ne differs]

theorem total_update {places : List ι} {place : ι} (nodup : places.Nodup)
    (member : place ∈ places) (lists : ι → List α) (list : List α) (test : α → Bool) :
    total places (Function.update lists place list) test + (lists place).countP test =
      total places lists test + list.countP test := by
  induction places with
  | nil => cases member
  | cons first rest ih =>
      obtain ⟨absent, nodup⟩ := List.nodup_cons.mp nodup
      rcases List.mem_cons.mp member with same | later
      · subst same
        have others := total_update_of_notMem absent lists list test
        simp only [total, List.map_cons, List.sum_cons, Function.update_self] at others ⊢
        omega
      · have differs : first ≠ place := fun same => absent (same ▸ later)
        have others := ih nodup later
        simp only [total, List.map_cons, List.sum_cons, Function.update_of_ne differs]
          at others ⊢
        omega

/-- A test that fails at a place is not changed by what stands there. -/
theorem total_update_of_fails {places : List ι} {place : ι} (nodup : places.Nodup)
    {lists : ι → List α} {list : List α} {test : α → Bool}
    (before : (lists place).countP test = 0) (after : list.countP test = 0) :
    total places (Function.update lists place list) test = total places lists test := by
  by_cases member : place ∈ places
  · have changed := total_update nodup member lists list test
    rw [before, after] at changed
    exact changed
  · exact total_update_of_notMem member lists list test

end PlaceCount

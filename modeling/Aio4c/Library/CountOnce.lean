import Mathlib.Algebra.BigOperators.Group.List.Basic
import Mathlib.Algebra.Ring.Nat
import Mathlib.Data.List.Basic
import Mathlib.Data.List.Count
import Mathlib.Data.List.Nodup
import Mathlib.Data.List.Perm.Basic

/-! Counting the members of a list that pass some test, once for each test or once for all
of them, and counting through distinct keys. -/

set_option autoImplicit false

namespace CountOnce

variable {α φ : Type}

/-- Counted test by test, a member counts as often as it passes one. -/
theorem sum_countP_cons (tests : List φ) (passes : φ → α → Bool) (member : α) (members : List α) :
    (tests.map fun test => (member :: members).countP (passes test)).sum =
      (tests.map fun test => members.countP (passes test)).sum +
        tests.countP fun test => passes test member := by
  induction tests with
  | nil => rfl
  | cons test tests ih =>
      rw [List.map_cons, List.sum_cons, ih, List.map_cons, List.sum_cons, List.countP_cons,
        List.countP_cons]
      omega

theorem countP_any_le (tests : List φ) (passes : φ → α → Bool) (members : List α) :
    (members.countP fun member => tests.any fun test => passes test member) ≤
      (tests.map fun test => members.countP (passes test)).sum := by
  induction members with
  | nil => exact Nat.zero_le _
  | cons member members ih =>
      rw [sum_countP_cons, List.countP_cons]
      split
      · next passed =>
          obtain ⟨test, listed, yes⟩ := List.any_eq_true.mp passed
          have positive : 0 < tests.countP fun test => passes test member :=
            List.countP_pos_iff.mpr ⟨test, listed, yes⟩
          omega
      · omega

/-- The two counts agree exactly if no member passes two tests. -/
theorem sum_countP_eq_iff (tests : List φ) (passes : φ → α → Bool) (members : List α) :
    (tests.map fun test => members.countP (passes test)).sum =
        (members.countP fun member => tests.any fun test => passes test member) ↔
      ∀ member ∈ members, (tests.countP fun test => passes test member) ≤ 1 := by
  induction members with
  | nil => simp
  | cons member members ih =>
      have rest := countP_any_le tests passes members
      rw [sum_countP_cons, List.countP_cons, List.forall_mem_cons, ← ih]
      split
      · next passed =>
          obtain ⟨test, listed, yes⟩ := List.any_eq_true.mp passed
          have positive : 0 < tests.countP fun test => passes test member :=
            List.countP_pos_iff.mpr ⟨test, listed, yes⟩
          constructor
          · intro equal
            constructor <;> omega
          · intro ⟨once, equal⟩
            omega
      · next failed =>
          have none : (tests.countP fun test => passes test member) = 0 := by
            rw [List.countP_eq_zero]
            intro test listed yes
            exact failed (List.any_eq_true.mpr ⟨test, listed, yes⟩)
          rw [none]
          constructor
          · intro equal
            exact ⟨Nat.zero_le _, by omega⟩
          · intro ⟨_, equal⟩
            omega

/-- Members with distinct keys below a bound, counted through their keys. -/
theorem countP_range_eq (members : List α) (key : α → Nat) (bound : Nat) (passes : α → Bool)
    (distinct : (members.map key).Nodup)
    (below : ∀ member ∈ members, passes member = true → key member < bound) :
    ((List.range bound).countP fun value =>
        members.any fun member => decide (key member = value) && passes member) =
      members.countP passes := by
  have same : ((List.range bound).filter fun value =>
      members.any fun member => decide (key member = value) && passes member).Perm
      ((members.filter passes).map key) := by
    apply (List.perm_ext_iff_of_nodup ?_ ?_).mpr
    · intro value
      simp only [List.mem_filter, List.mem_range, List.any_eq_true, Bool.and_eq_true,
        decide_eq_true_eq, List.mem_map]
      constructor
      · intro ⟨_, member, listed, same, yes⟩
        exact ⟨member, ⟨listed, yes⟩, same⟩
      · intro ⟨member, ⟨listed, yes⟩, same⟩
        exact ⟨same ▸ below member listed yes, member, listed, same, yes⟩
    · exact List.nodup_range.filter _
    · exact distinct.sublist (List.filter_sublist.map key)
  rw [List.countP_eq_length_filter, same.length_eq, List.length_map, List.countP_eq_length_filter]

end CountOnce

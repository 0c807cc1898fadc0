import Mathlib.Data.List.Basic
import Mathlib.Logic.Function.Basic
import Mathlib.Order.Lattice

/-! Counts that are kept level by always raising a least one, and the first least entry of
a list as the way to find one. -/

set_option autoImplicit false

namespace LevelCounts

variable {ι α : Type}

/-- No two counts of members differ by more than one. -/
def Level (members : ι → Prop) (count : ι → Nat) : Prop :=
  ∀ left, members left → ∀ right, members right → count left ≤ count right + 1

def Least (members : ι → Prop) (count : ι → Nat) (member : ι) : Prop :=
  ∀ other, members other → count member ≤ count other

/-- A raised count leaves level counts level exactly if it was a least one. -/
theorem Level.raise_iff [DecidableEq ι] {members : ι → Prop} {count : ι → Nat} {member : ι}
    (level : Level members count) (inside : members member) :
    Level members (Function.update count member (count member + 1)) ↔
      Least members count member := by
  constructor
  · intro raised other there
    by_cases same : other = member
    · exact same ▸ Nat.le_refl _
    · have bound := raised member inside other there
      rw [Function.update_self, Function.update_of_ne same] at bound
      omega
  · intro least left atLeft right atRight
    by_cases raisedLeft : left = member
    · subst raisedLeft
      rw [Function.update_self]
      by_cases same : right = left
      · rw [same, Function.update_self]
        omega
      · rw [Function.update_of_ne same]
        have bound := least right atRight
        omega
    · have bound := level left atLeft right atRight
      rw [Function.update_of_ne raisedLeft]
      by_cases raisedRight : right = member
      · subst raisedRight
        rw [Function.update_self]
        omega
      · rwa [Function.update_of_ne raisedRight]

variable [LinearOrder α]

/-- The entry at the index is below the bound, below every entry before it and not above any
entry after it. -/
def FirstLeast (values : List α) (bound : α) (index : Nat) : Prop :=
  ∃ before value after, values = before ++ value :: after ∧ before.length = index ∧
    value < bound ∧ (∀ other ∈ before, value < other) ∧ ∀ other ∈ after, value ≤ other

theorem FirstLeast.lt_length {values : List α} {bound : α} {index : Nat}
    (least : FirstLeast values bound index) : index < values.length := by
  obtain ⟨before, value, after, rfl, rfl, -⟩ := least
  simp

private theorem FirstLeast.not_below {values : List α} {bound : α} {left right : Nat}
    (first : FirstLeast values bound left) (second : FirstLeast values bound right) :
    ¬ left < right := by
  intro below
  obtain ⟨before, value, after, rfl, rfl, -, -, notAbove⟩ := first
  obtain ⟨before', value', after', shape, rfl, -, above, -⟩ := second
  have earlier : value ∈ before' := by
    have entry : (before' ++ value' :: after')[before.length]? = some value := by
      rw [← shape, List.getElem?_append_right (Nat.le_refl _)]
      simp
    rw [List.getElem?_append_left below] at entry
    exact List.mem_of_getElem? entry
  have later : value' ∈ after := by
    have entry : (before ++ value :: after)[before'.length]? = some value' := by
      rw [shape, List.getElem?_append_right (Nat.le_refl _)]
      simp
    rw [List.getElem?_append_right (Nat.le_of_lt below)] at entry
    obtain ⟨gap, positive⟩ : ∃ gap, before'.length - before.length = gap + 1 :=
      ⟨before'.length - before.length - 1, by omega⟩
    rw [positive, List.getElem?_cons_succ] at entry
    exact List.mem_of_getElem? entry
  exact absurd (above value earlier) (not_lt.mpr (notAbove value' later))

theorem FirstLeast.unique {values : List α} {bound : α} {left right : Nat}
    (first : FirstLeast values bound left) (second : FirstLeast values bound right) :
    left = right := by
  have notBelow := first.not_below second
  have notAbove := second.not_below first
  omega

/-- Below the bound or not, an entry behind a smaller one is not the first least. -/
theorem FirstLeast.cons_lower {values : List α} {bound value : α} {index : Nat}
    (below : value < bound) (least : FirstLeast values value index) :
    FirstLeast (value :: values) bound (index + 1) := by
  obtain ⟨before, found, after, rfl, rfl, lower, above, notAbove⟩ := least
  refine ⟨value :: before, found, after, rfl, rfl, lt_trans lower below, ?_, notAbove⟩
  intro other member
  rcases List.mem_cons.mp member with rfl | inner
  · exact lower
  · exact above other inner

theorem FirstLeast.cons_higher {values : List α} {bound value : α} {index : Nat}
    (notBelow : ¬ value < bound) (least : FirstLeast values bound index) :
    FirstLeast (value :: values) bound (index + 1) := by
  obtain ⟨before, found, after, rfl, rfl, lower, above, notAbove⟩ := least
  refine ⟨value :: before, found, after, rfl, rfl, lower, ?_, notAbove⟩
  intro other member
  rcases List.mem_cons.mp member with rfl | inner
  · exact lt_of_lt_of_le lower (not_lt.mp notBelow)
  · exact above other inner

theorem FirstLeast.head {values : List α} {bound value : α} (below : value < bound)
    (least : ∀ other ∈ values, value ≤ other) : FirstLeast (value :: values) bound 0 :=
  ⟨[], value, values, rfl, rfl, below, by simp, least⟩

end LevelCounts

import Mathlib.Algebra.Order.BigOperators.Group.Finset

/-! Totals over the entries of a partial map that has finitely many. -/

set_option autoImplicit false

namespace FiniteMap

variable {ι α M : Type} [AddCommGroup M]

/-- The sum of a measure over all the entries. -/
def Total (measure : α → M) (map : ι → Option α) (value : M) : Prop :=
  ∃ names : Finset ι, (∀ name, name ∈ names ↔ (map name).isSome) ∧
    value = ∑ name ∈ names, ((map name).map measure).getD 0

namespace Total

variable {measure : α → M} {map : ι → Option α} {value : M} {name : ι} {entry : α}

theorem empty : Total measure (fun _ : ι => none) 0 :=
  ⟨∅, by simp, by simp⟩

theorem unique {other : M} (total : Total measure map value) (again : Total measure map other) :
    value = other := by
  obtain ⟨names, known, rfl⟩ := total
  obtain ⟨_, same, rfl⟩ := again
  have equal := Finset.ext fun name => (known name).trans (same name).symm
  rw [equal]

theorem nonneg [PartialOrder M] [IsOrderedAddMonoid M] (total : Total measure map value)
    (positive : ∀ entry, 0 ≤ measure entry) : 0 ≤ value := by
  obtain ⟨names, _, rfl⟩ := total
  apply Finset.sum_nonneg
  intro name _
  cases map name with
  | none => exact le_refl 0
  | some entry => exact positive entry

variable [DecidableEq ι]

/-- The entries away from a name contribute the same. -/
theorem sum_update {names : Finset ι} (outside : name ∉ names) (stored : Option α) :
    ∑ other ∈ names, ((Function.update map name stored other).map measure).getD 0 =
      ∑ other ∈ names, ((map other).map measure).getD 0 := by
  apply Finset.sum_congr rfl
  intro other member
  rw [Function.update_of_ne]
  rintro rfl
  exact outside member

theorem insert (total : Total measure map value) (fresh : map name = none) (entry : α) :
    Total measure (Function.update map name (some entry)) (value + measure entry) := by
  obtain ⟨names, known, rfl⟩ := total
  have outside : name ∉ names := by simp [known, fresh]
  refine ⟨Insert.insert name names, ?_, ?_⟩
  · intro other
    by_cases same : other = name
    · simp [same]
    · simp [same, known]
  · rw [Finset.sum_insert outside, sum_update outside, add_comm]
    simp

theorem erase (total : Total measure map value) (found : map name = some entry) :
    Total measure (Function.update map name none) (value - measure entry) := by
  obtain ⟨names, known, rfl⟩ := total
  have member : name ∈ names := by simp [known, found]
  refine ⟨names.erase name, ?_, ?_⟩
  · intro other
    by_cases same : other = name
    · simp [same]
    · simp [same, known]
  · rw [sum_update (Finset.notMem_erase name names), ← Finset.sum_erase_add names _ member]
    simp [found]

/-- An entry goes, and another takes its name or a free one. -/
theorem move {target : ι} (total : Total measure map value) (found : map name = some entry)
    (free : target = name ∨ map target = none) (moved : α) :
    Total measure (Function.update (Function.update map name none) target (some moved))
      (value - measure entry + measure moved) := by
  apply (total.erase found).insert
  by_cases same : target = name
  · simp [same]
  · rw [Function.update_of_ne same]
    exact free.resolve_left same

/-- An entry of the same measure takes the place of another. -/
theorem replace {changed : α} (total : Total measure map value) (found : map name = some entry)
    (same : measure changed = measure entry) :
    Total measure (Function.update map name (some changed)) value := by
  have moved := total.move found (.inl rfl) changed
  rw [Function.update_idem, same, sub_add_cancel] at moved
  exact moved

end Total

end FiniteMap

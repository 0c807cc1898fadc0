import Mathlib.Init

/-! An owner field: it names the one party that holds an exclusive resource, or none. -/

set_option autoImplicit false

namespace Ownership

variable {π : Type}

/-- The field names a party exactly when the party holds the resource. -/
def Names (owner : Option π) (holds : π → Prop) : Prop :=
  ∀ party, owner = some party ↔ holds party

namespace Names

variable {owner : Option π} {holds holds' : π → Prop} {party other : π}

theorem unique (names : Names owner holds) (first : holds party) (second : holds other) :
    party = other := by
  have left := (names party).mpr first
  rw [(names other).mpr second] at left
  exact (Option.some.inj left).symm

theorem not_holds (names : Names owner holds) (free : owner = none) : ¬ holds party := by
  intro held
  have named := (names party).mpr held
  rw [free] at named
  cases named

theorem keep (names : Names owner holds) (same : ∀ party, holds' party ↔ holds party) :
    Names owner holds' :=
  fun party => (names party).trans (same party).symm

theorem take (names : Names owner holds) (free : owner = none) (taken : holds' party)
    (others : ∀ other, other ≠ party → (holds' other ↔ holds other)) :
    Names (some party) holds' := by
  intro other
  constructor
  · intro named
    cases named
    exact taken
  · intro held
    by_cases same : other = party
    · rw [same]
    · exact absurd ((others other same).mp held) (names.not_holds free)

theorem release (names : Names owner holds) (held : holds party) (left : ¬ holds' party)
    (others : ∀ other, other ≠ party → (holds' other ↔ holds other)) :
    Names none holds' := by
  intro other
  constructor
  · intro named
    cases named
  · intro held'
    by_cases same : other = party
    · exact absurd (same ▸ held') left
    · exact absurd (names.unique ((others other same).mp held') held) same

end Names

end Ownership

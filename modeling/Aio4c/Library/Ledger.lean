import Mathlib.Data.List.Count
import Mathlib.Data.List.Nodup

/-! Numbered items of any number of producers. An item is delivered at once, or put
behind a line and delivered from its front later. -/

set_option autoImplicit false

/-- `made` counts the items of a producer, `line` are those not delivered yet, `lined`
all that ever were in the line. -/
structure Ledger (ι : Type) where
  made : ι → Nat
  delivered : List (ι × Nat)
  line : List (ι × Nat)
  lined : List (ι × Nat)

namespace Ledger

variable {ι : Type}

def empty : Ledger ι := { made := fun _ => 0, delivered := [], line := [], lined := [] }

variable [DecidableEq ι]

/-- The next item of a producer. -/
def next (ledger : Ledger ι) (producer : ι) : ι × Nat := (producer, ledger.made producer)

def count (ledger : Ledger ι) (producer : ι) : ι → Nat :=
  Function.update ledger.made producer (ledger.made producer + 1)

/-- The next item of a producer is delivered at once. -/
def deliver (ledger : Ledger ι) (producer : ι) : Ledger ι :=
  { ledger with
    made := ledger.count producer, delivered := ledger.delivered ++ [ledger.next producer] }

/-- The next item of a producer is put behind the line. -/
def enqueue (ledger : Ledger ι) (producer : ι) : Ledger ι :=
  { ledger with
    made := ledger.count producer, line := ledger.line ++ [ledger.next producer]
    lined := ledger.lined ++ [ledger.next producer] }

def serve (ledger : Ledger ι) : Ledger ι :=
  { ledger with delivered := ledger.delivered ++ ledger.line.take 1, line := ledger.line.tail }

/-- The delivered items that were in the line. -/
def served (ledger : Ledger ι) : List (ι × Nat) :=
  ledger.delivered.filter fun item => ledger.lined.contains item

/-- Every item made is delivered or in the line, once; the line is served in its order,
and holds the items of one producer in theirs. -/
structure Sound (ledger : Ledger ι) : Prop where
  once : ∀ item, (ledger.delivered ++ ledger.line).count item =
    if item.2 < ledger.made item.1 then 1 else 0
  order : ledger.lined = ledger.served ++ ledger.line
  known : ∀ item ∈ ledger.lined, item.2 < ledger.made item.1
  increasing : ∀ producer, ((ledger.lined.filter fun item => item.1 = producer).map
    Prod.snd).Pairwise (· < ·)

theorem empty_sound : (empty : Ledger ι).Sound where
  once _ := by simp [empty]
  order := rfl
  known _ member := by cases member
  increasing _ := .nil

namespace Sound

variable {ledger : Ledger ι}

/-- With the next item of a producer added somewhere, each is there once. -/
theorem count_next (sound : ledger.Sound) (producer : ι) (item : ι × Nat) :
    (ledger.delivered ++ ledger.line).count item + [ledger.next producer].count item =
      if item.2 < ledger.count producer item.1 then 1 else 0 := by
  rw [sound.once, List.count_singleton]
  obtain ⟨owner, number⟩ := item
  by_cases same : owner = producer
  · subst same
    have equal : (ledger.next owner == (owner, number)) = (ledger.made owner == number) := by
      simp [next]
    rw [equal, count, Function.update_self]
    by_cases last : ledger.made owner = number
    · simp [last]
    · have bound : number < ledger.made owner + 1 ↔ number < ledger.made owner := by omega
      simp [last, bound]
  · have differs : (ledger.next producer == (owner, number)) = false := by
      simp [next, Ne.symm same]
    rw [differs, count, Function.update_of_ne same]
    simp

theorem next_fresh (sound : ledger.Sound) (producer : ι) :
    ledger.next producer ∉ ledger.delivered ∧ ledger.next producer ∉ ledger.lined := by
  constructor
  · intro member
    have once := sound.once (ledger.next producer)
    rw [List.count_append] at once
    have positive := List.count_pos_iff.mpr member
    simp only [next, Nat.lt_irrefl, if_false] at once positive
    omega
  · intro member
    exact Nat.lt_irrefl _ (sound.known _ member)

theorem made_le (ledger : Ledger ι) (producer owner : ι) :
    ledger.made owner ≤ ledger.count producer owner := by
  by_cases same : owner = producer
  · subst same
    simp [count]
  · simp [count, Function.update_of_ne same]

theorem deliver (sound : ledger.Sound) (producer : ι) : (ledger.deliver producer).Sound where
  once item := by
    refine Eq.trans ?_ (sound.count_next producer item)
    simp only [Ledger.deliver, List.count_append]
    omega
  order := by
    obtain ⟨_, fresh⟩ := sound.next_fresh producer
    have same : (ledger.deliver producer).served = ledger.served := by
      simp [served, Ledger.deliver, fresh]
    rw [same]
    exact sound.order
  known item member := Nat.lt_of_lt_of_le (sound.known item member) (made_le ledger producer item.1)
  increasing := sound.increasing

theorem enqueue (sound : ledger.Sound) (producer : ι) : (ledger.enqueue producer).Sound where
  once item := by
    refine Eq.trans ?_ (sound.count_next producer item)
    simp only [Ledger.enqueue, List.count_append]
    omega
  order := by
    obtain ⟨undelivered, _⟩ := sound.next_fresh producer
    have same : (ledger.enqueue producer).served = ledger.served := by
      refine List.filter_congr fun item member => ?_
      have other : item ≠ ledger.next producer := fun equal => undelivered (equal ▸ member)
      simp [Ledger.enqueue, other]
    rw [same]
    exact (congrArg (· ++ [ledger.next producer]) sound.order).trans (List.append_assoc _ _ _)
  known item member := by
    rcases List.mem_append.mp member with old | new
    · exact Nat.lt_of_lt_of_le (sound.known item old) (made_le ledger producer item.1)
    · rw [List.mem_singleton.mp new]
      simp [next, Ledger.enqueue, count]
  increasing owner := by
    simp only [Ledger.enqueue, List.filter_append, List.map_append, List.pairwise_append]
    refine ⟨sound.increasing owner, ?_, fun number earlier new last => ?_⟩
    · by_cases same : producer = owner <;> simp [next, same]
    · by_cases same : producer = owner
      · subst same
        have newest : new = ledger.made producer := by simpa [next] using last
        obtain ⟨item, member, rfl⟩ := List.mem_map.mp earlier
        obtain ⟨lined, own⟩ := List.mem_filter.mp member
        have bound := sound.known item lined
        rw [show item.1 = producer by simpa using own] at bound
        exact newest ▸ bound
      · simp [next, same] at last

theorem serve (sound : ledger.Sound) : ledger.serve.Sound := by
  cases line : ledger.line with
  | nil =>
      have same : ledger.serve = ledger := by
        cases ledger
        simp_all [Ledger.serve]
      rwa [same]
  | cons first rest =>
      have lined : first ∈ ledger.lined := by
        rw [sound.order, line]
        simp
      refine ⟨fun item => ?_, ?_, sound.known, sound.increasing⟩
      · have counted := sound.once item
        rw [line] at counted
        simpa [Ledger.serve, line] using counted
      · have order := sound.order
        rw [line] at order
        simpa [Ledger.serve, line, lined, served] using order

theorem delivered_once (sound : ledger.Sound) (empty : ledger.line = []) {item : ι × Nat}
    (made : item.2 < ledger.made item.1) : ledger.delivered.count item = 1 := by
  have once := sound.once item
  rwa [empty, List.append_nil, if_pos made] at once

theorem delivered_le (sound : ledger.Sound) (item : ι × Nat) :
    ledger.delivered.count item ≤ 1 := by
  have once := sound.once item
  rw [List.count_append] at once
  split at once <;> omega

/-- What went through the line was delivered in the order of the line, so that the items
of one producer are in theirs. -/
theorem served_increasing (sound : ledger.Sound) (producer : ι) :
    ((ledger.served.filter fun item => item.1 = producer).map Prod.snd).Pairwise (· < ·) := by
  have front : ledger.served <+: ledger.lined := ⟨ledger.line, sound.order.symm⟩
  exact (sound.increasing producer).sublist ((front.sublist.filter _).map _)

end Sound

end Ledger

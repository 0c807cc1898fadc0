import Mathlib.Data.List.Basic

/-! First-in first-out queues with an end mark and a drained mark. The end mark
refuses every later item. The drained mark is set by the taker that leaves the
queue empty and makes the next attempt return at once, so that a consumer sees
the end of every burst. -/

set_option autoImplicit false

structure Fifo (α : Type) where
  items : List α
  exit : Bool
  emptied : Bool
  deriving DecidableEq, Repr

namespace Fifo

variable {α σ : Type}

/-- How an attempt to take an item ends; `blocked` waits for an item. -/
inductive Attempt (α : Type) where
  | blocked
  | taken (item : α)
  | nothing
  | drained
  deriving DecidableEq, Repr

def empty : Fifo α := { items := [], exit := false, emptied := false }

def enqueue (isExit : α → Bool) (fifo : Fifo α) (item : α) : Bool × Fifo α :=
  if fifo.exit then (false, fifo)
  else (true, { fifo with items := fifo.items ++ [item], exit := isExit item })

def push (fifo : Fifo α) (item : α) : Bool × Fifo α := fifo.enqueue (fun _ => false) item

def take (fifo : Fifo α) : Attempt α × Fifo α :=
  match fifo.items with
  | [] => (.nothing, fifo)
  | item :: items => (.taken item, { fifo with items, emptied := items.isEmpty })

/-- The test in front of every wait. -/
def await (fifo : Fifo α) (wait : Bool) : Attempt α × Fifo α :=
  if !fifo.exit && wait && fifo.items.isEmpty then (.blocked, fifo) else fifo.take

def dequeue (fifo : Fifo α) (wait : Bool) : Attempt α × Fifo α :=
  if fifo.emptied then (.drained, { fifo with emptied := false }) else fifo.await wait

/-- A blocked attempt comes back, woken or not. -/
def resume (fifo : Fifo α) (woken : Bool) : Attempt α × Fifo α :=
  if woken then fifo.await true else fifo.take

/-- The verdicts of a callback that is asked once for each item, in order. -/
def consult (callback : α → σ → Bool × σ) : List α → σ → List Bool × σ
  | [], state => ([], state)
  | item :: items, state =>
      let (verdict, state) := callback item state
      let (verdicts, state) := consult callback items state
      (verdict :: verdicts, state)

/-- The items whose verdict is negative. -/
def spared (items : List α) (verdicts : List Bool) : List α :=
  ((items.zip verdicts).filter fun entry => !entry.2).map Prod.fst

def removeAll (callback : α → σ → Bool × σ) (fifo : Fifo α) (state : σ) :
    (Bool × σ) × Fifo α :=
  let (verdicts, state) := consult callback fifo.items state
  ((verdicts.any id, state), { fifo with items := spared fifo.items verdicts })

/-- The removal of all items that a test accepts. -/
def discard (test : α → Bool) (fifo : Fifo α) : Fifo α :=
  (fifo.removeAll (fun item (state : Unit) => (test item, state)) ()).2

theorem push_open {fifo : Fifo α} (endless : fifo.exit = false) (item : α) :
    fifo.push item = (true, { fifo with items := fifo.items ++ [item] }) := by
  simp [push, enqueue, endless]

theorem push_exit {fifo : Fifo α} (endless : fifo.exit = false) (item : α) :
    (fifo.push item).2.exit = false := by
  rw [push_open endless]
  exact endless

theorem push_items {fifo : Fifo α} (endless : fifo.exit = false) (item : α) :
    (fifo.push item).2.items = fifo.items ++ [item] := by
  rw [push_open endless]

@[simp] theorem spared_nil (verdicts : List Bool) : spared ([] : List α) verdicts = [] := rfl

@[simp] theorem spared_accepted (item : α) (items : List α) (verdicts : List Bool) :
    spared (item :: items) (true :: verdicts) = spared items verdicts := rfl

@[simp] theorem spared_refused (item : α) (items : List α) (verdicts : List Bool) :
    spared (item :: items) (false :: verdicts) = item :: spared items verdicts := rfl

theorem spared_sublist (items : List α) (verdicts : List Bool) :
    (spared items verdicts).Sublist items := by
  induction items generalizing verdicts with
  | nil => exact List.Sublist.refl _
  | cons item items ih =>
      cases verdicts with
      | nil => exact List.nil_sublist _
      | cons verdict verdicts =>
          cases verdict with
          | true => exact (ih verdicts).cons item
          | false => exact (ih verdicts).cons_cons item

theorem consult_length (callback : α → σ → Bool × σ) (items : List α) (state : σ) :
    (consult callback items state).1.length = items.length := by
  induction items generalizing state with
  | nil => rfl
  | cons item items ih => simp only [consult, List.length_cons, ih]

/-- Some verdict is positive exactly when an item is gone. -/
theorem spared_length_lt_iff {items : List α} {verdicts : List Bool}
    (asked : verdicts.length = items.length) :
    (spared items verdicts).length < items.length ↔ verdicts.any id = true := by
  induction items generalizing verdicts with
  | nil =>
      cases verdicts with
      | nil => simp
      | cons verdict verdicts => simp at asked
  | cons item items ih =>
      cases verdicts with
      | nil => simp at asked
      | cons verdict verdicts =>
          have rest := ih (show verdicts.length = items.length by simpa using asked)
          have shorter := (spared_sublist items verdicts).length_le
          cases verdict with
          | true => simp [Nat.lt_succ_of_le shorter]
          | false => simpa using rest

@[simp] theorem discard_items (test : α → Bool) (fifo : Fifo α) :
    (fifo.discard test).items = fifo.items.filter fun item => !test item := by
  have asked (items : List α) : spared items (consult (fun item (state : Unit) =>
      (test item, state)) items ()).1 = items.filter fun item => !test item := by
    induction items with
    | nil => rfl
    | cons item items ih =>
        cases verdict : test item <;> simp [consult, verdict, ih]
  exact asked fifo.items

@[simp] theorem discard_exit (test : α → Bool) (fifo : Fifo α) :
    (fifo.discard test).exit = fifo.exit := rfl

theorem take_items (fifo : Fifo α) :
    (∃ item, fifo.take.1 = .taken item ∧ fifo.items = item :: fifo.take.2.items) ∨
      (fifo.take.1 = .nothing ∧ fifo.items = [] ∧ fifo.take.2 = fifo) := by
  unfold take
  cases items : fifo.items with
  | nil => exact .inr ⟨rfl, rfl, rfl⟩
  | cons item rest => exact .inl ⟨item, rfl, rfl⟩

theorem dequeue_taken {fifo after : Fifo α} {wait : Bool} {item : α}
    (taken : fifo.dequeue wait = (.taken item, after)) :
    fifo.items = item :: after.items ∧ after.exit = fifo.exit := by
  unfold dequeue await take at taken
  split at taken
  · simp at taken
  · split at taken
    · simp at taken
    · split at taken
      · simp at taken
      · next items =>
          simp only [Prod.mk.injEq, Attempt.taken.injEq] at taken
          obtain ⟨rfl, rfl⟩ := taken
          exact ⟨items, rfl⟩

/-- An attempt that takes nothing changes no item and clears the drained mark. -/
theorem dequeue_missed {fifo after : Fifo α} {wait : Bool} {attempt : Attempt α}
    (missed : fifo.dequeue wait = (attempt, after)) (nothing : ∀ item, attempt ≠ .taken item) :
    after.items = fifo.items ∧ after.exit = fifo.exit ∧ after.emptied = false := by
  unfold dequeue await take at missed
  split at missed
  · cases missed
    exact ⟨rfl, rfl, rfl⟩
  · next unmarked =>
      split at missed
      · cases missed
        exact ⟨rfl, rfl, by simpa using unmarked⟩
      · split at missed
        · cases missed
          exact ⟨rfl, rfl, by simpa using unmarked⟩
        · cases missed
          exact absurd rfl (nothing _)

theorem dequeue_nonempty {fifo : Fifo α} (wait : Bool) (unmarked : fifo.emptied = false)
    (nonempty : fifo.items ≠ []) : ∃ item after, fifo.dequeue wait = (.taken item, after) := by
  cases items : fifo.items with
  | nil => exact absurd items nonempty
  | cons item rest => exact ⟨item, _, by simp [dequeue, unmarked, await, take, items]; rfl⟩

/-- All that an attempt does, by its outcome. -/
def Attempted (before : Fifo α) : Attempt α → Fifo α → Prop
  | .blocked, after => after = before ∧ before.items = [] ∧ before.exit = false
  | .taken item, after => before.items = item :: after.items ∧ after.exit = before.exit ∧
      after.emptied = after.items.isEmpty
  | .nothing, after => after = before ∧ before.items = []
  | .drained, after => before.emptied = true ∧ after = { before with emptied := false }

theorem take_attempted (fifo : Fifo α) : Attempted fifo fifo.take.1 fifo.take.2 := by
  unfold take
  cases items : fifo.items with
  | nil => exact ⟨rfl, items⟩
  | cons item rest => exact ⟨items, rfl, rfl⟩

theorem await_attempted (fifo : Fifo α) (wait : Bool) :
    Attempted fifo (fifo.await wait).1 (fifo.await wait).2 := by
  unfold await
  split
  · next blocks =>
      simp only [Bool.and_eq_true, Bool.not_eq_true', List.isEmpty_iff] at blocks
      exact ⟨rfl, blocks.2, blocks.1.1⟩
  · exact take_attempted fifo

theorem dequeue_attempted (fifo : Fifo α) (wait : Bool) :
    Attempted fifo (fifo.dequeue wait).1 (fifo.dequeue wait).2 := by
  unfold dequeue
  split
  · next marked => exact ⟨marked, rfl⟩
  · exact await_attempted fifo wait

theorem resume_attempted (fifo : Fifo α) (woken : Bool) :
    Attempted fifo (fifo.resume woken).1 (fifo.resume woken).2 := by
  cases woken with
  | true => exact await_attempted fifo true
  | false => exact take_attempted fifo

/-- A last item that is never accepted stays the last one. -/
theorem spared_snoc {callback : α → σ → Bool × σ} {last : α}
    (kept : ∀ state, (callback last state).1 = false) (front : List α) (state : σ) :
    ∃ front', front'.Sublist front ∧
      spared (front ++ [last]) (consult callback (front ++ [last]) state).1 = front' ++ [last] := by
  induction front generalizing state with
  | nil => exact ⟨[], List.Sublist.refl _, by simp [consult, kept]⟩
  | cons item front ih =>
      obtain ⟨front', shorter, same⟩ := ih (callback item state).2
      cases verdict : (callback item state).1 with
      | true => exact ⟨front', shorter.cons item, by simpa [consult, verdict] using same⟩
      | false =>
          exact ⟨item :: front', shorter.cons_cons item, by simpa [consult, verdict] using same⟩

/-! ## Items under keys -/

section

variable {κ : Type} [DecidableEq κ]

/-- The items under a key, in their order. -/
def select (fifo : Fifo (κ × α)) (key : κ) : List α :=
  fifo.items.filterMap fun entry => if entry.1 = key then some entry.2 else none

theorem mem_select {fifo : Fifo (κ × α)} {key : κ} {item : α} :
    item ∈ fifo.select key ↔ (key, item) ∈ fifo.items := by
  simp [select]

theorem select_congr {fifo other : Fifo (κ × α)} (same : other.items = fifo.items) (key : κ) :
    other.select key = fifo.select key := by
  rw [select, same, select]

theorem select_push_self {fifo : Fifo (κ × α)} (endless : fifo.exit = false) (key : κ) (item : α) :
    (fifo.push (key, item)).2.select key = fifo.select key ++ [item] := by
  simp [select, push_items endless]

theorem select_push_other {fifo : Fifo (κ × α)} (endless : fifo.exit = false) {key other : κ}
    (differs : other ≠ key) (item : α) :
    (fifo.push (other, item)).2.select key = fifo.select key := by
  simp [select, push_items endless, differs]

theorem select_taken_self {fifo after : Fifo (κ × α)} {wait : Bool} {key : κ} {item : α}
    (taken : fifo.dequeue wait = (.taken (key, item), after)) :
    fifo.select key = item :: after.select key := by
  simp [select, (dequeue_taken taken).1]

theorem select_taken_other {fifo after : Fifo (κ × α)} {wait : Bool} {key other : κ} {item : α}
    (taken : fifo.dequeue wait = (.taken (other, item), after)) (differs : other ≠ key) :
    fifo.select key = after.select key := by
  simp [select, (dequeue_taken taken).1, differs]

/-- What is removed under other keys is not missed. -/
theorem select_discard {fifo : Fifo (κ × α)} {test : κ × α → Bool} {key : κ}
    (spares : ∀ item, test (key, item) = false) :
    (fifo.discard test).select key = fifo.select key := by
  rw [select, discard_items, select, List.filterMap_filter]
  apply List.filterMap_congr
  rintro ⟨other, item⟩ _
  by_cases same : other = key
  · simp [same, spares]
  · simp [same]

end

end Fifo

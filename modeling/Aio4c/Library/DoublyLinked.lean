import Mathlib.Data.List.Induction
import Mathlib.Data.List.Nodup

/-! Chains of cells linked in both directions. A chain is the list of its cells;
it is linked when every cell points at its two neighbours in that list. The
rules say what a new cell and a cut-out cell do to the chain, for any store
that gives the two links of a cell, and that a walk along either link meets the
whole chain. -/

set_option autoImplicit false

namespace DoublyLinked

variable {κ : Type}

structure Links (κ : Type) where
  next : Option κ
  prev : Option κ
  deriving DecidableEq

/-- Every member points at the member after it and at the member before it. -/
def Linked (links : κ → Option (Links κ)) (cells : List κ) : Prop :=
  ∀ before cell after, cells = before ++ cell :: after →
    links cell = some ⟨after.head?, before.getLast?⟩

theorem Linked.nil (links : κ → Option (Links κ)) : Linked links [] := by
  intro before cell after split
  simp at split

theorem Linked.congr {links links' : κ → Option (Links κ)} {cells : List κ}
    (linked : Linked links cells) (same : ∀ cell ∈ cells, links' cell = links cell) :
    Linked links' cells := by
  intro before cell after split
  rw [same cell (by simp [split])]
  exact linked before cell after split

theorem getLast?_ne_of_nodup {before after : List κ} {cell other : κ}
    (nodup : (before ++ cell :: other :: after).Nodup) :
    (before ++ cell :: other :: after).getLast? ≠ some cell := by
  intro last
  have member : cell ∈ other :: after := by
    have tail : (other :: after).getLast? = some cell := by simpa using last
    exact List.mem_of_getLast? tail
  have rest := (List.nodup_append.mp nodup).2.1
  exact (List.nodup_cons.mp rest).1 member

private theorem head?_ne_of_notMem {cells : List κ} {cell : κ} (absent : cell ∉ cells) :
    cells.head? ≠ some cell := by
  intro head
  exact absent (List.mem_of_head? head)

private theorem getLast?_ne_of_notMem {cells : List κ} {cell : κ} (absent : cell ∉ cells) :
    cells.getLast? ≠ some cell := by
  intro last
  exact absent (List.mem_of_getLast? last)

/-- Following a link from `start` meets these cells and then the end of the chain. -/
def Follows (step : κ → Option (Option κ)) : Option κ → List κ → Prop
  | start, [] => start = none
  | start, cell :: cells =>
      start = some cell ∧ ∃ target, step cell = some target ∧ Follows step target cells

theorem Linked.follows_next {links : κ → Option (Links κ)} {cells : List κ}
    (linked : Linked links cells) :
    Follows (fun cell => (links cell).map Links.next) cells.head? cells := by
  have walk : ∀ before after, cells = before ++ after →
      Follows (fun cell => (links cell).map Links.next) after.head? after := by
    intro before after split
    induction after generalizing before with
    | nil => rfl
    | cons cell after ih =>
        have rest := ih (before ++ [cell]) (by simpa using split)
        exact ⟨rfl, after.head?, by simp [linked before cell after split], rest⟩
  exact walk [] cells rfl

theorem Linked.follows_prev {links : κ → Option (Links κ)} {cells : List κ}
    (linked : Linked links cells) :
    Follows (fun cell => (links cell).map Links.prev) cells.getLast? cells.reverse := by
  have walk : ∀ before after, cells = before ++ after →
      Follows (fun cell => (links cell).map Links.prev) before.getLast? before.reverse := by
    intro before
    induction before using List.reverseRecOn with
    | nil =>
        intro after split
        rfl
    | append_singleton before cell ih =>
        intro after split
        have shape : cells = before ++ cell :: after := by simpa using split
        rw [List.reverse_append, List.getLast?_concat]
        exact ⟨rfl, before.getLast?, by simp [linked before cell after shape], ih _ shape⟩
  exact walk cells [] (by simp)

variable [DecidableEq κ]

theorem Linked.insert {links links' : κ → Option (Links κ)} {before after : List κ} {new : κ}
    (linked : Linked links (before ++ after)) (nodup : (before ++ after).Nodup)
    (added : links' new = some ⟨after.head?, before.getLast?⟩)
    (kept : ∀ cell ∈ before ++ after, links' cell = (links cell).map fun link =>
      { next := if before.getLast? = some cell then some new else link.next
        prev := if after.head? = some cell then some new else link.prev }) :
    Linked links' (before ++ new :: after) := by
  intro front cell back split
  have disjoint : ∀ left right : List κ, cell ∈ left → cell ∈ right →
      (left ++ right).Nodup → False := fun left right inLeft inRight distinct =>
    (List.nodup_append.mp distinct).2.2 cell inLeft cell inRight rfl
  rcases List.append_eq_append_iff.mp split with ⟨middle, rfl, rest⟩ | ⟨middle, rfl, rest⟩
  · cases middle with
    | nil =>
        obtain ⟨rfl, rfl⟩ := List.cons.inj rest
        simpa using added
    | cons other middle =>
        -- The cell lies behind the new one.
        obtain ⟨rfl, rfl⟩ := List.cons.inj rest
        rw [kept cell (by simp), linked (before ++ middle) cell back (by simp)]
        have absent : cell ∉ before := fun inBefore =>
          disjoint _ _ inBefore (by simp) nodup
        cases middle with
        | nil => simp [getLast?_ne_of_notMem absent]
        | cons next middle =>
            have differs : next ≠ cell := by
              intro equal
              subst equal
              have tail := (List.nodup_append.mp nodup).2.1
              simp at tail
            simp [getLast?_ne_of_notMem absent, differs]
  · cases middle with
    | nil =>
        obtain ⟨rfl, rfl⟩ := List.cons.inj rest
        simpa using added
    | cons other middle =>
        obtain ⟨rfl, rfl⟩ := List.cons.inj rest
        rw [kept cell (by simp), linked front cell (middle ++ after) (by simp)]
        have absent : cell ∉ after := fun inAfter =>
          disjoint (front ++ cell :: middle) after (by simp) inAfter nodup
        cases middle with
        | nil => simp [head?_ne_of_notMem absent]
        | cons next middle =>
            have last : (front ++ cell :: next :: middle).getLast? ≠ some cell :=
              getLast?_ne_of_nodup (List.nodup_append.mp nodup).1
            rw [Option.map_some, if_neg last, if_neg (head?_ne_of_notMem absent)]
            simp

theorem Linked.unlink {links links' : κ → Option (Links κ)} {before after : List κ} {cut : κ}
    (linked : Linked links (before ++ cut :: after)) (nodup : (before ++ cut :: after).Nodup)
    (kept : ∀ cell ∈ before ++ after, links' cell = (links cell).map fun link =>
      { next := if before.getLast? = some cell then after.head? else link.next
        prev := if after.head? = some cell then before.getLast? else link.prev }) :
    Linked links' (before ++ after) := by
  have nodup' : (before ++ after).Nodup :=
    nodup.sublist (List.Sublist.append_left (List.sublist_cons_self _ _) _)
  intro front cell back split
  have member : cell ∈ before ++ after := by simp [split]
  rw [kept cell member]
  have disjoint : ∀ left right : List κ, cell ∈ left → cell ∈ right →
      (left ++ right).Nodup → False := fun left right inLeft inRight distinct =>
    (List.nodup_append.mp distinct).2.2 cell inLeft cell inRight rfl
  rcases List.append_eq_append_iff.mp split with ⟨middle, rfl, rfl⟩ | ⟨middle, rfl, rest⟩
  · -- The cell lies behind the cut.
    rw [linked (before ++ cut :: middle) cell back (by simp)]
    have absent : cell ∉ before := fun inBefore =>
      disjoint _ _ inBefore (by simp) nodup'
    cases middle with
    | nil => simp [getLast?_ne_of_notMem absent]
    | cons other middle =>
        have differs : other ≠ cell := by
          intro equal
          subst equal
          have tail := (List.nodup_append.mp nodup').2.1
          simp at tail
        simp [getLast?_ne_of_notMem absent, differs]
  · cases middle with
    | nil =>
        simp only [List.nil_append] at rest
        subst rest
        rw [linked (front ++ [cut]) cell back (by simp)]
        have absent : cell ∉ front := fun inFront =>
          disjoint front (cell :: back) inFront (by simp) (by simpa using nodup')
        simp [getLast?_ne_of_notMem absent]
    | cons other middle =>
        obtain ⟨rfl, rfl⟩ := List.cons.inj rest
        rw [linked front cell (middle ++ cut :: after) (by simp)]
        have absent : cell ∉ after := fun inAfter =>
          disjoint (front ++ cell :: middle) after (by simp) inAfter nodup'
        cases middle with
        | nil => simp [head?_ne_of_notMem absent]
        | cons next middle =>
            have last : (front ++ cell :: next :: middle).getLast? ≠ some cell :=
              getLast?_ne_of_nodup (List.nodup_append.mp nodup').1
            rw [Option.map_some, if_neg last, if_neg (head?_ne_of_notMem absent)]
            simp

end DoublyLinked

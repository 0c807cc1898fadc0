import Aio4c.Library.TransitionSystem
import Mathlib.Logic.Function.Basic
import Mathlib.Logic.Relation

/-! Parties that work until they are told to end and then take themselves down, each by a
fixed list of calls: it uses resources, tells other parties to end, waits for their end and
releases resources. The order of the calls in these lists decides whether a party can come
to a resource that is released. -/

set_option autoImplicit false

namespace Teardown

open TransitionSystem

variable {π ρ : Type}

inductive Call (π ρ : Type) where
  | use (resource : ρ)
  | stop (party : π)
  | join (party : π)
  | release (resource : ρ)
  deriving DecidableEq, Repr

/-- What each party does once it has been told to end, and what it may use before. -/
structure Design (π ρ : Type) where
  teardown : π → List (Call π ρ)
  uses : π → ρ → Prop

/-- A party without a place is at work; the others have the calls left that are named. -/
structure State (π ρ : Type) where
  place : π → Option (List (Call π ρ))
  told : π → Bool
  released : List ρ

/-- `skip` is a wait that returns before its party has ended. -/
inductive Action (π : Type) where
  | leave (party : π)
  | call (party : π)
  | skip (party : π)
  deriving DecidableEq, Repr

/-- Every wait is one. -/
def Action.Waits : Action π → Prop
  | .skip _ => False
  | _ => True

instance : (action : Action π) → Decidable action.Waits
  | .skip _ => isFalse id
  | .leave _ | .call _ => isTrue trivial

namespace Design

variable [DecidableEq π]

def start (root : π → Bool) : State π ρ := { place := fun _ => none, told := root, released := [] }

/-- `party` behind the first of its calls. -/
def advance (state : State π ρ) (party : π) (rest : List (Call π ρ)) : State π ρ :=
  { state with place := Function.update state.place party (some rest) }

def step (design : Design π ρ) (state : State π ρ) : Action π → Option (State π ρ)
  | .leave party =>
      match state.place party with
      | none =>
          if state.told party then some (advance state party (design.teardown party)) else none
      | some _ => none
  | .call party =>
      match state.place party with
      | some (.use _ :: rest) => some (advance state party rest)
      | some (.stop other :: rest) =>
          some (advance { state with told := Function.update state.told other true } party rest)
      | some (.join other :: rest) =>
          match state.place other with
          | some [] => some (advance state party rest)
          | _ => none
      | some (.release resource :: rest) =>
          some (advance { state with released := state.released ++ [resource] } party rest)
      | _ => none
  | .skip party =>
      match state.place party with
      | some (.join _ :: rest) => some (advance state party rest)
      | _ => none

def Step (design : Design π ρ) (before : State π ρ) (action : Action π) (after : State π ρ) :
    Prop :=
  design.step before action = some after

end Design

/-! ## Orders of calls -/

/-- `first` never comes behind `second`; in particular `Before calls call call` says that the
call occurs at most once. -/
def Before (calls : List (Call π ρ)) (first second : Call π ρ) : Prop :=
  calls.Pairwise fun earlier later => ¬ (earlier = second ∧ later = first)

theorem Before.not_mem {done rest : List (Call π ρ)} {first second : Call π ρ}
    (before : Before (done ++ rest) first second) (passed : second ∈ done) : first ∉ rest := by
  intro pending
  exact (List.pairwise_append.mp before).2.2 second passed first pending ⟨rfl, rfl⟩

section Orders

variable {first second head : Call π ρ} {calls more : List (Call π ρ)}

@[simp] theorem before_nil : Before ([] : List (Call π ρ)) first second := List.Pairwise.nil

@[simp] theorem before_cons : Before (head :: calls) first second ↔
    (head = second → first ∉ calls) ∧ Before calls first second := by
  rw [Before, List.pairwise_cons]
  apply and_congr_left
  intro _
  constructor
  · intro apart same member
    exact apart first member ⟨same, rfl⟩
  · rintro absent later member ⟨same, equal⟩
    exact absent same (equal ▸ member)

@[simp] theorem before_append : Before (calls ++ more) first second ↔
    Before calls first second ∧ Before more first second ∧ (second ∈ calls → first ∉ more) := by
  rw [Before, List.pairwise_append]
  apply and_congr_right
  intro _
  apply and_congr_right
  intro _
  constructor
  · intro apart passed pending
    exact apart second passed first pending ⟨rfl, rfl⟩
  · rintro absent earlier passed later pending ⟨same, equal⟩
    exact absent (same ▸ passed) (equal ▸ pending)

theorem before_of_not_mem (absent : second ∉ calls) : Before calls first second := by
  induction calls with
  | nil => exact before_nil
  | cons head calls ih =>
      rw [List.mem_cons, not_or] at absent
      rw [before_cons]
      exact ⟨fun same => absurd same.symm absent.1, ih absent.2⟩

/-- Two calls of one block of calls that are made block by block. -/
theorem before_blocks {α : Type} {blocks : List α} {block : α → List (Call π ρ)}
    (distinct : blocks.Nodup) (each : ∀ index, Before (block index) first second)
    (same : ∀ index later, second ∈ block index → first ∈ block later → index = later) :
    Before (blocks.flatMap block) first second := by
  rw [Before, List.pairwise_flatMap]
  refine ⟨fun index _ => each index, distinct.imp ?_⟩
  rintro index later differs earlier passed other pending ⟨rfl, rfl⟩
  exact differs (same index later passed pending)

end Orders

namespace Design

variable (design : Design π ρ)

/-- The parties that a party tells to end. -/
def Child (parent child : π) : Prop := .stop child ∈ design.teardown parent

abbrev Below : π → π → Prop := Relation.ReflTransGen design.Child

/-- One party tells a party to end, once, and waits for it afterwards; one party releases a
resource, once. Nobody tells a root. -/
structure Ordered (root : π → Bool) : Prop where
  parent : ∀ {party other child}, design.Child party child → design.Child other child →
    party = other
  unrooted : ∀ {party child}, design.Child party child → root child = false
  stopsOnce : ∀ party child, Before (design.teardown party) (.stop child) (.stop child)
  joins : ∀ {party child}, design.Child party child → .join child ∈ design.teardown party
  joinsChild : ∀ {party child}, .join child ∈ design.teardown party → design.Child party child
  stopsFirst : ∀ party child, Before (design.teardown party) (.stop child) (.join child)
  releaser : ∀ {party other resource}, .release resource ∈ design.teardown party →
    .release resource ∈ design.teardown other → party = other
  releasesOnce : ∀ party resource,
    Before (design.teardown party) (.release resource) (.release resource)

/-- Why a party finds a resource when it comes to it: nobody releases it; the party itself
does, behind its last use; the party that does has waited for it, or for one above it; or
that party is told to end by this one, or by one below it, behind its last use. -/
inductive Guards (party : π) (resource : ρ) : Prop where
  | kept (never : ∀ other, .release resource ∉ design.teardown other)
  | own (releases : .release resource ∈ design.teardown party)
      (last : Before (design.teardown party) (.use resource) (.release resource))
  | joined {owner child : π} (releases : .release resource ∈ design.teardown owner)
      (joins : .join child ∈ design.teardown owner) (below : design.Below child party)
      (last : Before (design.teardown owner) (.join child) (.release resource))
  | above {owner child : π} (releases : .release resource ∈ design.teardown owner)
      (tells : design.Child party child) (below : design.Below child owner)
      (last : Before (design.teardown party) (.use resource) (.stop child))

end Design

/-! ## What holds along a run -/

namespace State

variable (design : Design π ρ) (state : State π ρ)

def Finished (party : π) : Prop := state.place party = some []

def Passed (party : π) (call : Call π ρ) : Prop :=
  ∃ done rest, state.place party = some rest ∧ design.teardown party = done ++ rest ∧ call ∈ done

/-- The party is about to use the resource, or may use it while it is at work. -/
def Accesses (party : π) (resource : ρ) : Prop :=
  (state.place party = none ∧ design.uses party resource) ∨
    ∃ rest, state.place party = some (.use resource :: rest)

structure Sound (root : π → Bool) : Prop where
  suffix : ∀ {party rest}, state.place party = some rest →
    ∃ done, design.teardown party = done ++ rest
  told : ∀ {party}, state.told party = true ↔
    root party = true ∨ ∃ other, state.Passed design other (.stop party)
  left : ∀ {party}, state.place party ≠ none → state.told party = true
  joined : ∀ {party other}, state.Passed design party (.join other) → state.Finished other
  released : ∀ {resource}, resource ∈ state.released ↔
    ∃ party, state.Passed design party (.release resource)
  once : state.released.Nodup

variable {design state} {root : π → Bool} {party other : π} {resource : ρ} {call : Call π ρ}
  {rest : List (Call π ρ)}

theorem Passed.mem (passed : state.Passed design party call) : call ∈ design.teardown party := by
  obtain ⟨done, rest, _, whole, member⟩ := passed
  rw [whole]
  exact List.mem_append_left _ member

theorem Passed.place_ne_none (passed : state.Passed design party call) :
    state.place party ≠ none := by
  obtain ⟨_, _, place, _, _⟩ := passed
  rw [place]
  exact Option.some_ne_none _

/-- Behind the second of two ordered calls the first is not left. -/
theorem Passed.not_pending {first second : Call π ρ} (passed : state.Passed design party second)
    (before : Before (design.teardown party) first second) (place : state.place party = some rest) :
    first ∉ rest := by
  obtain ⟨done, left, place', whole, member⟩ := passed
  rw [place] at place'
  cases place'
  rw [whole] at before
  exact before.not_mem member

/-- A call that is not left has been made. -/
theorem Sound.passed_of_not_pending (sound : state.Sound design root)
    (place : state.place party = some rest) (member : call ∈ design.teardown party)
    (absent : call ∉ rest) : state.Passed design party call := by
  obtain ⟨done, whole⟩ := sound.suffix place
  rw [whole] at member
  rcases List.mem_append.mp member with passed | pending
  · exact ⟨done, rest, place, whole, passed⟩
  · exact absurd pending absent

theorem Sound.passed_of_finished (sound : state.Sound design root)
    (finished : state.Finished party) (member : call ∈ design.teardown party) :
    state.Passed design party call :=
  sound.passed_of_not_pending finished member List.not_mem_nil

/-- Who has ended has waited for all below. -/
theorem Sound.finished_below (sound : state.Sound design root) (ordered : design.Ordered root)
    (finished : state.Finished party) (below : design.Below party other) :
    state.Finished other := by
  induction below with
  | refl => exact finished
  | tail _ child ih => exact sound.joined (sound.passed_of_finished ih (ordered.joins child))

/-- Who has been told to end is below parties that have. -/
theorem Sound.told_above (sound : state.Sound design root) (ordered : design.Ordered root)
    (below : design.Below party other) (told : state.told other = true) :
    state.told party = true := by
  induction below with
  | refl => exact told
  | tail _ child ih =>
      rcases sound.told.mp told with rooted | ⟨teller, passed⟩
      · rw [ordered.unrooted child] at rooted
        cases rooted
      · cases ordered.parent passed.mem child
        exact ih (sound.left passed.place_ne_none)

/-- No access that the design guards finds its resource released. -/
theorem Sound.unreleased (sound : state.Sound design root) (ordered : design.Ordered root)
    (accesses : state.Accesses design party resource) (guards : design.Guards party resource) :
    resource ∉ state.released := by
  intro gone
  obtain ⟨owner, passed⟩ := sound.released.mp gone
  cases guards with
  | kept never => exact never owner passed.mem
  | own releases last =>
      cases ordered.releaser passed.mem releases
      rcases accesses with ⟨work, _⟩ | ⟨rest, place⟩
      · exact passed.place_ne_none work
      · exact passed.not_pending last place List.mem_cons_self
  | joined releases joins below last =>
      cases ordered.releaser passed.mem releases
      obtain ⟨_, rest, place, _, _⟩ := id passed
      have joined := sound.passed_of_not_pending place joins (passed.not_pending last place)
      have finished := sound.finished_below ordered (sound.joined joined) below
      rcases accesses with ⟨work, _⟩ | ⟨rest, place⟩
      · rw [Finished, work] at finished
        cases finished
      · rw [Finished, place] at finished
        cases finished
  | above releases tells below last =>
      cases ordered.releaser passed.mem releases
      have told := sound.told_above ordered below (sound.left passed.place_ne_none)
      rcases sound.told.mp told with rooted | ⟨teller, toldBy⟩
      · rw [ordered.unrooted tells] at rooted
        cases rooted
      · cases ordered.parent toldBy.mem tells
        rcases accesses with ⟨work, _⟩ | ⟨rest, place⟩
        · exact toldBy.place_ne_none work
        · exact toldBy.not_pending last place List.mem_cons_self

/-- When a party has ended, it and all below have released what they release. -/
theorem Sound.released_below (sound : state.Sound design root) (ordered : design.Ordered root)
    (finished : state.Finished party) (below : design.Below party other)
    (releases : .release resource ∈ design.teardown other) : resource ∈ state.released :=
  sound.released.mpr
    ⟨other, sound.passed_of_finished (sound.finished_below ordered finished below) releases⟩

end State

/-! ## The steps -/

namespace Design

variable [DecidableEq π] {design : Design π ρ} {state after : State π ρ} {root : π → Bool}
  {party other : π} {call made : Call π ρ} {rest : List (Call π ρ)}

@[simp] theorem advance_told : (advance state party rest).told = state.told := rfl

@[simp] theorem advance_released : (advance state party rest).released = state.released := rfl

@[simp] theorem advance_place_self : (advance state party rest).place party = some rest := by
  simp [advance]

theorem advance_place_of_ne (differs : other ≠ party) :
    (advance state party rest).place other = state.place other := by
  simp [advance, differs]

omit [DecidableEq π] in
theorem start_sound (root : π → Bool) : (start root : State π ρ).Sound design root where
  suffix place := by cases place
  told := by
    intro party
    constructor
    · exact .inl
    · rintro (rooted | ⟨_, passed⟩)
      · exact rooted
      · exact absurd rfl passed.place_ne_none
  left place := absurd rfl place
  joined passed := absurd rfl passed.place_ne_none
  released := by
    intro resource
    constructor
    · intro member
      cases member
    · rintro ⟨_, passed⟩
      exact absurd rfl passed.place_ne_none
  once := List.nodup_nil

/-- A call that is made is one more that was passed. -/
theorem passed_advance (sound : state.Sound design root) (same : after.place =
      Function.update state.place party (some rest))
    (place : state.place party = some (made :: rest)) :
    after.Passed design other call ↔
      state.Passed design other call ∨ other = party ∧ call = made := by
  by_cases mine : other = party
  · subst mine
    obtain ⟨done, whole⟩ := sound.suffix place
    constructor
    · rintro ⟨done', rest', place', whole', member⟩
      rw [same, Function.update_self] at place'
      cases place'
      have longer : done' = done ++ [made] := by
        rw [whole, List.append_cons] at whole'
        exact (List.append_cancel_right whole').symm
      rw [longer] at member
      rcases List.mem_append.mp member with passed | new
      · exact .inl ⟨done, _, place, whole, passed⟩
      · exact .inr ⟨rfl, List.mem_singleton.mp new⟩
    · rintro (⟨done', rest', place', whole', member⟩ | ⟨_, rfl⟩)
      · rw [place] at place'
        cases place'
        refine ⟨done' ++ [made], rest, ?_, ?_, List.mem_append_left _ member⟩
        · rw [same, Function.update_self]
        · rw [whole', List.append_cons]
      · refine ⟨done ++ [call], rest, ?_, ?_, by simp⟩
        · rw [same, Function.update_self]
        · rw [whole, List.append_cons]
  · simp only [State.Passed, same, Function.update_of_ne mine, mine, false_and, or_false]

/-- A party that leaves its work has made no call yet. -/
theorem passed_leave (place : state.place party = none) :
    (advance state party (design.teardown party)).Passed design other call ↔
      state.Passed design other call := by
  by_cases mine : other = party
  · subst mine
    constructor
    · rintro ⟨done, rest, place', whole, member⟩
      rw [advance_place_self] at place'
      cases place'
      have nothing := List.self_eq_append_left.mp whole
      rw [nothing] at member
      cases member
    · intro passed
      exact absurd place passed.place_ne_none
  · simp only [State.Passed, advance_place_of_ne mine]

theorem suffix_advance (sound : state.Sound design root) (same : after.place =
      Function.update state.place party (some rest))
    (whole : ∃ done, design.teardown party = done ++ rest) {left : List (Call π ρ)}
    (place : after.place other = some left) : ∃ done, design.teardown other = done ++ left := by
  rw [same] at place
  by_cases mine : other = party
  · subst mine
    rw [Function.update_self] at place
    cases place
    exact whole
  · rw [Function.update_of_ne mine] at place
    exact sound.suffix place

theorem finished_advance (same : after.place = Function.update state.place party (some rest))
    (place : state.place party = some (made :: rest)) (finished : state.Finished other) :
    after.Finished other := by
  have differs : other ≠ party := by
    intro mine
    rw [State.Finished, mine, place] at finished
    cases finished
  rw [State.Finished, same, Function.update_of_ne differs]
  exact finished

theorem left_advance (sound : state.Sound design root) (same : after.place =
      Function.update state.place party (some rest))
    (place : state.place party = some (made :: rest))
    (told : ∀ other, state.told other = true → after.told other = true)
    (left : after.place other ≠ none) : after.told other = true := by
  apply told
  apply sound.left
  by_cases mine : other = party
  · rw [mine, place]
    exact Option.some_ne_none _
  · rw [same, Function.update_of_ne mine] at left
    exact left

/-- What a call leaves sound whatever it is: the told, the joined and the released parts are
the call's own. -/
theorem sound_advance (sound : state.Sound design root) (same : after.place =
      Function.update state.place party (some rest))
    (place : state.place party = some (made :: rest))
    (told : ∀ other, after.told other = true ↔
      state.told other = true ∨ made = .stop other)
    (joined : ∀ other, made = .join other → state.Finished other)
    (released : ∀ resource, resource ∈ after.released ↔
      resource ∈ state.released ∨ made = .release resource)
    (once : after.released.Nodup) : after.Sound design root where
  suffix := by
    obtain ⟨done, whole⟩ := sound.suffix place
    exact suffix_advance sound same ⟨done ++ [made], by rw [whole, List.append_cons]⟩
  told := by
    intro other
    rw [told other, sound.told, or_assoc]
    simp only [passed_advance sound same place, exists_or]
    apply or_congr_right
    apply or_congr_right
    constructor
    · intro tells
      exact ⟨party, rfl, tells.symm⟩
    · rintro ⟨_, _, tells⟩
      exact tells.symm
  left := left_advance sound same place fun other old => (told other).mpr (.inl old)
  joined := by
    intro _ other passed
    rcases (passed_advance sound same place).mp passed with old | ⟨_, waits⟩
    · exact finished_advance same place (sound.joined old)
    · exact finished_advance same place (joined other waits.symm)
  released := by
    intro resource
    rw [released resource, sound.released]
    simp only [passed_advance sound same place, exists_or]
    apply or_congr_right
    constructor
    · intro releases
      exact ⟨party, rfl, releases.symm⟩
    · rintro ⟨_, _, releases⟩
      exact releases.symm
  once := once

theorem leave_sound (sound : state.Sound design root) (place : state.place party = none)
    (told : state.told party = true) :
    (advance state party (design.teardown party)).Sound design root where
  suffix := suffix_advance sound rfl ⟨[], rfl⟩
  told := by
    intro other
    simp only [advance_told, sound.told, passed_leave place]
  left := by
    intro other left
    rw [advance_told]
    by_cases mine : other = party
    · rw [mine]
      exact told
    · rw [advance_place_of_ne mine] at left
      exact sound.left left
  joined := by
    intro _ other passed
    have finished := sound.joined ((passed_leave place).mp passed)
    have differs : other ≠ party := by
      intro mine
      rw [State.Finished, mine, place] at finished
      cases finished
    rw [State.Finished, advance_place_of_ne differs]
    exact finished
  released := by
    intro resource
    simp only [advance_released, sound.released, passed_leave place]
  once := sound.once

/-- Every step that waits where it should keeps what holds. -/
theorem step_sound (ordered : design.Ordered root) (sound : state.Sound design root)
    {action : Action π} (waits : action.Waits) (taken : design.Step state action after) :
    after.Sound design root := by
  cases action with
  | skip party => exact waits.elim
  | leave party =>
      cases place : state.place party with
      | none =>
          simp only [Step, step, place, Option.ite_none_right_eq_some, Option.some.injEq] at taken
          obtain ⟨told, rfl⟩ := taken
          exact leave_sound sound place told
      | some rest => simp [Step, step, place] at taken
  | call party =>
      cases place : state.place party with
      | none => simp [Step, step, place] at taken
      | some calls =>
          cases calls with
          | nil => simp [Step, step, place] at taken
          | cons made rest =>
              cases made with
              | use resource =>
                  simp only [Step, step, place, Option.some.injEq] at taken
                  subst taken
                  exact sound_advance sound rfl place (by simp) (by simp) (by simp) sound.once
              | stop child =>
                  simp only [Step, step, place, Option.some.injEq] at taken
                  subst taken
                  refine sound_advance sound rfl place ?_ (by simp) (by simp) sound.once
                  intro other
                  by_cases same : other = child
                  · simp [same]
                  · simp [same, Ne.symm same]
              | join child =>
                  simp only [Step, step, place] at taken
                  split at taken
                  · next finished =>
                      cases taken
                      refine sound_advance sound rfl place (by simp) ?_ (by simp) sound.once
                      intro other waits
                      cases waits
                      exact finished
                  · cases taken
              | release resource =>
                  simp only [Step, step, place, Option.some.injEq] at taken
                  subst taken
                  have fresh : resource ∉ state.released := by
                    intro gone
                    obtain ⟨owner, passed⟩ := sound.released.mp gone
                    obtain ⟨done, whole⟩ := sound.suffix place
                    have mine : .release resource ∈ design.teardown party := by simp [whole]
                    cases ordered.releaser passed.mem mine
                    exact passed.not_pending (ordered.releasesOnce _ _) place List.mem_cons_self
                  refine sound_advance sound rfl place (by simp) (by simp) ?_ ?_
                  · intro other
                    simp [eq_comm]
                  · rw [advance_released, List.nodup_append]
                    refine ⟨sound.once, by simp, ?_⟩
                    intro old member new single equal
                    rw [List.mem_singleton.mp single] at equal
                    exact fresh (equal ▸ member)

/-- What holds in every state that is reached while every wait is one. -/
theorem run_sound (ordered : design.Ordered root) {actions : List (Action π)}
    {start final : State π ρ} (run : Run design.Step start actions final)
    (waits : ∀ action ∈ actions, action.Waits) (sound : start.Sound design root) :
    final.Sound design root := by
  apply run.keeps_allowed waits
  · intro before action after allowed holds taken
    exact step_sound ordered holds allowed taken
  · exact sound

/-- Calls that are no waits can be made one after the other. -/
theorem exists_run_calls (design : Design π ρ) (calls : List (Call π ρ)) {rest : List (Call π ρ)}
    (state : State π ρ) (place : state.place party = some (calls ++ rest))
    (free : ∀ child, .join child ∉ calls) :
    ∃ actions after, Run design.Step state actions after ∧ (∀ action ∈ actions, action.Waits) ∧
      after.place = Function.update state.place party (some rest) ∧
      (∀ child, state.told child = true ∨ .stop child ∈ calls → after.told child = true) ∧
      ∀ resource, .release resource ∈ calls → resource ∈ after.released := by
  suffices more : ∃ actions after, Run design.Step state actions after ∧
      (∀ action ∈ actions, action.Waits) ∧
      after.place = Function.update state.place party (some rest) ∧
      (∀ child, state.told child = true ∨ .stop child ∈ calls → after.told child = true) ∧
      ∀ resource, resource ∈ state.released ∨ .release resource ∈ calls →
        resource ∈ after.released by
    obtain ⟨actions, after, run, waits, moved, told, released⟩ := more
    exact ⟨actions, after, run, waits, moved, told, fun resource member =>
      released resource (.inr member)⟩
  induction calls generalizing state with
  | nil =>
      refine ⟨[], state, .nil state, by simp, ?_, by simp, by simp⟩
      rw [List.nil_append] at place
      rw [← place, Function.update_eq_self]
  | cons made calls ih =>
      have reached : ∃ middle, design.step state (.call party) = some middle ∧
          middle.place = Function.update state.place party (some (calls ++ rest)) ∧
          (∀ child, state.told child = true ∨ made = .stop child → middle.told child = true) ∧
          ∀ resource, resource ∈ state.released ∨ made = .release resource →
            resource ∈ middle.released := by
        rw [List.cons_append] at place
        cases made with
        | use resource =>
            exact ⟨advance state party (calls ++ rest), by simp only [step, place], rfl, by simp,
              by simp⟩
        | stop child =>
            refine ⟨advance { state with told := Function.update state.told child true } party
              (calls ++ rest), by simp only [step, place], rfl, ?_, by simp⟩
            rintro other (told | same)
            · by_cases equal : other = child <;> simp [equal, told]
            · cases same
              simp
        | release resource =>
            refine ⟨advance { state with released := state.released ++ [resource] } party
              (calls ++ rest), by simp only [step, place], rfl, by simp, ?_⟩
            rintro other (old | same)
            · simp [old]
            · cases same
              simp
        | join child => exact absurd List.mem_cons_self (free child)
      obtain ⟨middle, taken, moved, told, released⟩ := reached
      obtain ⟨actions, after, run, waits, moved', told', released'⟩ := ih middle
        (by rw [moved, Function.update_self])
        (fun child member => free child (List.mem_cons_of_mem _ member))
      refine ⟨.call party :: actions, after, .cons taken run, ?_, ?_, ?_, ?_⟩
      · intro action member
        rcases List.mem_cons.mp member with rfl | later
        · trivial
        · exact waits action later
      · rw [moved', moved, Function.update_idem]
      · rintro child (old | member)
        · exact told' child (.inl (told child (.inl old)))
        · rcases List.mem_cons.mp member with same | later
          · exact told' child (.inl (told child (.inr same.symm)))
          · exact told' child (.inr later)
      · rintro resource (old | member)
        · exact released' resource (.inl (released resource (.inl old)))
        · rcases List.mem_cons.mp member with same | later
          · exact released' resource (.inl (released resource (.inr same.symm)))
          · exact released' resource (.inr later)

/-- A party that is told to end leaves its work and comes to its first wait. -/
theorem exists_run_leaves (design : Design π ρ) (party : π) {calls rest : List (Call π ρ)}
    (whole : design.teardown party = calls ++ rest) (free : ∀ child, .join child ∉ calls)
    (state : State π ρ) (place : state.place party = none) (told : state.told party = true) :
    ∃ actions after, Run design.Step state actions after ∧ (∀ action ∈ actions, action.Waits) ∧
      after.place = Function.update state.place party (some rest) ∧
      (∀ child, .stop child ∈ calls → after.told child = true) ∧
      ∀ resource, .release resource ∈ calls → resource ∈ after.released := by
  have leaves : design.Step state (.leave party) (advance state party (design.teardown party)) := by
    simp [Step, step, place, told]
  obtain ⟨actions, after, run, waits, moved, told', released⟩ := exists_run_calls design calls
    (advance state party (design.teardown party)) (by rw [advance_place_self, whole]) free
  refine ⟨.leave party :: actions, after, .cons leaves run, ?_, ?_, ?_, released⟩
  · intro action member
    rcases List.mem_cons.mp member with rfl | later
    · trivial
    · exact waits action later
  · rw [moved]
    exact Function.update_idem _ _ _
  · intro child member
    exact told' child (.inr member)

/-! ## The way down -/

/-- A run of calls that wait where they should, by the parties below one party. -/
def Descends (design : Design π ρ) (party : π) (before after : State π ρ) : Prop :=
  ∃ actions, Run design.Step before actions after ∧ (∀ action ∈ actions, action.Waits) ∧
    ∀ other, ¬ design.Below party other → after.place other = before.place other

theorem Descends.trans {first second third : State π ρ}
    (descends : design.Descends party first second)
    (goes : design.Descends party second third) : design.Descends party first third := by
  obtain ⟨before, run, waits, kept⟩ := descends
  obtain ⟨behind, run', waits', kept'⟩ := goes
  refine ⟨before ++ behind, run.append run', ?_, ?_⟩
  · intro action member
    rcases List.mem_append.mp member with early | late
    · exact waits action early
    · exact waits' action late
  · intro other outside
    rw [kept' other outside, kept other outside]

theorem Descends.sound (ordered : design.Ordered root) (sound : state.Sound design root)
    (descends : design.Descends party state after) : after.Sound design root := by
  obtain ⟨_, run, waits, _⟩ := descends
  exact run_sound ordered run waits sound

/-- One step of the party itself. -/
theorem descends_step (action : Action π) (waits : action.Waits)
    (taken : design.step state action = some after)
    (kept : ∀ other, other ≠ party → after.place other = state.place other) :
    design.Descends party state after := by
  refine ⟨[action], .cons taken (.nil _), ?_, ?_⟩
  · intro other member
    rw [List.mem_singleton.mp member]
    exact waits
  · intro other outside
    apply kept
    intro mine
    exact outside (mine ▸ .refl)

theorem Descends.above {child : π} (tells : design.Child party child)
    (descends : design.Descends child state after) : design.Descends party state after := by
  obtain ⟨actions, run, waits, kept⟩ := descends
  refine ⟨actions, run, waits, ?_⟩
  intro other outside
  exact kept other fun below => outside (.head tells below)

variable {rank : π → Nat}

/-- A party that has been told to end ends once those it waits for can. -/
theorem descends_rest (ordered : design.Ordered root) (party : π)
    (children : ∀ child, design.Child party child → ∀ state : State π ρ,
      state.Sound design root → state.told child = true →
        ∃ after, design.Descends child state after ∧ after.Finished child)
    (apart : ∀ child, design.Child party child → ¬ design.Below child party)
    (rest : List (Call π ρ)) (state : State π ρ) (sound : state.Sound design root)
    (place : state.place party = some rest) :
    ∃ after, design.Descends party state after ∧ after.Finished party := by
  induction rest generalizing state with
  | nil => exact ⟨state, ⟨[], .nil _, by simp, fun _ _ => rfl⟩, place⟩
  | cons made rest ih =>
      have moves : ∀ middle : State π ρ, design.Descends party state middle →
          middle.place party = some rest →
            ∃ after, design.Descends party state after ∧ after.Finished party := by
        intro middle descends placed
        obtain ⟨after, goes, finished⟩ := ih middle (descends.sound ordered sound) placed
        exact ⟨after, descends.trans goes, finished⟩
      cases made with
      | use resource =>
          apply moves (advance state party rest) _ advance_place_self
          exact descends_step (.call party) trivial (by simp [step, place])
            fun other differs => advance_place_of_ne differs
      | stop child =>
          apply moves (advance { state with told := Function.update state.told child true }
            party rest) _ advance_place_self
          exact descends_step (.call party) trivial (by simp [step, place])
            fun other differs => advance_place_of_ne differs
      | release resource =>
          apply moves (advance { state with released := state.released ++ [resource] } party rest)
            _ advance_place_self
          exact descends_step (.call party) trivial (by simp [step, place])
            fun other differs => advance_place_of_ne differs
      | join child =>
          have waits : .join child ∈ design.teardown party := by
            obtain ⟨done, whole⟩ := sound.suffix place
            simp [whole]
          have tells := ordered.joinsChild waits
          -- the wait comes behind the call that tells the child to end
          have told : state.told child = true := by
            obtain ⟨done, whole⟩ := sound.suffix place
            have member : .stop child ∈ design.teardown party := tells
            have first := ordered.stopsFirst party child
            rw [whole] at first member
            rcases List.mem_append.mp member with passed | pending
            · exact sound.told.mpr (.inr ⟨party, done, _, place, whole, passed⟩)
            · rcases List.mem_cons.mp pending with same | behind
              · cases same
              · have pairs := List.pairwise_cons.mp (List.pairwise_append.mp first).2.1
                exact absurd ⟨rfl, rfl⟩ (pairs.1 _ behind)
          obtain ⟨middle, descends, finished⟩ := children child tells state sound told
          have placed : middle.place party = some (.join child :: rest) := by
            obtain ⟨_, _, _, kept⟩ := id descends
            rw [kept party (apart child tells), place]
          have up := descends.above tells
          apply moves (advance middle party rest) _ advance_place_self
          apply up.trans
          exact descends_step (.call party) trivial
            (by simp [step, placed, show middle.place child = some [] from finished])
            fun other differs => advance_place_of_ne differs

omit [DecidableEq π] in
theorem below_rank (ranked : ∀ {parent child}, design.Child parent child → rank child < rank parent)
    (below : design.Below party other) : rank other ≤ rank party := by
  induction below with
  | refl => exact Nat.le_refl _
  | tail _ child ih => exact Nat.le_trans (Nat.le_of_lt (ranked child)) ih

/-- From every state that is reached, a party that has been told to end can end, with nobody
taking a step but the parties below it. -/
theorem descends_finished (ordered : design.Ordered root)
    (ranked : ∀ {parent child}, design.Child parent child → rank child < rank parent) (party : π)
    (state : State π ρ) (sound : state.Sound design root) (told : state.told party = true) :
    ∃ after, design.Descends party state after ∧ after.Finished party := by
  induction height : rank party using Nat.strongRecOn generalizing party state with
  | _ height' ih =>
      have children : ∀ child, design.Child party child → ∀ state : State π ρ,
          state.Sound design root → state.told child = true →
            ∃ after, design.Descends child state after ∧ after.Finished child := by
        intro child tells state sound told
        exact ih (rank child) (height ▸ ranked tells) child state sound told rfl
      have apart : ∀ child, design.Child party child → ¬ design.Below child party := by
        intro child tells below
        exact absurd (below_rank ranked below) (Nat.not_le.mpr (ranked tells))
      cases place : state.place party with
      | some rest => exact descends_rest ordered party children apart rest state sound place
      | none =>
          have leaves : design.Descends party state (advance state party (design.teardown party)) :=
            descends_step (.leave party) trivial (by simp [step, place, told])
              fun other differs => advance_place_of_ne differs
          obtain ⟨after, goes, finished⟩ := descends_rest ordered party children apart
            (design.teardown party) _ (leaves.sound ordered sound) advance_place_self
          exact ⟨after, leaves.trans goes, finished⟩

end Design

end Teardown

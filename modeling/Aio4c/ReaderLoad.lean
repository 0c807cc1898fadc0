import Aio4c.Library.LevelCounts
import Aio4c.Library.TransitionSystem
import Mathlib.Data.Int.Order.Basic

/-! The acceptor shares its connections out between the readers by their loads. A reader
counts a connection into its load when it has taken it from its queue, so the loads the
acceptor reads lag behind what it has handed over. -/

set_option autoImplicit false

namespace Aio4c

open LevelCounts TransitionSystem

/-- `INT_MAX`. -/
def intMax : Int := 2147483647

/-- The loop of `_ChooseReader` from index `i`, over the loads it still reads. -/
def chooseReaderFrom : List Int → Nat → Int → Option Nat → Option Nat
  | [], _, _, choosen => choosen
  | load :: loads, i, minLoad, choosen =>
      if load < minLoad then chooseReaderFrom loads (i + 1) load (some i)
      else chooseReaderFrom loads (i + 1) minLoad choosen

/-- `_ChooseReader`, from the loads it reads; `none` is index -1 of the readers. -/
def chooseReader (loads : List Int) : Option Nat := chooseReaderFrom loads 0 intMax none

/-- The readers of an acceptor and its own place. `taken` is a connection that a reader has
dequeued and not counted yet; `accepting` is the connection just accepted with the loads that
`_ChooseReader` has read for it. `assigned` records what was handed to each reader. -/
structure ReaderLoads where
  load : Nat → Int
  queue : Nat → List Nat
  taken : Nat → Option Nat
  accepting : Option (Nat × List Int)
  assigned : Nat → List Nat

/-- Before the first connection: `NewReader` sets every load to 0. -/
def newReaderLoads : ReaderLoads :=
  { load := fun _ => 0, queue := fun _ => [], taken := fun _ => none, accepting := none
    assigned := fun _ => [] }

/-- A step of `_AcceptorRun` (a connection accepted, one round of the loop of `_ChooseReader`,
`ReaderManageConnection` with whether `EnqueueDataItem` got its memory) or of the `_ReaderRun`
of a reader (a data item dequeued, `reader->load++`). -/
inductive LoadAction where
  | accept (connection : Nat)
  | readLoad
  | manage (enqueued : Bool)
  | dequeue (reader : Nat)
  | count (reader : Nat)
  deriving DecidableEq, Repr

namespace ReaderLoads

/-- `EnqueueDataItem(reader->queue, connection)`. -/
def enqueue (state : ReaderLoads) (reader connection : Nat) : ReaderLoads :=
  { state with
    queue := Function.update state.queue reader (state.queue reader ++ [connection])
    assigned := Function.update state.assigned reader (state.assigned reader ++ [connection]) }

end ReaderLoads

/-- One step with `nbReaders` readers. -/
def loadStep (nbReaders : Nat) (state : ReaderLoads) : LoadAction → Option ReaderLoads
  | .accept connection =>
      match state.accepting with
      | none => some { state with accepting := some (connection, []) }
      | some _ => none
  | .readLoad =>
      match state.accepting with
      | none => none
      | some (connection, loads) =>
          if loads.length < nbReaders then
            some { state with accepting := some (connection, loads ++ [state.load loads.length]) }
          else none
  | .manage enqueued =>
      match state.accepting with
      | none => none
      | some (connection, loads) =>
          if loads.length = nbReaders then
            (chooseReader loads).map fun reader =>
              let state := { state with accepting := none }
              if enqueued then state.enqueue reader connection else state
          else none
  | .dequeue reader =>
      match state.taken reader, state.queue reader with
      | none, connection :: queue =>
          if reader < nbReaders then
            some { state with
              queue := Function.update state.queue reader queue
              taken := Function.update state.taken reader (some connection) }
          else none
      | _, _ => none
  | .count reader =>
      match state.taken reader with
      | none => none
      | some _ =>
          if state.load reader < intMax then
            some { state with
              load := Function.update state.load reader (state.load reader + 1)
              taken := Function.update state.taken reader none }
          else none

def LoadStep (nbReaders : Nat) (before : ReaderLoads) (action : LoadAction) (after : ReaderLoads) :
    Prop :=
  loadStep nbReaders before action = some after

/-! ## The reader that is chosen -/

theorem chooseReaderFrom_spec (loads : List Int) (i : Nat) (minLoad : Int) (choosen : Option Nat) :
    ((∀ load ∈ loads, minLoad ≤ load) ∧ chooseReaderFrom loads i minLoad choosen = choosen) ∨
      ∃ index, FirstLeast loads minLoad index ∧
        chooseReaderFrom loads i minLoad choosen = some (i + index) := by
  induction loads generalizing i minLoad choosen with
  | nil => exact .inl ⟨by simp, rfl⟩
  | cons load loads ih =>
      by_cases below : load < minLoad
      · right
        simp only [chooseReaderFrom, if_pos below]
        rcases ih (i + 1) load (some i) with ⟨least, result⟩ | ⟨index, least, result⟩
        · exact ⟨0, .head below least, result⟩
        · refine ⟨index + 1, least.cons_lower below, ?_⟩
          rw [result, Nat.add_assoc, Nat.add_comm 1]
      · simp only [chooseReaderFrom, if_neg below]
        rcases ih (i + 1) minLoad choosen with ⟨least, result⟩ | ⟨index, least, result⟩
        · refine .inl ⟨?_, result⟩
          intro other member
          rcases List.mem_cons.mp member with rfl | inner
          · exact not_lt.mp below
          · exact least other inner
        · refine .inr ⟨index + 1, least.cons_higher below, ?_⟩
          rw [result, Nat.add_assoc, Nat.add_comm 1]

/-- `_ChooseReader` takes the first of the least loads it read. -/
theorem chooseReader_iff {loads : List Int} {reader : Nat} :
    chooseReader loads = some reader ↔ FirstLeast loads intMax reader := by
  rcases chooseReaderFrom_spec loads 0 intMax none with ⟨full, result⟩ | ⟨index, least, result⟩
  · rw [chooseReader, result]
    refine iff_of_false (by simp) fun least => ?_
    obtain ⟨before, load, after, rfl, -, below, -⟩ := least
    exact absurd below (not_lt.mpr (full load (by simp)))
  · rw [chooseReader, result, Nat.zero_add, Option.some.injEq]
    exact ⟨fun same => same ▸ least, fun other => least.unique other⟩

/-! ## Loads and what lags behind them -/

namespace ReaderLoads

/-- The connections handed to a reader that its load does not count yet. -/
def pending (state : ReaderLoads) (reader : Nat) : Nat :=
  (state.queue reader).length + (state.taken reader).toList.length

/-- The numbers of connections assigned to any two readers differ by at most one. -/
def Balanced (nbReaders : Nat) (state : ReaderLoads) : Prop :=
  Level (· < nbReaders) fun reader => (state.assigned reader).length

def Accounted (state : ReaderLoads) : Prop :=
  ∀ reader, ((state.assigned reader).length : Int) = state.load reader + state.pending reader

end ReaderLoads

theorem newReaderLoads_accounted : newReaderLoads.Accounted := fun _ => rfl

theorem newReaderLoads_balanced (nbReaders : Nat) : newReaderLoads.Balanced nbReaders :=
  fun _ _ _ _ => Nat.zero_le _

/-- When a connection is handed over, the reader that comes first among those with the least
load read has, with what it has not counted yet, no more connections than any other reader. -/
def LoadAction.Fair (nbReaders : Nat) (state : ReaderLoads) : LoadAction → Prop
  | .manage true =>
      ∀ connection loads, state.accepting = some (connection, loads) →
        ∀ reader, FirstLeast loads intMax reader → ∀ other < nbReaders,
          state.load reader + state.pending reader ≤ state.load other + state.pending other
  | _ => True

/-- The same test on the reader that the loop finds. -/
def LoadAction.fair (nbReaders : Nat) (state : ReaderLoads) : LoadAction → Bool
  | .manage true =>
      match state.accepting.bind fun accepting => chooseReader accepting.2 with
      | none => true
      | some reader => (List.range nbReaders).all fun other =>
          state.load reader + state.pending reader ≤ state.load other + state.pending other
  | _ => true

theorem LoadAction.fair_eq_true {nbReaders : Nat} {state : ReaderLoads} {action : LoadAction} :
    action.fair nbReaders state = true ↔ action.Fair nbReaders state := by
  unfold LoadAction.fair LoadAction.Fair
  split
  · cases accepting : state.accepting with
    | none => simp
    | some entry =>
        obtain ⟨connection, loads⟩ := entry
        simp only [Option.bind_some, Option.some.injEq, Prod.mk.injEq, and_imp, ← chooseReader_iff]
        cases choosen : chooseReader loads with
        | none =>
            refine iff_of_true rfl ?_
            intro _ _ _ same reader found
            rw [← same, choosen] at found
            cases found
        | some reader =>
            simp only [List.all_eq_true, List.mem_range, decide_eq_true_eq]
            constructor
            · intro least _ _ _ same reader' found
              rw [← same, choosen, Option.some.injEq] at found
              exact found ▸ least
            · intro fair
              exact fair connection loads rfl rfl reader choosen
  · simp

instance (nbReaders : Nat) (state : ReaderLoads) (action : LoadAction) :
    Decidable (action.Fair nbReaders state) :=
  decidable_of_iff _ LoadAction.fair_eq_true

theorem ReaderLoads.enqueue_accounted {state : ReaderLoads} (accounted : state.Accounted)
    (reader connection : Nat) : (state.enqueue reader connection).Accounted := by
  intro other
  have before := accounted other
  by_cases same : other = reader
  · subst same
    simp only [ReaderLoads.enqueue, ReaderLoads.pending, Function.update_self, List.length_append,
      List.length_singleton] at before ⊢
    omega
  · simpa [ReaderLoads.enqueue, ReaderLoads.pending, Function.update_of_ne same] using before

/-- What one step can do. -/
theorem LoadStep.cases {nbReaders : Nat} {before after : ReaderLoads} {action : LoadAction}
    (stepped : LoadStep nbReaders before action after) :
    (∃ accepting, after = { before with accepting } ∧ ∀ state, action.Fair nbReaders state) ∨
      (∃ reader connection loads, action = .manage true ∧
        before.accepting = some (connection, loads) ∧ loads.length = nbReaders ∧
        chooseReader loads = some reader ∧
        after = ReaderLoads.enqueue { before with accepting := none } reader connection) ∨
      (∃ reader connection queue, action = .dequeue reader ∧ before.taken reader = none ∧
        before.queue reader = connection :: queue ∧
        after = { before with
          queue := Function.update before.queue reader queue
          taken := Function.update before.taken reader (some connection) }) ∨
      ∃ reader connection, action = .count reader ∧ before.taken reader = some connection ∧
        after = { before with
          load := Function.update before.load reader (before.load reader + 1)
          taken := Function.update before.taken reader none } := by
  cases action with
  | accept connection =>
      simp only [LoadStep, loadStep] at stepped
      split at stepped <;> cases stepped
      exact .inl ⟨_, rfl, fun _ => trivial⟩
  | readLoad =>
      simp only [LoadStep, loadStep] at stepped
      split at stepped
      · cases stepped
      · split at stepped <;> cases stepped
        exact .inl ⟨_, rfl, fun _ => trivial⟩
  | manage enqueued =>
      simp only [LoadStep, loadStep] at stepped
      split at stepped
      · cases stepped
      · next connection loads accepting =>
          split at stepped
          · next complete =>
              obtain ⟨reader, choosen, shape⟩ := Option.map_eq_some_iff.mp stepped
              subst shape
              cases enqueued with
              | false => exact .inl ⟨_, rfl, fun _ => trivial⟩
              | true =>
                  exact .inr (.inl ⟨reader, connection, loads, rfl, accepting, complete, choosen, rfl⟩)
          · cases stepped
  | dequeue reader =>
      simp only [LoadStep, loadStep] at stepped
      split at stepped
      · next connection queue idle waiting =>
          split at stepped <;> cases stepped
          exact .inr (.inr (.inl ⟨reader, connection, queue, rfl, idle, waiting, rfl⟩))
      · cases stepped
  | count reader =>
      simp only [LoadStep, loadStep] at stepped
      split at stepped
      · cases stepped
      · next connection taken =>
          split at stepped <;> cases stepped
          exact .inr (.inr (.inr ⟨reader, connection, rfl, taken, rfl⟩))

theorem LoadStep.accounted {nbReaders : Nat} {before after : ReaderLoads} {action : LoadAction}
    (accounted : before.Accounted) (stepped : LoadStep nbReaders before action after) :
    after.Accounted := by
  rcases stepped.cases with ⟨accepting, rfl, -⟩ | ⟨reader, connection, loads, -, -, -, -, rfl⟩ |
    ⟨reader, connection, queue, -, idle, waiting, rfl⟩ | ⟨reader, connection, -, taken, rfl⟩
  · exact accounted
  · have cleared : ReaderLoads.Accounted { before with accepting := none } := accounted
    exact ReaderLoads.enqueue_accounted cleared reader connection
  · intro other
    have there := accounted other
    by_cases same : other = reader
    · subst same
      simp only [ReaderLoads.pending, waiting, idle, Function.update_self, List.length_cons,
        Option.toList_none, Option.toList_some, List.length_nil] at there ⊢
      omega
    · simpa [ReaderLoads.pending, Function.update_of_ne same] using there
  · intro other
    have there := accounted other
    by_cases same : other = reader
    · subst same
      simp only [ReaderLoads.pending, taken, Function.update_self, List.length_cons,
        Option.toList_none, Option.toList_some, List.length_nil] at there ⊢
      omega
    · simpa [ReaderLoads.pending, Function.update_of_ne same] using there

theorem LoadAction.fair_iff {nbReaders connection reader : Nat} {state : ReaderLoads}
    {loads : List Int} (accounted : state.Accounted)
    (accepting : state.accepting = some (connection, loads))
    (first : FirstLeast loads intMax reader) :
    LoadAction.Fair nbReaders state (.manage true) ↔
      Least (· < nbReaders) (fun other => (state.assigned other).length) reader := by
  have own := accounted reader
  constructor
  · intro fair other inside
    have bound := fair connection loads accepting reader first other inside
    have there := accounted other
    simp only
    omega
  · intro least connection' loads' same reader' first' other inside
    rw [accepting, Option.some.injEq, Prod.mk.injEq] at same
    obtain ⟨rfl, rfl⟩ := same
    obtain rfl := first.unique first'
    have bound := least other inside
    have there := accounted other
    simp only at bound
    omega

theorem ReaderLoads.enqueue_assigned (state : ReaderLoads) (reader connection : Nat) :
    (fun other => ((state.enqueue reader connection).assigned other).length) =
      Function.update (fun other => (state.assigned other).length) reader
        ((state.assigned reader).length + 1) := by
  funext other
  by_cases same : other = reader
  · subst same
    simp [ReaderLoads.enqueue]
  · simp [ReaderLoads.enqueue, Function.update_of_ne same]

/-- A step leaves the readers balanced exactly if it is fair. -/
theorem LoadStep.balanced_iff {nbReaders : Nat} {before after : ReaderLoads} {action : LoadAction}
    (accounted : before.Accounted) (balanced : before.Balanced nbReaders)
    (stepped : LoadStep nbReaders before action after) :
    after.Balanced nbReaders ↔ action.Fair nbReaders before := by
  rcases stepped.cases with ⟨accepting, rfl, fair⟩ |
    ⟨reader, connection, loads, rfl, accepting, complete, choosen, rfl⟩ |
    ⟨reader, connection, queue, rfl, -, -, rfl⟩ | ⟨reader, connection, rfl, -, rfl⟩
  · exact iff_of_true balanced (fair before)
  · have first := chooseReader_iff.mp choosen
    have inside : reader < nbReaders := complete ▸ first.lt_length
    rw [LoadAction.fair_iff accounted accepting first, ReaderLoads.Balanced,
      ReaderLoads.enqueue_assigned]
    exact Level.raise_iff balanced inside
  · exact iff_of_true balanced trivial
  · exact iff_of_true balanced trivial

/-! ## Runs -/

/-- In every run whose hand-overs are fair the readers are balanced, and the next step leaves
them so exactly if it is fair. -/
theorem readerLoads_balanced {nbReaders : Nat} {actions : List LoadAction} {state : ReaderLoads}
    (run : Run (Guarded (LoadAction.Fair nbReaders) (LoadStep nbReaders)) newReaderLoads actions
      state) :
    state.Balanced nbReaders ∧ ∀ action after, LoadStep nbReaders state action after →
      (after.Balanced nbReaders ↔ action.Fair nbReaders state) := by
  have kept : ∀ before action after, before.Accounted ∧ before.Balanced nbReaders →
      Guarded (LoadAction.Fair nbReaders) (LoadStep nbReaders) before action after →
        after.Accounted ∧ after.Balanced nbReaders := by
    intro before action after holds taken
    exact ⟨taken.2.accounted holds.1, (taken.2.balanced_iff holds.1 holds.2).mpr taken.1⟩
  obtain ⟨accounted, balanced⟩ :=
    run.keeps kept ⟨newReaderLoads_accounted, newReaderLoads_balanced nbReaders⟩
  exact ⟨balanced, fun action after stepped => stepped.balanced_iff accounted balanced⟩

/-- The acceptor takes a connection with two readers. -/
def acceptOne (connection : Nat) : List LoadAction :=
  [.accept connection, .readLoad, .readLoad, .manage true]

/-- Reader 0 counts the first connection before the second one is accepted. -/
theorem readerLoads_balanced_two :
    ∃ state, Run (Guarded (LoadAction.Fair 2) (LoadStep 2)) newReaderLoads
        (acceptOne 7 ++ [.dequeue 0, .count 0] ++ acceptOne 8) state ∧
      state.Balanced 2 := by
  obtain ⟨state, _, run⟩ := exists_run_of_execute (Guarded (LoadAction.Fair 2) (LoadStep 2))
    (guardedNext (LoadAction.Fair 2) (loadStep 2)) newReaderLoads
    (acceptOne 7 ++ [.dequeue 0, .count 0] ++ acceptOne 8)
    (fun _ _ _ taken => guardedNext_sound taken) (by decide)
  exact ⟨state, run, (readerLoads_balanced run).1⟩

/-- Two connections are accepted before reader 0 takes the first one: it gets both. -/
theorem readerLoads_burst :
    ∃ state, Run (LoadStep 2) newReaderLoads (acceptOne 7 ++ acceptOne 8) state ∧
      ¬ state.Balanced 2 := by
  obtain ⟨state, reached, run⟩ := exists_run_of_execute (LoadStep 2) (loadStep 2) newReaderLoads
    (acceptOne 7 ++ acceptOne 8) (fun _ _ _ stepped => stepped) rfl
  refine ⟨state, run, fun balanced => ?_⟩
  have bound := balanced 0 (by decide) 1 (by decide)
  cases reached
  exact absurd bound (by decide)

end Aio4c

import Aio4c.ServerTeardown
import Mathlib.Data.List.Range
import Mathlib.Tactic.Tauto

/-! Taking a server down: every thread finds what it reaches, but for the acceptor's queue,
everything is released once, and a pipe that has been told to end can. -/

set_option autoImplicit false

namespace Aio4c

open Teardown TransitionSystem ServerParty ServerResource

attribute [local simp] serverStopJoinSteps serverExitSteps acceptorExitSteps readerExitSteps
  workerExitSteps writerExitSteps acceptorEndSteps workerEndSteps writerEndSteps
  threadJoinSteps cleanupSteps

variable {nbPipes : Nat} {party other : ServerParty} {resource : ServerResource}

theorem mem_handlerUses {pipe : Nat} : resource ∈ handlerUses pipe ↔
    resource = readerStruct pipe ∨ resource = readerQueue pipe ∨ resource = readerSelector pipe ∨
      resource = workerStruct pipe ∨ resource = workerQueue pipe ∨ resource = workerPool pipe ∨
      resource = writerStruct pipe ∨ resource = writerThread pipe ∨ resource = writerName pipe ∨
      resource = writerQueue pipe := by
  simp [handlerUses]

theorem readerEnds_before {nbPipes : Nat} {first second : ServerCall}
    (each : ∀ pipe, Before (readerEndSteps pipe) first second)
    (same : ∀ pipe later, second ∈ readerEndSteps pipe → first ∈ readerEndSteps later →
      pipe = later) :
    Before ((List.range nbPipes).flatMap readerEndSteps) first second :=
  before_blocks List.nodup_range each same

/-- The acceptor closes its connections with calls that use resources, and nothing else. -/
theorem handlerUses_before {nbPipes : Nat} {first second : ServerCall}
    (other : ∀ resource, second ≠ .use resource) :
    Before ((List.range nbPipes).flatMap fun pipe => (handlerUses pipe).map .use) first second := by
  apply before_of_not_mem
  intro member
  obtain ⟨pipe, _, member⟩ := List.mem_flatMap.mp member
  obtain ⟨resource, _, same⟩ := List.mem_map.mp member
  exact other resource same.symm

theorem serverDesign_stopsOnce (nbPipes : Nat) (party child : ServerParty) :
    Before ((serverDesign nbPipes).teardown party) (.stop child) (.stop child) := by
  cases party with
  | acceptor =>
      have blocks : Before ((List.range nbPipes).flatMap readerEndSteps) (.stop child)
          (.stop child) := by
        apply readerEnds_before <;> simp +contextual [readerEndSteps, eq_comm]
      have uses : Before ((List.range nbPipes).flatMap fun pipe => (handlerUses pipe).map .use)
          (.stop child) (.stop child) := handlerUses_before (by simp)
      simp [serverDesign, blocks, uses]
  | main | server | reader | worker | writer => simp [serverDesign]

theorem serverDesign_releasesOnce (nbPipes : Nat) (party : ServerParty) (resource) :
    Before ((serverDesign nbPipes).teardown party) (.release resource) (.release resource) := by
  cases party with
  | acceptor =>
      have blocks : Before ((List.range nbPipes).flatMap readerEndSteps) (.release resource)
          (.release resource) := by
        apply readerEnds_before <;> simp [readerEndSteps] <;> grind
      have uses : Before ((List.range nbPipes).flatMap fun pipe => (handlerUses pipe).map .use)
          (.release resource) (.release resource) := handlerUses_before (by simp)
      cases resource <;> simp [serverDesign, blocks, uses, readerEndSteps]
  | server => cases resource <;> simp [serverDesign]
  | main | reader | worker | writer => simp [serverDesign] <;> grind

theorem serverDesign_stopsFirst (nbPipes : Nat) (party child : ServerParty) :
    Before ((serverDesign nbPipes).teardown party) (.stop child) (.join child) := by
  cases party with
  | acceptor =>
      have blocks : Before ((List.range nbPipes).flatMap readerEndSteps) (.stop child)
          (.join child) := by
        apply readerEnds_before <;> simp +contextual [readerEndSteps, eq_comm]
      have uses : Before ((List.range nbPipes).flatMap fun pipe => (handlerUses pipe).map .use)
          (.stop child) (.join child) := handlerUses_before (by simp)
      simp [serverDesign, blocks, uses]
  | main | server | reader | worker | writer => simp [serverDesign]

/-- Who frees what. -/
def releaser : ServerResource → ServerParty
  | serverStruct | serverThread => main
  | serverQueue | serverAddress | serverPool | factory | acceptorStruct | acceptorThread
  | acceptorSelector => server
  | acceptorSocket | acceptorQueue | readers => acceptor
  | readerStruct _ | readerThread _ | readerSelector _ | readerName _ | pipeName _ => acceptor
  | readerQueue pipe | workerStruct pipe | workerThread pipe | workerName pipe => reader pipe
  | workerQueue pipe | workerPool pipe | writerStruct pipe | writerThread pipe
  | writerName pipe => worker pipe
  | writerQueue pipe => writer pipe

theorem serverDesign_release (member : .release resource ∈ (serverDesign nbPipes).teardown party) :
    party = releaser resource := by
  cases party <;> simp [serverDesign, readerEndSteps] at member
  case acceptor => 
    rcases member with rfl | rfl | ⟨pipe, _, rfl | rfl | rfl | rfl | rfl⟩ | rfl <;> rfl
  case main => rcases member with rfl | rfl <;> rfl
  case server => rcases member with rfl | rfl | rfl | rfl | rfl | rfl | rfl <;> rfl
  case reader => rcases member with rfl | rfl | rfl | rfl <;> rfl
  case worker => rcases member with rfl | rfl | rfl | rfl | rfl <;> rfl
  case writer => subst member; rfl

theorem serverDesign_child : (serverDesign nbPipes).Child party other ↔
    match party with
    | main => other = server
    | server => other = acceptor
    | acceptor => ∃ pipe < nbPipes, other = reader pipe
    | reader pipe => other = worker pipe
    | worker pipe => other = writer pipe
    | writer _ => False := by
  cases party <;> simp [Design.Child, serverDesign, readerEndSteps]

theorem serverDesign_join : .join other ∈ (serverDesign nbPipes).teardown party ↔
    (serverDesign nbPipes).Child party other := by
  cases party <;> simp [Design.Child, serverDesign, readerEndSteps]

theorem serverDesign_ordered (nbPipes : Nat) : (serverDesign nbPipes).Ordered serverRoot where
  parent := by
    intro party other child first second
    rw [serverDesign_child] at first second
    cases party <;> cases other <;> simp_all
    
  unrooted := by
    intro party child tells
    rw [serverDesign_child] at tells
    cases party <;> simp at tells <;> grind [serverRoot]
  stopsOnce := serverDesign_stopsOnce nbPipes
  joins tells := serverDesign_join.mpr tells
  joinsChild member := serverDesign_join.mp member
  stopsFirst := serverDesign_stopsFirst nbPipes
  releaser first second := (serverDesign_release first).trans (serverDesign_release second).symm
  releasesOnce := serverDesign_releasesOnce nbPipes

/-- No thread releases a resource in front of its last use. -/
theorem serverDesign_usesFirst (nbPipes : Nat) (party : ServerParty) (resource : ServerResource) :
    Before ((serverDesign nbPipes).teardown party) (.use resource) (.release resource) := by
  cases party with
  | acceptor =>
      have blocks : Before ((List.range nbPipes).flatMap readerEndSteps) (.use resource)
          (.release resource) := by
        apply readerEnds_before
        · simp [readerEndSteps]
        · simp [readerEndSteps]
          grind
      have uses : Before ((List.range nbPipes).flatMap fun pipe => (handlerUses pipe).map .use)
          (.use resource) (.release resource) := handlerUses_before (by simp)
      cases resource <;> simp [serverDesign, blocks, uses, readerEndSteps, mem_handlerUses]
  | server => cases resource <;> simp [serverDesign]
  | main | reader | worker | writer => cases resource <;> simp [serverDesign]

/-- Whoever waits for a thread releases nothing that is its before; the acceptor has other
things to release first. -/
theorem serverDesign_waitsFirst (tells : (serverDesign nbPipes).Child party other)
    (apart : party ≠ acceptor) (resource : ServerResource) :
    Before ((serverDesign nbPipes).teardown party) (.join other) (.release resource) := by
  rw [serverDesign_child] at tells
  cases party with
  | acceptor => exact absurd rfl apart
  | main | server | reader | worker => cases tells; simp [serverDesign]
  | writer => exact tells.elim

theorem acceptorExit_waitsFirst {pipe : Nat} (own : resource = readerStruct pipe ∨
      resource = readerThread pipe ∨ resource = readerSelector pipe ∨ resource = readerName pipe ∨
      resource = pipeName pipe) :
    Before ((serverDesign nbPipes).teardown acceptor) (.join (reader pipe))
      (.release resource) := by
  have blocks : Before ((List.range nbPipes).flatMap readerEndSteps) (.join (reader pipe))
      (.release resource) := by
    apply readerEnds_before
    · intro other
      rcases own with rfl | rfl | rfl | rfl | rfl <;> simp [readerEndSteps]
    · intro first second
      rcases own with rfl | rfl | rfl | rfl | rfl <;> simp +contextual [readerEndSteps, eq_comm]
  have uses : Before ((List.range nbPipes).flatMap fun pipe => (handlerUses pipe).map .use)
      (.join (reader pipe)) (.release resource) := handlerUses_before (by simp)
  rcases own with rfl | rfl | rfl | rfl | rfl <;> simp [serverDesign, blocks, uses, readerEndSteps]

/-- The threads of one pipe. -/
def InPipe (pipe : Nat) (party : ServerParty) : Prop :=
  party = reader pipe ∨ party = worker pipe ∨ party = writer pipe

/-- In front of the call that tells the thread to end stands the last use of what is the
thread's or of one below. -/
theorem acceptorExit_usesFirst {pipe : Nat} (own : InPipe pipe (releaser resource)) :
    Before ((serverDesign nbPipes).teardown acceptor) (.use resource) (.stop (reader pipe)) := by
  have apart : releaser resource ≠ acceptor := by
    intro same
    simp [same, InPipe] at own
  have blocks : Before ((List.range nbPipes).flatMap readerEndSteps) (.use resource)
      (.stop (reader pipe)) := by
    apply readerEnds_before
    · intro other
      simp only [readerEndSteps, threadJoinSteps, List.cons_append, List.nil_append, before_cons,
        before_nil, List.mem_cons, Call.use.injEq, reduceCtorEq, false_imp_iff, Call.stop.injEq,
        false_or, List.not_mem_nil, or_false, true_and, and_true, not_or]
      intro _
      exact ⟨fun same => apart (same ▸ rfl), fun same => apart (same ▸ rfl)⟩
    · intro other later told uses
      simp only [readerEndSteps, threadJoinSteps, List.cons_append, List.nil_append, List.mem_cons,
        Call.stop.injEq, reader.injEq, reduceCtorEq, false_or, or_false, List.not_mem_nil] at told
      simp only [readerEndSteps, threadJoinSteps, List.cons_append, List.nil_append, List.mem_cons,
        Call.use.injEq, reduceCtorEq, false_or, or_false, List.not_mem_nil] at uses
      subst told
      rcases uses with rfl | rfl | rfl | rfl
      · exact absurd rfl apart
      · simpa [releaser, InPipe, eq_comm] using own
      · exact absurd rfl apart
      · exact absurd rfl apart
  have uses : Before ((List.range nbPipes).flatMap fun pipe => (handlerUses pipe).map .use)
      (.use resource) (.stop (reader pipe)) := handlerUses_before (by simp)
  have cleans : resource ≠ acceptorThread := by
    rintro rfl
    simp [releaser, InPipe] at own
  simp [serverDesign, blocks, uses, cleans, readerEndSteps]

theorem readerExit_usesFirst {pipe : Nat}
    (own : releaser resource = worker pipe ∨ releaser resource = writer pipe) :
    Before ((serverDesign nbPipes).teardown (reader pipe)) (.use resource)
      (.stop (worker pipe)) := by
  cases resource <;> simp [serverDesign] <;> simp [releaser] at own

theorem workerExit_usesFirst {pipe : Nat} (own : releaser resource = writer pipe) :
    Before ((serverDesign nbPipes).teardown (worker pipe)) (.use resource)
      (.stop (writer pipe)) := by
  cases resource <;> simp [serverDesign] <;> simp [releaser] at own

/-! ## Why the threads find what they reach -/

theorem releaser_releases (other : releaser resource ≠ acceptor) :
    .release resource ∈ (serverDesign nbPipes).teardown (releaser resource) := by
  cases resource <;> simp [releaser, serverDesign] at other ⊢

/-- A thread finds what it releases itself. -/
theorem guards_own (other : releaser resource ≠ acceptor) :
    (serverDesign nbPipes).Guards (releaser resource) resource :=
  .own (releaser_releases other) (serverDesign_usesFirst _ _ _)

/-- A thread finds what is released by one that waits for it. -/
theorem guards_waited {child : ServerParty} (apart : releaser resource ≠ acceptor)
    (tells : (serverDesign nbPipes).Child (releaser resource) child)
    (below : (serverDesign nbPipes).Below child party) :
    (serverDesign nbPipes).Guards party resource :=
  .joined (releaser_releases apart) (serverDesign_join.mpr tells) below
    (serverDesign_waitsFirst tells apart resource)

theorem worker_below (pipe : Nat) : (serverDesign nbPipes).Below (reader pipe) (worker pipe) :=
  .single (serverDesign_child.mpr rfl)

theorem writer_below (pipe : Nat) : (serverDesign nbPipes).Below (worker pipe) (writer pipe) :=
  .single (serverDesign_child.mpr rfl)

theorem InPipe.below {pipe : Nat} (inside : InPipe pipe party) :
    (serverDesign nbPipes).Below (reader pipe) party := by
  rcases inside with rfl | rfl | rfl
  · exact .refl
  · exact worker_below pipe
  · exact (worker_below pipe).trans (writer_below pipe)

theorem InPipe.below_acceptor {pipe : Nat} (inside : InPipe pipe party) (started : pipe < nbPipes) :
    (serverDesign nbPipes).Below acceptor party :=
  .head (serverDesign_child.mpr ⟨pipe, started, rfl⟩) inside.below

/-- The acceptor stands above the threads of the pipes. -/
theorem acceptor_guards {pipe : Nat} (started : pipe < nbPipes)
    (own : InPipe pipe (releaser resource)) :
    (serverDesign nbPipes).Guards acceptor resource := by
  have apart : releaser resource ≠ acceptor := by
    intro same
    rw [same] at own
    rcases own with other | other | other <;> cases other
  exact .above (releaser_releases apart) (serverDesign_child.mpr ⟨pipe, started, rfl⟩) own.below
    (acceptorExit_usesFirst own)

theorem acceptor_guards_own (own : releaser resource = acceptor) :
    (serverDesign nbPipes).Guards acceptor resource := by
  by_cases released : .release resource ∈ (serverDesign nbPipes).teardown acceptor
  · exact .own released (serverDesign_usesFirst _ _ _)
  · apply Design.Guards.kept
    intro other member
    have same := serverDesign_release member
    rw [own] at same
    exact released (same ▸ member)

/-- The threads of a pipe find what the acceptor releases behind the reader's end. -/
theorem pipe_guards_acceptor {pipe : Nat} (inside : InPipe pipe party)
    (own : resource = readerStruct pipe ∨ resource = readerThread pipe ∨
      resource = readerSelector pipe ∨ resource = readerName pipe ∨ resource = pipeName pipe) :
    (serverDesign nbPipes).Guards party resource := by
  have owner : releaser resource = acceptor := by
    rcases own with rfl | rfl | rfl | rfl | rfl <;> rfl
  by_cases released : .release resource ∈ (serverDesign nbPipes).teardown acceptor
  · have started : pipe < nbPipes := by
      rcases own with rfl | rfl | rfl | rfl | rfl <;>
        simpa [serverDesign, readerEndSteps] using released
    exact .joined released (serverDesign_join.mpr (serverDesign_child.mpr ⟨pipe, started, rfl⟩))
      inside.below (acceptorExit_waitsFirst own)
  · apply Design.Guards.kept
    intro other member
    have same := serverDesign_release member
    rw [owner] at same
    exact released (same ▸ member)

/-- The threads of a pipe find what one of them releases. -/
theorem pipe_guards {pipe : Nat} (inside : InPipe pipe party)
    (own : InPipe pipe (releaser resource)) : (serverDesign nbPipes).Guards party resource := by
  have apart : releaser resource ≠ acceptor := by
    intro same
    rw [same] at own
    rcases own with other | other | other <;> cases other
  have releases : .release resource ∈ (serverDesign nbPipes).teardown (releaser resource) :=
    releaser_releases apart
  have tellsWorker : (serverDesign nbPipes).Child (reader pipe) (worker pipe) :=
    serverDesign_child.mpr rfl
  have tellsWriter : (serverDesign nbPipes).Child (worker pipe) (writer pipe) :=
    serverDesign_child.mpr rfl
  rcases inside with rfl | rfl | rfl
  · -- the reader
    rcases own with mine | mine | mine
    · exact mine ▸ guards_own apart
    · exact .above releases tellsWorker (mine ▸ .refl) (readerExit_usesFirst (.inl mine))
    · exact .above releases tellsWorker (mine ▸ writer_below pipe)
        (readerExit_usesFirst (.inr mine))
  · -- the worker
    rcases own with mine | mine | mine
    · exact guards_waited apart (mine ▸ tellsWorker) .refl
    · exact mine ▸ guards_own apart
    · exact .above releases tellsWriter (mine ▸ .refl) (workerExit_usesFirst mine)
  · -- the writer
    rcases own with mine | mine | mine
    · exact guards_waited apart (mine ▸ tellsWorker) (writer_below pipe)
    · exact guards_waited apart (mine ▸ tellsWriter) .refl
    · exact mine ▸ guards_own apart

/-- What the threads of a pipe reach, but for the acceptor's queue. -/
theorem pipe_reaches {pipe : Nat} (inside : InPipe pipe party)
    (reaches : resource ∈ runUses nbPipes party ∨
      .use resource ∈ (serverDesign nbPipes).teardown party)
    (other : resource ≠ acceptorQueue) : (serverDesign nbPipes).Guards party resource := by
  have which : (pipe < nbPipes ∧ releaser resource = server) ∨ resource = readerStruct pipe ∨
      resource = readerThread pipe ∨ resource = readerSelector pipe ∨
      InPipe pipe (releaser resource) := by
    rcases inside with rfl | rfl | rfl <;> cases resource <;>
      simp [runUses, serverDesign, pipeUses, handlerUses, releaser, InPipe] at reaches other ⊢ <;>
      first | exact reaches | exact reaches.2 | exact reaches.elim And.right id
  rcases which with ⟨started, mine⟩ | mine | mine | mine | mine
  · exact guards_waited (by rw [mine]; decide) (mine ▸ serverDesign_child.mpr rfl)
      (inside.below_acceptor started)
  · exact pipe_guards_acceptor inside (.inl mine)
  · exact pipe_guards_acceptor inside (.inr (.inl mine))
  · exact pipe_guards_acceptor inside (.inr (.inr (.inl mine)))
  · exact pipe_guards inside mine

/-- What the run loops and the teardowns reach, but for the acceptor's queue. -/
theorem serverDesign_guards (reaches : resource ∈ runUses nbPipes party ∨
      .use resource ∈ (serverDesign nbPipes).teardown party)
    (other : resource = acceptorQueue → party = acceptor) :
    (serverDesign nbPipes).Guards party resource := by
  have tellsServer : (serverDesign nbPipes).Child main server := serverDesign_child.mpr rfl
  have tellsAcceptor : (serverDesign nbPipes).Child server acceptor := serverDesign_child.mpr rfl
  cases party with
  | main =>
      have which : resource = serverStruct ∨ resource = serverThread ∨ resource = serverQueue := by
        simp [runUses, serverDesign] at reaches
        tauto
      rcases which with rfl | rfl | rfl
      · exact guards_own (show releaser serverStruct ≠ acceptor by decide)
      · exact guards_own (show releaser serverThread ≠ acceptor by decide)
      · exact .above (releaser_releases (by decide)) tellsServer .refl (by simp [serverDesign])
  | server =>
      have which : resource = serverStruct ∨ resource = serverThread ∨
          releaser resource = server := by
        simp [runUses, serverDesign] at reaches
        rcases reaches with (rfl | rfl | rfl) | rfl | rfl | rfl | rfl | rfl | rfl <;>
          simp [releaser]
      rcases which with rfl | rfl | mine
      · exact guards_waited (by decide) tellsServer .refl
      · exact guards_waited (by decide) tellsServer .refl
      · exact mine ▸ guards_own (by rw [mine]; decide)
  | acceptor =>
      have which : releaser resource = server ∨ releaser resource = acceptor ∨
          ∃ pipe < nbPipes, InPipe pipe (releaser resource) := by
        cases resource <;>
          simp [runUses, serverDesign, mem_handlerUses, readerEndSteps] at reaches <;>
          simp [releaser, InPipe, reaches]
      rcases which with mine | mine | ⟨pipe, started, mine⟩
      · exact guards_waited (by rw [mine]; decide) (mine ▸ tellsAcceptor) .refl
      · exact acceptor_guards_own mine
      · exact acceptor_guards started mine
  | reader pipe => exact pipe_reaches (.inl rfl) reaches fun same => by cases other same
  | worker pipe =>
      exact pipe_reaches (.inr (.inl rfl)) reaches fun same => by cases other same
  | writer pipe =>
      exact pipe_reaches (.inr (.inr rfl)) reaches fun same => by cases other same

/-! ## Runs -/

section Runs

variable {actions : List (Teardown.Action ServerParty)}
  {state : Teardown.State ServerParty ServerResource}

theorem startedServer_sound (run : Run (serverDesign nbPipes).Step startedServer actions state)
    (waits : ∀ action ∈ actions, action.Waits) : state.Sound (serverDesign nbPipes) serverRoot :=
  Design.run_sound (serverDesign_ordered nbPipes) run waits (Design.start_sound serverRoot)

theorem accesses_reaches (sound : state.Sound (serverDesign nbPipes) serverRoot)
    (accesses : state.Accesses (serverDesign nbPipes) party resource) :
    resource ∈ runUses nbPipes party ∨ .use resource ∈ (serverDesign nbPipes).teardown party := by
  rcases accesses with ⟨_, uses⟩ | ⟨rest, place⟩
  · exact .inl uses
  · obtain ⟨done, whole⟩ := sound.suffix place
    right
    simp [whole]

theorem acceptorQueue_reached (reaches : acceptorQueue ∈ runUses nbPipes party ∨
      .use acceptorQueue ∈ (serverDesign nbPipes).teardown party) (apart : party ≠ acceptor) :
    ∃ pipe < nbPipes, InPipe pipe party := by
  cases party with
  | main | server => simp [runUses, serverDesign] at reaches
  | acceptor => exact absurd rfl apart
  | reader pipe | worker pipe | writer pipe =>
      refine ⟨pipe, ?_, by simp [InPipe]⟩
      simp [runUses, serverDesign] at reaches
      exact reaches.1

/-- The acceptor frees its queue while the pipes are still at work. -/
theorem startedServer_frees_acceptorQueue (nbPipes : Nat) :
    ∃ actions state, Run (serverDesign nbPipes).Step startedServer actions state ∧
      (∀ action ∈ actions, action.Waits) ∧ acceptorQueue ∈ state.released ∧
      ∀ pipe party, InPipe pipe party → state.place party = none := by
  -- `ServerStop` tells the server, which tells the acceptor
  obtain ⟨first, stopped, run, waits, place, told, _⟩ := Design.exists_run_leaves
    (serverDesign nbPipes) main (show serverStopJoinSteps =
      [.use serverStruct, .use serverQueue, .stop server] ++ _ from rfl) (by simp)
    startedServer rfl rfl
  obtain ⟨second, ending, run', waits', place', told', _⟩ := Design.exists_run_leaves
    (serverDesign nbPipes) server (show serverExitSteps =
      [.use serverStruct, .use acceptorStruct, .use acceptorThread, .stop acceptor] ++ _ from rfl)
    (by simp) stopped (by rw [place]; rfl) (told server (by simp))
  -- the acceptor closes its connections and frees its queue
  obtain ⟨third, freed, run'', waits'', place'', _, released⟩ := Design.exists_run_leaves
    (serverDesign nbPipes) acceptor (show acceptorExitSteps nbPipes =
      ([.use acceptorStruct, .use acceptorSelector, .release acceptorSocket, .use acceptorQueue] ++
        ((List.range nbPipes).flatMap fun pipe => (handlerUses pipe).map .use) ++
        [.use serverPool, .release acceptorQueue]) ++
      (.use readers :: ((List.range nbPipes).flatMap readerEndSteps ++
        ([.release readers] ++ cleanupSteps acceptorThread))) by simp)
    (by simp) ending (by rw [place', place]; rfl) (told' acceptor (by simp))
  refine ⟨first ++ (second ++ third), freed, run.append (run'.append run''), ?_,
    released acceptorQueue (by simp), ?_⟩
  · intro action member
    rcases List.mem_append.mp member with early | later
    · exact waits action early
    · rcases List.mem_append.mp later with middle | late
      · exact waits' action middle
      · exact waits'' action late
  · intro pipe party inside
    rw [place'', place', place]
    rcases inside with rfl | rfl | rfl <;> rfl

/-- A thread can come to something that is released in one way only: a thread of a pipe, which
closes a connection, to the queue of the acceptor. -/
theorem startedServer_reaches_released_iff (nbPipes : Nat) (party : ServerParty)
    (resource : ServerResource) :
    (∃ actions state, Run (serverDesign nbPipes).Step startedServer actions state ∧
      (∀ action ∈ actions, action.Waits) ∧ state.Accesses (serverDesign nbPipes) party resource ∧
      resource ∈ state.released) ↔
    resource = acceptorQueue ∧ ∃ pipe < nbPipes, InPipe pipe party := by
  constructor
  · rintro ⟨actions, state, run, waits, accesses, released⟩
    have sound := startedServer_sound run waits
    have reaches := accesses_reaches sound accesses
    have exempt : ¬ (resource = acceptorQueue → party = acceptor) := by
      intro other
      exact sound.unreleased (serverDesign_ordered nbPipes) accesses
        (serverDesign_guards reaches other) released
    obtain ⟨rfl, apart⟩ := Classical.not_imp.mp exempt
    exact ⟨rfl, acceptorQueue_reached reaches apart⟩
  · rintro ⟨rfl, pipe, started, inside⟩
    obtain ⟨actions, state, run, waits, released, working⟩ :=
      startedServer_frees_acceptorQueue nbPipes
    refine ⟨actions, state, run, waits, .inl ⟨working pipe party inside, ?_⟩, released⟩
    rcases inside with rfl | rfl | rfl <;> simp [serverDesign, runUses, started, pipeUses]

/-- What a server with `nbPipes` pipes consists of. -/
def ServerResource.Exists (nbPipes : Nat) : ServerResource → Prop
  | readerStruct pipe | readerThread pipe | readerSelector pipe | readerQueue pipe
  | readerName pipe | pipeName pipe | workerStruct pipe | workerThread pipe | workerQueue pipe
  | workerPool pipe | workerName pipe | writerStruct pipe | writerThread pipe | writerQueue pipe
  | writerName pipe => pipe < nbPipes
  | _ => True

/-- Whoever has been told to end stands in the tree. -/
theorem told_exists (sound : state.Sound (serverDesign nbPipes) serverRoot) {pipe : Nat}
    (told : state.told party = true) (inside : InPipe pipe party) : pipe < nbPipes := by
  have reader_told : state.told (reader pipe) = true :=
    sound.told_above (serverDesign_ordered nbPipes) inside.below told
  rcases sound.told.mp reader_told with rooted | ⟨teller, passed⟩
  · cases rooted
  · have tells : (serverDesign nbPipes).Child teller (reader pipe) := passed.mem
    rw [serverDesign_child] at tells
    cases teller with
    | acceptor =>
        obtain ⟨other, started, same⟩ := tells
        cases same
        exact started
    | main | server | reader | worker => cases tells
    | writer => exact tells.elim

theorem release_exists (sound : state.Sound (serverDesign nbPipes) serverRoot)
    (told : state.told party = true)
    (releases : .release resource ∈ (serverDesign nbPipes).teardown party) :
    resource.Exists nbPipes := by
  have owner := serverDesign_release releases
  have apart : ∀ pipe, InPipe pipe party → pipe < nbPipes :=
    fun pipe inside => told_exists sound told inside
  cases resource with
  | readerStruct pipe | readerThread pipe | readerSelector pipe | readerName pipe | pipeName pipe =>
      cases owner
      show pipe < nbPipes
      simpa [releaser, serverDesign, readerEndSteps] using releases
  | readerQueue pipe | workerStruct pipe | workerThread pipe | workerName pipe =>
      exact apart pipe (.inl owner)
  | workerQueue pipe | workerPool pipe | writerStruct pipe | writerThread pipe | writerName pipe =>
      exact apart pipe (.inr (.inl owner))
  | writerQueue pipe => exact apart pipe (.inr (.inr owner))
  | serverStruct | serverThread | serverQueue | serverAddress | serverPool | factory
  | acceptorStruct | acceptorThread | acceptorSelector | acceptorSocket | acceptorQueue
  | readers => trivial

theorem exists_released (present : resource.Exists nbPipes) :
    (serverDesign nbPipes).Below main (releaser resource) ∧
      .release resource ∈ (serverDesign nbPipes).teardown (releaser resource) := by
  have server_below : (serverDesign nbPipes).Below main server :=
    .single (serverDesign_child.mpr rfl)
  have acceptor_below : (serverDesign nbPipes).Below main acceptor :=
    server_below.tail (serverDesign_child.mpr rfl)
  have pipe_below : ∀ pipe < nbPipes, ∀ party, InPipe pipe party →
      (serverDesign nbPipes).Below main party :=
    fun pipe started party inside => acceptor_below.trans (inside.below_acceptor started)
  cases resource with
  | serverStruct | serverThread => exact ⟨.refl, releaser_releases (by decide)⟩
  | serverQueue | serverAddress | serverPool | factory | acceptorStruct | acceptorThread
  | acceptorSelector => exact ⟨server_below, releaser_releases (by decide)⟩
  | acceptorSocket | acceptorQueue | readers =>
      exact ⟨acceptor_below, by simp [releaser, serverDesign]⟩
  | readerStruct pipe | readerThread pipe | readerSelector pipe | readerName pipe | pipeName pipe =>
      have started : pipe < nbPipes := present
      exact ⟨acceptor_below, by simp [releaser, serverDesign, readerEndSteps, started]⟩
  | readerQueue pipe | workerStruct pipe | workerThread pipe | workerName pipe =>
      exact ⟨pipe_below pipe present _ (.inl rfl), by simp [releaser, serverDesign]⟩
  | workerQueue pipe | workerPool pipe | writerStruct pipe | writerThread pipe | writerName pipe =>
      exact ⟨pipe_below pipe present _ (.inr (.inl rfl)), by simp [releaser, serverDesign]⟩
  | writerQueue pipe =>
      exact ⟨pipe_below pipe present _ (.inr (.inr rfl)), by simp [releaser, serverDesign]⟩

/-- Nothing is released twice; when `ServerJoin` returns, the server with all its pipes has
been released, and nothing else. -/
theorem startedServer_releases_once
    (run : Run (serverDesign nbPipes).Step startedServer actions state)
    (waits : ∀ action ∈ actions, action.Waits) :
    state.released.Nodup ∧ (state.Finished main →
      ∀ resource, resource ∈ state.released ↔ resource.Exists nbPipes) := by
  have sound := startedServer_sound run waits
  have ordered := serverDesign_ordered nbPipes
  refine ⟨sound.once, ?_⟩
  intro finished resource
  constructor
  · intro member
    obtain ⟨party, passed⟩ := sound.released.mp member
    exact release_exists sound (sound.left passed.place_ne_none) passed.mem
  · intro present
    obtain ⟨below, releases⟩ := exists_released present
    exact sound.released_below ordered finished below releases

/-- The height of a thread in the tree. -/
def serverRank : ServerParty → Nat
  | main => 5
  | server => 4
  | acceptor => 3
  | reader _ => 2
  | worker _ => 1
  | writer _ => 0

/-- From every state that is reached a reader that has been told to end can end, with its worker
and its writer, all that they release freed, and no step of a thread outside the pipe. -/
theorem startedServer_pipe_ends
    (run : Run (serverDesign nbPipes).Step startedServer actions state)
    (waits : ∀ action ∈ actions, action.Waits) {pipe : Nat}
    (told : state.told (reader pipe) = true) :
    ∃ after, (serverDesign nbPipes).Descends (reader pipe) state after ∧
      (∀ party, InPipe pipe party → after.Finished party) ∧
      ∀ resource, InPipe pipe (releaser resource) → resource ∈ after.released := by
  have sound := startedServer_sound run waits
  have ordered := serverDesign_ordered nbPipes
  have ranked : ∀ {parent child}, (serverDesign nbPipes).Child parent child →
      serverRank child < serverRank parent := by
    intro parent child tells
    rw [serverDesign_child] at tells
    cases parent with
    | acceptor =>
        obtain ⟨_, _, same⟩ := tells
        cases same
        simp [serverRank]
    | main | server | reader | worker =>
        cases tells
        simp [serverRank]
    | writer => exact tells.elim
  obtain ⟨after, descends, finished⟩ :=
    Design.descends_finished ordered ranked (reader pipe) state sound told
  have sound' := descends.sound ordered sound
  refine ⟨after, descends, ?_, ?_⟩
  · intro party inside
    exact sound'.finished_below ordered finished inside.below
  · intro resource inside
    apply sound'.released_below ordered finished inside.below
    apply releaser_releases
    intro same
    rw [same] at inside
    rcases inside with other | other | other <;> cases other

/-- A server with one pipe from `ServerStop` to the end of `ServerJoin`. -/
def serverShutdown : List (Teardown.Action ServerParty) :=
  [Action.leave main] ++ List.replicate 4 (Action.call main) ++
    [Action.leave server] ++ List.replicate 6 (Action.call server) ++
      [Action.leave acceptor] ++ List.replicate 22 (Action.call acceptor) ++
        [Action.leave (reader 0)] ++ List.replicate 5 (Action.call (reader 0)) ++
          [Action.leave (worker 0)] ++ List.replicate 5 (Action.call (worker 0)) ++
            [Action.leave (writer 0)] ++ List.replicate 3 (Action.call (writer 0)) ++
          List.replicate 7 (Action.call (worker 0)) ++
        List.replicate 6 (Action.call (reader 0)) ++
      List.replicate 8 (Action.call acceptor) ++
    List.replicate 9 (Action.call server) ++ List.replicate 3 (Action.call main)

theorem startedServer_releases_once_shutdown :
    ∃ state, execute (serverDesign 1).step startedServer serverShutdown = some state ∧
      state.Finished main ∧ (state.released.Nodup ∧ (state.Finished main →
        ∀ resource, resource ∈ state.released ↔ resource.Exists 1)) := by
  obtain ⟨state, runs, run⟩ := exists_run_of_execute (serverDesign 1).Step (serverDesign 1).step
    startedServer serverShutdown (fun _ _ _ taken => taken) (by decide)
  have ended : (execute (serverDesign 1).step startedServer serverShutdown).bind
      (fun state => state.place main) = some [] := by decide
  rw [runs] at ended
  exact ⟨state, runs, ended, startedServer_releases_once run (by decide)⟩

theorem startedServer_pipe_ends_told :
    ∃ state, execute (serverDesign 1).step startedServer (serverShutdown.take 35) = some state ∧
      ∃ after, (serverDesign 1).Descends (reader 0) state after ∧
        (∀ party, InPipe 0 party → after.Finished party) ∧
        ∀ resource, InPipe 0 (releaser resource) → resource ∈ after.released := by
  obtain ⟨state, runs, run⟩ := exists_run_of_execute (serverDesign 1).Step (serverDesign 1).step
    startedServer (serverShutdown.take 35) (fun _ _ _ taken => taken) (by decide)
  have told : (execute (serverDesign 1).step startedServer (serverShutdown.take 35)).map
      (fun state => state.told (reader 0)) = some true := by decide
  rw [runs] at told
  exact ⟨state, runs, startedServer_pipe_ends run (by decide) (Option.some.inj told)⟩

end Runs

end Aio4c

import Aio4c.Acceptor
import Aio4c.SelectorPass

/-! What a caller of `NewAcceptor` may conclude from its result. The result of the init
callback does not reach `ThreadStart`, so a pointer is returned whatever became of the
socket: the acceptor is ready exactly if none of the calls in `_AcceptorInit` failed. -/

set_option autoImplicit false

namespace Aio4c

open TransitionSystem

/-- The selector has a slot for the socket and a busy key for the slot. -/
def Acceptor.Registered (acceptor : Acceptor) : Prop :=
  ∃ selector key cell slot, acceptor.selector = some selector ∧ acceptor.key = some key ∧
    key ∈ selector.busyKeys ∧ selector.keys key = some cell ∧ cell.fd = acceptor.socket ∧
    pollAt selector.polls cell.poll = some slot ∧ slot.fd = acceptor.socket ∧
    slot.events = opRead

/-- The socket of the acceptor is listening and registered. -/
def Acceptor.Ready (acceptor : Acceptor) : Prop :=
  acceptor.sockets acceptor.socket = .listening ∧ acceptor.Registered

/-- Every call of `_AcceptorInit` on the socket succeeds. -/
def AcceptorOutcomes.Succeed (outcomes : AcceptorOutcomes) : Prop :=
  outcomes.socket.isSome = true ∧ outcomes.fcntl = true ∧ outcomes.setsockopt = true ∧
    outcomes.bind = true ∧ outcomes.listen = true ∧ outcomes.reallocated = true

/-! ## The acceptor -/

/-- A ready acceptor with all that keeps it so while connections are accepted. -/
def Acceptor.Serving (acceptor : Acceptor) : Prop :=
  acceptor.sockets acceptor.socket = .listening ∧
    ∃ selector registry registration, acceptor.selector = some selector ∧
      acceptor.key = some registration.key ∧ selector.Represents registry ∧ selector.Linked ∧
      CurKeyBusy selector ∧ registry acceptor.socket = some registration ∧
      registration.operation = opRead

/-- An acceptor that will not be ready any more. -/
def Acceptor.Lost (acceptor : Acceptor) : Prop :=
  acceptor.sockets acceptor.socket ≠ .listening ∨ acceptor.key = none

structure Acceptor.Fresh (acceptor : Acceptor) : Prop where
  selector : ∀ selector, acceptor.selector = some selector → ∃ pipe, selector = newSelector pipe
  sockets : ∀ socket, acceptor.sockets socket = .closed
  key : acceptor.key = none

theorem Acceptor.Serving.ready {acceptor : Acceptor} (serving : acceptor.Serving) :
    acceptor.Ready := by
  obtain ⟨listening, selector, registry, registration, held, key, represents, _, _, registered,
    operation⟩ := serving
  obtain ⟨member, cell, found, fd⟩ := represents.finite acceptor.socket registration registered
  obtain ⟨i, cell', slot, _, here⟩ := represents.slotOf member
  cases found.symm.trans here.found
  have known := here.registered
  rw [fd, registered, Option.some.injEq] at known
  have interest : cell.operation = opRead := by
    rw [← operation, known]
    rfl
  refine ⟨listening, selector, registration.key, cell, slot, held, key, member, found, fd, ?_,
    here.descriptor.trans fd, here.interest.trans interest⟩
  rw [here.index]
  exact here.located

theorem Acceptor.Lost.not_ready {acceptor : Acceptor} (lost : acceptor.Lost) :
    ¬ acceptor.Ready := by
  intro ready
  obtain ⟨listening, _, _, _, _, _, key, _⟩ := ready
  rcases lost with other | unregistered
  · exact other listening
  · rw [unregistered] at key
    cases key

theorem register_fresh (pipe socket : Int) {reallocated : Bool} {key : Option Nat}
    {selector : Selector}
    (registered : register (newSelector pipe) opRead socket 0 reallocated =
      some (key, selector)) :
    (reallocated = true → ∃ registry registration, key = some registration.key ∧
      selector.Represents registry ∧ selector.Linked ∧ CurKeyBusy selector ∧
      registry socket = some registration ∧ registration.operation = opRead) ∧
      (reallocated = false → key = none) := by
  constructor
  · intro equal
    subst equal
    obtain ⟨node, after, result, _, represents⟩ :=
      (newSelector_represents pipe).register_new (show Registry.empty socket = none from rfl)
        opRead 0
    obtain ⟨linked, more, current⟩ := register_linked (newSelector_linked pipe) registered
    rw [result, Option.some.injEq, Prod.mk.injEq] at registered
    obtain ⟨rfl, rfl⟩ := registered
    refine ⟨_, { operation := opRead, attachment := 0, count := 1, key := node }, rfl, represents,
      linked, fun key here => ?_, Function.update_self _ _ _, rfl⟩
    rw [current] at here
    cases here
  · intro equal
    subst equal
    simp [register, newSelector, takeFreeKey, growPolls] at registered
    exact registered.1.symm

theorem Acceptor.dropSocket_lost {acceptor : Acceptor}
    (unknown : acceptor.sockets (-1) ≠ .listening) : acceptor.dropSocket.Lost := by
  left
  by_cases here : acceptor.socket = -1
  · simp [Acceptor.dropSocket, Acceptor.setSocket, here]
  · simpa [Acceptor.dropSocket, Acceptor.setSocket, Ne.symm here] using unknown

/-- The init callback makes the acceptor ready if every call succeeds, and else leaves it
in a state from which it never will be. -/
theorem acceptorInit_ok {outcomes : AcceptorOutcomes} {acceptor after : Acceptor} {result : Bool}
    (fresh : acceptor.Fresh) (init : acceptorInit outcomes acceptor = some (result, after)) :
    (outcomes.Succeed → result = true ∧ after.Serving) ∧ (¬ outcomes.Succeed → after.Lost) := by
  unfold acceptorInit at init
  split at init
  next started readers _ =>
  simp only at init
  split at init
  · next closed =>
      simp only [Option.some.injEq, Prod.mk.injEq] at init
      obtain ⟨_, rfl⟩ := init
      refine ⟨fun succeed => ?_, fun _ => .inl ?_⟩
      · simp [AcceptorOutcomes.Succeed, closed] at succeed
      · simp [fresh.sockets]
  · next socket opened =>
      -- The kernel has no descriptor -1, before the bind and behind it.
      have unknown : ∀ state, (Function.update acceptor.sockets (socket : Int) state) (-1) ≠
          .listening := fun state => by
        rw [Function.update_of_ne (by omega), fresh.sockets]
        decide
      split_ifs at init with fcntl setsockopt bind listen
      · simp only [Option.some.injEq, Prod.mk.injEq] at init
        obtain ⟨_, rfl⟩ := init
        refine ⟨fun succeed => ?_, fun _ => Acceptor.dropSocket_lost (unknown .opened)⟩
        simp [succeed.2.1] at fcntl
      · simp only [Option.some.injEq, Prod.mk.injEq] at init
        obtain ⟨_, rfl⟩ := init
        refine ⟨fun succeed => ?_, fun _ => Acceptor.dropSocket_lost (unknown .opened)⟩
        simp [succeed.2.2.1] at setsockopt
      · simp only [Option.some.injEq, Prod.mk.injEq] at init
        obtain ⟨_, rfl⟩ := init
        refine ⟨fun succeed => ?_, fun _ => Acceptor.dropSocket_lost (unknown .opened)⟩
        simp [succeed.2.2.2.1] at bind
      · simp only [Option.some.injEq, Prod.mk.injEq] at init
        obtain ⟨_, rfl⟩ := init
        refine ⟨fun succeed => ?_, fun _ => .inl (by simp [Acceptor.setSocket])⟩
        simp [succeed.2.2.2.2.1] at listen
      · simp only [Option.bind_eq_bind, Option.bind_eq_some_iff, Option.pure_def,
          Option.some.injEq, Prod.mk.injEq, Prod.exists] at init
        obtain ⟨selector, held, key, selector', registered, rfl, rfl⟩ := init
        obtain ⟨pipe, rfl⟩ := fresh.selector selector held
        obtain ⟨granted, refused⟩ := register_fresh pipe socket registered
        refine ⟨fun succeed => ⟨rfl, ?_, ?_⟩, fun failed => .inr (refused ?_)⟩
        · simp [Acceptor.setSocket]
        · obtain ⟨registry, registration, key', represents, linked, busy, known, operation⟩ :=
            granted succeed.2.2.2.2.2
          exact ⟨selector', registry, registration, rfl, key', represents, linked, busy, known,
            operation⟩
        · cases memory : outcomes.reallocated with
          | false => rfl
          | true =>
              exact absurd ⟨by simp [opened], by simpa using fcntl, by simpa using setsockopt,
                by simpa using bind, by simpa using listen, memory⟩ failed

theorem Acceptor.Lost.close {acceptor : Acceptor} (lost : acceptor.Lost) :
    Acceptor.Lost (if acceptor.socket = -1 then acceptor else acceptor.setSocket .closed) := by
  split
  · exact lost
  · exact .inl (by simp [Acceptor.setSocket])

theorem acceptorExit_lost {acceptor after : Acceptor} (lost : acceptor.Lost)
    (exit : acceptorExit acceptor = some after) : after.Lost := by
  simp only [acceptorExit, Option.bind_eq_bind, Option.pure_def] at exit
  split at exit
  · simp only [Option.bind_some, Option.some.injEq] at exit
    exact exit ▸ lost.close
  · simp only [Option.bind_some, Option.bind_eq_some_iff, Option.some.injEq] at exit
    obtain ⟨_, _, ⟨_, selector⟩, _, released⟩ := exit
    have lost' : Acceptor.Lost { acceptor with selector := some selector } := lost
    exact released ▸ lost'.close

theorem Acceptor.Serving.select {acceptor : Acceptor} {selector : Selector}
    (serving : acceptor.Serving) (held : acceptor.selector = some selector)
    (outcome : Option (Int × (Nat → Int16))) :
    Acceptor.Serving { acceptor with selector := some (Aio4c.select selector outcome).2 } := by
  obtain ⟨listening, own, registry, registration, held', key, represents, linked, busy, known⟩ :=
    serving
  cases held.symm.trans held'
  obtain ⟨linked', kept⟩ := selectorStep_curKey linked busy
    (show SelectorStep selector (.select outcome) (Aio4c.select selector outcome).2 from rfl)
  refine ⟨listening, _, registry, registration, rfl, key, ?_, linked', kept.mpr trivial, known⟩
  cases outcome with
  | none => exact represents
  | some outcome =>
      obtain ⟨ready, polls, result, represents', _⟩ := represents.select outcome.1 outcome.2
      rwa [result]

theorem Acceptor.Serving.selectionKeyReady {acceptor : Acceptor} {selector after : Selector}
    {repoll : Repoll} {delivered : Option Nat} (serving : acceptor.Serving)
    (held : acceptor.selector = some selector)
    (ready : Aio4c.selectionKeyReady selector repoll = some (delivered, after)) :
    Acceptor.Serving { acceptor with selector := some after } := by
  obtain ⟨listening, own, registry, registration, held', key, represents, linked, busy, known⟩ :=
    serving
  cases held.symm.trans held'
  obtain ⟨linked', _, busy'⟩ := selectionKeyReady_linked linked busy ready
  exact ⟨listening, after, registry, registration, rfl, key,
    selectionKeyReady_represents represents busy ready, linked', busy', known⟩

/-! ## The thread of a ready acceptor -/

/-- The thread is in its loop and goes on with it. -/
def ThreadSystem.Working (system : ThreadSystem) : Prop :=
  system.thread.running = true ∧ (system.self = .looping ∨ system.self = .calling ∨
    system.self = .relocking true ∨ system.self = .assigning true)

theorem initReturns_working {debug : Bool} {system after : ThreadSystem}
    (step : ThreadStep debug system (.initReturns true) after) : after.Working := by
  simp only [ThreadStep, threadStep, ownerStep, selfStep, Option.orElse_none,
    Option.ite_none_right_eq_some, Option.some.injEq] at step
  obtain ⟨_, rfl⟩ := step
  exact ⟨rfl, .inl rfl⟩

theorem ThreadSystem.Working.ownerStep {system after : ThreadSystem} (working : system.Working)
    (startUp : system.StartUp) {action : ThreadAction}
    (step : Aio4c.ownerStep system action = some after) (unstopped : action ≠ .threadStop) :
    after.Working := by
  obtain ⟨running, place⟩ := working
  have present : system.self ≠ .absent := by
    rcases place with here | here | here | here <;> simp [here]
  cases action <;> simp only [Aio4c.ownerStep, reduceCtorEq] at step
  case create created =>
    simp only [Option.ite_none_right_eq_some, Option.some.injEq] at step
    exact absurd (startUp.unborn (.inr step.1)) present
  case threadStop => exact absurd rfl unstopped
  case read =>
    split at step
    · split at step
      · cases step
        exact ⟨running, place⟩
      · cases step
        exact ⟨running, place⟩
    · cases step
  all_goals
    simp only [Option.ite_none_right_eq_some, Option.some.injEq] at step
    obtain ⟨_, rfl⟩ := step
    exact ⟨running, place⟩

/-- Nothing but `ThreadStop` and the result of `_AcceptorRun` ends the loop. -/
theorem ThreadSystem.Working.selfStep {system after : ThreadSystem} (working : system.Working)
    {debug : Bool} {action : ThreadAction} (step : Aio4c.selfStep debug system action = some after)
    (runs : action ≠ .runReturns false) :
    after.Working ∧ action ≠ .exitReturns ∧ ∀ run, action ≠ .initReturns run := by
  obtain ⟨running, here | here | here | here⟩ := working
  · cases action <;> simp [Aio4c.selfStep, here, running, SelfPoint.InCallback] at step
    case loop =>
      subst step
      exact ⟨⟨running, .inr (.inl rfl)⟩, nofun, nofun⟩
  · cases action <;> simp [Aio4c.selfStep, here, SelfPoint.InCallback] at step
    case callback state =>
      obtain ⟨_, rfl⟩ := step
      exact ⟨⟨running, .inr (.inl here)⟩, nofun, nofun⟩
    case runReturns run =>
      subst step
      cases run with
      | true => exact ⟨⟨running, .inr (.inr (.inl rfl))⟩, nofun, nofun⟩
      | false => exact absurd rfl runs
  · cases action <;> simp [Aio4c.selfStep, here, running, SelfPoint.InCallback] at step
    case relock =>
      obtain ⟨_, rfl⟩ := step
      exact ⟨⟨running, .inr (.inr (.inr rfl))⟩, nofun, nofun⟩
  · cases action <;> simp [Aio4c.selfStep, here, SelfPoint.InCallback] at step
    case assign =>
      subst step
      exact ⟨⟨rfl, .inl rfl⟩, nofun, nofun⟩

theorem ThreadSystem.Working.step {system after : ThreadSystem} (working : system.Working)
    (startUp : system.StartUp) {debug : Bool} {action : ThreadAction}
    (step : ThreadStep debug system action after)
    (unstopped : action ≠ .threadStop) (runs : action ≠ .runReturns false) :
    after.Working ∧ action ≠ .exitReturns ∧ ∀ run, action ≠ .initReturns run := by
  unfold ThreadStep threadStep at step
  cases owned : Aio4c.ownerStep system action with
  | some reached =>
      have kept := working.ownerStep startUp owned unstopped
      rw [owned] at step
      cases step
      cases action with
      | exitReturns | initReturns => cases owned
      | _ => exact ⟨kept, nofun, nofun⟩
  | none =>
      rw [owned] at step
      exact working.selfStep step runs

/-! ## Runs -/

theorem acceptorStep_thread {debug : Bool} {outcomes : AcceptorOutcomes}
    {system after : AcceptorSystem} {action : ThreadAction}
    (step : acceptorStep debug outcomes system (.thread action) = some after) :
    ThreadStep debug system.thread action after.thread ∧ action ≠ .threadStop ∧
      action ≠ .runReturns false ∧
      ((∃ run, action = .initReturns run ∧
          acceptorInit outcomes system.acceptor = some (run, after.acceptor)) ∨
        (action = .exitReturns ∧ acceptorExit system.acceptor = some after.acceptor) ∨
        (∀ run, action ≠ .initReturns run) ∧ after.acceptor = system.acceptor) := by
  obtain ⟨thread, taken, rest⟩ := Option.bind_eq_some_iff.mp step
  split at rest
  · next run =>
      simp only [Option.bind_eq_bind, Option.bind_eq_some_iff, Option.guard_eq_some',
        Option.pure_def, Option.some.injEq, Prod.exists] at rest
      obtain ⟨result, acceptor, init, _, same, rfl⟩ := rest
      exact ⟨taken, nofun, nofun, .inl ⟨run, rfl, same ▸ init⟩⟩
  · simp only [Option.bind_eq_bind, Option.bind_eq_some_iff, Option.pure_def,
      Option.some.injEq] at rest
    obtain ⟨acceptor, exit, rfl⟩ := rest
    exact ⟨taken, nofun, nofun, .inr (.inl ⟨rfl, exit⟩)⟩
  · cases rest
  · cases rest
  · cases rest
  · next noInit noExit noFalse noStop noJoin =>
      simp only [Option.pure_def, Option.some.injEq] at rest
      subst rest
      exact ⟨taken, noStop, noFalse, .inr (.inr ⟨noInit, rfl⟩)⟩

/-- Before the end of the init callback the acceptor is as `NewAcceptor` made it; behind
it the outcomes have decided. -/
structure AcceptorSystem.Decided (outcomes : AcceptorOutcomes) (system : AcceptorSystem) :
    Prop where
  startUp : system.thread.StartUp
  fresh : system.thread.self.Early → system.acceptor.Fresh
  ready : ¬ system.thread.self.Early → outcomes.Succeed →
    system.acceptor.Serving ∧ system.thread.Working
  lost : ¬ system.thread.self.Early → ¬ outcomes.Succeed → system.acceptor.Lost

theorem newAcceptor_decided (outcomes : AcceptorOutcomes) {nbPipes : Nat}
    {allocated readers thread : Bool} {selector : Option Int} {start : AcceptorSystem}
    (made : newAcceptor nbPipes allocated readers selector thread = some start) :
    start.Decided outcomes := by
  simp only [newAcceptor, Option.ite_none_right_eq_some, Option.some.injEq] at made
  obtain ⟨_, rfl⟩ := made
  have early : newThread.self.Early := .inl rfl
  refine ⟨newThread_startUp, fun _ => ⟨fun own held => ?_, fun _ => rfl, rfl⟩,
    fun late => absurd early late, fun late => absurd early late⟩
  obtain ⟨pipe, _, made⟩ := Option.map_eq_some_iff.mp held
  exact ⟨pipe, made.symm⟩

namespace AcceptorSystem.Decided

variable {debug : Bool} {outcomes : AcceptorOutcomes} {system after : AcceptorSystem}

theorem thread (decided : system.Decided outcomes) {action : ThreadAction}
    (step : acceptorStep debug outcomes system (.thread action) = some after) :
    after.Decided outcomes := by
  obtain ⟨taken, unstopped, runs, outcome⟩ := acceptorStep_thread step
  obtain ⟨startUp, ended | ⟨other, side⟩⟩ := decided.startUp.step taken
  · obtain ⟨run, rfl, early, late⟩ := ended
    rcases outcome with ⟨result, same, init⟩ | ⟨exits, _⟩ | ⟨other, _⟩
    · cases same
      obtain ⟨succeeds, fails⟩ := acceptorInit_ok (decided.fresh early) init
      refine ⟨startUp, fun early => absurd early late, fun _ succeed => ?_, fun _ => fails⟩
      obtain ⟨rfl, serving⟩ := succeeds succeed
      exact ⟨serving, initReturns_working taken⟩
    · cases exits
    · exact absurd rfl (other run)
  · rcases outcome with ⟨run, same, _⟩ | ⟨exits, exit⟩ | ⟨_, same⟩
    · exact absurd same (other run)
    · subst exits
      have late : ¬ system.thread.self.Early := by
        simp only [ThreadStep, threadStep, ownerStep, selfStep, Option.orElse_none,
          Option.ite_none_right_eq_some] at taken
        simp [taken.1, SelfPoint.Early]
      refine ⟨startUp, fun early => absurd (side.mpr early) late, fun _ succeed => ?_,
        fun _ failed => acceptorExit_lost (decided.lost late failed) exit⟩
      obtain ⟨_, working⟩ := decided.ready late succeed
      exact absurd rfl (working.step decided.startUp taken unstopped runs).2.1
    · refine ⟨startUp, fun early => same ▸ decided.fresh (side.mpr early), fun late succeed => ?_,
        fun late failed => same ▸ decided.lost (fun early => late (side.mp early)) failed⟩
      obtain ⟨serving, working⟩ := decided.ready (fun early => late (side.mp early)) succeed
      exact ⟨same ▸ serving, (working.step decided.startUp taken unstopped runs).1⟩

/-- A call of `_AcceptorRun`: the selector changes, the rest of the acceptor does not. -/
theorem runs (decided : system.Decided outcomes) (calling : system.thread.self = .calling)
    {selector : Selector}
    (kept : system.acceptor.Serving →
      Acceptor.Serving { system.acceptor with selector := some selector }) :
    AcceptorSystem.Decided outcomes
      { system with acceptor := { system.acceptor with selector := some selector } } := by
  have late : ¬ system.thread.self.Early := by simp [calling, SelfPoint.Early]
  exact ⟨decided.startUp, fun early => absurd early late,
    fun _ succeed => (decided.ready late succeed).imp_left kept, decided.lost⟩

theorem step (decided : system.Decided outcomes) {action : AcceptorAction}
    (taken : AcceptorStep debug outcomes system action after) : after.Decided outcomes := by
  cases action with
  | thread action => exact decided.thread taken
  | select outcome =>
      simp only [AcceptorStep, acceptorStep, Option.bind_eq_bind, Option.bind_eq_some_iff,
        Option.guard_eq_some', Option.pure_def, Option.some.injEq, exists_const] at taken
      obtain ⟨calling, selector, held, rfl⟩ := taken
      exact decided.runs calling fun serving => serving.select held outcome
  | ready repoll =>
      simp only [AcceptorStep, acceptorStep, Option.bind_eq_bind, Option.bind_eq_some_iff,
        Option.guard_eq_some', Option.pure_def, Option.some.injEq, exists_const,
        Prod.exists] at taken
      obtain ⟨calling, selector, held, delivered, after, ready, rfl⟩ := taken
      exact decided.runs calling fun serving => serving.selectionKeyReady held ready

end AcceptorSystem.Decided

/-- When `ThreadStart` has returned true, the init callback has returned true unless it
returned false; and when `NewAcceptor` has returned an acceptor, its socket is listening
and registered exactly if every call that `_AcceptorInit` makes on it succeeded. -/
theorem newAcceptor_ready_iff (debug : Bool) (nbPipes : Nat) (allocated readers thread : Bool)
    (selector : Option Int) (outcomes : AcceptorOutcomes) :
    (∀ (actions : List ThreadAction) (system : ThreadSystem),
      Run (ThreadStep debug) newThread actions system → system.startResult = some true →
        (ThreadAction.initReturns true ∈ actions ↔
          ThreadAction.initReturns false ∉ actions)) ∧
    ∀ (start system : AcceptorSystem) (actions : List AcceptorAction),
      newAcceptor nbPipes allocated readers selector thread = some start →
        Run (AcceptorStep debug outcomes) start actions system → system.result = some true →
          (system.acceptor.Ready ↔ outcomes.Succeed) := by
  constructor
  · intro actions system run returned
    obtain ⟨result, once⟩ := threadStart_init run returned
    rw [once, once]
    cases result <;> decide
  · intro start system actions made run returned
    have decided : system.Decided outcomes :=
      run.keeps (fun _ _ _ holds taken => holds.step taken) (newAcceptor_decided outcomes made)
    have late := decided.startUp.late returned
    constructor
    · intro ready
      by_contra failed
      exact (decided.lost late failed).not_ready ready
    · intro succeed
      exact (decided.ready late succeed).1.ready

/-- `ThreadStart` finds the flag unset and waits for an init callback that returns `run`. -/
def awaitedStart (run : Bool) : List ThreadAction :=
  [.threadStart, .create true, .enter, .addThread, .test, .take, .initReturns run, .loop, .wake,
    .test]

/-- All goes well but for `bind`, which returns `bind`. -/
def boundOutcomes (bind : Bool) : AcceptorOutcomes :=
  { newReader := some, socket := some 4, fcntl := true, setsockopt := true, bind, listen := true
    reallocated := true }

/-- Two pipes; `NewAcceptor` waits for its thread. -/
def boundStart (bind : Bool) : Option AcceptorSystem :=
  execute (acceptorStep false (boundOutcomes bind)) (acceptorSystem 2 (some 9))
    ((awaitedStart bind).map .thread)

theorem boundStart_runs (bind : Bool) :
    ∃ system, boundStart bind = some system ∧ Run (AcceptorStep false (boundOutcomes bind))
      (acceptorSystem 2 (some 9)) ((awaitedStart bind).map .thread) system :=
  exists_run_of_execute (AcceptorStep false (boundOutcomes bind)) (acceptorStep false (boundOutcomes bind))
    (acceptorSystem 2 (some 9)) ((awaitedStart bind).map .thread) (fun _ _ _ taken => taken)
    (by cases bind <;> decide)

theorem boundStart_result (bind : Bool) :
    (boundStart bind).map AcceptorSystem.result = some (some true) := by
  cases bind <;> decide

theorem newAcceptor_ready_iff_bound :
    (ThreadAction.initReturns true ∈ awaitedStart true ↔
      ThreadAction.initReturns false ∉ awaitedStart true) ∧
    ∃ system, boundStart true = some system ∧ system.acceptor.Ready := by
  constructor
  · obtain ⟨system, runs, run⟩ := exists_run_of_execute (ThreadStep false) (threadStep false) newThread
      (awaitedStart true) (fun _ _ _ taken => taken) (by decide)
    have returned : (execute (threadStep false) newThread (awaitedStart true)).map
        ThreadSystem.startResult = some (some true) := by decide
    rw [runs] at returned
    exact (newAcceptor_ready_iff false 2 true true true (some 9) (boundOutcomes true)).1 _ system run
      (Option.some.inj returned)
  · obtain ⟨system, runs, run⟩ := boundStart_runs true
    have returned := boundStart_result true
    rw [runs] at returned
    have succeed : (boundOutcomes true).Succeed := ⟨rfl, rfl, rfl, rfl, rfl, rfl⟩
    have ready := (newAcceptor_ready_iff false 2 true true true (some 9) (boundOutcomes true)).2 _ system
      _ rfl run (Option.some.inj returned)
    exact ⟨system, runs, ready.mpr succeed⟩

/-- `bind` fails: the init callback returns false, `ThreadStart` true, and `NewAcceptor` an
acceptor without a socket. -/
theorem newAcceptor_deaf :
    (¬ ∀ (actions : List ThreadAction) (system : ThreadSystem),
      Run (ThreadStep false) newThread actions system → system.startResult = some true →
        ThreadAction.initReturns true ∈ actions) ∧
    ¬ ∀ (nbPipes : Nat) (outcomes : AcceptorOutcomes) (start system : AcceptorSystem)
      (actions : List AcceptorAction), newAcceptor nbPipes true true (some 9) true = some start →
        Run (AcceptorStep false outcomes) start actions system → system.result = some true →
          system.acceptor.Ready := by
  constructor
  · intro always
    obtain ⟨system, runs, run⟩ := exists_run_of_execute (ThreadStep false) (threadStep false) newThread
      (awaitedStart false) (fun _ _ _ taken => taken) (by decide)
    have returned : (execute (threadStep false) newThread (awaitedStart false)).map
        ThreadSystem.startResult = some (some true) := by decide
    rw [runs] at returned
    exact absurd (always _ system run (Option.some.inj returned)) (by decide)
  · intro always
    obtain ⟨system, runs, run⟩ := boundStart_runs false
    have returned := boundStart_result false
    rw [runs] at returned
    have socket : (boundStart false).map (fun system => system.acceptor.sockets
        system.acceptor.socket) = some .closed := by decide
    rw [runs] at socket
    obtain ⟨listening, _⟩ := always 2 _ _ system _ rfl run (Option.some.inj returned)
    rw [Option.map_some, listening] at socket
    cases socket

end Aio4c

import Aio4c.ConnectionLifecycle
import Aio4c.Outbound

/-! The end of the outbound side. A graceful close leaves the last write to the
writer, which shuts the writing end down behind it: when this write is sure to come,
and when nothing is written after it. -/

set_option autoImplicit false

namespace Aio4c

open SignedInt TransitionSystem

/-- Where the writer stands: between two items, with an OUTBOUND_DATA event taken, in
`ConnectionWrite` in front of the WRITE dispatch and in front of `send`, with what it
memorized of the state, or back from it with bytes left. -/
inductive WritePoint where
  | idle
  | taken
  | memorized (pendingClose : Bool)
  | filled (pendingClose : Bool)
  | unfinished
  deriving DecidableEq, Repr

/-- The connection, the writer with its queue, how many calls of
`EnableWriteInterest` stand between their test and their enqueueing, how often
`send` was called and whether the writing end was shut down. -/
structure WriteEnd where
  connection : Connection
  queue : Fifo Event
  writer : WritePoint
  interests : Nat
  sends : Nat
  shutdown : Bool

def newWriteEnd (connection : Connection) : WriteEnd :=
  { connection, queue := Fifo.empty, writer := .idle, interests := 0, sends := 0
    shutdown := false }

/-- The calls that a WRITE handler makes on the connection are steps of their own
beside the `fill` that runs it. -/
inductive WriteAction where
  | enableWriteInterest
  | writerEventHandler
  | close
  | dequeue
  | memorize
  | fill (write : Buffer → Access Buffer)
  | send (count : Nat)
  | reenqueue

/-- One step; `none` where the action is not the one that can happen next, and where
the write buffer is used outside its bounds. -/
def writeStep (state : WriteEnd) : WriteAction → Option WriteEnd
  | .enableWriteInterest =>
      if state.connection.canWrite then do
        let connection ←
          (connectionEventHandle (appending []) state.connection .outboundData).toOption
        some { state with connection, interests := state.interests + 1 }
      else some state
  | .writerEventHandler =>
      match state.interests with
      | 0 => none
      | interests + 1 =>
          some { state with queue := (state.queue.push .outboundData).2, interests }
  | .close => do
      let connection ← (connectionClose (appending []) state.connection false).toOption
      some { state with connection }
  | .dequeue =>
      match state.writer, state.queue.dequeue true with
      | .idle, (.taken .outboundData, queue) => some { state with queue, writer := .taken }
      | .idle, (.drained, queue) => some { state with queue }
      | _, _ => none
  | .memorize =>
      if state.writer = .taken ∧ state.connection.canWrite then
        some { state with
          writer := .memorized (decide (state.connection.state = .pendingClose)) }
      else none
  | .fill write =>
      match state.writer with
      | .memorized memorized => do
          let connection ←
            (connectionFill { inboundData := .ok, write } state.connection).toOption
          some { state with connection, writer := .filled memorized }
      | _ => none
  | .send count =>
      match state.writer with
      | .filled memorized =>
          -- an underflow forces the connection to CLOSED: no part of these runs
          if int32 (state.connection.writeBuffer.limit -
              state.connection.writeBuffer.position) < 0 then none
          else do
            let ((unfinished, _, shutdown), connection) ←
              (connectionSend (appending []) state.connection memorized (.count count)).toOption
            some { state with
              connection, sends := state.sends + 1, shutdown := state.shutdown || shutdown
              writer := if unfinished then .unfinished else .idle }
      | _ => none
  | .reenqueue =>
      if state.writer = .unfinished then
        some { state with queue := (state.queue.push .outboundData).2, writer := .idle }
      else none

def WriteStep (before : WriteEnd) (action : WriteAction) (after : WriteEnd) : Prop :=
  writeStep before action = some after

def WriteEnd.writes (state : WriteEnd) : Nat := state.connection.events.count .write

def WriteEnd.Queued (state : WriteEnd) : Prop := Event.outboundData ∈ state.queue.items

/-- An OUTBOUND_DATA event is queued to or being processed by the writer. -/
def WriteEnd.Requested (state : WriteEnd) : Prop := state.Queued ∨ state.writer ≠ .idle

/-- The close was asked for, and nothing will shut the writing end down. -/
def WriteEnd.Stranded (state : WriteEnd) : Prop :=
  state.connection.state = .pendingClose ∧ state.shutdown = false ∧ ¬ state.Requested

/-- Whether `send` leaves bytes in the buffer. -/
def sendLeaves (buffer : Buffer) (count : Nat) : Bool :=
  let nbWrite : Nat := min count (sizeT (bufferRemaining buffer))
  bufferHasRemaining (bufferPosition buffer (int32 (buffer.position + nbWrite))).2

/-- The close that enters PENDING_CLOSE finds a write requested, and a write that began
before the close and empties the buffer leaves another one queued. -/
def CloseServed (state : WriteEnd) : WriteAction → Prop
  | .close => state.connection.state ≠ .pendingClose → state.Requested
  | .send count =>
      state.writer = .filled false → state.connection.state = .pendingClose →
        sendLeaves state.connection.writeBuffer count = false → state.Queued
  | _ => True

/-- The write that shuts the writing end down finds no other write requested, and no
request is accepted behind it. -/
def LastWrite (state : WriteEnd) : WriteAction → Prop
  | .enableWriteInterest => state.shutdown = true → state.connection.canWrite = false
  | .send count =>
      state.writer = .filled true → sendLeaves state.connection.writeBuffer count = false →
        ¬ state.Queued ∧ state.interests = 0
  | _ => True

instance (state : WriteEnd) : Decidable state.Queued :=
  inferInstanceAs (Decidable (_ ∈ _))

instance (state : WriteEnd) : Decidable state.Requested :=
  inferInstanceAs (Decidable (_ ∨ _))

instance (state : WriteEnd) (action : WriteAction) : Decidable (CloseServed state action) :=
  match action with
  | .close => inferInstanceAs (Decidable (_ → _))
  | .send _ => inferInstanceAs (Decidable (_ → _ → _ → _))
  | .enableWriteInterest | .writerEventHandler | .dequeue | .memorize | .fill _
  | .reenqueue => inferInstanceAs (Decidable True)

instance (state : WriteEnd) (action : WriteAction) : Decidable (LastWrite state action) :=
  match action with
  | .enableWriteInterest => inferInstanceAs (Decidable (_ → _))
  | .send _ => inferInstanceAs (Decidable (_ → _ → _))
  | .close | .writerEventHandler | .dequeue | .memorize | .fill _
  | .reenqueue => inferInstanceAs (Decidable True)

/-! ## What one step does -/

/-- A refill dispatches WRITE at most, and no handler of WRITE sets a flag or a state. -/
theorem connectionFill_keeps {handlers : Handlers} {connection after : Connection}
    (result : connectionFill handlers connection = .ok after) :
    after.state = connection.state ∧ after.canWrite = connection.canWrite := by
  unfold connectionFill at result
  split at result
  · obtain ⟨buffer, _, result⟩ := Access.bind_ok result
    obtain ⟨dispatched, handled, result⟩ := Access.bind_ok result
    obtain ⟨written, _, handled⟩ := Access.bind_ok handled
    cases handled
    cases result
    exact ⟨rfl, rfl⟩
  · cases result
    exact ⟨rfl, rfl⟩

theorem readBytes_length {block bytes : List UInt8} {offset : Int} {count : Nat}
    (read : readBytes block offset count = .ok bytes) : bytes.length = count := by
  unfold readBytes at read
  split at read
  · next empty =>
      cases read
      exact empty.symm
  · split at read
    · next inside =>
        cases read
        simp only [List.length_take, List.length_drop]
        omega
    · cases read

/-- A send that takes a count moves the position; the writing end is shut down when
nothing is left and the close was memorized. -/
theorem connectionSend_count {handlers : Handlers} {connection after : Connection}
    {memorized unfinished shutdown : Bool} {bytes : List UInt8} {count : Nat}
    (inside : ¬ int32 (connection.writeBuffer.limit - connection.writeBuffer.position) < 0)
    (result : connectionSend handlers connection memorized (.count count) =
      .ok ((unfinished, bytes, shutdown), after)) :
    unfinished = sendLeaves connection.writeBuffer count ∧
      shutdown = (!unfinished && memorized) ∧
      ∃ writeBuffer, after = { connection with writeBuffer } := by
  simp only [connectionSend, if_neg inside] at result
  obtain ⟨sent, read, result⟩ := Access.bind_ok result
  have leaves : sendLeaves connection.writeBuffer count = bufferHasRemaining
      (bufferPosition connection.writeBuffer
        (int32 (connection.writeBuffer.position + sent.length))).2 := by
    rw [readBytes_length read]
    rfl
  split at result
  · next more =>
      cases result
      exact ⟨by rw [leaves, more], rfl, _, rfl⟩
  · next drained =>
      cases result
      refine ⟨?_, rfl, _, rfl⟩
      rw [leaves]
      simpa using drained

/-- All that a step does, by its action. -/
inductive WriteEffect (before : WriteEnd) : WriteAction → WriteEnd → Prop where
  | interestLost (refused : before.connection.canWrite = false) :
      WriteEffect before .enableWriteInterest before
  | interestAccepted (accepted : before.connection.canWrite = true) :
      WriteEffect before .enableWriteInterest { before with
        connection := { before.connection with
          events := before.connection.events ++ [.outboundData] }
        interests := before.interests + 1 }
  | enqueued {interests : Nat} (waiting : before.interests = interests + 1) :
      WriteEffect before .writerEventHandler { before with
        queue := (before.queue.push .outboundData).2, interests }
  | closedBefore (pending : before.connection.state = .pendingClose) :
      WriteEffect before .close before
  | closes (enters : before.connection.state ≠ .pendingClose) :
      WriteEffect before .close { before with
        connection := { before.connection with
          state := .pendingClose, canRead := false, canWrite := true
          events := before.connection.events ++ [.pendingClose] } }
  | dequeued {queue : Fifo Event} (idle : before.writer = .idle)
      (items : before.queue.items = .outboundData :: queue.items)
      (endless : queue.exit = before.queue.exit) :
      WriteEffect before .dequeue { before with queue, writer := .taken }
  | drained {queue : Fifo Event} (idle : before.writer = .idle)
      (items : queue.items = before.queue.items) (endless : queue.exit = before.queue.exit) :
      WriteEffect before .dequeue { before with queue }
  | memorizes (taken : before.writer = .taken) :
      WriteEffect before .memorize { before with
        writer := .memorized (decide (before.connection.state = .pendingClose)) }
  | fills {write : Buffer → Access Buffer} {memorized : Bool} {connection : Connection}
      (ready : before.writer = .memorized memorized)
      (state : connection.state = before.connection.state) :
      WriteEffect before (.fill write) { before with connection, writer := .filled memorized }
  | sends {count : Nat} {memorized : Bool} {writeBuffer : Buffer}
      (ready : before.writer = .filled memorized) :
      WriteEffect before (.send count) { before with
        connection := { before.connection with writeBuffer }
        sends := before.sends + 1
        shutdown := before.shutdown ||
          (!sendLeaves before.connection.writeBuffer count && memorized)
        writer :=
          if sendLeaves before.connection.writeBuffer count then .unfinished else .idle }
  | reenqueued (unfinished : before.writer = .unfinished) :
      WriteEffect before .reenqueue { before with
        queue := (before.queue.push .outboundData).2, writer := .idle }

theorem writeStep_effect {before after : WriteEnd} {action : WriteAction}
    (taken : WriteStep before action after) : WriteEffect before action after := by
  unfold WriteStep at taken
  cases action with
  | enableWriteInterest =>
      simp only [writeStep] at taken
      split at taken
      · next accepted =>
          cases taken
          exact .interestAccepted accepted
      · next refused =>
          cases taken
          exact .interestLost (by simpa using refused)
  | writerEventHandler =>
      cases waiting : before.interests with
      | zero => simp [writeStep, waiting] at taken
      | succ interests =>
          simp only [writeStep, waiting, Option.some.injEq] at taken
          subst taken
          exact .enqueued waiting
  | close =>
      simp only [writeStep, connectionClose, Bool.false_eq_true, if_false, connectionState_eq,
        Except.toOption] at taken
      cases taken
      by_cases pending : before.connection.state = .pendingClose
      · rw [if_pos pending]
        exact .closedBefore pending
      · rw [if_neg pending]
        exact .closes pending
  | dequeue =>
      cases writer : before.writer with
      | taken | memorized | filled | unfinished => simp [writeStep, writer] at taken
      | idle =>
          cases result : before.queue.dequeue true with
          | mk attempt queue =>
              cases attempt with
              | blocked | nothing => simp [writeStep, writer, result] at taken
              | drained =>
                  simp only [writeStep, writer, result, Option.some.injEq] at taken
                  subst taken
                  obtain ⟨items, endless, _⟩ := Fifo.dequeue_missed result (by simp)
                  rw [← writer]
                  exact .drained writer items endless
              | taken event =>
                  cases event with
                  | outboundData =>
                      simp only [writeStep, writer, result, Option.some.injEq] at taken
                      subst taken
                      obtain ⟨items, endless⟩ := Fifo.dequeue_taken result
                      exact .dequeued writer items endless
                  | init | connecting | connected | read | inboundData | write | pendingClose
                  | close | free => simp [writeStep, writer, result] at taken
  | memorize =>
      simp only [writeStep] at taken
      split at taken
      · next ready =>
          cases taken
          exact .memorizes ready.1
      · cases taken
  | fill write =>
      cases writer : before.writer with
      | idle | taken | filled | unfinished => simp [writeStep, writer] at taken
      | memorized memorized =>
          simp only [writeStep, writer] at taken
          obtain ⟨connection, result, made⟩ := Access.toOption_bind taken
          cases made
          exact .fills writer (connectionFill_keeps result).1
  | send count =>
      cases writer : before.writer with
      | idle | taken | memorized | unfinished => simp [writeStep, writer] at taken
      | filled memorized =>
          simp only [writeStep, writer] at taken
          split at taken
          · cases taken
          · next inside =>
              obtain ⟨outcome, result, made⟩ := Access.toOption_bind taken
              obtain ⟨⟨unfinished, bytes, shutdown⟩, connection⟩ := outcome
              cases made
              obtain ⟨rfl, rfl, writeBuffer, rfl⟩ := connectionSend_count inside result
              exact .sends writer
  | reenqueue =>
      simp only [writeStep] at taken
      split at taken
      · next unfinished =>
          cases taken
          exact .reenqueued unfinished
      · cases taken

/-! ## A graceful close -/

/-- What the writer memorized is right, and the writing end is shut down for a close. -/
structure WriteEnd.Sound (state : WriteEnd) : Prop where
  endless : state.queue.exit = false
  ended : state.shutdown = true → state.connection.state = .pendingClose
  seen : state.writer = .memorized true ∨ state.writer = .filled true →
    state.connection.state = .pendingClose
  unseen : state.writer = .memorized false ∨ state.writer = .filled false →
    state.shutdown = false

theorem newWriteEnd_sound (connection : Connection) : (newWriteEnd connection).Sound :=
  { endless := rfl
    ended := fun shutdown => by simp [newWriteEnd] at shutdown
    seen := fun seen => by simp [newWriteEnd] at seen
    unseen := fun _ => rfl }

theorem WriteEffect.sound {before after : WriteEnd} {action : WriteAction}
    (effect : WriteEffect before action after) (sound : before.Sound) : after.Sound := by
  cases effect with
  | interestLost => exact sound
  | interestAccepted => exact { sound with }
  | enqueued =>
      have pushed := Fifo.push_open sound.endless Event.outboundData
      exact { sound with
        endless := by rw [pushed]; exact sound.endless }
  | closedBefore => exact sound
  | closes =>
      exact { sound with
        ended := fun _ => rfl
        seen := fun _ => rfl }
  | dequeued idle items endless =>
      exact
        { endless := endless.trans sound.endless
          ended := sound.ended
          seen := fun seen => by simp at seen
          unseen := fun unseen => by simp at unseen }
  | drained idle items endless =>
      exact { sound with endless := endless.trans sound.endless }
  | memorizes =>
      exact { sound with
        seen := fun seen => by simpa using seen
        unseen := fun unseen => by
          have open' : before.connection.state ≠ .pendingClose := by simpa using unseen
          exact Bool.eq_false_iff.mpr fun shutdown => open' (sound.ended shutdown) }
  | fills ready state =>
      exact
        { endless := sound.endless
          ended := fun shutdown => state.trans (sound.ended shutdown)
          seen := fun seen => state.trans (sound.seen (.inl (ready.trans (by simpa using seen))))
          unseen := fun unseen => sound.unseen (.inl (ready.trans (by simpa using unseen))) }
  | @sends count memorized writeBuffer ready =>
      exact
        { endless := sound.endless
          ended := fun shutdown => by
            simp only [Bool.or_eq_true, Bool.and_eq_true] at shutdown
            rcases shutdown with shutdown | last
            · exact sound.ended shutdown
            · exact sound.seen (.inr (ready.trans (by rw [last.2])))
          seen := fun seen => by split at seen <;> simp at seen
          unseen := fun unseen => by split at unseen <;> simp at unseen }
  | reenqueued =>
      have pushed := Fifo.push_open sound.endless Event.outboundData
      exact
        { endless := by rw [pushed]; exact sound.endless
          ended := sound.ended
          seen := fun seen => by simp at seen
          unseen := fun unseen => by simp at unseen }

/-- A step strands the close exactly when it does not serve it. -/
theorem WriteEffect.stranded_iff {before after : WriteEnd} {action : WriteAction}
    (effect : WriteEffect before action after) (sound : before.Sound)
    (served : ¬ before.Stranded) : ¬ after.Stranded ↔ CloseServed before action := by
  cases effect with
  | interestLost => exact ⟨fun _ => trivial, fun _ => served⟩
  | interestAccepted => exact ⟨fun _ => trivial, fun _ => served⟩
  | enqueued =>
      have pushed := Fifo.push_open sound.endless Event.outboundData
      have queued : Event.outboundData ∈ (before.queue.push .outboundData).2.items := by
        rw [pushed]
        simp
      exact ⟨fun _ => trivial, fun _ stranded => stranded.2.2 (.inl queued)⟩
  | closedBefore pending =>
      exact ⟨fun _ enters => absurd pending enters, fun _ => served⟩
  | closes enters =>
      have unended : before.shutdown = false :=
        Bool.eq_false_iff.mpr fun shutdown => enters (sound.ended shutdown)
      constructor
      · intro kept _
        by_contra unrequested
        exact kept ⟨rfl, unended, unrequested⟩
      · intro allowed stranded
        exact stranded.2.2 (allowed enters)
  | dequeued =>
      exact ⟨fun _ => trivial, fun _ stranded => stranded.2.2 (.inr WritePoint.noConfusion)⟩
  | drained idle items =>
      constructor
      · intro _
        trivial
      · intro _ stranded
        obtain ⟨pending, unended, unrequested⟩ := stranded
        refine served ⟨pending, unended, ?_⟩
        intro requested
        apply unrequested
        rcases requested with queued | busy
        · left
          simp only [WriteEnd.Queued, items]
          exact queued
        · exact absurd idle busy
  | memorizes =>
      exact ⟨fun _ => trivial, fun _ stranded => stranded.2.2 (.inr WritePoint.noConfusion)⟩
  | fills =>
      exact ⟨fun _ => trivial, fun _ stranded => stranded.2.2 (.inr WritePoint.noConfusion)⟩
  | @sends count memorized writeBuffer ready =>
      cases leaves : sendLeaves before.connection.writeBuffer count with
      | true =>
          constructor
          · intro _ _ _ drained
            rw [leaves] at drained
            cases drained
          · intro _ stranded
            exact stranded.2.2 (.inr WritePoint.noConfusion)
      | false =>
          cases memorized with
          | true =>
              constructor
              · intro _ unseen
                rw [ready] at unseen
                cases unseen
              · intro _ stranded
                simpa using stranded.2.1
          | false =>
              have unended := sound.unseen (.inr ready)
              constructor
              · intro kept _ pending _
                by_contra unqueued
                refine kept ⟨pending, by simpa using unended, ?_⟩
                intro requested
                rcases requested with queued | busy
                · exact unqueued queued
                · exact busy rfl
              · intro allowed stranded
                exact stranded.2.2 (.inl (allowed ready stranded.1 leaves))
  | reenqueued =>
      have pushed := Fifo.push_open sound.endless Event.outboundData
      have queued : Event.outboundData ∈ (before.queue.push .outboundData).2.items := by
        rw [pushed]
        simp
      exact ⟨fun _ => trivial, fun _ stranded => stranded.2.2 (.inl queued)⟩

/-- While every close finds a write requested, and no write that began before it empties
the buffer with no other write queued, a connection in PENDING_CLOSE has its writing end
shut down or a write on its way. -/
theorem newWriteEnd_never_stranded {connection : Connection}
    (opened : connection.state ≠ .pendingClose) {actions : List WriteAction} {state : WriteEnd}
    (run : Run (Guarded CloseServed WriteStep) (newWriteEnd connection) actions state)
    (pending : state.connection.state = .pendingClose) :
    state.shutdown = true ∨ state.Queued ∨ state.writer ≠ .idle := by
  have kept : state.Sound ∧ ¬ state.Stranded := by
    apply run.keeps
    · intro before action after holds taken
      obtain ⟨sound, served⟩ := holds
      have effect := writeStep_effect taken.2
      exact ⟨effect.sound sound, (effect.stranded_iff sound served).mpr taken.1⟩
    · exact ⟨newWriteEnd_sound connection, fun stranded => opened stranded.1⟩
  cases shutdown : state.shutdown with
  | true => exact .inl rfl
  | false =>
      right
      by_contra unrequested
      exact kept.2 ⟨pending, shutdown, unrequested⟩

/-- One interest, and the close behind it. -/
def interestThenClose : List WriteAction :=
  [.enableWriteInterest, .writerEventHandler, .close]

/-- The writer takes an interest and writes nothing but the end. -/
def lastWrite : List WriteAction := [.dequeue, .memorize, .fill .ok, .send 0]

theorem newWriteEnd_never_stranded_interest :
    let buffer : Buffer := { size := 1, data := [0, 0, 0], position := 0, limit := 1 }
    let connection := enterState (newConnection buffer buffer) .connected
    ∃ state, Run (Guarded CloseServed WriteStep) (newWriteEnd connection) interestThenClose
        state ∧ state.connection.state = .pendingClose ∧
      (state.shutdown = true ∨ state.Queued ∨ state.writer ≠ .idle) := by
  intro buffer connection
  obtain ⟨state, runs, run⟩ := exists_run_of_execute (Guarded CloseServed WriteStep)
    (guardedNext CloseServed writeStep) (newWriteEnd connection) interestThenClose
    (fun _ _ _ taken => guardedNext_sound taken) (by decide)
  have pending : (execute (guardedNext CloseServed writeStep) (newWriteEnd connection)
      interestThenClose).map (·.connection.state) = some .pendingClose := by decide
  rw [runs, Option.map_some, Option.some.injEq] at pending
  exact ⟨state, run, pending, newWriteEnd_never_stranded (by decide) run pending⟩

/-- A close with no write requested. -/
theorem newWriteEnd_stranded :
    ¬ ∀ (connection : Connection) (actions : List WriteAction) (state : WriteEnd),
      connection.state = .connected →
      Run WriteStep (newWriteEnd connection) actions state →
      state.connection.state = .pendingClose →
        state.shutdown = true ∨ state.Queued ∨ state.writer ≠ .idle := by
  intro never
  let buffer : Buffer := { size := 1, data := [0, 0, 0], position := 0, limit := 1 }
  let connection := enterState (newConnection buffer buffer) .connected
  have stranded : (execute writeStep (newWriteEnd connection) [.close]).map
      (fun state => (state.connection.state, state.shutdown, decide state.Requested)) =
        some (.pendingClose, false, false) := by decide
  obtain ⟨state, runs, run⟩ := exists_run_of_execute WriteStep writeStep
    (newWriteEnd connection) [.close] (fun _ _ _ taken => taken) (by decide)
  rw [runs, Option.map_some, Option.some.injEq, Prod.mk.injEq, Prod.mk.injEq] at stranded
  obtain ⟨pending, unended, unrequested⟩ := stranded
  rcases never connection _ state rfl run pending with shutdown | requested
  · rw [unended] at shutdown
    cases shutdown
  · exact of_decide_eq_false unrequested requested

/-! ## Behind the shutdown -/

/-- The writing end is shut down, and nobody will write to it. -/
structure WriteEnd.Ended (state : WriteEnd) : Prop where
  shutdown : state.shutdown = true
  idle : state.writer = .idle
  unqueued : ¬ state.Queued
  unannounced : state.interests = 0

/-- The step that shuts the writing end down comes behind every request. -/
theorem WriteEffect.ends {before after : WriteEnd} {action : WriteAction}
    (effect : WriteEffect before action after) (allowed : LastWrite before action)
    (opened : before.shutdown = false) (shutdown : after.shutdown = true) : after.Ended := by
  cases effect with
  | @sends count memorized writeBuffer ready =>
      have last := shutdown
      simp only [opened, Bool.false_or, Bool.and_eq_true, Bool.not_eq_true'] at last
      obtain ⟨drained, rfl⟩ := last
      obtain ⟨unqueued, unannounced⟩ := allowed ready drained
      exact
        { shutdown
          idle := by simp [drained]
          unqueued
          unannounced }
  | interestLost | interestAccepted | enqueued | closedBefore | closes | dequeued | drained
  | memorizes | fills | reenqueued => simp [opened] at shutdown

/-- Behind the shutdown no step dispatches WRITE or sends. -/
theorem WriteEffect.silent {before after : WriteEnd} {action : WriteAction}
    (effect : WriteEffect before action after) (allowed : LastWrite before action)
    (ended : before.Ended) :
    after.Ended ∧ after.writes = before.writes ∧ after.sends = before.sends := by
  obtain ⟨shutdown, idle, unqueued, unannounced⟩ := ended
  cases effect with
  | interestLost => exact ⟨⟨shutdown, idle, unqueued, unannounced⟩, rfl, rfl⟩
  | interestAccepted accepted =>
      rw [allowed shutdown] at accepted
      cases accepted
  | enqueued waiting =>
      rw [unannounced] at waiting
      cases waiting
  | closedBefore => exact ⟨⟨shutdown, idle, unqueued, unannounced⟩, rfl, rfl⟩
  | closes =>
      refine ⟨⟨shutdown, idle, unqueued, unannounced⟩, ?_, rfl⟩
      simp [WriteEnd.writes]
  | dequeued _ items =>
      have queued : before.Queued := by
        unfold WriteEnd.Queued
        rw [items]
        exact List.mem_cons_self
      exact absurd queued unqueued
  | drained _ items =>
      refine ⟨⟨shutdown, idle, ?_, unannounced⟩, rfl, rfl⟩
      intro queued
      simp only [WriteEnd.Queued, items] at queued
      exact unqueued queued
  | memorizes taken | fills taken | sends taken | reenqueued taken =>
      rw [idle] at taken
      cases taken

theorem newWriteEnd_ended {connection : Connection} {actions : List WriteAction}
    {state : WriteEnd}
    (run : Run (Guarded LastWrite WriteStep) (newWriteEnd connection) actions state)
    (shutdown : state.shutdown = true) : state.Ended := by
  have kept : state.shutdown = true → state.Ended := by
    apply run.keeps
    · intro before action after holds taken later
      have effect := writeStep_effect taken.2
      cases opened : before.shutdown with
      | false => exact effect.ends taken.1 opened later
      | true => exact (effect.silent taken.1 (holds opened)).1
    · intro early
      cases early
  exact kept shutdown

/-- While the write that shuts the writing end down comes behind every accepted request
and no request is accepted behind it, `ConnectionWrite` neither dispatches WRITE nor
sends after the shutdown. -/
theorem newWriteEnd_silent {connection : Connection} {actions later : List WriteAction}
    {state final : WriteEnd}
    (run : Run (Guarded LastWrite WriteStep) (newWriteEnd connection) actions state)
    (shutdown : state.shutdown = true)
    (rest : Run (Guarded LastWrite WriteStep) state later final) :
    final.writes = state.writes ∧ final.sends = state.sends := by
  have kept : final.Ended ∧ final.writes = state.writes ∧ final.sends = state.sends := by
    apply rest.keeps
    · intro before action after holds taken
      obtain ⟨ended, writes, sends⟩ := holds
      obtain ⟨ended', writes', sends'⟩ := (writeStep_effect taken.2).silent taken.1 ended
      exact ⟨ended', writes'.trans writes, sends'.trans sends⟩
    · exact ⟨newWriteEnd_ended run shutdown, rfl, rfl⟩
  exact kept.2

theorem newWriteEnd_silent_drained :
    let buffer : Buffer := { size := 1, data := [0, 0, 0], position := 0, limit := 1 }
    let connection := enterState (newConnection buffer buffer) .connected
    ∃ state final, Run (Guarded LastWrite WriteStep) (newWriteEnd connection)
        (interestThenClose ++ lastWrite) state ∧ state.shutdown = true ∧
      Run (Guarded LastWrite WriteStep) state [.dequeue] final ∧
      final.writes = state.writes ∧ final.sends = state.sends := by
  intro buffer connection
  obtain ⟨state, runs, run⟩ := exists_run_of_execute (Guarded LastWrite WriteStep)
    (guardedNext LastWrite writeStep) (newWriteEnd connection) (interestThenClose ++ lastWrite)
    (fun _ _ _ taken => guardedNext_sound taken) (by decide)
  have after : (execute (guardedNext LastWrite writeStep) (newWriteEnd connection)
      (interestThenClose ++ lastWrite)).map (fun state => (state.shutdown,
        (execute (guardedNext LastWrite writeStep) state [.dequeue]).isSome)) =
      some (true, true) := by decide
  rw [runs, Option.map_some, Option.some.injEq, Prod.mk.injEq] at after
  obtain ⟨final, _, rest⟩ := exists_run_of_execute (Guarded LastWrite WriteStep)
    (guardedNext LastWrite writeStep) state [.dequeue]
    (fun _ _ _ taken => guardedNext_sound taken) after.2
  exact ⟨state, final, run, after.1, rest, newWriteEnd_silent run after.1 rest⟩

/-- Two interests in the queue when the connection is closed: the first write shuts the
writing end down, the second one dispatches WRITE and sends. -/
theorem newWriteEnd_writes_after_shutdown :
    ¬ ∀ (connection : Connection) (actions later : List WriteAction) (state final : WriteEnd),
      connection.state = .connected →
      Run WriteStep (newWriteEnd connection) actions state → state.shutdown = true →
      Run WriteStep state later final →
        final.writes = state.writes ∧ final.sends = state.sends := by
  intro silent
  let buffer : Buffer := { size := 1, data := [0, 0, 0], position := 0, limit := 1 }
  let connection := enterState (newConnection buffer buffer) .connected
  let actions : List WriteAction :=
    [.enableWriteInterest, .writerEventHandler] ++ interestThenClose ++ lastWrite
  obtain ⟨state, runs, run⟩ := exists_run_of_execute WriteStep writeStep
    (newWriteEnd connection) actions (fun _ _ _ taken => taken) (by decide)
  have after : (execute writeStep (newWriteEnd connection) actions).map (fun state =>
      (state.shutdown, state.sends, (execute writeStep state lastWrite).map (·.sends))) =
        some (true, 1, some 2) := by decide
  rw [runs, Option.map_some, Option.some.injEq, Prod.mk.injEq, Prod.mk.injEq] at after
  obtain ⟨shutdown, once, twice⟩ := after
  obtain ⟨final, result, rest⟩ := exists_run_of_execute WriteStep writeStep state lastWrite
    (fun _ _ _ taken => taken) (Option.isSome_of_eq_some (Option.map_eq_some_iff.mp twice).choose_spec.1)
  rw [result, Option.map_some, Option.some.injEq] at twice
  have same := (silent connection actions lastWrite state final rfl run shutdown rest).2
  rw [once, twice] at same
  cases same

end Aio4c

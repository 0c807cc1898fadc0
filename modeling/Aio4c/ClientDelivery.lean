import Aio4c.ClientHandOver
import Aio4c.ClientRetries

/-! What the thread of a client dequeues while the connections, the reader and all others go on:
it is somewhere in its loop, and each connection delivers CLOSE at most once. -/

set_option autoImplicit false

namespace Aio4c

open TransitionSystem

def Client.thread (client : Client) (interval : Int) : ClientThread :=
  { retries := client.retries, interval, retryCount := client.retryCount
    connected := client.connected, exiting := client.exiting, connection := client.current }

/-- CLOSE, with what decides about another connection. -/
def closeItem (closedForError : Bool) (id : Nat) : ClientItem :=
  { item := .event .close id, closedForError, noMoreUsed := false, closed := false }

/-- The item whose answer a step completes: the second part of the answer to CLOSE decides. -/
def Client.answers (client : Client) : ClientAction → Option ClientItem
  | .dequeue =>
      match (client.queue.dequeue true).1 with
      | .taken (event, id) =>
          if event = .close then none
          else some { item := .event event id, closedForError := false, noMoreUsed := false,
                      closed := false }
      | _ => none
  | .retry _ _ _ =>
      match client.calls with
      | (.retry closedForError, id) :: _ => some (closeItem closedForError id)
      | _ => none
  | _ => none

/-- Events and calls are those of connections that were created. -/
structure Client.Within (client : Client) : Prop where
  queue : ∀ entry ∈ client.queue.items, entry.2 ≤ client.current
  calls : ∀ call ∈ client.calls, call.2 ≤ client.current
  readerQueue : ∀ id ∈ client.readerQueue.items, id ≤ client.current
  arriving : ∀ id ∈ client.arriving, id ≤ client.current

def ClientFrame.answersClose : ClientFrame → Bool
  | .retry _ => true
  | _ => false

/-- How often a connection's CLOSE is still to come: not sent yet, in the queue, or being
answered. -/
def Client.closings (client : Client) (id : Nat) : Nat :=
  (client.attempts id).handlers.count .close + client.queue.items.count (.close, id) +
    client.calls.countP fun call => call.1.answersClose && decide (call.2 = id)

/-! ## Steps in which the thread takes no part -/

/-- The fields of the thread stay, no call begins once it stopped, and no CLOSE comes again. -/
structure Client.Quiet (before after : Client) : Prop where
  thread : ∀ interval, after.thread interval = before.thread interval
  stopped : after.stopped = before.stopped
  calls : before.calls = [] → after.calls = []
  within : before.Within → after.Within
  closings : ∀ id, after.closings id ≤ before.closings id

theorem Client.Quiet.trans {before middle after : Client} (first : before.Quiet middle)
    (second : middle.Quiet after) : before.Quiet after where
  thread interval := (second.thread interval).trans (first.thread interval)
  stopped := second.stopped.trans first.stopped
  calls empty := second.calls (first.calls empty)
  within known := second.within (first.within known)
  closings id := (second.closings id).trans (first.closings id)

theorem Client.Quiet.refl (client : Client) : client.Quiet client where
  thread _ := rfl
  stopped := rfl
  calls empty := empty
  within known := known
  closings _ := Nat.le_refl _

/-- A handler that is called for CLOSE is not called again. -/
theorem Client.notify_closings (client : Client) (id : Nat) (event : Event) (other : Nat) :
    (client.notify id event).closings other ≤ client.closings other := by
  unfold Client.notify
  simp only
  split
  · next expected =>
      have pushed : (client.queue.push (event, id)).2.items.count (.close, other) ≤
          client.queue.items.count (.close, other) + [(event, id)].count (.close, other) := by
        unfold Fifo.push Fifo.enqueue
        split
        · exact Nat.le_add_right _ _
        · exact Nat.le_of_eq List.count_append
      unfold Client.closings
      simp only
      by_cases same : other = id
      · subst same
        rw [Function.update_self]
        by_cases closes : event = .close
        · subst closes
          have positive := List.count_pos_iff.mpr expected
          rw [List.count_singleton_self] at pushed
          rw [List.count_erase_self]
          omega
        · have different : (event, other) ≠ (.close, other) := by simpa using closes
          rw [List.count_singleton, if_neg (by simpa using closes)] at pushed
          rw [List.count_erase_of_ne (Ne.symm closes)]
          omega
      · rw [List.count_singleton, if_neg (by simp [Ne.symm same])] at pushed
        rw [Function.update_of_ne same]
        omega
  · exact Nat.le_refl _

theorem Client.notify_quiet (client : Client) {id : Nat} (created : id ≤ client.current)
    (event : Event) : client.Quiet (client.notify id event) := by
  obtain ⟨queue, handlers, same, known⟩ := client.notify_changed id event
  have closings := client.notify_closings id event
  rw [same] at closings ⊢
  refine ⟨fun _ => rfl, rfl, fun empty => empty, fun within => ?_, closings⟩
  refine ⟨fun entry member => ?_, within.calls, within.readerQueue, within.arriving⟩
  rcases known entry member with earlier | own
  · exact within.queue entry earlier
  · exact own ▸ created

theorem Client.attempt_quiet (client : Client) {id : Nat} {attempt : Attempt}
    (handlers : attempt.handlers = (client.attempts id).handlers) :
    client.Quiet { client with attempts := Function.update client.attempts id attempt } := by
  refine ⟨fun _ => rfl, rfl, fun empty => empty, fun within => ?_, fun other => ?_⟩
  · exact ⟨within.queue, within.calls, within.readerQueue, within.arriving⟩
  · unfold Client.closings
    by_cases same : other = id
    · subst same
      simp only [Function.update_self, handlers]
      exact Nat.le_refl _
    · simp only [Function.update_of_ne same]
      exact Nat.le_refl _

theorem Client.reader_quiet (client : Client) {readerQueue : Fifo Nat} {arriving : List Nat}
    (entered : ∀ id ∈ readerQueue.items, id ∈ client.readerQueue.items ∨ id ≤ client.current)
    (reached : ∀ id ∈ arriving, id ∈ client.arriving ∨ id ≤ client.current) :
    client.Quiet { client with readerQueue, arriving } := by
  refine ⟨fun _ => rfl, rfl, fun empty => empty, fun within => ?_, fun _ => Nat.le_refl _⟩
  refine ⟨within.queue, within.calls, fun id member => ?_, fun id member => ?_⟩
  · exact (entered id member).elim (within.readerQueue id) fun created => created
  · exact (reached id member).elim (within.arriving id) fun created => created

theorem Client.settle_quiet (client : Client) {id : Nat} (created : id ≤ client.current)
    (connection : Connection) : client.Quiet (client.settle id connection) := by
  have folded (events : List Event) (start : Client) (created : id ≤ start.current) :
      start.Quiet (events.foldl (fun client event => client.notify id event) start) := by
    induction events generalizing start with
    | nil => exact .refl start
    | cons event events ih =>
        have first := start.notify_quiet created event
        have same : (start.notify id event).current = start.current :=
          congrArg ClientThread.connection (first.thread 0)
        exact first.trans (ih _ (same ▸ created))
  have changed : client.Quiet { client with
      attempts := Function.update client.attempts id
        { client.attempts id with connection } } := client.attempt_quiet rfl
  exact changed.trans (folded _ _ created)

theorem Client.call_quiet {client after : Client} {id : Nat} (created : id ≤ client.current)
    {call : Handlers → Connection → Access Connection}
    (called : client.call id call = some after) : client.Quiet after := by
  obtain ⟨connection, _, rfl⟩ := Option.map_eq_some_iff.mp called
  exact client.settle_quiet created connection

/-- A call of the thread returns, and others begin that answer no CLOSE. -/
theorem Client.returned_quiet {client : Client} {call : ClientFrame × Nat}
    {calls : List (ClientFrame × Nat)} (top : client.calls = call :: calls)
    (begun : List (ClientFrame × Nat))
    (answers : ∀ other ∈ begun, other.1.answersClose = false ∧ other.2 = call.2) :
    client.Quiet { client with calls := begun ++ calls } := by
  refine ⟨fun _ => rfl, rfl, fun empty => ?_, fun within => ?_, fun id => ?_⟩
  · simp [empty] at top
  · refine ⟨within.queue, fun other member => ?_, within.readerQueue, within.arriving⟩
    rcases List.mem_append.mp member with new | earlier
    · rw [(answers other new).2]
      exact within.calls call (by rw [top]; exact List.mem_cons_self)
    · exact within.calls other (by rw [top]; exact List.mem_cons_of_mem _ earlier)
  · have none : (begun.countP fun call => call.1.answersClose && decide (call.2 = id)) = 0 := by
      rw [List.countP_eq_zero]
      intro other member
      simp [(answers other member).1]
    have fewer : (calls.countP fun call => call.1.answersClose && decide (call.2 = id)) ≤
        client.calls.countP fun call => call.1.answersClose && decide (call.2 = id) := by
      rw [top]
      exact (List.sublist_cons_self _ _).countP_le
    unfold Client.closings
    simp only [List.countP_append, none, Nat.zero_add]
    omega

theorem Client.popped_quiet {client : Client} {call : ClientFrame × Nat}
    {calls : List (ClientFrame × Nat)} (top : client.calls = call :: calls) :
    client.Quiet { client with calls } :=
  client.returned_quiet top [] (by simp)

theorem Client.Within.top {client : Client} (within : client.Within) {frame : ClientFrame}
    {id : Nat} {calls : List (ClientFrame × Nat)} (top : client.calls = (frame, id) :: calls) :
    id ≤ client.current :=
  within.calls (frame, id) (by rw [top]; exact List.mem_cons_self)

theorem Client.hand_quiet {client : Client} (within : client.Within) {id : Nat}
    {step : HandOverStep} {calls : List (ClientFrame × Nat)}
    (top : client.calls = (.handOver step, id) :: calls) :
    client.Quiet (client.hand id calls step) := by
  have created := within.top top
  have returned := client.popped_quiet top
  cases step with
  | addSystemHandler | connected => exact returned
  | enqueueDataItem =>
      have handed : Client.Quiet { client with calls } { client with
          calls, attempts := Function.update client.attempts id
            { client.attempts id with handed := true } } := Client.attempt_quiet _ rfl
      refine (returned.trans handed).trans (Client.reader_quiet _ ?_ fun _ member => .inl member)
      intro other member
      unfold Fifo.push Fifo.enqueue at member
      split at member
      · exact .inl member
      · rcases List.mem_append.mp member with earlier | new
        · exact .inl earlier
        · exact .inr (List.mem_singleton.mp new ▸ created)
  | managedBy owner =>
      cases managed : connectionManage (client.attempts id).connection owner with
      | mk managedByAll connection =>
          have begun : client.Quiet { client with
              calls := if managedByAll then (.handOver .connected, id) :: calls else calls } := by
            cases managedByAll with
            | false => exact returned
            | true =>
                exact client.returned_quiet top [(.handOver .connected, id)]
                  (by simp [ClientFrame.answersClose])
          simp only [Client.hand, managed]
          refine begun.trans (Client.attempt_quiet _ ?_)
          rfl

/-! ## Runs -/

/-- Where the thread is: behind these items of its connections, of which none closes twice. -/
structure Client.Delivers (client : Client) (retries interval : Int) (items : List ClientItem) :
    Prop where
  thread : client.thread interval = clientBehind retries interval items
  running : (clientLoop (startedClient retries interval) items).running = !client.stopped
  calls : client.stopped = true → client.calls = []
  delivered : Delivered retries interval items
  within : client.Within
  closed : ∀ id ∈ closedSources items, id ≤ client.current
  once : ∀ id, client.closings id + (closedSources items).count id ≤ 1

theorem Client.Quiet.current {before after : Client} (quiet : before.Quiet after) :
    after.current = before.current :=
  congrArg ClientThread.connection (quiet.thread 0)

section

variable {before after : Client} {retries interval : Int} {items : List ClientItem}

theorem Client.Delivers.quiet (delivers : before.Delivers retries interval items)
    (quiet : before.Quiet after) {answers : Option ClientItem} (none : answers = none) :
    after.Delivers retries interval (items ++ answers.toList) := by
  rw [none, Option.toList_none, List.append_nil]
  exact
    { thread := (quiet.thread interval).trans delivers.thread
      running := by rw [quiet.stopped]; exact delivers.running
      calls := fun stopped => quiet.calls (delivers.calls (quiet.stopped ▸ stopped))
      delivered := delivers.delivered
      within := quiet.within delivers.within
      closed := fun id member => quiet.current ▸ delivers.closed id member
      once := fun id =>
        (Nat.add_le_add_right (quiet.closings id) _).trans (delivers.once id) }

/-- An item is answered: the thread does what `_clientRun` does, and what it closes it accounts
for. -/
theorem Client.Delivers.snoc (delivers : before.Delivers retries interval items)
    (going : before.stopped = false) {found : ClientItem}
    (thread : after.thread interval = (clientItem (before.thread interval) found).client)
    (running : (clientItem (before.thread interval) found).running = !after.stopped)
    (calls : after.stopped = true → after.calls = [])
    (closes : ∀ source ∈ found.closes, source ≤ before.current ∧ 0 < before.closings source)
    (grows : before.current ≤ after.current) (within : after.Within)
    (once : ∀ id, after.closings id + ((closedSources items).count id +
      found.closes.toList.count id) ≤ 1) :
    after.Delivers retries interval (items ++ [found]) := by
  have loops : (clientLoop (startedClient retries interval) items).running = true := by
    rw [delivers.running, going]
    rfl
  obtain ⟨behind, value⟩ := @clientLoop_snoc _ _ found loops
  have same : (clientLoop (startedClient retries interval) items).client =
      before.thread interval := delivers.thread.symm
  rw [same] at behind value
  refine ⟨thread.trans behind.symm, value.trans running, calls, ?_, within, ?_, ?_⟩
  · refine delivers.delivered.snoc loops fun source closed => ?_
    obtain ⟨created, coming⟩ := closes source closed
    rw [← delivers.thread]
    refine ⟨created, fun earlier => ?_⟩
    have counted := List.count_pos_iff.mpr earlier
    have atMost := delivers.once source
    omega
  · intro id member
    rw [closedSources_snoc] at member
    rcases List.mem_append.mp member with earlier | last
    · exact (delivers.closed id earlier).trans grows
    · exact (closes id (Option.mem_toList.mp last)).1.trans grows
  · intro id
    rw [closedSources_snoc, List.count_append]
    exact once id

theorem Client.handle_closings {event : Event} {id : Nat} {queue : Fifo (Event × Nat)}
    (idle : before.calls = []) (items : before.queue.items = (event, id) :: queue.items)
    (other : Nat) :
    (Client.handle { before with queue } id event).closings other ≤ before.closings other := by
  unfold Client.closings
  rw [items, idle]
  cases event with
  | close =>
      simp only [Client.handle, ClientFrame.answersClose, List.countP_cons, List.countP_nil,
        List.count_cons, Bool.false_and, Bool.true_and, Bool.false_eq_true, if_false,
        decide_eq_true_eq, beq_iff_eq, Prod.mk.injEq, true_and]
      omega
  | _ => simp [Client.handle, ClientFrame.answersClose]

theorem Client.handle_within {event : Event} {id : Nat} {queue : Fifo (Event × Nat)}
    (within : before.Within) (items : before.queue.items = (event, id) :: queue.items) :
    (Client.handle { before with queue } id event).Within := by
  have created : id ≤ before.current :=
    within.queue (event, id) (by rw [items]; exact List.mem_cons_self)
  have left : ∀ entry ∈ queue.items, entry.2 ≤ before.current := fun entry member =>
    within.queue entry (by rw [items]; exact List.mem_cons_of_mem _ member)
  cases event with
  | init | connecting | close =>
      exact ⟨left, by simp [Client.handle, created], within.readerQueue, within.arriving⟩
  | _ => exact ⟨left, within.calls, within.readerQueue, within.arriving⟩

theorem Client.Delivers.handles (delivers : before.Delivers retries interval items) {event : Event}
    {id : Nat} {queue : Fifo (Event × Nat)} (idle : before.calls = [])
    (going : before.stopped = false)
    (dequeued : before.queue.dequeue true = (.taken (event, id), queue)) :
    (Client.handle { before with queue } id event).Delivers retries interval
      (items ++ (before.answers .dequeue).toList) := by
  have entries := (Fifo.dequeue_taken dequeued).1
  have closings := Client.handle_closings idle entries
  have within := Client.handle_within delivers.within entries
  have once (other : Nat) : (Client.handle { before with queue } id event).closings other +
      ((closedSources items).count other + 0) ≤ 1 :=
    (Nat.add_le_add_right (closings other) _).trans (delivers.once other)
  have answers : before.answers .dequeue = if event = .close then none
      else some { item := .event event id, closedForError := false, noMoreUsed := false,
                  closed := false } := by
    rw [Client.answers, dequeued]
  have waits {calls : List (ClientFrame × Nat)} (stopped : before.stopped = true) : calls = [] :=
    absurd (going.symm.trans stopped) Bool.false_ne_true
  rw [answers]
  cases event with
  | close =>
      rw [if_pos rfl, Option.toList_none, List.append_nil]
      exact ⟨delivers.thread, delivers.running, waits, delivers.delivered, within,
        delivers.closed, once⟩
  | free =>
      exact delivers.snoc going rfl rfl (fun _ => idle) (by simp [ClientItem.closes]) le_rfl within
        once
  | _ =>
      exact delivers.snoc going rfl (congrArg (! ·) going.symm) waits
        (by simp [ClientItem.closes]) le_rfl within once

/-- The second part of the answer to CLOSE. -/
theorem Client.Delivers.retry (delivers : before.Delivers retries interval items)
    {closedForError : Bool} {id : Nat} {calls : List (ClientFrame × Nat)}
    {readBuffer writeBuffer : Buffer} {outcome : InitOutcome}
    (top : before.calls = (.retry closedForError, id) :: calls)
    (stopped : after.stopped = before.stopped)
    (thread : after.thread interval =
      (clientClose (before.thread interval) id (closeItem closedForError id)).client)
    (grows : before.current ≤ after.current) (within : after.Within)
    (once : ∀ other, after.closings other + ((closedSources items).count other +
      [id].count other) ≤ 1) :
    after.Delivers retries interval
      (items ++ (before.answers (.retry readBuffer writeBuffer outcome)).toList) := by
  have answers : before.answers (.retry readBuffer writeBuffer outcome) =
      some (closeItem closedForError id) := by
    rw [Client.answers, top]
  have going : before.stopped = false := by
    refine eq_false_of_ne_true fun stopped => ?_
    rw [delivers.calls stopped] at top
    cases top
  have coming : 0 < before.closings id := by
    unfold Client.closings
    rw [top, List.countP_cons_of_pos (by simp [ClientFrame.answersClose])]
    omega
  rw [going] at stopped
  rw [answers]
  refine delivers.snoc going thread ?_ (fun ended => ?_) ?_ grows within once
  · rw [stopped]
    exact clientClose_running _ id _
  · exact absurd (stopped.symm.trans ended) Bool.false_ne_true
  · intro source closes
    cases closes
    exact ⟨delivers.within.top top, coming⟩

theorem Client.answered_closings {closedForError : Bool} {id : Nat}
    {calls : List (ClientFrame × Nat)} (top : before.calls = (.retry closedForError, id) :: calls)
    (other : Nat) :
    Client.closings { before with calls } other + [id].count other = before.closings other := by
  unfold Client.closings
  rw [top]
  simp only [ClientFrame.answersClose, List.countP_cons, List.count_singleton, Bool.true_and,
    decide_eq_true_eq, beq_iff_eq]
  omega

/-- The new connection is the first that may deliver CLOSE under its number. -/
theorem Client.attempt_closings (within : before.Within) (readBuffer writeBuffer : Buffer)
    (other : Nat) :
    (before.attempt readBuffer writeBuffer).closings other =
      if other = before.current + 1 then 1 else before.closings other := by
  unfold Client.closings Client.attempt
  by_cases new : other = before.current + 1
  · have queue : before.queue.items.count (.close, other) = 0 := by
      refine List.count_eq_zero_of_not_mem fun member => ?_
      exact Nat.not_succ_le_self _ (new ▸ within.queue _ member)
    have calls : (before.calls.countP fun call =>
        call.1.answersClose && decide (call.2 = other)) = 0 := by
      rw [List.countP_eq_zero]
      intro call member answers
      rw [Bool.and_eq_true, decide_eq_true_eq] at answers
      exact Nat.not_succ_le_self _ (new ▸ answers.2 ▸ within.calls call member)
    simp only [queue, calls, if_pos new]
    rw [new, Function.update_self]
    rfl
  · simp only [Function.update_of_ne new, if_neg new]

theorem Client.Delivers.connectsAgain (delivers : before.Delivers retries interval items)
    {closedForError : Bool} {id : Nat} {calls : List (ClientFrame × Nat)}
    {readBuffer writeBuffer : Buffer} {outcome : InitOutcome}
    (top : before.calls = (.retry closedForError, id) :: calls)
    (again : closedForError = true ∧ before.retryCount < before.retries)
    (called : (Client.attempt { before with calls, retryCount := before.retryCount + 1 }
      readBuffer writeBuffer).call (before.current + 1)
        (fun handlers connection => connectionInit handlers connection outcome) = some after) :
    after.Delivers retries interval
      (items ++ (before.answers (.retry readBuffer writeBuffer outcome)).toList) := by
  have known := delivers.within
  have created : id ≤ before.current := known.top top
  have popped : Client.Within { before with calls, retryCount := before.retryCount + 1 } :=
    ⟨known.queue, fun call member => known.calls call (by rw [top]; exact .tail _ member),
      known.readerQueue, known.arriving⟩
  have quiet := Client.call_quiet (Nat.le_refl _) called
  have within : (Client.attempt { before with calls, retryCount := before.retryCount + 1 }
      readBuffer writeBuffer).Within :=
    ⟨fun entry member => Nat.le_succ_of_le (popped.queue entry member),
      fun call member => Nat.le_succ_of_le (popped.calls call member),
      fun other member => Nat.le_succ_of_le (popped.readerQueue other member),
      fun other member => Nat.le_succ_of_le (popped.arriving other member)⟩
  refine delivers.retry top quiet.stopped ?_ ?_ (quiet.within within) fun other => ?_
  · rw [quiet.thread]
    exact (@clientClose_again (before.thread interval) (closeItem closedForError id) again.1
      again.2 id).symm
  · rw [quiet.current]
    exact Nat.le_succ _
  · have fewer := quiet.closings other
    rw [Client.attempt_closings popped] at fewer
    have answered := Client.answered_closings top other
    have atMost := delivers.once other
    by_cases new : other = before.current + 1
    · have unclosed : (closedSources items).count other = 0 := by
        refine List.count_eq_zero_of_not_mem fun member => ?_
        exact Nat.not_succ_le_self _ (new ▸ delivers.closed _ member)
      have different : [id].count other = 0 := by
        refine List.count_eq_zero_of_not_mem fun member => ?_
        rw [List.mem_singleton.mp member] at new
        omega
      rw [if_pos new] at fewer
      omega
    · rw [if_neg new] at fewer
      have same : Client.closings { before with calls, retryCount := before.retryCount + 1 } other =
          Client.closings { before with calls } other := rfl
      omega

theorem Client.Delivers.givesUp (delivers : before.Delivers retries interval items)
    {closedForError : Bool} {id : Nat} {calls : List (ClientFrame × Nat)}
    {readBuffer writeBuffer : Buffer} {outcome : InitOutcome}
    (top : before.calls = (.retry closedForError, id) :: calls)
    (done : ¬ (closedForError = true ∧ before.retryCount < before.retries)) :
    Client.Delivers { before with calls, exiting := true } retries interval
      (items ++ (before.answers (.retry readBuffer writeBuffer outcome)).toList) := by
  have known := delivers.within
  refine delivers.retry top rfl ?_ le_rfl ?_ fun other => ?_
  · exact (@clientClose_last (before.thread interval) (closeItem closedForError id) done id).symm
  · exact ⟨known.queue, fun call member => known.calls call (by rw [top]; exact .tail _ member),
      known.readerQueue, known.arriving⟩
  · have answered := Client.answered_closings top other
    have atMost := delivers.once other
    have same : Client.closings { before with calls, exiting := true } other =
        Client.closings { before with calls } other := rfl
    omega

theorem Client.Delivers.step {action : ClientAction}
    (delivers : before.Delivers retries interval items)
    (taken : ClientStep before action after) :
    after.Delivers retries interval (items ++ (before.answers action).toList) := by
  have known := delivers.within
  cases clientStep_moves taken with
  | handles idle going dequeued => exact delivers.handles idle going dequeued
  | @drains queue dequeued =>
      obtain ⟨same, _⟩ := Fifo.dequeue_missed dequeued (by simp)
      have answers : before.answers .dequeue = none := by rw [Client.answers, dequeued]
      have drained : before.Quiet { before with queue } := by
        refine ⟨fun _ => rfl, rfl, fun empty => empty, fun within => ?_, fun id => ?_⟩
        · exact ⟨same ▸ within.queue, within.calls, within.readerQueue, within.arriving⟩
        · simp only [Client.closings, same]
          exact Nat.le_refl _
      exact delivers.quiet drained answers
  | connects top called | finishes top called | reaches top called =>
      have returned := before.popped_quiet top
      exact delivers.quiet (returned.trans (Client.call_quiet (known.top top) called)) rfl
  | findsClosed top => exact delivers.quiet (before.popped_quiet top) rfl
  | handsOver top =>
      exact delivers.quiet (before.returned_quiet top _ (by simp [ClientFrame.answersClose])) rfl
  | hands top => exact delivers.quiet (Client.hand_quiet known top) rfl
  | @keeps id calls connection top =>
      have settled := Client.settle_quiet { before with calls } (known.top top) connection
      exact delivers.quiet ((before.popped_quiet top).trans settled) rfl
  | @releases id calls connection top =>
      have settled := Client.settle_quiet { before with calls } (known.top top) connection
      have created : id ≤ (Client.settle { before with calls } id connection).current := by
        rw [settled.current]
        exact known.top top
      have released := settled.trans (Client.notify_quiet _ created .free)
      exact delivers.quiet ((before.popped_quiet top).trans released) rfl
  | @releasesAtOnce id calls top =>
      have released := Client.notify_quiet { before with calls } (known.top top) .free
      exact delivers.quiet ((before.popped_quiet top).trans released) rfl
  | retries top again called => exact delivers.connectsAgain top again called
  | givesUp top done => exact delivers.givesUp top done
  | @readerTakes id readerQueue managedByAll connection dequeued =>
      obtain ⟨entries, _⟩ := Fifo.dequeue_taken dequeued
      have created : id ≤ before.current :=
        known.readerQueue id (by rw [entries]; exact List.mem_cons_self)
      have managed : before.Quiet { before with
          attempts := Function.update before.attempts id
            { before.attempts id with connection } } := before.attempt_quiet rfl
      refine delivers.quiet (managed.trans (Client.reader_quiet _ ?_ ?_)) rfl
      · intro other member
        exact .inl (by rw [entries]; exact List.mem_cons_of_mem _ member)
      · intro other member
        cases managedByAll with
        | false => exact .inl member
        | true =>
            rcases List.mem_cons.mp member with new | earlier
            · exact .inr (new ▸ created)
            · exact .inl earlier
  | readerDrains dequeued =>
      obtain ⟨same, _⟩ := Fifo.dequeue_missed dequeued (by simp)
      exact delivers.quiet
        (before.reader_quiet (fun _ member => .inl (same ▸ member)) fun _ member => .inl member) rfl
  | @readerConnects id arriving _ top called =>
      have created : id ≤ before.current :=
        known.arriving id (by rw [top]; exact List.mem_cons_self)
      have arrived : before.Quiet { before with arriving } :=
        before.reader_quiet (fun _ member => .inl member)
          fun _ member => .inl (by rw [top]; exact List.mem_cons_of_mem _ member)
      exact delivers.quiet (arrived.trans (Client.call_quiet created called)) rfl
  | closes created called | fails created called =>
      exact delivers.quiet (Client.call_quiet created called) rfl
  | frees created => exact delivers.quiet (before.notify_quiet created .free) rfl

theorem newClient_delivers {readBuffer writeBuffer : Buffer} {outcome : InitOutcome}
    (interval : Int)
    (made : newClient retries readBuffer writeBuffer outcome = some after) :
    after.Delivers retries interval [] := by
  have idle : (idleClient retries readBuffer writeBuffer).Delivers retries interval [] :=
    { thread := rfl
      running := rfl
      calls := fun _ => rfl
      delivered := .nil
      within := by constructor <;> simp [idleClient, Fifo.empty]
      closed := by simp [closedSources]
      once := fun _ => Nat.le_refl 1 }
  exact idle.quiet (Client.call_quiet (Nat.le_refl 0) made) rfl

end

section

variable {retries : Int} {readBuffer writeBuffer : Buffer} {outcome : InitOutcome}
  {start middle final : Client} {actions later : List ClientAction}

theorem Client.Delivers.run {interval : Int} {items : List ClientItem}
    (delivers : middle.Delivers retries interval items) (run : Run ClientStep middle later final) :
    ∃ after, final.Delivers retries interval (items ++ after) := by
  apply run.keeps
  · intro before action next ⟨earlier, behind⟩ taken
    exact ⟨_, List.append_assoc items earlier _ ▸ behind.step taken⟩
  · exact ⟨[], (List.append_nil items).symm ▸ delivers⟩

/-- In every run of a client, whatever its connections, the reader and all others do, its thread
is in its loop, behind items of which none closes a connection twice. -/
theorem client_run_delivers (interval : Int)
    (made : newClient retries readBuffer writeBuffer outcome = some start)
    (run : Run ClientStep start actions final) :
    ∃ items, final.Delivers retries interval items :=
  (newClient_delivers interval made).run run

end

end Aio4c

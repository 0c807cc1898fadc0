import Aio4c.ClientDelivery

/-! How often a client connects again while its reader, its connections and all others go on. The
items that its thread answered decide about it, whoever sent them and in whatever order. -/

set_option autoImplicit false

namespace Aio4c

open TransitionSystem

/-- The thread dequeues CONNECTED, which sets `retryCount` back to 0. -/
def Client.takesConnected (client : Client) : ClientAction → Bool
  | .dequeue =>
      match (client.queue.dequeue true).1 with
      | .taken (event, _) => event == .connected
      | _ => false
  | _ => false

def Client.Unconnected (client : Client) (action : ClientAction) : Prop :=
  client.takesConnected action = false

instance (client : Client) (action : ClientAction) : Decidable (client.Unconnected action) :=
  inferInstanceAs (Decidable (_ = _))

/-- CLOSE of the connection is still to come: its handler was not called, or its item is in the
queue, or the thread is answering it. -/
def Client.Owes (client : Client) (id : Nat) : Prop := 0 < client.closings id

instance (client : Client) (id : Nat) : Decidable (client.Owes id) :=
  inferInstanceAs (Decidable (_ < _))

section

variable {client middle final : Client} {retries interval : Int} {items : List ClientItem}
  {later : List ClientAction}

theorem Client.Unconnected.answers {action : ClientAction} {found : ClientItem}
    (unconnected : client.Unconnected action) (answers : client.answers action = some found) :
    ¬ found.Connects := by
  rintro ⟨source, item⟩
  cases action with
  | dequeue =>
      simp only [Client.Unconnected, Client.takesConnected, Client.answers] at unconnected answers
      cases dequeued : (client.queue.dequeue true).1 with
      | taken entry =>
          obtain ⟨event, id⟩ := entry
          simp only [dequeued, beq_eq_false_iff_ne] at unconnected answers
          split at answers
          · cases answers
          · cases answers
            cases item
            exact unconnected rfl
      | _ =>
          rw [dequeued] at answers
          cases answers
  | retry readBuffer writeBuffer outcome =>
      simp only [Client.answers] at answers
      split at answers
      · cases answers
        cases item
      · cases answers
  | _ => cases answers

/-- The items of a stretch without CONNECTED. -/
theorem Client.Delivers.stretch (delivers : middle.Delivers retries interval items)
    (rest : Run (Guarded Client.Unconnected ClientStep) middle later final) :
    ∃ between, final.Delivers retries interval (items ++ between) ∧
      ∀ found ∈ between, ¬ found.Connects := by
  apply rest.keeps
  · rintro before action after ⟨between, behind, unconnected⟩ ⟨guard, taken⟩
    refine ⟨between ++ (before.answers action).toList, ?_, ?_⟩
    · exact List.append_assoc items between _ ▸ behind.step taken
    · intro found member
      rcases List.mem_append.mp member with earlier | last
      · exact unconnected found earlier
      · exact guard.answers (Option.mem_toList.mp last)
  · exact ⟨[], (List.append_nil items).symm ▸ delivers, by simp⟩

theorem Client.Delivers.exiting (delivers : client.Delivers retries interval items) :
    (clientBehind retries interval items).exiting = client.exiting :=
  (congrArg ClientThread.exiting delivers.thread).symm

theorem Client.Delivers.connection (delivers : client.Delivers retries interval items) :
    (clientBehind retries interval items).connection = client.current :=
  (congrArg ClientThread.connection delivers.thread).symm

/-- Only the last connection can owe CLOSE, and none once the client gave up. -/
theorem Client.Delivers.owes (delivers : client.Delivers retries interval items) {id : Nat}
    (created : id ≤ client.current) (owes : client.Owes id) :
    id = client.current ∧ client.exiting = false := by
  have open' : id ∉ closedSources items := by
    intro closed
    have once := delivers.once id
    have counted := List.count_pos_iff.mpr closed
    have twice := Nat.add_le_add owes counted
    exact absurd (twice.trans once) (by decide)
  have owing := delivers.delivered.owing.closing (delivers.connection ▸ created) open'
  rwa [delivers.connection, delivers.exiting] at owing

end

section

variable {retries : Int} {readBuffer writeBuffer : Buffer} {outcome : InitOutcome}
  {start middle final : Client} {actions later : List ClientAction}

/-- Whatever the reader, the connections and all others do, a client connects again at most
`retries` times between two CONNECTED that its thread takes, not before the connections it made
earlier all had their CLOSE answered, and not at all once it gave up. -/
theorem newClient_attempts (nonneg : 0 ≤ retries)
    (made : newClient retries readBuffer writeBuffer outcome = some start)
    (run : Run ClientStep start actions middle)
    (rest : Run (Guarded Client.Unconnected ClientStep) middle later final) :
    (final.current : Int) ≤ middle.current + retries ∧
      (∀ id ≤ final.current, final.Owes id → id = final.current ∧ final.exiting = false) ∧
      (middle.exiting = true → final.exiting = true ∧ final.current = middle.current) := by
  obtain ⟨items, delivers⟩ := client_run_delivers 0 made run
  obtain ⟨between, behind, unconnected⟩ := delivers.stretch rest
  refine ⟨?_, fun id created owes => behind.owes created owes, fun exiting => ?_⟩
  · have counted := behind.delivered.stretch unconnected
    have lower := (delivers.delivered.counted nonneg).2.1
    have upper := (behind.delivered.counted nonneg).2.2
    rw [delivers.connection, behind.connection] at counted
    omega
  · have gaveUp := behind.delivered.exiting (delivers.exiting.trans exiting)
    rwa [behind.exiting, behind.connection, delivers.connection] at gaveUp

end

def oneByte : Buffer := { size := 1, data := [0, 0, 0], position := 0, limit := 1 }

/-- The first attempt fails, and the one that the client makes behind it fails as well. -/
def failsTwice : List ClientAction :=
  [.dequeue, .connect .error, .dequeue, .dequeue, .release, .retry oneByte oneByte (.opened 4),
    .dequeue, .dequeue, .dequeue, .connect .error, .dequeue, .dequeue, .release,
    .retry oneByte oneByte (.opened 5)]

theorem newClient_attempts_failed :
    ∃ start final, newClient 1 oneByte oneByte (.opened 3) = some start ∧
      Run (Guarded Client.Unconnected ClientStep) start failsTwice final ∧
      (final.current = 1 ∧ final.exiting = true) ∧ (final.current : Int) ≤ start.current + 1 ∧
      ∀ id ≤ final.current, ¬ final.Owes id := by
  cases made : newClient 1 oneByte oneByte (.opened 3) with
  | none => cases made
  | some start =>
      have ends : (newClient 1 oneByte oneByte (.opened 3)).bind (fun start =>
          (execute (guardedNext Client.Unconnected clientStep) start failsTwice).map
            fun client => (client.current, client.exiting)) = some (1, true) := by decide
      rw [made, Option.bind_some] at ends
      obtain ⟨final, runs, run⟩ := exists_run_of_execute (Guarded Client.Unconnected ClientStep)
        (guardedNext Client.Unconnected clientStep) start failsTwice
        (fun _ _ _ taken => guardedNext_sound taken) (by
          rw [← Option.isSome_map, ends]
          rfl)
      rw [runs, Option.map_some, Option.some.injEq, Prod.mk.injEq] at ends
      obtain ⟨bounded, owing, _⟩ := newClient_attempts (by decide) made (.nil start) run
      refine ⟨start, final, rfl, run, ends, bounded, fun id created owes => ?_⟩
      have going := (owing id created owes).2
      exact absurd (ends.2.symm.trans going) (by decide)

end Aio4c

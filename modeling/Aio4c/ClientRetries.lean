import Aio4c.Queue
import Mathlib.Data.List.Induction

/-! The thread of a client over all the items it dequeues: how often it connects again, and when
it gives up. The events of its connections come in any order. -/

set_option autoImplicit false

namespace Aio4c

/-- The fields of `Client` that `_clientRun` reads and writes. Connections are numbered in the
order of their creation, so `connection` is also the number of times the client connected again. -/
structure ClientThread where
  retries : Int
  interval : Int
  retryCount : Int
  connected : Bool
  exiting : Bool
  connection : Nat
  deriving DecidableEq, Repr

/-- An item, and what the thread finds in the connection behind its event: whether it was closed
for an error, whether `ConnectionNoMoreUsed` returns true, and whether the connection is CLOSED
behind `ConnectionFinishConnect`. -/
structure ClientItem where
  item : QueueItem
  closedForError : Bool
  noMoreUsed : Bool
  closed : Bool
  deriving DecidableEq, Repr

/-- The calls that `_clientRun` makes; `connection` is `_connection`. -/
inductive ClientCall where
  | connectionConnect (source : Nat)
  | connectionFinishConnect (source : Nat)
  | readerManageConnection (source : Nat)
  | connectionNoMoreUsed (source : Nat)
  | freeConnection (source : Nat)
  | sleep (seconds : Int)
  | connection
  deriving DecidableEq, Repr

/-- The client behind an item or a run, the calls made, and whether the loop goes on; of a run
it is the value that `_clientRun` returns. -/
structure ClientAnswer where
  client : ClientThread
  calls : List ClientCall
  running : Bool
  deriving DecidableEq, Repr

/-- The answer to CLOSE. -/
def clientClose (client : ClientThread) (source : Nat) (found : ClientItem) : ClientAnswer :=
  let tested := if client.connected then [.connectionNoMoreUsed source] else []
  let freed := if client.connected = false ∨ found.noMoreUsed then [.freeConnection source] else []
  if found.closedForError then
    if client.retryCount < client.retries then
      { client := { client with
          retryCount := client.retryCount + 1
          connected := false, connection := client.connection + 1 }
        calls := tested ++ freed ++ [.sleep client.interval, .connection], running := true }
    else { client := { client with exiting := true }, calls := tested ++ freed, running := true }
  else { client := { client with exiting := true }, calls := tested ++ freed, running := true }

/-- The body of the loop of `_clientRun`. -/
def clientItem (client : ClientThread) (found : ClientItem) : ClientAnswer :=
  match found.item with
  | .exit => { client, calls := [], running := false }
  | .event .init source => { client, calls := [.connectionConnect source], running := true }
  | .event .connecting source =>
      { client
        calls := .connectionFinishConnect source ::
          if found.closed then [] else [.readerManageConnection source]
        running := true }
  | .event .connected _ =>
      { client := { client with connected := true, retryCount := 0 }, calls := [], running := true }
  | .event .close source => clientClose client source found
  | .event .free _ => { client, calls := [], running := !client.exiting }
  | _ => { client, calls := [], running := true }

/-- `_clientRun` over the items that `Dequeue` hands out until it returns false. -/
def clientLoop (client : ClientThread) : List ClientItem → ClientAnswer
  | [] => { client, calls := [], running := true }
  | found :: items =>
      let answer := clientItem client found
      if answer.running then
        let later := clientLoop answer.client items
        { later with calls := answer.calls ++ later.calls }
      else answer

/-- The client behind `NewClient` and `_clientInit`: the first connection was created. -/
def startedClient (retries interval : Int) : ClientThread :=
  { retries, interval, retryCount := 0, connected := false, exiting := false, connection := 0 }

/-! ## The items of its connections -/

def ClientItem.Connects (found : ClientItem) : Prop :=
  ∃ source, found.item = .event .connected source

/-- The connection whose CLOSE the item is. -/
def ClientItem.closes (found : ClientItem) : Option Nat :=
  match found.item with
  | .event .close source => some source
  | _ => none

/-- The connections that delivered CLOSE. -/
def closedSources (items : List ClientItem) : List Nat := items.filterMap ClientItem.closes

/-- The client once its thread took these items. -/
def clientBehind (retries interval : Int) (items : List ClientItem) : ClientThread :=
  (clientLoop (startedClient retries interval) items).client

/-- The items are dequeued while the loop goes on, and a connection delivers CLOSE at most once
and only behind its creation. -/
structure Delivered (retries interval : Int) (items : List ClientItem) : Prop where
  running : ∀ before found after, items = before ++ found :: after →
    (clientLoop (startedClient retries interval) before).running = true
  closes : ∀ before found after source, items = before ++ found :: after →
    found.closes = some source →
      source ≤ (clientBehind retries interval before).connection ∧ source ∉ closedSources before

/-- As often as `retries` allows, the client connected again since it was last connected. -/
def RetriesUsed (retries interval : Int) (items : List ClientItem) : Prop :=
  ∃ before between, items = before ++ between ∧ (∀ found ∈ between, ¬ found.Connects) ∧
    ((clientBehind retries interval items).connection : Int) =
      (clientBehind retries interval before).connection + retries

/-- How a client connects again, over all that its thread dequeues: within its bound wherever no
CONNECTED comes between, with one connection that still owes CLOSE, and not once it gave up. -/
structure RetriesDisciplined (retries interval : Int) (items : List ClientItem) : Prop where
  bounded : ∀ before between after, items = before ++ between ++ after →
    (∀ found ∈ between, ¬ found.Connects) →
      ((clientBehind retries interval (before ++ between)).connection : Int) ≤
        (clientBehind retries interval before).connection + retries
  owing : ∀ before after, items = before ++ after →
    ∀ first ≤ (clientBehind retries interval before).connection,
    ∀ second ≤ (clientBehind retries interval before).connection,
      first ∉ closedSources before → second ∉ closedSources before → first = second
  givesUp : ∀ before found after, items = before ++ found :: after → found.closes.isSome →
    found.closedForError = false ∨ RetriesUsed retries interval before →
      (clientBehind retries interval (before ++ [found])).exiting = true ∧
      (clientBehind retries interval (before ++ [found])).connection =
        (clientBehind retries interval before).connection
  exiting : ∀ before after, items = before ++ after →
    (clientBehind retries interval before).exiting = true →
      (clientBehind retries interval items).connection =
        (clientBehind retries interval before).connection
  returns : (clientLoop (startedClient retries interval) items).running = false →
    ∃ before found, items = before ++ [found] ∧
      (found.item = .exit ∨ (∃ source, found.item = .event .free source) ∧
        (clientBehind retries interval before).exiting = true)

/-! ## What an item does to the client -/

/-- The client behind an item: one of four. -/
inductive Answered (client : ClientThread) (found : ClientItem) : ClientThread → Prop
  | unchanged : found.closes = none → ¬ found.Connects → Answered client found client
  | connected : found.closes = none → found.Connects →
      Answered client found { client with connected := true, retryCount := 0 }
  | retried {source : Nat} : found.closes = some source → found.closedForError = true →
      client.retryCount < client.retries →
        Answered client found { client with
          retryCount := client.retryCount + 1
          connected := false, connection := client.connection + 1 }
  | givenUp {source : Nat} : found.closes = some source →
      found.closedForError = false ∨ client.retries ≤ client.retryCount →
        Answered client found { client with exiting := true }

theorem clientClose_again {client : ClientThread} {found : ClientItem}
    (failed : found.closedForError = true) (left : client.retryCount < client.retries)
    (source : Nat) :
    (clientClose client source found).client = { client with
      retryCount := client.retryCount + 1
      connected := false, connection := client.connection + 1 } := by
  rw [clientClose, if_pos failed, if_pos left]

theorem clientClose_last {client : ClientThread} {found : ClientItem}
    (last : ¬ (found.closedForError = true ∧ client.retryCount < client.retries)) (source : Nat) :
    (clientClose client source found).client = { client with exiting := true } := by
  by_cases failed : found.closedForError = true
  · rw [clientClose, if_pos failed, if_neg fun left => last ⟨failed, left⟩]
  · rw [clientClose, if_neg failed]

theorem clientClose_answered (client : ClientThread) {source : Nat} {found : ClientItem}
    (closes : found.closes = some source) :
    Answered client found (clientClose client source found).client := by
  by_cases again : found.closedForError = true ∧ client.retryCount < client.retries
  · rw [clientClose_again again.1 again.2]
    exact .retried closes again.1 again.2
  · rw [clientClose_last again]
    rw [not_and_or, Bool.not_eq_true, Int.not_lt] at again
    exact .givenUp closes again

theorem clientClose_running (client : ClientThread) (source : Nat) (found : ClientItem) :
    (clientClose client source found).running = true := by
  by_cases failed : found.closedForError = true
  · by_cases left : client.retryCount < client.retries
    · rw [clientClose, if_pos failed, if_pos left]
    · rw [clientClose, if_pos failed, if_neg left]
  · rw [clientClose, if_neg failed]

theorem clientItem_answered (client : ClientThread) (found : ClientItem) :
    Answered client found (clientItem client found).client := by
  obtain ⟨item, closedForError, noMoreUsed, closed⟩ := found
  cases item with
  | event event source =>
      cases event with
      | close => exact clientClose_answered client rfl
      | connected => exact .connected rfl ⟨source, rfl⟩
      | _ => exact .unchanged rfl (by simp [ClientItem.Connects])
  | _ => exact .unchanged rfl (by simp [ClientItem.Connects])

/-- The loop ends at EXIT, and at FREE once the client gave up. -/
theorem clientItem_returns {client : ClientThread} {found : ClientItem}
    (returns : (clientItem client found).running = false) :
    found.item = .exit ∨ (∃ source, found.item = .event .free source) ∧ client.exiting = true := by
  obtain ⟨item, closedForError, noMoreUsed, closed⟩ := found
  cases item with
  | exit => exact .inl rfl
  | event event source =>
      cases event with
      | free => exact .inr ⟨⟨source, rfl⟩, by simpa [clientItem] using returns⟩
      | close =>
          rw [clientItem, clientClose_running] at returns
          cases returns
      | _ => cases returns
  | _ => cases returns

/-! ## Runs -/

theorem clientLoop_append {client : ClientThread} {before : List ClientItem}
    (running : (clientLoop client before).running = true) (after : List ClientItem) :
    (clientLoop client (before ++ after)).client =
        (clientLoop (clientLoop client before).client after).client ∧
      (clientLoop client (before ++ after)).running =
        (clientLoop (clientLoop client before).client after).running := by
  induction before generalizing client with
  | nil => exact ⟨rfl, rfl⟩
  | cons found before ih =>
      simp only [List.cons_append, clientLoop] at running ⊢
      split at running
      · next goesOn =>
          simp only [if_pos goesOn]
          exact ih running
      · next stops => exact absurd running stops

theorem clientLoop_snoc {client : ClientThread} {before : List ClientItem} {found : ClientItem}
    (running : (clientLoop client before).running = true) :
    (clientLoop client (before ++ [found])).client =
        (clientItem (clientLoop client before).client found).client ∧
      (clientLoop client (before ++ [found])).running =
        (clientItem (clientLoop client before).client found).running := by
  obtain ⟨behind, value⟩ := clientLoop_append running [found]
  have last (client : ClientThread) :
      (clientLoop client [found]).client = (clientItem client found).client ∧
        (clientLoop client [found]).running = (clientItem client found).running := by
    simp only [clientLoop]
    split
    · next goesOn => exact ⟨rfl, goesOn.symm⟩
    · exact ⟨rfl, rfl⟩
  exact ⟨behind.trans (last _).1, value.trans (last _).2⟩

section

variable {retries interval : Int} {items : List ClientItem}

theorem Delivered.front {before after : List ClientItem}
    (delivered : Delivered retries interval (before ++ after)) :
    Delivered retries interval before where
  running := by
    intro front found rest same
    exact delivered.running front found (rest ++ after) (by simp [same])
  closes := by
    intro front found rest source same
    exact delivered.closes front found (rest ++ after) source (by simp [same])

theorem Delivered.nil : Delivered retries interval [] where
  running := by simp
  closes := by simp

theorem Delivered.snoc (delivered : Delivered retries interval items)
    (running : (clientLoop (startedClient retries interval) items).running = true)
    {found : ClientItem} (closes : ∀ source ∈ found.closes,
      source ≤ (clientBehind retries interval items).connection ∧
        source ∉ closedSources items) :
    Delivered retries interval (items ++ [found]) := by
  constructor
  · intro before other after same
    rcases List.eq_nil_or_concat after with rfl | ⟨rest, last, rfl⟩
    · rw [(List.append_singleton_inj.mp same).1] at running
      exact running
    · rw [List.concat_eq_append, ← List.cons_append, ← List.append_assoc] at same
      exact delivered.running before other rest (List.append_singleton_inj.mp same).1
  · intro before other after source same closed
    rcases List.eq_nil_or_concat after with rfl | ⟨rest, last, rfl⟩
    · obtain ⟨rfl, rfl⟩ := List.append_singleton_inj.mp same
      exact closes source closed
    · rw [List.concat_eq_append, ← List.cons_append, ← List.append_assoc] at same
      exact delivered.closes before other rest source (List.append_singleton_inj.mp same).1 closed

theorem Delivered.answered {before : List ClientItem} {found : ClientItem}
    (delivered : Delivered retries interval (before ++ [found])) :
    Answered (clientBehind retries interval before) found
      (clientBehind retries interval (before ++ [found])) := by
  have last : clientBehind retries interval (before ++ [found]) =
      (clientItem (clientBehind retries interval before) found).client :=
    (clientLoop_snoc (delivered.running before found [] rfl)).1
  rw [last]
  exact clientItem_answered _ _

/-! ## The count -/

theorem Delivered.counted (nonneg : 0 ≤ retries) (delivered : Delivered retries interval items) :
    (clientBehind retries interval items).retries = retries ∧
      0 ≤ (clientBehind retries interval items).retryCount ∧
      (clientBehind retries interval items).retryCount ≤ retries := by
  induction items using List.reverseRecOn with
  | nil => exact ⟨rfl, Int.le_refl 0, nonneg⟩
  | append_singleton before found ih =>
      obtain ⟨same, lower, upper⟩ := ih delivered.front
      have answered := delivered.answered
      generalize clientBehind retries interval (before ++ [found]) = after at answered ⊢
      cases answered with
      | unchanged => exact ⟨same, lower, upper⟩
      | connected => exact ⟨same, Int.le_refl 0, nonneg⟩
      | retried _ _ left =>
          rw [same] at left
          exact ⟨same, by simp only; omega, by simp only; omega⟩
      | givenUp => exact ⟨same, lower, upper⟩

/-- Where no CONNECTED comes between, each further connection is counted. -/
theorem Delivered.stretch {before between : List ClientItem}
    (delivered : Delivered retries interval (before ++ between))
    (unconnected : ∀ found ∈ between, ¬ found.Connects) :
    ((clientBehind retries interval (before ++ between)).connection : Int) +
        (clientBehind retries interval before).retryCount =
      (clientBehind retries interval before).connection +
        (clientBehind retries interval (before ++ between)).retryCount := by
  induction between using List.reverseRecOn with
  | nil => rw [List.append_nil]
  | append_singleton between found ih =>
      rw [← List.append_assoc] at delivered ⊢
      have earlier := ih delivered.front fun other member =>
        unconnected other (List.mem_append_left _ member)
      have answered := delivered.answered
      generalize clientBehind retries interval (before ++ between ++ [found]) = after
        at answered ⊢
      cases answered with
      | unchanged => exact earlier
      | connected _ connects => exact absurd connects (unconnected found (by simp))
      | retried =>
          simp only
          omega
      | givenUp => exact earlier

/-- The items since the last CONNECTED, or all of them: they began with no retry counted. -/
theorem Delivered.sinceConnected (delivered : Delivered retries interval items) :
    ∃ before between, items = before ++ between ∧ (∀ found ∈ between, ¬ found.Connects) ∧
      (clientBehind retries interval before).retryCount = 0 := by
  induction items using List.reverseRecOn with
  | nil => exact ⟨[], [], rfl, by simp, rfl⟩
  | append_singleton items found ih =>
      by_cases connects : found.Connects
      · refine ⟨items ++ [found], [], (List.append_nil _).symm, by simp, ?_⟩
        obtain ⟨source, item⟩ := connects
        have answered := delivered.answered
        generalize clientBehind retries interval (items ++ [found]) = after at answered ⊢
        cases answered with
        | unchanged _ unconnected => exact absurd ⟨source, item⟩ unconnected
        | connected => rfl
        | retried closes => simp [ClientItem.closes, item] at closes
        | givenUp closes => simp [ClientItem.closes, item] at closes
      · obtain ⟨before, between, rfl, unconnected, zero⟩ := ih delivered.front
        refine ⟨before, between ++ [found], List.append_assoc _ _ _, ?_, zero⟩
        intro other member
        rcases List.mem_append.mp member with earlier | last
        · exact unconnected other earlier
        · exact List.mem_singleton.mp last ▸ connects

/-- The test that `_clientRun` makes is the one on its history. -/
theorem Delivered.retriesUsed_iff (nonneg : 0 ≤ retries)
    (delivered : Delivered retries interval items) :
    RetriesUsed retries interval items ↔
      (clientBehind retries interval items).retries ≤
        (clientBehind retries interval items).retryCount := by
  have last := delivered.counted nonneg
  constructor
  · intro ⟨before, between, same, unconnected, count⟩
    subst same
    have stretch := delivered.stretch unconnected
    have start := delivered.front.counted nonneg
    omega
  · intro used
    obtain ⟨before, between, rfl, unconnected, zero⟩ := delivered.sinceConnected
    have stretch := delivered.stretch unconnected
    exact ⟨before, between, rfl, unconnected, by omega⟩

/-! ## The connection that owes CLOSE -/

/-- The connections that did not deliver CLOSE: none but the last, and none once the client
gave up. -/
structure Owing (client : ClientThread) (closed : List Nat) : Prop where
  last : ∀ source ≤ client.connection, source ∉ closed → source = client.connection
  exited : client.exiting = true → client.connection ∈ closed

/-- A connection that delivers CLOSE is the last, and the client did not give up. -/
theorem Owing.closing {client : ClientThread} {closed : List Nat} (owing : Owing client closed)
    {source : Nat} (created : source ≤ client.connection) (still : source ∉ closed) :
    source = client.connection ∧ client.exiting = false := by
  have same := owing.last source created still
  refine ⟨same, eq_false_of_ne_true fun exiting => ?_⟩
  exact still (same ▸ owing.exited exiting)

theorem closedSources_snoc (before : List ClientItem) (found : ClientItem) :
    closedSources (before ++ [found]) = closedSources before ++ found.closes.toList := by
  unfold closedSources
  rw [List.filterMap_append]
  cases closes : found.closes <;> simp [closes]

theorem Delivered.owing (delivered : Delivered retries interval items) :
    Owing (clientBehind retries interval items) (closedSources items) := by
  induction items using List.reverseRecOn with
  | nil =>
      constructor
      · intro source le _
        exact Nat.le_zero.mp le
      · intro exiting
        cases exiting
  | append_singleton before found ih =>
      have owing := ih delivered.front
      have answered := delivered.answered
      have closing := delivered.closes before found []
      rw [closedSources_snoc]
      generalize clientBehind retries interval (before ++ [found]) = after at answered ⊢
      cases answered with
      | unchanged none =>
          rw [none, Option.toList_none, List.append_nil]
          exact owing
      | connected none =>
          rw [none, Option.toList_none, List.append_nil]
          exact ⟨owing.last, owing.exited⟩
      | @retried source closes =>
          obtain ⟨created, still⟩ := closing source rfl closes
          obtain ⟨rfl, staying⟩ := owing.closing created still
          rw [closes, Option.toList_some]
          constructor
          · intro other le missing
            rcases Nat.le_succ_iff.mp le with earlier | new
            · rw [List.mem_append, not_or] at missing
              exact absurd (List.mem_singleton.mpr (owing.last other earlier missing.1)) missing.2
            · exact new
          · intro exiting
            exact absurd (staying.symm.trans exiting) Bool.false_ne_true
      | @givenUp source closes =>
          obtain ⟨created, still⟩ := closing source rfl closes
          obtain ⟨rfl, _⟩ := owing.closing created still
          rw [closes, Option.toList_some]
          constructor
          · intro other le missing
            rw [List.mem_append, not_or] at missing
            exact owing.last other le missing.1
          · intro _
            exact List.mem_append_right _ (List.mem_singleton_self _)

/-- Once the client gave up nothing is left that could close. -/
theorem Delivered.exiting {before after : List ClientItem}
    (delivered : Delivered retries interval (before ++ after))
    (exiting : (clientBehind retries interval before).exiting = true) :
    (clientBehind retries interval (before ++ after)).exiting = true ∧
      (clientBehind retries interval (before ++ after)).connection =
        (clientBehind retries interval before).connection := by
  induction after using List.reverseRecOn with
  | nil =>
      rw [List.append_nil]
      exact ⟨exiting, rfl⟩
  | append_singleton after found ih =>
      rw [← List.append_assoc] at delivered ⊢
      obtain ⟨still, same⟩ := ih delivered.front
      have answered := delivered.answered
      have closing := delivered.closes (before ++ after) found []
      have owing := delivered.front.owing
      generalize clientBehind retries interval (before ++ after ++ [found]) = last at answered ⊢
      cases answered with
      | unchanged => exact ⟨still, same⟩
      | connected => exact ⟨still, same⟩
      | @retried source closes =>
          obtain ⟨created, missing⟩ := closing source rfl closes
          have staying := (owing.closing created missing).2
          exact absurd (staying.symm.trans still) Bool.false_ne_true
      | givenUp => exact ⟨rfl, same⟩

theorem Delivered.givesUp (nonneg : 0 ≤ retries) {before : List ClientItem} {found : ClientItem}
    (delivered : Delivered retries interval (before ++ [found])) (closes : found.closes.isSome)
    (last : found.closedForError = false ∨ RetriesUsed retries interval before) :
    (clientBehind retries interval (before ++ [found])).exiting = true ∧
      (clientBehind retries interval (before ++ [found])).connection =
        (clientBehind retries interval before).connection := by
  have used := delivered.front.retriesUsed_iff nonneg
  have answered := delivered.answered
  generalize clientBehind retries interval (before ++ [found]) = after at answered ⊢
  cases answered with
  | unchanged none => simp [none] at closes
  | connected none => simp [none] at closes
  | retried _ failed left =>
      rcases last with orderly | spent
      · exact absurd (orderly.symm.trans failed) Bool.false_ne_true
      · exact absurd (used.mp spent) (Int.not_le.mpr left)
  | givenUp => exact ⟨rfl, rfl⟩

theorem Delivered.returns (delivered : Delivered retries interval items)
    (returned : (clientLoop (startedClient retries interval) items).running = false) :
    ∃ before found, items = before ++ [found] ∧
      (found.item = .exit ∨ (∃ source, found.item = .event .free source) ∧
        (clientBehind retries interval before).exiting = true) := by
  induction items using List.reverseRecOn with
  | nil => cases returned
  | append_singleton before found =>
      rw [(clientLoop_snoc (delivered.running before found [] rfl)).2] at returned
      exact ⟨before, found, rfl, clientItem_returns returned⟩

end

/-- The client connects again at most `retries` times between two CONNECTED, waits for one CLOSE
at a time, and creates no connection from the CLOSE on with which it gives up. -/
theorem client_retries_disciplined {retries : Int} (nonneg : 0 ≤ retries) (interval : Int)
    {items : List ClientItem} (delivered : Delivered retries interval items) :
    RetriesDisciplined retries interval items where
  bounded := by
    rintro before between after rfl unconnected
    have same := delivered.front.stretch unconnected
    have start := delivered.front.front.counted nonneg
    have last := delivered.front.counted nonneg
    omega
  owing := by
    rintro before after rfl first firstCreated second secondCreated firstOpen secondOpen
    have owing := delivered.front.owing
    rw [owing.last first firstCreated firstOpen, owing.last second secondCreated secondOpen]
  givesUp := by
    rintro before found after rfl closes last
    rw [List.append_cons] at delivered
    exact delivered.front.givesUp nonneg closes last
  exiting := by
    rintro before after rfl exiting
    exact (delivered.exiting exiting).2
  returns := delivered.returns

/-- A client that may connect again once: its connections fail one after the other. -/
theorem client_retries_disciplined_once :
    let found (event : Event) (source : Nat) : ClientItem :=
      { item := .event event source, closedForError := true, noMoreUsed := true, closed := true }
    RetriesDisciplined 1 5
      [found .connected 0, found .close 0, found .close 1, found .free 0] :=
  client_retries_disciplined (by decide) 5
    ((((Delivered.nil.snoc rfl (by decide)).snoc rfl (by decide)).snoc rfl (by decide)).snoc rfl
      (by decide))

end Aio4c

import Aio4c.ReaderLoop
import Mathlib.Data.List.Forall2

/-! A reader registers and unregisters only between its passes, when `curKey` is NULL, and makes a
pass only when a connection is ready. So its keys are never left dangling and its lock is never
left behind, and a pass visits exactly the connections that are ready. -/

set_option autoImplicit false

namespace Aio4c

open CriticalSection

/-! ## The functions of the selector come back -/

theorem lockedRegister_ok {selector after : Selector} {operation : Int16} {fd : Int}
    {attachment : Nat} {reallocated : Bool} {key : Option Nat}
    (result : register selector operation fd attachment reallocated = some (key, after)) :
    lockedRegister operation fd attachment true reallocated { state := selector, locked := false } =
      .ok (key, { state := after, locked := false }) := by
  unfold lockedRegister
  unfold register at result
  simp only [bind_run, takeLock_free, bind_ok, peek_run]
  revert result
  cases selector.busyKeys.find? fun node => (selector.keys node).any fun key => key.fd = fd with
  | some node =>
      intro result
      simp only [Option.bind_eq_bind, Option.pure_def, Option.bind_eq_some_iff] at result
      obtain ⟨counted, count, same⟩ := result
      cases same
      simp [access, count]
  | none =>
      intro result
      simp only [Bool.true_eq_false, and_false, if_false]
      cases taken : takeFreeKey selector with
      | mk node provided =>
          simp only [taken] at result ⊢
          cases grown : growPolls { provided with busyKeys := provided.busyKeys ++ [node] }
              reallocated with
          | none =>
              simp only [grown] at result ⊢
              cases result
              simp
          | some wide =>
              simp only [grown] at result ⊢
              simp only [Option.bind_eq_bind, Option.pure_def, Option.bind_eq_some_iff] at result
              obtain ⟨cell, found, polls, set, counted, count, same⟩ := result
              cases same
              simp [access, found, set, count]

theorem lockedUnregister_ok {selector after : Selector} {key : Nat} {unregisterAll last : Bool}
    (result : unregister selector key unregisterAll = some (last, after)) :
    lockedUnregister key unregisterAll { state := selector, locked := false } =
      .ok (last, { state := after, locked := false }) := by
  unfold lockedUnregister
  unfold unregister at result
  cases found : selector.keys key with
  | none => simp [found] at result
  | some cell =>
      simp only [bind_run, access, found, Option.bind_eq_bind, Option.bind_some, Option.pure_def,
        bind_ok, takeLock_free] at result ⊢
      cases node : cell.node with
      | none =>
          simp only [node] at result ⊢
          cases result
          simp
      | some place =>
          simp only [node, bind_run, peek_run, bind_ok] at result ⊢
          generalize (if unregisterAll = true then cell.count else cell.count - 1) = count
            at result ⊢
          by_cases counted : (!unregisterAll) = true ∧ count > 0
          · simp only [if_pos counted, Option.some.injEq, Prod.mk.injEq] at result ⊢
            obtain ⟨rfl, rfl⟩ := result
            rfl
          · simp only [if_neg counted] at result ⊢
            simp only [Option.bind_eq_some_iff] at result
            obtain ⟨_, busy, shifted, shift, polls, cleared, same⟩ := result
            cases same
            simp only [bind_run, access, busy, Option.bind_some, shift, cleared, bind_ok,
              releaseLock_run, pure_run]

theorem lockedScanFrom_ok {selector after : Selector} {key : Option Nat}
    (start : (selector.curKey.or selector.busyKeys.head?).isSome)
    (result : scanFrom selector = some (key, after)) :
    lockedScanFrom { state := selector, locked := true } =
      .ok (key, { state := after, locked := false }) := by
  obtain ⟨current, found⟩ := Option.isSome_iff_exists.mp start
  unfold lockedScanFrom
  simp only [bind_run, peek_run, bind_ok, found]
  simp [access, result]

/-- A call that finds a key, or has busy keys behind the current one, comes back as the function
without the lock does, and the lock is free. -/
theorem lockedSelectionKeyReady_ok {selector after : Selector} {key : Option Nat} {repoll : Repoll}
    (busy : selector.busyKeys ≠ [])
    (result : selectionKeyReady selector repoll = some (key, after)) :
    lockedSelectionKeyReady repoll { state := selector, locked := false } =
      .ok (key, { state := after, locked := false }) := by
  have starts : ∀ curKey : Option Nat, (curKey.or selector.busyKeys.head?).isSome := by
    intro curKey
    obtain ⟨first, rest, same⟩ := List.exists_cons_of_ne_nil busy
    cases curKey <;> simp [same]
  unfold lockedSelectionKeyReady
  unfold selectionKeyReady at result
  simp only [bind_run, takeLock_free, bind_ok, peek_run]
  cases current : selector.curKey with
  | none =>
      rw [current] at result
      exact lockedScanFrom_ok (starts _) result
  | some node =>
      cases found : selector.keys node with
      | none => simp [current, found] at result
      | some cell =>
          simp only [current, found, Option.bind_eq_bind, Option.bind_some] at result
          simp only [bind_run, access, found, Option.bind_eq_bind, Option.bind_some,
            Option.pure_def, bind_ok]
          by_cases returned : cell.curCount ≥ 1
          · simp only [if_pos returned] at result ⊢
            by_cases pending : cell.count > cell.curCount
            · simp only [if_pos pending] at result ⊢
              cases repoll with
              | error => exact lockedScanFrom_ok (starts _) result
              | revents revents =>
                  by_cases ready : revents &&& cell.operation ≠ 0
                  · simp only [if_pos ready, Option.pure_def, Option.some.injEq, Prod.mk.injEq]
                      at result ⊢
                    obtain ⟨rfl, rfl⟩ := result
                    rfl
                  · simp only [if_neg ready, Option.bind_eq_some_iff] at result ⊢
                    obtain ⟨next, stepped, scanned⟩ := result
                    simp only [bind_run, access, stepped, Option.bind_some, bind_ok, assign_run]
                    exact lockedScanFrom_ok (starts next) scanned
            · simp only [if_neg pending, Option.bind_eq_some_iff] at result ⊢
              obtain ⟨next, stepped, scanned⟩ := result
              simp only [bind_run, access, stepped, Option.bind_some, bind_ok, assign_run]
              exact lockedScanFrom_ok (starts next) scanned
          · simp only [if_neg returned] at result ⊢
            exact lockedScanFrom_ok (starts _) result

theorem lockedSelect_failed (selector : Selector) (interrupts : Nat) :
    lockedSelect (List.replicate interrupts .interrupted ++ [.failed])
        { state := selector, locked := false } =
      .ok (0, { state := selector, locked := false }) := by
  unfold lockedSelect
  simp only [bind_run, takeLock_free, bind_ok]
  induction interrupts with
  | zero => rfl
  | succ interrupts ih => exact ih

theorem lockedSelect_ready (selector : Selector) (interrupts : Nat) (nbPolls : Int)
    (revents : Nat → Int16) :
    lockedSelect (List.replicate interrupts .interrupted ++ [.ready nbPolls revents])
        { state := selector, locked := false } =
      .ok ((select selector (some (nbPolls, revents))).1,
        { state := (select selector (some (nbPolls, revents))).2, locked := false }) := by
  unfold lockedSelect
  simp only [bind_run, takeLock_free, bind_ok]
  induction interrupts with
  | zero => rfl
  | succ interrupts ih => exact ih

/-! ## A pass -/

/-- The key stands for one registration of the connection for reading. -/
def KeyFor (registry : Registry) (node : Nat) (entry : Nat × Int) : Prop :=
  registry entry.2 = some { operation := opRead, attachment := entry.1, count := 1, key := node }

section

variable {registry : Registry} {selector after : Selector} {nodes : List Nat}
  {managed : ManagedConnections} {revents : Nat → Int16}

theorem Selector.Represents.keyOf_registered (represents : selector.Represents registry) {fd : Int}
    {registration : Registration} (registered : registry fd = some registration) :
    registration.key ∈ selector.busyKeys ∧
      selector.keys registration.key = some (keyOf selector registration.key) ∧
      (keyOf selector registration.key).fd = fd ∧
      (keyOf selector registration.key).registration registration.key = registration := by
  obtain ⟨member, key, found, rfl⟩ := represents.finite fd registration registered
  obtain ⟨i, cell, slot, _, here⟩ := represents.slotOf member
  have same := here.keyOf_eq
  have equal : key = cell := Option.some.inj (found.symm.trans here.found)
  subst equal
  rw [same]
  exact ⟨member, found, rfl, Option.some.inj (here.registered.symm.trans registered)⟩

theorem scanReady_result {node : Nat} (found : scanReady selector nodes = some (some node, after)) :
    (keyOf after node).result = reventsOf selector node := by
  induction nodes with
  | nil => cases found
  | cons first nodes ih =>
      simp only [scanReady, Option.bind_eq_bind, Option.bind_eq_some_iff] at found
      obtain ⟨key, stored, slot, located, found⟩ := found
      split at found
      · simp only [Option.pure_def, Option.bind_eq_some_iff] at found
        obtain ⟨polls, _, same⟩ := found
        cases same
        simp [keyOf, reventsOf, stored, located]
      · exact ih found

/-- What `readerPass` does behind a call of `SelectionKeyReady`. -/
def passBehind (repolls : Nat → Repoll) (calls : Nat) :
    Option Nat → Locking Selector (List (Nat × Bool))
  | none => return []
  | some key => do
      let cell ← access fun selector => do pure (← selector.keys key, selector)
      let later ← readerPass repolls calls
      return (cell.attachment, selectionKeyIsOperationSuccessful cell) :: later

theorem readerPass_succ {repolls : Nat → Repoll} {calls : Nat} {key : Option Nat}
    (busy : selector.busyKeys ≠ [])
    (result : selectionKeyReady selector (repolls calls) = some (key, after)) :
    readerPass repolls (calls + 1) { state := selector, locked := false } =
      passBehind repolls calls key { state := after, locked := false } := by
  unfold readerPass
  simp only [bind_run, lockedSelectionKeyReady_ok busy result, bind_ok]
  cases key <;> rfl

/-- What a pass leaves: the registrations, and keys that were not delivered again. -/
structure PassLeaves (registry : Registry) (selector : Selector) (nodes : List Nat)
    (after : Selector) : Prop where
  represents : after.Represents registry
  busyKeys : after.busyKeys = selector.busyKeys
  idle : after.curKey = none
  rested : ∀ node ∈ nodes, (keyOf after node).curCount = 0
  others : ∀ node ∈ selector.busyKeys, node ∉ nodes → keyOf after node = keyOf selector node

/-- The keys in front of `nodes` are done. The induction is on the keys and connections behind
them; a key that is ready is delivered once, since its connection is registered once. -/
theorem passBehind_scan {repolls : Nat → Repoll} {calls slot : Nat} {front : List Nat}
    (held : List.Forall₂ (KeyFor registry) nodes managed)
    (represents : selector.Represents registry) (busy : selector.busyKeys = front ++ nodes)
    (silent : ∀ node ∈ front, ¬ 0 < reventsOf selector node)
    (rested : ∀ node ∈ nodes, (keyOf selector node).curCount = 0)
    (signalled : ∀ i node, nodes[i]? = some node → reventsOf selector node = revents (slot + i))
    (enough : nodes.length ≤ calls) :
    ∃ key found after, scanReady selector nodes = some (key, found) ∧
      found.busyKeys = selector.busyKeys ∧
      passBehind repolls calls key { state := found, locked := false } =
        .ok (readyFrom revents slot managed, { state := after, locked := false }) ∧
      PassLeaves registry selector nodes after := by
  induction held generalizing selector front slot calls with
  | nil =>
      exact ⟨none, { selector with curKey := none }, { selector with curKey := none }, rfl, rfl,
        rfl,
        { represents := represents.withCurKey none
          busyKeys := rfl
          idle := rfl
          rested := by simp
          others := fun _ _ _ => rfl }⟩
  | @cons node entry nodes managed here held ih =>
      have member : node ∈ selector.busyKeys := by simp [busy]
      have nodup := represents.busyNodup
      rw [busy] at nodup
      have absent : node ∉ nodes := (List.nodup_cons.mp (List.nodup_append.mp nodup).2.1).1
      have split : front ++ node :: nodes = (front ++ [node]) ++ nodes := by simp
      have answer : reventsOf selector node = revents slot := signalled 0 node rfl
      have later : ∀ i other, nodes[i]? = some other →
          reventsOf selector other = revents (slot + 1 + i) := by
        intro i other place
        rw [signalled (i + 1) other place, Nat.add_assoc, Nat.add_comm 1 i]
      by_cases ready : 0 < reventsOf selector node
      · obtain ⟨found, scan, current, visit⟩ := scanReady_found represents member ready nodes
        obtain ⟨_, stored, _, cell⟩ := visit.represents.keyOf_registered here
        have operation : (keyOf found node).operation = opRead :=
          congrArg Registration.operation cell
        have attachment : (keyOf found node).attachment = entry.1 :=
          congrArg Registration.attachment cell
        have count : (keyOf found node).count = 1 := congrArg Registration.count cell
        have curCount : (keyOf found node).curCount = 1 := by
          rw [visit.curCount, rested node List.mem_cons_self, Int.zero_add]
        obtain ⟨calls, rfl⟩ := Nat.exists_eq_add_of_lt (Nat.lt_of_lt_of_le (Nat.succ_pos _) enough)
        rw [Nat.zero_add] at enough ⊢
        -- the key was returned as often as it is registered: the next call goes on behind it
        have moves := selectionKeyReady_current visit.represents (visit.busyKeys.trans busy)
          (visit.silent_of busy silent) current (Int.le_of_eq curCount.symm) (repolls calls)
        rw [curCount, count, if_neg (Int.lt_irrefl 1)] at moves
        obtain ⟨_, again, _⟩ | ⟨next, called, visit'⟩ := moves
        · exact absurd again (Int.lt_irrefl 1)
        · have visited := visit.trans visit'
          have same : ∀ other ∈ nodes, keyOf next other = keyOf selector other ∧
              reventsOf next other = reventsOf selector other := by
            intro other inNodes
            apply visited.others other (by simp [busy, inNodes])
            intro equal
            exact absent (equal ▸ inNodes)
          obtain ⟨key, found', after, scan', kept, result, leaves⟩ := ih visited.represents
            (visited.busyKeys.trans (busy.trans split)) (visited.silent_of busy silent)
            (by
              intro other inNodes
              rw [(same other inNodes).1]
              exact rested other (List.mem_cons_of_mem _ inNodes))
            (by
              intro i other place
              rw [(same other (List.mem_of_getElem? place)).2]
              exact later i other place)
            (Nat.le_of_succ_le_succ enough)
          have successful : selectionKeyIsOperationSuccessful (keyOf found node) =
              decide (revents slot &&& opRead = opRead) := by
            rw [selectionKeyIsOperationSuccessful, operation, scanReady_result scan, answer]
          refine ⟨some node, found, after, scan, visit.busyKeys, ?_, leaves.represents,
            leaves.busyKeys.trans visited.busyKeys, leaves.idle, ?_, ?_⟩
          · rw [readyFrom, if_pos (answer ▸ ready), ← attachment, ← successful]
            have busy' : found.busyKeys ≠ [] := by
              rw [visit.busyKeys]
              exact List.ne_nil_of_mem member
            have goes := (readerPass_succ busy' (called.trans scan')).trans result
            simp only [passBehind, bind_run, access, stored, Option.bind_eq_bind, Option.bind_some,
              Option.pure_def, bind_ok, goes, pure_run]
          · intro other inNodes
            rcases List.mem_cons.mp inNodes with rfl | inNodes
            · rw [leaves.others other (visited.busyKeys ▸ member) absent]
              exact visited.curCount
            · exact leaves.rested other inNodes
          · intro other inBusy outside
            rw [List.mem_cons, not_or] at outside
            rw [leaves.others other (visited.busyKeys ▸ inBusy) outside.2]
            exact (visited.others other inBusy outside.1).1
      · obtain ⟨key, found, after, scan, kept, result, leaves⟩ := ih represents (busy.trans split)
          (by
            intro other inFront
            rcases List.mem_append.mp inFront with inFront | single
            · exact silent other inFront
            · rw [List.mem_singleton.mp single]
              exact ready)
          (fun other inNodes => rested other (List.mem_cons_of_mem _ inNodes)) later
          (Nat.le_of_succ_le enough)
        refine ⟨key, found, after, ?_, kept, ?_, leaves.represents, leaves.busyKeys, leaves.idle,
          ?_, ?_⟩
        · rw [scanReady_skip represents member ready, scan]
        · rw [result, readyFrom, if_neg (answer ▸ ready)]
        · intro other inNodes
          rcases List.mem_cons.mp inNodes with rfl | inNodes
          · rw [leaves.others other member absent]
            exact rested other List.mem_cons_self
          · exact leaves.rested other inNodes
        · intro other inBusy outside
          exact leaves.others other inBusy fun inNodes =>
            outside (List.mem_cons_of_mem _ inNodes)

end

/-! ## The items -/

/-- The key of the entry, under which the reader finds it again. -/
structure Held (reader : PollingReader) (registry : Registry) (node : Nat) (entry : Nat × Int) :
    Prop where
  keyFor : KeyFor registry node entry
  readKey : reader.readKey entry.1 = some node

/-- Between passes: the busy keys are those of the managed connections, in their order, none was
delivered, and `curKey` is NULL. -/
structure Manages (reader : PollingReader) (selector : Selector) (registry : Registry)
    (managed : ManagedConnections) : Prop where
  represents : selector.Represents registry
  idle : selector.curKey = none
  held : List.Forall₂ (Held reader registry) selector.busyKeys managed
  rested : ∀ node ∈ selector.busyKeys, (keyOf selector node).curCount = 0
  unmanaged : ∀ connection, (∀ entry ∈ managed, entry.1 ≠ connection) →
    reader.readKey connection = none

theorem newPollingReader_manages (pipe : Int) :
    Manages newPollingReader (newSelector pipe) Registry.empty [] where
  represents := newSelector_represents pipe
  idle := rfl
  held := .nil
  rested _ member := nomatch member
  unmanaged _ _ := rfl

theorem forall₂_mem_right {α β : Type} {related : α → β → Prop} {left : List α} {right : List β}
    (all : List.Forall₂ related left right) {value : β} (member : value ∈ right) :
    ∃ other ∈ left, related other value := by
  induction all with
  | nil => cases member
  | cons here _ ih =>
      rcases List.mem_cons.mp member with rfl | member
      · exact ⟨_, List.mem_cons_self, here⟩
      · obtain ⟨other, inLeft, related⟩ := ih member
        exact ⟨other, List.mem_cons_of_mem _ inLeft, related⟩

theorem forall₂_mem_left {α β : Type} {related : α → β → Prop} {left : List α} {right : List β}
    (all : List.Forall₂ related left right) {value : α} (member : value ∈ left) :
    ∃ other ∈ right, related value other :=
  forall₂_mem_right all.flip member

namespace Manages

variable {reader : PollingReader} {selector : Selector} {registry : Registry}
  {managed : ManagedConnections}

theorem takeFreeKey_curKey (selector : Selector) :
    (takeFreeKey selector).2.curKey = selector.curKey := by
  unfold takeFreeKey
  split <;> rfl

/-- A descriptor that no managed connection has is not registered. -/
theorem unregistered (manages : Manages reader selector registry managed) {socket : Int}
    (fresh : ∀ entry ∈ managed, entry.2 ≠ socket) : registry socket = none := by
  cases registered : registry socket with
  | none => rfl
  | some registration =>
      obtain ⟨member, _, fd, _⟩ := manages.represents.keyOf_registered registered
      obtain ⟨entry, inManaged, held⟩ := forall₂_mem_left manages.held member
      obtain ⟨_, _, fd', _⟩ := manages.represents.keyOf_registered held.keyFor
      exact absurd (fd'.symm.trans fd) (fresh entry inManaged)

theorem register (manages : Manages reader selector registry managed) {connection : Nat}
    {socket : Int} (fresh : ∀ entry ∈ managed, entry.1 ≠ connection ∧ entry.2 ≠ socket)
    (load : Int) :
    ∃ node after registry',
      Aio4c.register selector opRead socket connection true = some (some node, after) ∧
      Manages { readKey := Function.update reader.readKey connection (some node), load } after
        registry' (managed ++ [(connection, socket)]) := by
  have unregistered := manages.unregistered fun entry member => (fresh entry member).2
  have unmanaged := manages.unmanaged connection fun entry member => (fresh entry member).1
  have ready := manages.represents.takeFreeKey_ok
  obtain ⟨old, polls, maxPolls, added, result⟩ :=
    manages.represents.register_extended unregistered opRead connection
  refine ⟨_, _, _, result, manages.represents.extended_represents unregistered ready added, ?_, ?_,
    ?_, ?_⟩
  · exact (takeFreeKey_curKey selector).trans manages.idle
  · apply List.rel_append
    · apply manages.held.imp
      intro node entry held
      have otherSocket : entry.2 ≠ socket := by
        intro same
        have known := held.keyFor
        rw [KeyFor, same, unregistered] at known
        cases known
      have otherConnection : entry.1 ≠ connection := by
        intro same
        have known := held.readKey
        rw [same, unmanaged] at known
        cases known
      exact ⟨by rw [KeyFor, Function.update_of_ne otherSocket]; exact held.keyFor,
        (Function.update_of_ne otherConnection _ _).trans held.readKey⟩
    · exact .cons ⟨Function.update_self _ _ _, Function.update_self _ _ _⟩ .nil
  · intro node member
    rcases List.mem_append.mp member with inBusy | new
    · have differs : node ≠ (takeFreeKey selector).1 := by
        rintro rfl
        exact Selector.Represents.Provided.fresh ready inBusy
      have same : keyOf (selector.extended (takeFreeKey selector).2 (takeFreeKey selector).1
          (old.registeredAs selector.numPolls (takeFreeKey selector).1 opRead socket connection)
          polls maxPolls) node = keyOf selector node := by
        simp only [keyOf, Selector.extended, Function.update_of_ne differs, ready.kept node inBusy]
      rw [same]
      exact manages.rested node inBusy
    · rw [List.mem_singleton.mp new]
      simp [keyOf, Selector.extended, SelectionKey.registeredAs]
  · intro other outside
    have differs : other ≠ connection := by
      rintro rfl
      exact outside (other, socket) (by simp) rfl
    simp only [Function.update_of_ne differs]
    apply manages.unmanaged
    intro entry member
    exact outside entry (List.mem_append_left _ member)

/-- A key is that of one connection, and a connection has one key. -/
theorem held_iff (manages : Manages reader selector registry managed) {node other : Nat}
    {entry another : Nat × Int} (held : Held reader registry node entry)
    (there : Held reader registry other another) : other = node ↔ another.1 = entry.1 := by
  constructor
  · rintro rfl
    obtain ⟨_, _, _, first⟩ := manages.represents.keyOf_registered held.keyFor
    obtain ⟨_, _, _, second⟩ := manages.represents.keyOf_registered there.keyFor
    exact congrArg Registration.attachment (second.symm.trans first)
  · intro same
    exact Option.some.inj (there.readKey.symm.trans (same ▸ held.readKey))

theorem unregister (manages : Manages reader selector registry managed) {node : Nat}
    {entry : Nat × Int} (held : Held reader registry node entry) (load : Int) :
    ∃ after registry', Aio4c.unregister selector node true = some (true, after) ∧
      Manages { readKey := Function.update reader.readKey entry.1 none, load } after registry'
        (managed.filter fun other => other.1 ≠ entry.1) := by
  obtain ⟨member, _, fd, _⟩ := manages.represents.keyOf_registered held.keyFor
  simp only at member fd
  obtain ⟨i, key, slot, place, here⟩ := manages.represents.slotOf member
  rw [here.keyOf_eq] at fd
  obtain ⟨after, result, represents, busyKeys, curKey, others⟩ :=
    manages.represents.unregister_last here place (.inl rfl)
  have nodup := manages.represents.busyNodup
  have erased : after.busyKeys = selector.busyKeys.filter fun other => other ≠ node := by
    rw [busyKeys, nodup.erase_eq_filter]
    apply List.filter_congr
    intro other _
    by_cases same : other = node <;> simp [same]
  refine ⟨after, _, result, represents, curKey.trans manages.idle, ?_, ?_, ?_⟩
  · rw [erased]
    have apart : ∀ {other : Nat} {another : Nat × Int}, Held reader registry other another →
        (decide (other ≠ node) = true ↔ decide (another.1 ≠ entry.1) = true) := by
      intro other another there
      rw [decide_eq_true_iff, decide_eq_true_iff, ne_eq, ne_eq, manages.held_iff held there]
    have both := (List.forall₂_and_left _ _).mpr
      ⟨fun other inFilter => of_decide_eq_true (List.mem_filter.mp inFilter).2,
        List.rel_filter (fun _ _ there => apart there) manages.held⟩
    apply both.imp
    intro other another ⟨differs, there⟩
    have otherFd : another.2 ≠ key.fd := by
      intro same
      obtain ⟨_, _, fd', _⟩ := manages.represents.keyOf_registered there.keyFor
      have known := there.keyFor
      rw [KeyFor, same, here.registered] at known
      exact differs (congrArg Registration.key (Option.some.inj known)).symm
    have otherConnection : another.1 ≠ entry.1 := by
      intro same
      exact differs ((manages.held_iff held there).mpr same)
    exact ⟨by rw [KeyFor, Function.update_of_ne otherFd]; exact there.keyFor,
      (Function.update_of_ne otherConnection _ _).trans there.readKey⟩
  · intro other inAfter
    rw [erased, List.mem_filter, decide_eq_true_iff] at inAfter
    obtain ⟨k, j, otherKey, otherSlot, poll, there, stays⟩ := others other inAfter.1 inAfter.2
    have same := manages.rested other inAfter.1
    rw [there.keyOf_eq] at same
    rw [stays.keyOf_eq]
    exact same
  · intro other outside
    simp only
    rcases eq_or_ne other entry.1 with rfl | differs
    · exact Function.update_self _ _ _
    · rw [Function.update_of_ne differs]
      apply manages.unmanaged
      rintro another inManaged rfl
      exact outside another (List.mem_filter.mpr ⟨inManaged, decide_eq_true differs⟩) rfl

/-- A connection without a key is not managed. -/
theorem not_managed (manages : Manages reader selector registry managed) {connection : Nat}
    (none : reader.readKey connection = none) : ∀ entry ∈ managed, entry.1 ≠ connection := by
  rintro entry member rfl
  obtain ⟨_, _, held⟩ := forall₂_mem_right manages.held member
  rw [held.readKey] at none
  cases none

theorem managed_of_key (manages : Manages reader selector registry managed) {connection node : Nat}
    (key : reader.readKey connection = some node) : ∃ entry ∈ managed, entry.1 = connection := by
  by_contra none
  rw [manages.unmanaged connection fun entry member same => none ⟨entry, member, same⟩] at key
  cases key

/-- A change of `load` alone. -/
theorem reload (manages : Manages reader selector registry managed) (load : Int) :
    Manages { reader with load } selector registry managed :=
  { manages with held := manages.held.imp fun _ _ held => ⟨held.keyFor, held.readKey⟩ }

theorem entry (manages : Manages reader selector registry managed) {entry : ReaderEntry}
    (legal : entry.Legal managed) :
    ∃ reader' after registry',
      readerEntry reader entry { state := selector, locked := false } =
        .ok (reader', { state := after, locked := false }) ∧
      Manages reader' after registry' (entry.manage managed) := by
  cases entry with
  | data connection socket granted reallocated =>
      obtain ⟨fresh, rfl, rfl⟩ := legal
      obtain ⟨node, after, registry', result, manages'⟩ := manages.register fresh (reader.load + 1)
      refine ⟨_, after, registry', ?_, manages'⟩
      simp only [readerEntry, bind_run, lockedRegister_ok result, bind_ok, pure_run]
  | close connection =>
      cases key : reader.readKey connection with
      | none =>
          have same : managed.filter (fun entry => entry.1 ≠ connection) = managed := by
            apply List.filter_eq_self.mpr
            intro entry member
            exact decide_eq_true (manages.not_managed key entry member)
          have kept : Function.update reader.readKey connection none = reader.readKey := by
            rw [← key, Function.update_eq_self]
          refine ⟨{ reader with load := reader.load - 1 }, selector, registry, ?_, ?_⟩
          · simp only [readerEntry, key, kept]
            rfl
          · rw [ReaderEntry.manage, same]
            exact manages.reload _
      | some node =>
          obtain ⟨entry, member, rfl⟩ := manages.managed_of_key key
          obtain ⟨other, _, held⟩ := forall₂_mem_right manages.held member
          have same : other = node := Option.some.inj (held.readKey.symm.trans key)
          subst same
          obtain ⟨after, registry', result, manages'⟩ := manages.unregister held (reader.load - 1)
          refine ⟨_, after, registry', ?_, manages'⟩
          simp only [readerEntry, key, bind_run, lockedUnregister_ok result, bind_ok, pure_run]
  | exit | pendingClose | other => exact ⟨reader, selector, registry, rfl, manages⟩

theorem entries {items : List ReaderEntry} (manages : Manages reader selector registry managed)
    (legal : LegalEntries managed items) :
    ∃ reader' after registry',
      readerEntries reader items { state := selector, locked := false } =
        .ok ((!items.contains .exit, reader'), { state := after, locked := false }) ∧
      Manages reader' after registry' (managedBehind managed items) := by
  induction items generalizing reader selector registry managed with
  | nil => exact ⟨reader, selector, registry, rfl, manages⟩
  | cons item items ih =>
      by_cases exits : item = .exit
      · subst exits
        exact ⟨reader, selector, registry, rfl, manages⟩
      · have first : item.Legal managed ∧ LegalEntries (item.manage managed) items := by
          cases item <;> first | exact legal | exact absurd rfl exits
        obtain ⟨reader', after, registry', result, manages'⟩ := manages.entry first.1
        obtain ⟨reader'', last, registry'', rest, manages''⟩ := ih manages' first.2
        have later : readerEntries reader (item :: items) = (do
            let reader ← readerEntry reader item
            readerEntries reader items) := by
          cases item <;> first | rfl | exact absurd rfl exits
        have behind : managedBehind managed (item :: items) =
            managedBehind (item.manage managed) items := by
          cases item <;> first | rfl | exact absurd rfl exits
        have contains : (item :: items).contains .exit = items.contains .exit := by
          rw [List.contains_cons, beq_false_of_ne (Ne.symm exits), Bool.false_or]
        refine ⟨reader'', last, registry'', ?_, behind ▸ manages''⟩
        rw [later, contains]
        simp only [bind_run, result, bind_ok, rest]

end Manages

/-! ## A turn -/

theorem readyFrom_silent {revents : Nat → Int16} {managed : ManagedConnections} {slot : Nat}
    (silent : ∀ i < managed.length, ¬ 0 < revents (slot + i)) :
    readyFrom revents slot managed = [] := by
  induction managed generalizing slot with
  | nil => rfl
  | cons entry managed ih =>
      have first : ¬ 0 < revents slot := silent 0 (Nat.succ_pos _)
      rw [readyFrom, if_neg first]
      apply ih
      intro i inside
      have here := silent (i + 1) (Nat.succ_lt_succ inside)
      rwa [Nat.add_comm i 1, ← Nat.add_assoc] at here

theorem select_count (selector : Selector) (nbPolls : Int) (revents : Nat → Int16) :
    (select selector (some (nbPolls, revents))).1 =
      if revents 0 &&& opRead ≠ 0 then nbPolls - 1 else nbPolls := by
  simp only [select]
  split <;> rfl

/-- `Select` returns the number of connections that the kernel reports. -/
theorem KernelAnswer.select {slots : Nat} {nbPolls : Int} {revents : Nat → Int16}
    (answer : KernelAnswer (slots + 1) nbPolls revents) (selector : Selector) :
    (select selector (some (nbPolls, revents))).1 =
      (List.range slots).countP fun i => revents (i + 1) ≠ 0 := by
  have counted := answer.counted
  rw [List.range_succ_eq_map, List.countP_cons, List.countP_map] at counted
  have same : (List.range slots).countP ((fun slot => decide (revents slot ≠ 0)) ∘ Nat.succ) =
      (List.range slots).countP fun i => revents (i + 1) ≠ 0 := rfl
  rw [same] at counted
  rw [select_count]
  rcases answer.pipe with silent | woken
  · rw [silent] at counted ⊢
    rw [counted, if_neg (by decide), if_neg (by decide), Nat.add_zero]
  · have reported : revents 0 ≠ 0 := by
      intro zero
      rw [zero] at woken
      exact woken (by decide)
    rw [counted, if_pos woken, if_pos (decide_eq_true reported)]
    omega

namespace Manages

variable {reader : PollingReader} {selector after : Selector} {registry : Registry}
  {managed : ManagedConnections}

/-- A pass leaves the reader as it was. -/
theorem passed (manages : Manages reader selector registry managed) {polls : List Poll}
    (leaves : PassLeaves registry { selector with polls } selector.busyKeys after) :
    Manages reader after registry managed where
  represents := leaves.represents
  idle := leaves.idle
  held := leaves.busyKeys ▸ manages.held
  rested node member := leaves.rested node (leaves.busyKeys ▸ member)
  unmanaged := manages.unmanaged

/-- `Select` and the pass behind it, where it reports a connection. -/
theorem pass (manages : Manages reader selector registry managed) {nbPolls : Int}
    {revents : Nat → Int16} (answer : KernelAnswer (managed.length + 1) nbPolls revents)
    (repolls : Nat → Repoll) :
    ∃ numConnectionsReady polls,
      select selector (some (nbPolls, revents)) = (numConnectionsReady, { selector with polls }) ∧
      (0 < numConnectionsReady → ∃ after,
        readerPass repolls (managed.length + 1)
            { state := { selector with polls }, locked := false } =
          .ok (readyFrom revents 1 managed, { state := after, locked := false }) ∧
        Manages reader after registry managed) ∧
      (¬ 0 < numConnectionsReady → readyFrom revents 1 managed = [] ∧
        Manages reader { selector with polls } registry managed) := by
  obtain ⟨ready, polls, selected, represents, slots⟩ := manages.represents.select nbPolls revents
  have counted := answer.select selector
  rw [selected] at counted
  simp only at counted
  have lengths := manages.held.length_eq
  refine ⟨ready, polls, selected, ?_, ?_⟩
  · intro positive
    have busy : selector.busyKeys ≠ [] := by
      intro none
      rw [none, List.length_nil] at lengths
      rw [counted, ← lengths] at positive
      simp at positive
    have keys : List.Forall₂ (KeyFor registry) selector.busyKeys managed :=
      manages.held.imp fun _ _ held => held.keyFor
    have signalled : ∀ i node, selector.busyKeys[i]? = some node →
        reventsOf { selector with polls } node = revents (1 + i) := by
      intro i node place
      rw [slots i node place, Nat.add_comm]
    have silent : ∀ node ∈ [], ¬ 0 < reventsOf { selector with polls } node := by simp
    obtain ⟨key, found, after, scan, _, result, leaves⟩ :=
      @passBehind_scan registry { selector with polls } selector.busyKeys managed revents repolls
        managed.length 1 [] keys represents rfl silent manages.rested signalled
        (Nat.le_of_eq lengths)
    have called : selectionKeyReady { selector with polls } (repolls managed.length) =
        some (key, found) := by
      have scanned := (scanFrom_idle represents busy manages.idle).trans scan
      unfold selectionKeyReady
      simp only [manages.idle] at scanned ⊢
      exact scanned
    have stays : ({ selector with polls } : Selector).busyKeys ≠ [] := busy
    exact ⟨after, (readerPass_succ stays called).trans result, manages.passed leaves⟩
  · intro none
    rw [counted] at none
    have quiet := List.countP_eq_zero.mp (Int.natCast_nonpos_iff.mp (Int.not_lt.mp none))
    have silent : ∀ i < managed.length, ¬ 0 < revents (1 + i) := by
      intro i inside
      have zero := quiet i (List.mem_range.mpr inside)
      simp only [decide_not, Bool.not_eq_true', decide_eq_false_iff_not,
        Classical.not_not] at zero
      rw [Nat.add_comm, zero]
      decide
    exact ⟨readyFrom_silent silent, represents, manages.idle, manages.held, manages.rested,
      manages.unmanaged⟩

/-- A turn of the reader; a legal answer of the kernel makes it pass over the connections. -/
theorem turn (manages : Manages reader selector registry managed) {turn : ReaderTurn}
    (legal : turn.Legal managed) :
    ∃ calls outcome after registry',
      readerTurn calls reader turn { state := selector, locked := false } =
        .ok (outcome, { state := after, locked := false }) ∧
      outcome.running = turn.running ∧ outcome.ready = turn.ready managed ∧
      Manages outcome.reader after registry' (managedBehind managed turn.entries) := by
  obtain ⟨reader', between, registry', entered, manages'⟩ := manages.entries legal.1
  refine ⟨(managedBehind managed turn.entries).length + 1, ?_⟩
  unfold readerTurn
  simp only [bind_run, entered, bind_ok]
  cases running : turn.running with
  | false =>
      have exits : (!turn.entries.contains .exit) = false := running
      refine ⟨{ running := false, ready := [], reader := reader' }, between, registry', ?_, rfl, ?_,
        manages'⟩
      · simp only [exits, Bool.false_eq_true, if_false]
        rfl
      · rw [ReaderTurn.ready, running]
        cases turn.poll <;> rfl
  | true =>
      have goesOn : (!turn.entries.contains .exit) = true := running
      simp only [goesOn, if_true, bind_run]
      cases polled : turn.poll with
      | none =>
          refine ⟨{ running := true, ready := [], reader := reader' }, between, registry', ?_, rfl,
            ?_, manages'⟩
          · have outcomes : turn.outcomes =
                List.replicate turn.interrupts .interrupted ++ [.failed] := by
              rw [ReaderTurn.outcomes, polled]
            simp only [outcomes, lockedSelect_failed, bind_ok, gt_iff_lt, Int.lt_irrefl, if_false]
            rfl
          · rw [ReaderTurn.ready, polled]
      | some answer =>
          obtain ⟨nbPolls, revents⟩ := answer
          have outcomes : turn.outcomes =
              List.replicate turn.interrupts .interrupted ++ [.ready nbPolls revents] := by
            rw [ReaderTurn.outcomes, polled]
          have ready : turn.ready managed =
              readyFrom revents 1 (managedBehind managed turn.entries) := by
            rw [ReaderTurn.ready, polled, running]
            rfl
          obtain ⟨numConnectionsReady, polls, selected, passes, rests⟩ :=
            manages'.pass (legal.2 nbPolls revents polled) turn.repolls
          simp only [outcomes, lockedSelect_ready, selected, bind_ok, ready]
          by_cases positive : 0 < numConnectionsReady
          · obtain ⟨after, passed, manages''⟩ := passes positive
            refine ⟨{ running := true, ready := _, reader := reader' }, after, registry', ?_, rfl,
              rfl, manages''⟩
            simp only [gt_iff_lt, if_pos positive, bind_run, passed, bind_ok]
            rfl
          · obtain ⟨silent, manages''⟩ := rests positive
            refine ⟨{ running := true, ready := [], reader := reader' }, _, registry', ?_, rfl,
              silent.symm, manages''⟩
            simp only [gt_iff_lt, if_neg positive]
            rfl

end Manages

/-- A reader with its queue never calls a function of its selector that waits for its own lock,
and never passes over a key that is gone: each of its turns comes back, and reads the managed
connections that are ready, each once. -/
theorem newPollingReader_refines (pipe : Int) (turns : List ReaderTurn) :
    ReaderRefines newPollingReader (newSelector pipe) [] turns := by
  have refines : ∀ {reader : PollingReader} {selector : Selector} {registry : Registry}
      {managed : ManagedConnections}, Manages reader selector registry managed →
      ReaderRefines reader selector managed turns := by
    induction turns with
    | nil => exact fun _ => trivial
    | cons turn turns ih =>
        intro reader selector registry managed manages legal
        obtain ⟨calls, outcome, after, _, result, running, ready, manages'⟩ := manages.turn legal
        exact ⟨calls, outcome, after, result, running, ready, manages'.idle, ih manages'⟩
  exact refines (newPollingReader_manages pipe)

/-- The first turn of a reader: two connections are handed to it, and its `poll` is interrupted
once and then reports the second. -/
def secondReadable : ReaderTurn where
  entries := [.data 7 5 true true, .data 8 6 true true]
  interrupts := 1
  poll := some (1, fun slot => if slot = 2 then opRead else 0)
  repolls := fun _ => .error

theorem secondReadable_legal : secondReadable.Legal [] := by
  refine ⟨by simp [secondReadable, LegalEntries, ReaderEntry.Legal, ReaderEntry.manage], ?_⟩
  rintro nbPolls revents polled
  cases polled
  exact { counted := by decide, flags := by intro slot; split <;> decide, pipe := by decide }

theorem newPollingReader_refines_second :
    ∃ calls outcome after,
      readerTurn calls newPollingReader secondReadable
          { state := newSelector 3, locked := false } =
        .ok (outcome, { state := after, locked := false }) ∧ outcome.ready = [(8, true)] := by
  obtain ⟨calls, outcome, after, result, _, ready, _⟩ :=
    newPollingReader_refines 3 [secondReadable] secondReadable_legal
  refine ⟨calls, outcome, after, result, ready.trans ?_⟩
  decide

end Aio4c

import Aio4c.Selector
import Mathlib.Data.List.Basic
import Mathlib.Data.Option.Basic

/-! The selector table as a finite map of registrations. Key `i` of the busy list
owns slot `i + 1`; that one fact gives the bijection between keys and slots, and
it survives the shift of `Unregister`. -/

set_option autoImplicit false

namespace Aio4c

structure Registration where
  operation : Int16
  attachment : Nat
  count : Int
  key : Nat
  deriving DecidableEq, Repr

abbrev Registry := Int → Option Registration

def SelectionKey.registration (key : SelectionKey) (node : Nat) : Registration :=
  { operation := key.operation, attachment := key.attachment, count := key.count, key := node }

/-- The key at place `i` of the busy list and its slot. -/
structure KeySlot (selector : Selector) (registry : Registry) (i : Nat) (node : Nat)
    (key : SelectionKey) (slot : Poll) : Prop where
  found : selector.keys node = some key
  linked : key.node = some node
  index : key.poll = i + 1
  located : pollAt selector.polls (i + 1) = some slot
  descriptor : slot.fd = key.fd
  interest : slot.events = key.operation
  positive : 1 ≤ key.count
  current : 0 ≤ key.curCount
  registered : registry key.fd = some (key.registration node)

structure Selector.Represents (selector : Selector) (registry : Registry) : Prop where
  numPolls : selector.numPolls = 1 + selector.busyKeys.length
  capacity : selector.numPolls ≤ selector.maxPolls
  table : (selector.polls.length : Int) = selector.maxPolls
  pipe : ∃ slot, pollAt selector.polls 0 = some slot ∧ slot.fd = selector.pipe ∧
    slot.events = opRead
  nodup : (selector.busyKeys ++ selector.freeKeys).Nodup
  bound : ∀ node ∈ selector.busyKeys ++ selector.freeKeys, node < selector.allocated
  free : ∀ node ∈ selector.freeKeys, (selector.keys node).isSome
  slots : ∀ i node, selector.busyKeys[i]? = some node →
    ∃ key slot, KeySlot selector registry i node key slot
  finite : ∀ fd registration, registry fd = some registration →
    registration.key ∈ selector.busyKeys ∧
      ∃ key, selector.keys registration.key = some key ∧ key.fd = fd

def Registry.empty : Registry := fun _ => none

/-! ## Slots -/

theorem pollAt_isSome {polls : List Poll} {i : Int} (lower : 0 ≤ i)
    (upper : i < polls.length) : ∃ slot, pollAt polls i = some slot := by
  have bound : i.toNat < polls.length := by omega
  exact ⟨polls[i.toNat], by rw [pollAt, if_pos lower, List.getElem?_eq_getElem bound]⟩

theorem setPoll_ok {polls : List Poll} {i : Int} (lower : 0 ≤ i) (upper : i < polls.length)
    (poll : Poll) :
    ∃ polls', setPoll polls i poll = some polls' ∧ polls'.length = polls.length ∧
      ∀ j, pollAt polls' j = if j = i then some poll else pollAt polls j := by
  refine ⟨_, if_pos ⟨lower, upper⟩, List.length_set, fun j => ?_⟩
  unfold pollAt
  rw [List.getElem?_set]
  by_cases here : j = i
  · subst here
    simp [lower, show j.toNat < polls.length by omega]
  · by_cases nonneg : 0 ≤ j
    · simp [here, nonneg, show ¬ i.toNat = j.toNat by omega]
    · simp [here, nonneg]

theorem pollAt_append {polls : List Poll} {i : Int} (upper : i < polls.length) (last : Poll) :
    pollAt (polls ++ [last]) i = pollAt polls i := by
  unfold pollAt
  split
  · exact List.getElem?_append_left (by omega)
  · rfl

/-! ## The shift of `Unregister` -/

def shiftedKey (low high : Int) (key : SelectionKey) : SelectionKey :=
  { key with poll := if low < key.poll ∧ key.poll ≤ high then key.poll - 1 else key.poll }

/-- Keys of the busy list after slots up to `high` moved down from `low`. -/
def shiftedKeys (busyKeys : List Nat) (low high : Int) (keys : Nat → Option SelectionKey) :
    Nat → Option SelectionKey := fun node =>
  if node ∈ busyKeys then (keys node).map (shiftedKey low high) else keys node

theorem shiftKeys_ok {keys : Nat → Option SelectionKey} {nodes : List Nat} (nodup : nodes.Nodup)
    (present : ∀ node ∈ nodes, (keys node).isSome) (i : Int) :
    shiftKeys keys i nodes = some (shiftedKeys nodes i (i + 1) keys) := by
  induction nodes generalizing keys with
  | nil =>
      simp only [shiftKeys, Option.some.injEq]
      funext node
      simp [shiftedKeys]
  | cons node nodes ih =>
      obtain ⟨absent, nodup'⟩ := List.nodup_cons.mp nodup
      obtain ⟨key, found⟩ := Option.isSome_iff_exists.mp (present node (by simp))
      have step : (if key.poll = i + 1 then
          Function.update keys node (some { key with poll := key.poll - 1 }) else keys) =
          Function.update keys node (some (shiftedKey i (i + 1) key)) := by
        by_cases here : key.poll = i + 1
        · rw [if_pos here, shiftedKey, if_pos ⟨by omega, by omega⟩]
        · rw [if_neg here, shiftedKey, if_neg (by omega), ← found, Function.update_eq_self]
      simp only [shiftKeys, found, Option.bind_eq_bind, Option.bind_some, step]
      rw [ih nodup' fun other member => by
        rw [Function.update_of_ne (by intro same; subst same; exact absent member)]
        exact present other (by simp [member])]
      congr 1
      funext other
      unfold shiftedKeys
      by_cases here : other = node
      · subst here
        simp [absent, found]
      · simp [here]

theorem shiftedKeys_nil (busyKeys : List Nat) (i : Int) (keys : Nat → Option SelectionKey) :
    shiftedKeys busyKeys i i keys = keys := by
  funext node
  unfold shiftedKeys
  split
  · have same : shiftedKey i i = id := by
      funext key
      simp [shiftedKey, show ¬(i < key.poll ∧ key.poll ≤ i) by omega]
    rw [same, Option.map_id, id]
  · rfl

/-- Shifting one slot and then the slots above it shifts them all. -/
theorem shiftedKeys_shiftedKeys (busyKeys : List Nat) {low high : Int} (ordered : low + 1 ≤ high)
    (keys : Nat → Option SelectionKey) :
    shiftedKeys busyKeys (low + 1) high (shiftedKeys busyKeys low (low + 1) keys) =
      shiftedKeys busyKeys low high keys := by
  funext node
  unfold shiftedKeys
  by_cases member : node ∈ busyKeys
  · simp only [member, if_true, Option.map_map]
    congr 1
    funext key
    simp only [Function.comp, shiftedKey]
    congr 1
    split <;> split <;> split <;> omega
  · simp [member]

theorem shiftPolls_ok {busyKeys : List Nat} (nodup : busyKeys.Nodup) {steps : Nat} {i : Int}
    {keys : Nat → Option SelectionKey} {polls : List Poll}
    (present : ∀ node ∈ busyKeys, (keys node).isSome) (lower : 0 ≤ i)
    (upper : i + steps < polls.length) :
    ∃ polls', shiftPolls busyKeys steps i keys polls =
        some (shiftedKeys busyKeys i (i + steps) keys, polls') ∧
      polls'.length = polls.length ∧
      ∀ j, pollAt polls' j =
        if i ≤ j ∧ j < i + steps then pollAt polls (j + 1) else pollAt polls j := by
  induction steps generalizing i keys polls with
  | zero =>
      refine ⟨polls, ?_, rfl, fun j => (if_neg (by omega)).symm⟩
      simp only [shiftPolls, Int.natCast_zero, Int.add_zero, shiftedKeys_nil]
  | succ steps ih =>
      obtain ⟨slot, located⟩ := pollAt_isSome (show 0 ≤ i + 1 by omega)
        (show i + 1 < polls.length by omega)
      obtain ⟨moved, set, length, at'⟩ := setPoll_ok lower (show i < polls.length by omega) slot
      have present' : ∀ node ∈ busyKeys, (shiftedKeys busyKeys i (i + 1) keys node).isSome := by
        intro node member
        simp [shiftedKeys, member, present node member]
      obtain ⟨polls', result, length', at''⟩ :=
        ih present' (show 0 ≤ i + 1 by omega) (by rw [length]; omega)
      have span : i + 1 + (steps : Int) = i + (steps + 1 : Nat) := by omega
      refine ⟨polls', ?_, length'.trans length, fun j => ?_⟩
      · simp only [shiftPolls, shiftKeys_ok nodup present, located, set, result, span,
          Option.bind_eq_bind, Option.bind_some, shiftedKeys_shiftedKeys busyKeys
            (show i + 1 ≤ i + ((steps + 1 : Nat) : Int) by omega) keys]
      · rw [at'', at', at']
        by_cases first : j = i
        · subst first
          rw [if_neg (by omega), if_pos rfl, if_pos (by omega), located]
        · by_cases later : i + 1 ≤ j ∧ j < i + 1 + steps
          · rw [if_pos later, if_neg (by omega), if_pos (by omega)]
          · rw [if_neg later, if_neg first, if_neg (by omega)]

/-! ## The busy keys -/

/-- A node that goes behind the free ones is still in one list. -/
theorem erase_append_perm {busyKeys freeKeys : List Nat} {node : Nat} (member : node ∈ busyKeys) :
    (busyKeys.erase node ++ (freeKeys ++ [node])).Perm (busyKeys ++ freeKeys) := by
  rw [← List.append_assoc]
  refine (List.perm_append_singleton node _).trans ?_
  exact (List.perm_cons_erase member).symm.append_right _

/-- The place that a key had before another one was taken out of the list. -/
theorem getElem?_erase {busyKeys : List Nat} (nodup : busyKeys.Nodup) {i j node other : Nat}
    (place : busyKeys[i]? = some node) (placed : (busyKeys.erase node)[j]? = some other) :
    ∃ k, busyKeys[k]? = some other ∧ other ≠ node ∧ (if k < i then k else k - 1) = j := by
  obtain ⟨inside, here⟩ := List.getElem?_eq_some_iff.mp place
  have erased : busyKeys.erase node = busyKeys.eraseIdx i := by
    rw [← here]
    exact nodup.erase_getElem i inside
  have differs : other ≠ node := by
    intro equal
    subst equal
    exact nodup.not_mem_erase (List.mem_of_getElem? placed)
  rw [erased, List.getElem?_eraseIdx] at placed
  split at placed
  · next below => exact ⟨j, placed, differs, if_pos below⟩
  · next beyond => exact ⟨j + 1, placed, differs, by rw [if_neg (by omega)]; rfl⟩

theorem KeySlot.fd_injective {selector : Selector} {registry : Registry} {i j node other : Nat}
    {key otherKey : SelectionKey} {slot otherSlot : Poll}
    (here : KeySlot selector registry i node key slot)
    (there : KeySlot selector registry j other otherKey otherSlot) (same : otherKey.fd = key.fd) :
    other = node := by
  have equal := there.registered
  rw [same, here.registered, Option.some.injEq] at equal
  exact (congrArg Registration.key equal).symm

namespace Selector.Represents

variable {selector : Selector} {registry : Registry}

theorem busyNodup (represents : selector.Represents registry) : selector.busyKeys.Nodup :=
  (List.nodup_append.mp represents.nodup).1

theorem slotOf (represents : selector.Represents registry) {node : Nat}
    (member : node ∈ selector.busyKeys) :
    ∃ i key slot, selector.busyKeys[i]? = some node ∧
      KeySlot selector registry i node key slot := by
  obtain ⟨i, place⟩ := List.mem_iff_getElem?.mp member
  obtain ⟨key, slot, here⟩ := represents.slots i node place
  exact ⟨i, key, slot, place, here⟩

theorem present (represents : selector.Represents registry) {node : Nat}
    (member : node ∈ selector.busyKeys) : (selector.keys node).isSome := by
  obtain ⟨i, key, slot, _, here⟩ := represents.slotOf member
  simp [here.found]

theorem find_fd (represents : selector.Represents registry) (fd : Int) :
    (selector.busyKeys.find? fun node => (selector.keys node).any fun key => key.fd = fd) =
      (registry fd).map Registration.key := by
  cases registered : registry fd with
  | none =>
      simp only [Option.map_none, List.find?_eq_none]
      intro node member matched
      obtain ⟨i, key, slot, _, here⟩ := represents.slotOf member
      have same : key.fd = fd := by simpa [here.found] using matched
      have known := here.registered
      rw [same, registered] at known
      cases known
  | some registration =>
      obtain ⟨member, key, found, same⟩ := represents.finite fd registration registered
      cases search : selector.busyKeys.find? fun node =>
          (selector.keys node).any fun key => key.fd = fd with
      | none =>
          have absent := List.find?_eq_none.mp search _ member
          simp [found, same] at absent
      | some node =>
          have matched := List.find?_some search
          obtain ⟨i, key', slot, _, here⟩ := represents.slotOf (List.mem_of_find?_eq_some search)
          have same' : key'.fd = fd := by simpa [here.found] using matched
          have known := here.registered
          rw [same', registered, Option.some.injEq] at known
          simp [known, SelectionKey.registration]

theorem updateKey (represents : selector.Represents registry) {i node : Nat}
    {key : SelectionKey} {slot : Poll} (here : KeySlot selector registry i node key slot)
    (member : node ∈ selector.busyKeys) {count curCount : Int} (positive : 1 ≤ count)
    (current : 0 ≤ curCount) (result : Int16) :
    Selector.Represents { selector with
        keys := Function.update selector.keys node (some { key with count, curCount, result }) }
      (Function.update registry key.fd
        (some { key.registration node with count })) where
  numPolls := represents.numPolls
  capacity := represents.capacity
  table := represents.table
  pipe := represents.pipe
  nodup := represents.nodup
  bound := represents.bound
  free := by
    intro other inFree
    have differs : other ≠ node := by
      intro equal
      subst equal
      exact (List.nodup_append.mp represents.nodup).2.2 other member other inFree rfl
    simp only [Function.update_of_ne differs]
    exact represents.free other inFree
  slots := by
    intro j other place
    obtain ⟨otherKey, otherSlot, there⟩ := represents.slots j other place
    by_cases same : other = node
    · subst same
      cases here.found.symm.trans there.found
      exact ⟨{ key with count, curCount, result }, otherSlot,
        { found := by simp
          linked := there.linked
          index := there.index
          located := there.located
          descriptor := there.descriptor
          interest := there.interest
          positive := positive
          current := current
          registered := by simp [SelectionKey.registration] }⟩
    · have differs : otherKey.fd ≠ key.fd := fun equal =>
        same (here.fd_injective there equal)
      exact ⟨otherKey, otherSlot,
        { there with
          found := by simp only [Function.update_of_ne same, there.found]
          registered := by rw [Function.update_of_ne differs, there.registered] }⟩
  finite := by
    intro fd registration registered
    by_cases same : fd = key.fd
    · subst same
      simp only [Function.update_self, Option.some.injEq] at registered
      subst registered
      exact ⟨member, _, Function.update_self _ _ _, rfl⟩
    · rw [Function.update_of_ne same] at registered
      obtain ⟨inBusy, found, foundKey, foundFd⟩ := represents.finite fd registration registered
      refine ⟨inBusy, found, ?_, foundFd⟩
      have differs : registration.key ≠ node := by
        intro equal
        rw [equal, here.found, Option.some.injEq] at foundKey
        exact same (foundFd ▸ foundKey ▸ rfl)
      simp only [Function.update_of_ne differs, foundKey]

/-! ## Register -/

theorem register_known (represents : selector.Represents registry) {fd : Int}
    {registration : Registration} (registered : registry fd = some registration)
    (operation : Int16) (attachment : Nat) :
    ∃ after, register selector operation fd attachment true =
        some (some registration.key, after) ∧
      after.Represents (Function.update registry fd
        (some { registration with count := registration.count + 1 })) := by
  obtain ⟨member, key, found, rfl⟩ := represents.finite fd registration registered
  obtain ⟨i, key', slot, _, here⟩ := represents.slotOf member
  cases found.symm.trans here.found
  have known := here.registered
  rw [registered, Option.some.injEq] at known
  have search := represents.find_fd key.fd
  rw [registered] at search
  have kept := represents.updateKey here member
    (show 0 < key.count + 1 by have := here.positive; omega) here.current key.result
  refine ⟨{ selector with
      keys := Function.update selector.keys registration.key
        (some { key with count := key.count + 1 }) }, ?_, ?_⟩
  · simp only [register, search, countRegistration, found, Option.map_some, Option.bind_eq_bind,
      Option.bind_some, Option.pure_def]
  · have same : { registration with count := registration.count + 1 } =
        { key.registration registration.key with count := key.count + 1 } := by
      conv_lhs => rw [known]
      rfl
    rw [same]
    exact kept

/-- The state in which `Register` has a node for a new key at hand. -/
structure Provided (before : Selector) (node : Nat) (after : Selector) : Prop where
  pipe : after.pipe = before.pipe
  busyKeys : after.busyKeys = before.busyKeys
  polls : after.polls = before.polls
  numPolls : after.numPolls = before.numPolls
  maxPolls : after.maxPolls = before.maxPolls
  nodup : (before.busyKeys ++ node :: after.freeKeys).Nodup
  bound : ∀ other ∈ before.busyKeys ++ node :: after.freeKeys, other < after.allocated
  new : (after.keys node).isSome
  free : ∀ other ∈ after.freeKeys, (after.keys other).isSome
  kept : ∀ other ∈ before.busyKeys, after.keys other = before.keys other

theorem takeFreeKey_ok (represents : selector.Represents registry) :
    Provided selector (takeFreeKey selector).1 (takeFreeKey selector).2 := by
  have nodup := represents.nodup
  have bound := represents.bound
  cases freeKeys : selector.freeKeys with
  | nil =>
      have unknown : selector.allocated ∉ selector.busyKeys := fun member =>
        Nat.lt_irrefl _ (bound _ (by simp [member]))
      simp only [freeKeys, List.append_nil] at nodup bound
      simp only [takeFreeKey, freeKeys]
      exact
        { pipe := rfl, busyKeys := rfl, polls := rfl, numPolls := rfl, maxPolls := rfl
          nodup := by
            rw [← List.concat_eq_append]
            exact List.Nodup.concat unknown nodup
          bound := by
            intro other member
            simp only [List.mem_append, List.mem_singleton] at member
            rcases member with inBusy | rfl
            · exact Nat.lt_succ_of_lt (bound other inBusy)
            · exact Nat.lt_succ_self _
          new := by simp
          free := by simp
          kept := fun other member =>
            Function.update_of_ne (by intro same; subst same; exact unknown member) _ _ }
  | cons node freeKeys' =>
      simp only [takeFreeKey, freeKeys]
      exact
        { pipe := rfl, busyKeys := rfl, polls := rfl, numPolls := rfl, maxPolls := rfl
          nodup := freeKeys ▸ nodup
          bound := freeKeys ▸ bound
          new := represents.free node (by simp [freeKeys])
          free := fun other member => represents.free other (by simp [freeKeys, member])
          kept := fun other member => rfl }

theorem growPolls_ok {selector : Selector} (capacity : selector.numPolls ≤ selector.maxPolls)
    (table : (selector.polls.length : Int) = selector.maxPolls) :
    ∃ polls maxPolls, growPolls selector true = some { selector with polls, maxPolls } ∧
      selector.numPolls < maxPolls ∧ (polls.length : Int) = maxPolls ∧
      ∀ i < selector.numPolls, pollAt polls i = pollAt selector.polls i := by
  unfold growPolls
  by_cases full : selector.numPolls = selector.maxPolls
  · refine ⟨selector.polls ++ [Poll.zero], selector.maxPolls + 1, ?_, by omega, ?_, ?_⟩
    · rw [if_pos full, if_pos rfl]
    · simp only [List.length_append, List.length_singleton]
      omega
    · intro i below
      exact pollAt_append (by omega) _
  · exact ⟨selector.polls, selector.maxPolls, if_neg full, by omega, table, fun _ _ => rfl⟩

end Selector.Represents

/-- What `Register` writes into the key of a new registration. -/
def SelectionKey.registeredAs (old : SelectionKey) (poll : Int) (node : Nat) (operation : Int16)
    (fd : Int) (attachment : Nat) : SelectionKey :=
  { old with poll, node := some node, operation, fd, attachment, count := 1, curCount := 0 }

/-- A selector with one more busy key, taken from the state in which the key was provided. -/
def Selector.extended (selector provided : Selector) (node : Nat) (key : SelectionKey)
    (polls : List Poll) (maxPolls : Int) : Selector :=
  { provided with
    keys := Function.update provided.keys node (some key)
    busyKeys := selector.busyKeys ++ [node]
    polls
    maxPolls
    numPolls := selector.numPolls + 1 }

/-- The slot of the key stands behind those in use. -/
structure SlotAdded (selector : Selector) (key : SelectionKey) (polls : List Poll)
    (maxPolls : Int) : Prop where
  room : selector.numPolls < maxPolls
  table : (polls.length : Int) = maxPolls
  added : pollAt polls selector.numPolls =
    some { fd := key.fd, events := key.operation, revents := 0 }
  kept : ∀ j < selector.numPolls, pollAt polls j = pollAt selector.polls j

namespace Selector.Represents

variable {selector provided : Selector} {registry : Registry} {node : Nat} {polls : List Poll}
  {maxPolls : Int} {operation : Int16} {fd : Int} {attachment : Nat} {old : SelectionKey}

theorem register_extended (represents : selector.Represents registry)
    (unregistered : registry fd = none) (operation : Int16) (attachment : Nat) :
    ∃ (old : SelectionKey) (polls : List Poll) (maxPolls : Int),
      SlotAdded selector (old.registeredAs selector.numPolls (takeFreeKey selector).1 operation fd
        attachment) polls maxPolls ∧
      register selector operation fd attachment true = some (some (takeFreeKey selector).1,
        selector.extended (takeFreeKey selector).2 (takeFreeKey selector).1
          (old.registeredAs selector.numPolls (takeFreeKey selector).1 operation fd attachment)
          polls maxPolls) := by
  have search := represents.find_fd fd
  rw [unregistered, Option.map_none] at search
  have ready := represents.takeFreeKey_ok
  have total := represents.numPolls
  obtain ⟨grownPolls, maxPolls, grown, room, table, same⟩ :=
    growPolls_ok
      (show { (takeFreeKey selector).2 with
          busyKeys := (takeFreeKey selector).2.busyKeys ++ [(takeFreeKey selector).1] }.numPolls ≤
            (takeFreeKey selector).2.maxPolls by
        simpa only [ready.numPolls, ready.maxPolls] using represents.capacity)
      (by simpa only [ready.polls, ready.maxPolls] using represents.table)
  simp only [ready.numPolls, ready.polls] at room same
  obtain ⟨polls, set, length, slotAt⟩ := setPoll_ok (show 0 ≤ selector.numPolls by omega)
    (show selector.numPolls < grownPolls.length by omega) { fd, events := operation, revents := 0 }
  obtain ⟨old, stored⟩ := Option.isSome_iff_exists.mp ready.new
  refine ⟨old, polls, maxPolls, ⟨room, by rw [length, table], ?_, ?_⟩, ?_⟩
  · rw [slotAt, if_pos rfl]
    rfl
  · intro j below
    rw [slotAt, if_neg (Int.ne_of_lt below), same j below]
  · simp only [register, search, grown]
    simp only [stored, ready.numPolls, ready.busyKeys, set, countRegistration, Selector.extended,
      SelectionKey.registeredAs, Function.update_self, Option.bind_eq_bind, Option.bind_some,
      Option.pure_def, Function.update_idem, Int.zero_add]

theorem Provided.fresh (ready : Provided selector node provided) : node ∉ selector.busyKeys :=
  fun member => (List.nodup_append.mp ready.nodup).2.2 node member node (by simp) rfl

/-- The keys in front of the new one stay as they are. -/
theorem extended_keySlot (represents : selector.Represents registry)
    (unregistered : registry fd = none) (ready : Provided selector node provided)
    (added : SlotAdded selector (old.registeredAs selector.numPolls node operation fd attachment)
      polls maxPolls) (registration : Registration) {i other : Nat}
    (place : selector.busyKeys[i]? = some other) :
    ∃ key slot, KeySlot
      (selector.extended provided node
        (old.registeredAs selector.numPolls node operation fd attachment) polls maxPolls)
      (Function.update registry fd (some registration)) i other key slot := by
  obtain ⟨key, slot, here⟩ := represents.slots i other place
  have member := List.mem_of_getElem? place
  have inside := (List.getElem?_eq_some_iff.mp place).1
  have total := represents.numPolls
  have index := here.index
  have differs : other ≠ node := by
    intro same
    subst same
    exact ready.fresh member
  have otherFd : key.fd ≠ fd := by
    intro equal
    have known := here.registered
    rw [equal, unregistered] at known
    cases known
  exact ⟨key, slot,
    { found := by
        simp only [Selector.extended, Function.update_of_ne differs, ready.kept other member,
          here.found]
      linked := here.linked
      index := here.index
      located := (added.kept _ (by omega)).trans here.located
      descriptor := here.descriptor
      interest := here.interest
      positive := here.positive
      current := here.current
      registered := by rw [Function.update_of_ne otherFd, here.registered] }⟩

theorem extended_newSlot (represents : selector.Represents registry)
    (added : SlotAdded selector (old.registeredAs selector.numPolls node operation fd attachment)
      polls maxPolls) :
    KeySlot
      (selector.extended provided node
        (old.registeredAs selector.numPolls node operation fd attachment) polls maxPolls)
      (Function.update registry fd (some { operation, attachment, count := 1, key := node }))
      selector.busyKeys.length node
      (old.registeredAs selector.numPolls node operation fd attachment)
      { fd, events := operation, revents := 0 } :=
  have last : (selector.busyKeys.length : Int) + 1 = selector.numPolls := by
    rw [represents.numPolls, Int.add_comm]
  { found := Function.update_self _ _ _
    linked := rfl
    index := last.symm
    located := (congrArg (pollAt polls) last).trans added.added
    descriptor := rfl
    interest := rfl
    positive := Int.le_refl _
    current := Int.le_refl _
    registered := Function.update_self _ _ _ }

theorem extended_represents (represents : selector.Represents registry)
    (unregistered : registry fd = none) (ready : Provided selector node provided)
    (added : SlotAdded selector (old.registeredAs selector.numPolls node operation fd attachment)
      polls maxPolls) :
    (selector.extended provided node
      (old.registeredAs selector.numPolls node operation fd attachment) polls maxPolls).Represents
        (Function.update registry fd
          (some { operation, attachment, count := 1, key := node })) := by
  have total := represents.numPolls
  exact
    { numPolls := by
        simp only [Selector.extended, List.length_append, List.length_singleton]
        omega
      capacity := Int.add_one_le_iff.mpr added.room
      table := added.table
      pipe := by
        obtain ⟨slot, located, fields⟩ := represents.pipe
        refine ⟨slot, (added.kept 0 (by omega)).trans located, ?_⟩
        simpa only [Selector.extended, ready.pipe] using fields
      nodup := by
        simpa only [Selector.extended, List.append_assoc, List.singleton_append] using ready.nodup
      bound := by
        simpa only [Selector.extended, List.append_assoc, List.singleton_append] using ready.bound
      free := by
        intro other inFree
        have differs : other ≠ node := by
          intro equal
          subst equal
          exact (List.nodup_cons.mp (List.nodup_append.mp ready.nodup).2.1).1 inFree
        simp only [Selector.extended, Function.update_of_ne differs]
        exact ready.free other inFree
      slots := by
        intro i other place
        simp only [Selector.extended] at place
        by_cases inside : i < selector.busyKeys.length
        · rw [List.getElem?_append_left inside] at place
          exact represents.extended_keySlot unregistered ready added _ place
        · rw [List.getElem?_append_right (by omega)] at place
          obtain ⟨rfl, rfl⟩ : node = other ∧ i = selector.busyKeys.length := by
            cases offset : i - selector.busyKeys.length with
            | zero =>
                simp only [offset, List.getElem?_cons_zero, Option.some.injEq] at place
                exact ⟨place, by omega⟩
            | succ rest => simp [offset] at place
          exact ⟨_, _, represents.extended_newSlot added⟩
      finite := by
        intro fd' registration registered
        by_cases equal : fd' = fd
        · subst equal
          simp only [Function.update_self, Option.some.injEq] at registered
          subst registered
          exact ⟨List.mem_append_right _ (List.mem_singleton_self _), _,
            Function.update_self _ _ _, rfl⟩
        · rw [Function.update_of_ne equal] at registered
          obtain ⟨member, key, found, keyFd⟩ := represents.finite fd' registration registered
          have differs : registration.key ≠ node := by
            intro same
            exact ready.fresh (same ▸ member)
          refine ⟨List.mem_append_left _ member, key, ?_, keyFd⟩
          simp only [Selector.extended, Function.update_of_ne differs, ready.kept _ member, found] }

theorem register_new (represents : selector.Represents registry) {fd : Int}
    (unregistered : registry fd = none) (operation : Int16) (attachment : Nat) :
    ∃ node after, register selector operation fd attachment true = some (some node, after) ∧
      node ∉ selector.busyKeys ∧ after.Represents (Function.update registry fd
        (some { operation, attachment, count := 1, key := node })) := by
  have ready := represents.takeFreeKey_ok
  obtain ⟨old, polls, maxPolls, added, result⟩ :=
    represents.register_extended unregistered operation attachment
  exact ⟨_, _, result, Provided.fresh ready,
    represents.extended_represents unregistered ready added⟩

/-! ## Unregister -/

theorem unregister_counted (represents : selector.Represents registry) {i node : Nat}
    {key : SelectionKey} {slot : Poll} (here : KeySlot selector registry i node key slot)
    (member : node ∈ selector.busyKeys) (several : 1 < key.count) :
    unregister selector node false = some (false, { selector with
        keys := Function.update selector.keys node (some { key with count := key.count - 1 }) }) ∧
      Selector.Represents { selector with
          keys := Function.update selector.keys node (some { key with count := key.count - 1 }) }
        (Function.update registry key.fd
          (some { key.registration node with count := key.count - 1 })) := by
  refine ⟨?_, represents.updateKey here member (show 0 < key.count - 1 by omega)
    here.current key.result⟩
  have positive : key.count - 1 > 0 := by omega
  simp only [unregister, here.found, here.linked, Option.bind_eq_bind, Option.bind_some,
    Bool.not_false, positive, and_self, if_true, Option.pure_def, Bool.false_eq_true, if_false]

end Selector.Represents

/-- A selector without a key of its busy list: the slots above the key's own moved down and
their keys with them. -/
def Selector.without (selector : Selector) (node : Nat) (key : SelectionKey) (polls : List Poll) :
    Selector :=
  { selector with
    keys := shiftedKeys (selector.busyKeys.erase node) key.poll (selector.numPolls - 1)
      (Function.update selector.keys node (some SelectionKey.zero))
    polls
    busyKeys := selector.busyKeys.erase node
    freeKeys := selector.freeKeys ++ [node]
    numPolls := selector.numPolls - 1 }

/-- The slots behind the one of the key moved down by one, the last of them is cleared. -/
structure SlotsMoved (selector : Selector) (key : SelectionKey) (polls : List Poll) : Prop where
  length : polls.length = selector.polls.length
  slotAt : ∀ j, pollAt polls j =
    if j = selector.numPolls - 1 then some Poll.zero
    else if key.poll ≤ j ∧ j < selector.numPolls - 1 then pollAt selector.polls (j + 1)
    else pollAt selector.polls j

namespace Selector.Represents

variable {selector : Selector} {registry : Registry} {i node : Nat} {key : SelectionKey}
  {slot : Poll} {polls : List Poll}

/-- The last registration of a key takes it off the busy list. -/
theorem unregister_without (represents : selector.Represents registry)
    (here : KeySlot selector registry i node key slot) (place : selector.busyKeys[i]? = some node)
    {unregisterAll : Bool} (last : unregisterAll = true ∨ key.count = 1) :
    ∃ polls, unregister selector node unregisterAll = some (true, selector.without node key polls) ∧
      SlotsMoved selector key polls := by
  have member := List.mem_of_getElem? place
  have inside : i < selector.busyKeys.length := (List.getElem?_eq_some_iff.mp place).1
  have total := represents.numPolls
  have capacity := represents.capacity
  have table := represents.table
  have nodup := represents.busyNodup
  have index := here.index
  have absent : node ∉ selector.busyKeys.erase node := nodup.not_mem_erase
  have present : ∀ other ∈ selector.busyKeys.erase node,
      (Function.update selector.keys node (some SelectionKey.zero) other).isSome := by
    intro other inBusy
    rw [Function.update_of_ne (by intro same; subst same; exact absent inBusy)]
    exact represents.present (List.mem_of_mem_erase inBusy)
  obtain ⟨steps, count⟩ : ∃ steps : Nat, (selector.numPolls - 1 - key.poll).toNat = steps :=
    ⟨_, rfl⟩
  have high : key.poll + steps = selector.numPolls - 1 := by omega
  obtain ⟨shifted, shift, shiftedLength, shiftedAt⟩ := shiftPolls_ok (nodup.erase node)
    present (show 0 ≤ key.poll by omega) (show key.poll + steps < selector.polls.length by omega)
  obtain ⟨polls, cleared, length, slotAt⟩ := setPoll_ok (show 0 ≤ key.poll + steps by omega)
    (show key.poll + steps < shifted.length by omega) Poll.zero
  rw [high] at shift cleared shiftedAt slotAt
  have notCounted : ¬((!unregisterAll) = true ∧
      (if unregisterAll = true then key.count else key.count - 1) > 0) := by
    rcases last with rfl | single
    · simp
    · intro undone
      obtain ⟨counted, positive⟩ := undone
      cases unregisterAll with
      | true => simp at counted
      | false =>
          simp only [Bool.false_eq_true, if_false] at positive
          omega
  have linked : (guard (node ∈ selector.busyKeys) : Option Unit) = some () := if_pos member
  refine ⟨polls, ?_, length.trans shiftedLength, fun j => (slotAt j).trans (by rw [shiftedAt])⟩
  simp only [unregister, here.found, here.linked, Option.bind_eq_bind, Option.bind_some,
    if_neg notCounted, ↓linked, Option.pure_def, Function.update_idem, count, shift, high, cleared,
    Selector.without]

theorem without_key {other : Nat} (inBusy : other ∈ selector.busyKeys) (differs : other ≠ node)
    {otherKey : SelectionKey} (found : selector.keys other = some otherKey) :
    (selector.without node key polls).keys other =
      some (shiftedKey key.poll (selector.numPolls - 1) otherKey) := by
  simp only [Selector.without]
  rw [shiftedKeys, if_pos ((List.mem_erase_of_ne differs).mpr inBusy),
    Function.update_of_ne differs, found, Option.map_some]

/-- The keys above the slot that is given up move down by one, and so do their slots; the keys
below it stay. Each keeps all but its place. -/
theorem without_keySlot (represents : selector.Represents registry)
    (here : KeySlot selector registry i node key slot) (place : selector.busyKeys[i]? = some node)
    (moved : SlotsMoved selector key polls) {k other : Nat}
    (source : selector.busyKeys[k]? = some other) (differs : other ≠ node) :
    ∃ otherKey otherSlot poll, KeySlot selector registry k other otherKey otherSlot ∧
      KeySlot (selector.without node key polls) (Function.update registry key.fd none)
        (if k < i then k else k - 1) other { otherKey with poll } otherSlot := by
  obtain ⟨otherKey, otherSlot, there⟩ := represents.slots k other source
  have inside : i < selector.busyKeys.length := (List.getElem?_eq_some_iff.mp place).1
  have bound := (List.getElem?_eq_some_iff.mp source).1
  have total := represents.numPolls
  have index := here.index
  have otherIndex := there.index
  have apart : k ≠ i := by
    intro equal
    subst equal
    exact differs (Option.some.inj (source.symm.trans place))
  have otherFd : otherKey.fd ≠ key.fd := fun equal => differs (here.fd_injective there equal)
  refine ⟨otherKey, otherSlot, _, there,
    { found := without_key (List.mem_of_getElem? source) differs there.found
      linked := there.linked
      index := ?_
      located := ?_
      descriptor := there.descriptor
      interest := there.interest
      positive := there.positive
      current := there.current
      registered := (Function.update_of_ne otherFd _ _).trans there.registered }⟩
  · simp only
    split <;> split <;> omega
  · simp only [Selector.without]
    rw [moved.slotAt, if_neg (by split <;> omega)]
    split
    · rw [if_neg (by omega), there.located]
    · have next : ((k - 1 : Nat) : Int) + 1 = k := by omega
      rw [if_pos (by omega), next, there.located]

theorem without_represents (represents : selector.Represents registry)
    (here : KeySlot selector registry i node key slot) (place : selector.busyKeys[i]? = some node)
    (moved : SlotsMoved selector key polls) :
    (selector.without node key polls).Represents (Function.update registry key.fd none) := by
  have member := List.mem_of_getElem? place
  have inside : i < selector.busyKeys.length := (List.getElem?_eq_some_iff.mp place).1
  have total := represents.numPolls
  have capacity := represents.capacity
  have table := represents.table
  have index := here.index
  have nodup := represents.busyNodup
  have absent : node ∉ selector.busyKeys.erase node := nodup.not_mem_erase
  have length := List.length_erase_of_mem member
  exact
    { numPolls := by simp only [Selector.without]; omega
      capacity := by simp only [Selector.without]; omega
      table := by simp only [Selector.without, moved.length, table]
      pipe := by
        obtain ⟨slot, located, fields⟩ := represents.pipe
        refine ⟨slot, ?_, fields⟩
        simp only [Selector.without]
        rw [moved.slotAt, if_neg (by omega), if_neg (by omega), located]
      nodup := (erase_append_perm member).nodup_iff.mpr represents.nodup
      bound := by
        intro other inLists
        refine represents.bound other ?_
        simp only [Selector.without, List.mem_append, List.mem_singleton] at inLists ⊢
        rcases inLists with inBusy | inFree | rfl
        · exact .inl (List.mem_of_mem_erase inBusy)
        · exact .inr inFree
        · exact .inl member
      free := by
        intro other inFree
        simp only [Selector.without, List.mem_append, List.mem_singleton] at inFree ⊢
        have outside : other ∉ selector.busyKeys.erase node := by
          intro inBusy
          rcases inFree with inFree | rfl
          · exact (List.nodup_append.mp represents.nodup).2.2 other
              (List.mem_of_mem_erase inBusy) other inFree rfl
          · exact absent inBusy
        simp only [shiftedKeys, if_neg outside]
        rcases inFree with inFree | rfl
        · by_cases same : other = node
          · simp [same]
          · rw [Function.update_of_ne same]
            exact represents.free other inFree
        · simp
      slots := by
        intro j other placed
        obtain ⟨k, source, differs, here'⟩ := getElem?_erase nodup place placed
        obtain ⟨otherKey, otherSlot, poll, _, stays⟩ :=
          represents.without_keySlot here place moved source differs
        rw [here'] at stays
        exact ⟨_, otherSlot, stays⟩
      finite := by
        intro fd registration registered
        have differs : fd ≠ key.fd := by
          intro equal
          subst equal
          simp at registered
        rw [Function.update_of_ne differs] at registered
        obtain ⟨inBusy, otherKey, found, rfl⟩ := represents.finite fd registration registered
        have other : registration.key ≠ node := by
          intro equal
          rw [equal, here.found, Option.some.injEq] at found
          exact differs (found ▸ rfl)
        exact ⟨(List.mem_erase_of_ne other).mpr inBusy, _, without_key inBusy other found, rfl⟩ }

/-- The last `Unregister` of a key takes its registration out of the map and keeps the others. -/
theorem unregister_last (represents : selector.Represents registry) {i node : Nat}
    {key : SelectionKey} {slot : Poll} (here : KeySlot selector registry i node key slot)
    (place : selector.busyKeys[i]? = some node) {unregisterAll : Bool}
    (last : unregisterAll = true ∨ key.count = 1) :
    ∃ after, unregister selector node unregisterAll = some (true, after) ∧
      after.Represents (Function.update registry key.fd none) ∧
      after.busyKeys = selector.busyKeys.erase node ∧ after.curKey = selector.curKey ∧
      ∀ other ∈ selector.busyKeys, other ≠ node → ∃ k j otherKey otherSlot poll,
        KeySlot selector registry k other otherKey otherSlot ∧
        KeySlot after (Function.update registry key.fd none) j other { otherKey with poll }
          otherSlot := by
  obtain ⟨polls, result, moved⟩ := represents.unregister_without here place last
  refine ⟨_, result, represents.without_represents here place moved, rfl, rfl, ?_⟩
  intro other inBusy differs
  obtain ⟨k, source⟩ := List.mem_iff_getElem?.mp inBusy
  obtain ⟨otherKey, otherSlot, poll, there, stays⟩ :=
    represents.without_keySlot here place moved source differs
  exact ⟨k, _, otherKey, otherSlot, poll, there, stays⟩

end Selector.Represents

/-! ## Sequences of calls -/

/-- Successful registrations and unregistrations. -/
inductive SelectorCall where
  | register (operation : Int16) (fd : Int) (attachment : Nat)
  | unregister (key : Nat) (unregisterAll : Bool)
  deriving DecidableEq, Repr

inductive SelectorOutput where
  | registered (key : Option Nat)
  | unregistered (isLastRegistration : Bool)
  deriving DecidableEq, Repr

def selectorCall (selector : Selector) : SelectorCall → Option (SelectorOutput × Selector)
  | .register operation fd attachment =>
      (register selector operation fd attachment true).map fun (key, after) =>
        (.registered key, after)
  | .unregister key unregisterAll =>
      (unregister selector key unregisterAll).map fun (isLastRegistration, after) =>
        (.unregistered isLastRegistration, after)

/-- A registered descriptor keeps its operation and attachment; a key passed to
`Unregister` is outstanding. -/
def SelectorCall.Legal (registry : Registry) : SelectorCall → Prop
  | .register operation fd attachment => ∀ registration, registry fd = some registration →
      registration.operation = operation ∧ registration.attachment = attachment
  | .unregister key _ => ∃ fd registration, registry fd = some registration ∧
      registration.key = key

/-- What the calls mean on the map of registrations. A new descriptor gets a key
that no other descriptor holds; the last registration leaves the map. -/
def RegistryStep (registry : Registry) :
    SelectorCall → SelectorOutput → Registry → Prop
  | .register operation fd attachment, output, registry' =>
      match registry fd with
      | some registration => output = .registered (some registration.key) ∧
          registry' = Function.update registry fd
            (some { operation, attachment, count := registration.count + 1
                    key := registration.key })
      | none => ∃ key, output = .registered (some key) ∧
          (∀ fd' registration, registry fd' = some registration → registration.key ≠ key) ∧
          registry' = Function.update registry fd
            (some { operation, attachment, count := 1, key })
  | .unregister key unregisterAll, output, registry' =>
      ∃ fd registration isLastRegistration, registry fd = some registration ∧
        registration.key = key ∧ output = .unregistered isLastRegistration ∧
        registry' = Function.update registry fd
          (if unregisterAll = true ∨ registration.count = 1 then none
            else some { registration with count := registration.count - 1 }) ∧
        (isLastRegistration = true ↔ registry' fd = none)

theorem selectorCall_ok {selector : Selector} {registry : Registry}
    (represents : selector.Represents registry) {call : SelectorCall}
    (legal : call.Legal registry) :
    ∃ output after registry', selectorCall selector call = some (output, after) ∧
      RegistryStep registry call output registry' ∧ after.Represents registry' := by
  cases call with
  | register operation fd attachment =>
      cases registered : registry fd with
      | some registration =>
          obtain ⟨rfl, rfl⟩ := legal registration registered
          obtain ⟨after, result, represents'⟩ := represents.register_known registered
            registration.operation registration.attachment
          refine ⟨.registered (some registration.key), after, _,
            by simp only [selectorCall, result, Option.map_some], ?_, represents'⟩
          simp only [RegistryStep, registered, and_self]
      | none =>
          obtain ⟨node, after, result, fresh, represents'⟩ :=
            represents.register_new registered operation attachment
          refine ⟨.registered (some node), after, _,
            by simp only [selectorCall, result, Option.map_some], ?_, represents'⟩
          simp only [RegistryStep, registered]
          refine ⟨node, rfl, ?_, rfl⟩
          intro fd' registration held same
          subst same
          exact fresh (represents.finite fd' registration held).1
  | unregister key unregisterAll =>
      obtain ⟨fd, registration, registered, rfl⟩ := legal
      obtain ⟨member, key, found, rfl⟩ := represents.finite fd registration registered
      obtain ⟨i, key', slot, place, here⟩ := represents.slotOf member
      cases found.symm.trans here.found
      have known := here.registered
      rw [registered, Option.some.injEq] at known
      have count : registration.count = key.count := congrArg Registration.count known
      have positive := here.positive
      by_cases last : unregisterAll = true ∨ key.count = 1
      · obtain ⟨after, result, represents', _⟩ := represents.unregister_last here place last
        refine ⟨.unregistered true, after, _,
          by simp only [selectorCall, result, Option.map_some], ?_, represents'⟩
        exact ⟨key.fd, registration, true, registered, rfl, rfl, by rw [count, if_pos last],
          by simp⟩
      · have single : unregisterAll = false := by
          cases unregisterAll with
          | true => exact absurd (.inl rfl) last
          | false => rfl
        subst single
        obtain ⟨result, represents'⟩ := represents.unregister_counted here member (by omega)
        refine ⟨.unregistered false, _, _,
          by simp only [selectorCall, result, Option.map_some], ?_, represents'⟩
        refine ⟨key.fd, registration, false, registered, rfl, rfl, ?_, by simp⟩
        rw [count, if_neg last]
        conv_rhs => rw [known]

theorem newSelector_represents (pipe : Int) :
    (newSelector pipe).Represents Registry.empty where
  numPolls := rfl
  capacity := Int.le_refl _
  table := rfl
  pipe := ⟨_, rfl, rfl, rfl⟩
  nodup := List.nodup_nil
  bound := fun node member => absurd member (by simp [newSelector])
  free := fun node member => absurd member (by simp [newSelector])
  slots := fun i node place => absurd place (by simp [newSelector])
  finite := fun fd registration registered => absurd registered (by simp [Registry.empty])

/-- Along the calls, as long as each of them is legal, the selector returns, does
what the map of registrations says and represents the new map. -/
def SelectorRefines (selector : Selector) (registry : Registry) : List SelectorCall → Prop
  | [] => True
  | call :: calls => call.Legal registry →
      ∃ output after registry', selectorCall selector call = some (output, after) ∧
        RegistryStep registry call output registry' ∧ after.Represents registry' ∧
        SelectorRefines after registry' calls

theorem selectorRefines_of_represents {selector : Selector} {registry : Registry}
    (represents : selector.Represents registry) (calls : List SelectorCall) :
    SelectorRefines selector registry calls := by
  induction calls generalizing selector registry with
  | nil => trivial
  | cons call calls ih =>
      intro legal
      obtain ⟨output, after, registry', result, step, represents'⟩ :=
        selectorCall_ok represents legal
      exact ⟨output, after, registry', result, step, represents', ih represents'⟩

/-- Every sequence of successful registrations and unregistrations on a new
selector keeps the table a finite map of registrations. -/
theorem newSelector_refines (pipe : Int) (calls : List SelectorCall) :
    SelectorRefines (newSelector pipe) Registry.empty calls :=
  selectorRefines_of_represents (newSelector_represents pipe) calls

/-- A descriptor that is registered twice stays registered behind one `Unregister`. -/
theorem newSelector_refines_twice :
    ∃ once twice left, selectorCall (newSelector 3) (.register 1 5 7) =
        some (.registered (some 0), once) ∧
      selectorCall once (.register 1 5 7) = some (.registered (some 0), twice) ∧
      selectorCall twice (.unregister 0 false) = some (.unregistered false, left) ∧
      left.Represents (Function.update Registry.empty 5
        (some { operation := 1, attachment := 7, count := 1, key := 0 })) := by
  have key : (selectorCall (newSelector 3) (.register 1 5 7)).map Prod.fst =
      some (.registered (some 0)) := by decide
  obtain ⟨_, once, _, first, added, -, refines⟩ := newSelector_refines 3
    [.register 1 5 7, .register 1 5 7, .unregister 0 false] fun _ registered => nomatch registered
  obtain ⟨_, rfl, -, rfl⟩ := added
  rw [first, Option.map_some, Option.some.injEq, SelectorOutput.registered.injEq,
    Option.some.injEq] at key
  subst key
  obtain ⟨_, twice, _, second, again, -, refines⟩ := refines fun registration same => by
    rw [Function.update_self] at same
    cases same
    exact ⟨rfl, rfl⟩
  rw [RegistryStep, Function.update_self] at again
  obtain ⟨rfl, rfl⟩ := again
  obtain ⟨_, left, _, third, removed, represents, -⟩ :=
    refines ⟨5, _, Function.update_self 5 _ _, rfl⟩
  obtain ⟨fd, registration, last, registered, -, rfl, rfl, lasts⟩ := removed
  have here : fd = 5 := by
    by_contra differs
    rw [Function.update_of_ne differs, Function.update_of_ne differs] at registered
    cases registered
  subst here
  rw [Function.update_self] at registered
  cases registered
  simp only [Bool.false_eq_true, false_or, Function.update_idem, Function.update_self]
    at represents lasts
  have stays : last = false := by simpa using lasts
  subst stays
  exact ⟨once, twice, left, first, second, third, by simpa using represents⟩

end Aio4c

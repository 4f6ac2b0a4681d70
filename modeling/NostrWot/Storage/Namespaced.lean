import NostrWot.Data.CodeUnits
import NostrWot.Data.OrderedMap

namespace NostrWot.Storage

open NostrWot.Data

/-! # Namespaced stores

Views of one key-value store, each with its own keys.  Keys and prefixes are
JavaScript strings: lists of UTF-16 code units.
-/

/-- What a call writes. -/
inductive Change (α : Type) where
  | set (key : Units) (value : α)
  | remove (key : Units)
  deriving DecidableEq

namespace Change

variable {α : Type}

def key : Change α → Units
  | set key _ => key
  | remove key => key

/-- What the key holds after it. -/
def value : Change α → Option α
  | set _ value => some value
  | remove _ => none

def rename (name : Units → Units) : Change α → Change α
  | set key value => set (name key) value
  | remove key => remove (name key)

@[simp] theorem key_rename (name : Units → Units) (change : Change α) :
    (change.rename name).key = name change.key := by
  cases change <;> rfl

@[simp] theorem value_rename (name : Units → Units) (change : Change α) :
    (change.rename name).value = change.value := by
  cases change <;> rfl

end Change

/-- The storage port, over the states `σ` of the host that implements it. -/
structure KeyValueStore (σ α : Type) where
  get : Units → σ → Option α
  set : Units → α → σ → σ
  remove : Units → σ → σ
  keys : σ → List Units
  /-- What a listener is told when the host reports a key; `none` where there is no
  `subscribe`. -/
  subscribe : Option (Units → Option Units)

namespace KeyValueStore

variable {σ α : Type}

def write (store : KeyValueStore σ α) : Change α → σ → σ
  | .set key value => store.set key value
  | .remove key => store.remove key

end KeyValueStore

structure Host (σ α : Type) where
  store : KeyValueStore σ α
  reports : Change α → σ → List Units
  get_write : ∀ (change : Change α) (key : Units) (state : σ),
    store.get key (store.write change state) =
      if key = change.key then change.value else store.get key state
  nodup_keys : ∀ state : σ, (store.keys state).Nodup
  mem_keys : ∀ (key : Units) (state : σ), key ∈ store.keys state ↔ (store.get key state).isSome
  reports_own : ∀ (change : Change α) (state : σ), ∀ key ∈ reports change state, key = change.key
  hears : ∀ hear ∈ store.subscribe, hear = some

/-! ## Views -/

/-- What separates an escaped prefix from the key that follows it. -/
def SEPARATOR : UInt16 := 58

def replaceAll (unit : UInt16) (replacement text : Units) : Units :=
  text.flatMap fun other => if other = unit then replacement else [other]

/-- `'%'` becomes `'%25'`, then `':'` becomes `'%3A'`. -/
def escapePrefix (before : Units) : Units :=
  replaceAll SEPARATOR [37, 51, 65] (replaceAll 37 [37, 50, 53] before)

def full (before : Units) : Units := escapePrefix before ++ [SEPARATOR]

def scopedKey (before key : Units) : Units := full before ++ key

/-- The key without its prefix, where it has it. -/
def unscoped (before key : Units) : Option Units :=
  if full before <+: key then some (key.drop (full before).length) else none

section Views

variable {σ α : Type}

def namespaced (store : KeyValueStore σ α) (before : Units) : KeyValueStore σ α where
  get key := store.get (scopedKey before key)
  set key := store.set (scopedKey before key)
  remove key := store.remove (scopedKey before key)
  keys state := (store.keys state).filterMap (unscoped before)
  subscribe := store.subscribe.map fun hear key => (hear key).bind (unscoped before)

def view (store : KeyValueStore σ α) (chain : List Units) : KeyValueStore σ α :=
  chain.foldl namespaced store

end Views

/-! ## Where a view keeps a key -/

def address (chain : List Units) (key : Units) : Units :=
  (chain.map full).flatten ++ key

def ownName (chain : List Units) (key : Units) : Option Units :=
  let before := (chain.map full).flatten
  if before <+: key then some (key.drop before.length) else none

/-- Two chains have different prefixes at some level where both have one. -/
def Apart (left right : List Units) : Prop :=
  ∃ (level : Nat) (before other : Units), left[level]? = some before ∧ right[level]? = some other ∧ before ≠ other

/-- What a unit of a prefix becomes. -/
def escapeUnit (unit : UInt16) : Units :=
  if unit = 37 then [37, 50, 53] else if unit = SEPARATOR then [37, 51, 65] else [unit]

theorem escapePrefix_eq (before : Units) : escapePrefix before = before.flatMap escapeUnit := by
  induction before with
  | nil => rfl
  | cons unit rest induction =>
    simp only [escapePrefix, replaceAll] at induction
    simp only [escapePrefix, replaceAll, List.flatMap_cons, List.flatMap_append, induction]
    congr 1
    by_cases percent : unit = 37
    · subst percent
      decide
    · simp [escapeUnit, percent]

theorem separator_not_mem (before : Units) : SEPARATOR ∉ escapePrefix before := by
  rw [escapePrefix_eq, List.mem_flatMap]
  rintro ⟨unit, _, inside⟩
  simp only [escapeUnit] at inside
  split at inside
  · revert inside
    decide
  · split at inside
    · revert inside
      decide
    · rename_i other
      exact other (List.mem_singleton.mp inside).symm

theorem escapeUnit_append {left right : UInt16} {after rest : Units}
    (same : escapeUnit left ++ after = escapeUnit right ++ rest) : left = right ∧ after = rest := by
  by_cases first : left = 37 <;> by_cases second : left = SEPARATOR <;>
    by_cases third : right = 37 <;> by_cases fourth : right = SEPARATOR <;>
    simp_all [escapeUnit, SEPARATOR]

theorem escapeUnit_ne_nil (unit : UInt16) : escapeUnit unit ≠ [] := by
  simp only [escapeUnit]
  split
  · simp
  · split <;> simp

theorem escapePrefix_injective {left right : Units} (same : escapePrefix left = escapePrefix right) :
    left = right := by
  rw [escapePrefix_eq, escapePrefix_eq] at same
  induction left generalizing right with
  | nil =>
    cases right with
    | nil => rfl
    | cons unit rest => simp [escapeUnit_ne_nil] at same
  | cons unit rest induction =>
    cases right with
    | nil => simp [escapeUnit_ne_nil] at same
    | cons other more =>
      rw [List.flatMap_cons, List.flatMap_cons] at same
      obtain ⟨first, others⟩ := escapeUnit_append same
      rw [first, induction others]

theorem full_injective {left right : Units} {after rest : Units}
    (same : full left ++ after = full right ++ rest) : left = right ∧ after = rest := by
  have split : ∀ (first second : Units), SEPARATOR ∉ first → SEPARATOR ∉ second →
      first ++ SEPARATOR :: after = second ++ SEPARATOR :: rest → first = second ∧ after = rest := by
    intro first
    induction first with
    | nil =>
      intro second _ absent equal
      cases second with
      | nil => exact ⟨rfl, (List.cons.inj equal).2⟩
      | cons unit more =>
        have head := (List.cons.inj equal).1
        simp [head] at absent
    | cons unit more induction =>
      intro second missing absent equal
      cases second with
      | nil =>
        have head := (List.cons.inj equal).1
        simp [head] at missing
      | cons other others =>
        obtain ⟨head, tail⟩ := List.cons.inj equal
        have inner := induction others (by simp_all) (by simp_all) tail
        exact ⟨by rw [head, inner.1], inner.2⟩
  simp only [full, List.append_assoc, List.singleton_append] at same
  obtain ⟨escaped, others⟩ := split _ _ (separator_not_mem left) (separator_not_mem right) same
  exact ⟨escapePrefix_injective escaped, others⟩

@[simp] theorem address_cons (before : Units) (chain : List Units) (key : Units) :
    address (before :: chain) key = scopedKey before (address chain key) := by
  simp [address, scopedKey]

theorem chains_of_address {left right : List Units} {key other : Units}
    (same : address left key = address right other) : left <+: right ∨ right <+: left := by
  induction left generalizing right with
  | nil => exact .inl List.nil_prefix
  | cons before chain induction =>
    cases right with
    | nil => exact .inr List.nil_prefix
    | cons first more =>
      rw [address_cons, address_cons] at same
      obtain ⟨head, tail⟩ := full_injective same
      subst head
      rcases induction tail with shorter | shorter
      · exact .inl (List.cons_prefix_cons.mpr ⟨rfl, shorter⟩)
      · exact .inr (List.cons_prefix_cons.mpr ⟨rfl, shorter⟩)

theorem Apart.symm {left right : List Units} (apart : Apart left right) : Apart right left := by
  obtain ⟨level, before, other, first, second, differ⟩ := apart
  exact ⟨level, other, before, second, first, differ.symm⟩

theorem Apart.not_prefix {left right : List Units} (apart : Apart left right) : ¬ left <+: right := by
  obtain ⟨level, before, other, first, second, differ⟩ := apart
  rintro ⟨more, rfl⟩
  have inside := (List.getElem?_eq_some_iff.mp first).1
  rw [List.getElem?_append_left inside, first] at second
  exact differ (Option.some.inj second)

theorem Apart.address_ne {left right : List Units} (apart : Apart left right) (key other : Units) :
    address left key ≠ address right other := by
  intro same
  rcases chains_of_address same with shorter | shorter
  · exact apart.not_prefix shorter
  · exact apart.symm.not_prefix shorter

@[simp] theorem ownName_address (chain : List Units) (key : Units) :
    ownName chain (address chain key) = some key := by
  simp [ownName, address]

theorem address_of_ownName {chain : List Units} {key own : Units}
    (named : ownName chain key = some own) : key = address chain own := by
  simp only [ownName] at named
  split at named
  · rename_i starts
    obtain ⟨rest, whole⟩ := starts
    rw [← whole, List.drop_left] at named
    rw [← Option.some.inj named, ← whole, address]
  · contradiction

theorem ownName_eq_some {chain : List Units} {key own : Units} :
    ownName chain key = some own ↔ key = address chain own := by
  constructor
  · exact address_of_ownName
  · rintro rfl
    exact ownName_address chain own

theorem ownName_cons (before : Units) (chain : List Units) (key : Units) :
    ownName (before :: chain) key = (unscoped before key).bind (ownName chain) := by
  apply Option.ext
  intro own
  rw [Option.bind_eq_some_iff]
  rw [ownName_eq_some, address_cons]
  constructor
  · rintro rfl
    exact ⟨address chain own, by simp [unscoped, scopedKey], ownName_address chain own⟩
  · rintro ⟨inner, stripped, named⟩
    rw [← address_of_ownName named]
    simp only [unscoped] at stripped
    split at stripped
    · rename_i starts
      obtain ⟨rest, whole⟩ := starts
      rw [← whole, List.drop_left] at stripped
      rw [← Option.some.inj stripped, ← whole, scopedKey]
    · contradiction

/-! ## What a view reads and writes -/

section Views

variable {σ α : Type}

theorem view_get (store : KeyValueStore σ α) (chain : List Units) (key : Units) (state : σ) :
    (view store chain).get key state = store.get (address chain key) state := by
  induction chain generalizing store with
  | nil => rfl
  | cons before chain induction =>
    rw [address_cons]
    exact induction (namespaced store before)

theorem view_write (store : KeyValueStore σ α) (chain : List Units) (change : Change α) (state : σ) :
    (view store chain).write change state =
      store.write (change.rename (address chain)) state := by
  induction chain generalizing store with
  | nil => cases change <;> rfl
  | cons before chain induction =>
    have inner := induction (namespaced store before)
    cases change with
    | set key value => simpa [Change.rename, KeyValueStore.write, namespaced, view] using inner
    | remove key => simpa [Change.rename, KeyValueStore.write, namespaced, view] using inner

theorem ownName_nil : ownName [] = some := by
  funext key
  simp [ownName]

theorem view_keys (store : KeyValueStore σ α) (chain : List Units) (state : σ) :
    (view store chain).keys state = (store.keys state).filterMap (ownName chain) := by
  induction chain generalizing store with
  | nil => simp [ownName_nil, view]
  | cons before chain induction =>
    have stripped : ownName (before :: chain) = fun key =>
        (unscoped before key).bind (ownName chain) := funext (ownName_cons before chain)
    rw [stripped, ← List.filterMap_filterMap]
    exact induction (namespaced store before)

theorem view_subscribe (store : KeyValueStore σ α) (chain : List Units) :
    (view store chain).subscribe =
      store.subscribe.map fun hear key => (hear key).bind (ownName chain) := by
  induction chain generalizing store with
  | nil => simp [ownName_nil, view]
  | cons before chain induction =>
    have inner := induction (namespaced store before)
    rw [show view store (before :: chain) = view (namespaced store before) chain from rfl, inner]
    simp only [namespaced, Option.map_map]
    congr 1
    funext hear key
    simp only [Function.comp_apply, Option.bind_assoc]
    congr 1
    funext stripped
    exact (ownName_cons before chain stripped).symm

variable (host : Host σ α)

theorem get_view_write (left right : List Units) (change : Change α) (key : Units) (state : σ) :
    (view host.store right).get key ((view host.store left).write change state) =
      if address right key = address left change.key then change.value
      else (view host.store right).get key state := by
  rw [view_get, view_get, view_write, host.get_write, Change.key_rename, Change.value_rename]

theorem mem_view_keys (chain : List Units) (key : Units) (state : σ) :
    key ∈ (view host.store chain).keys state ↔
      ((view host.store chain).get key state).isSome := by
  rw [view_keys, view_get, List.mem_filterMap, ← host.mem_keys]
  constructor
  · rintro ⟨place, held, named⟩
    rw [← address_of_ownName named]
    exact held
  · intro held
    exact ⟨address chain key, held, ownName_address chain key⟩

theorem nodup_view_keys (chain : List Units) (state : σ) :
    ((view host.store chain).keys state).Nodup := by
  rw [view_keys]
  apply (host.nodup_keys state).filterMap
  intro left right own first second
  rw [address_of_ownName (Option.mem_def.mp first), address_of_ownName (Option.mem_def.mp second)]

theorem heard_of_apart {left right : List Units} (apart : Apart left right) (change : Change α)
    (state : σ) {hear : Units → Option Units} (listens : hear ∈ (view host.store right).subscribe) :
    (host.reports (change.rename (address left)) state).filterMap hear = [] := by
  rw [view_subscribe, Option.mem_map] at listens
  obtain ⟨outer, held, made⟩ := listens
  have plain := host.hears outer held
  rw [List.filterMap_eq_nil_iff]
  intro key reported
  have own := host.reports_own _ state key reported
  subst plain made
  cases named : ownName right key with
  | none => simpa using named
  | some name =>
    have same := address_of_ownName named
    rw [own, Change.key_rename] at same
    exact absurd same (apart.address_ne change.key name)

/-! ## Runs -/

/-- A `set` or a `remove` through one of the views. -/
structure Operation (α : Type) where
  chain : List Units
  change : Change α
  deriving DecidableEq

def Operation.place (operation : Operation α) : Units :=
  address operation.chain operation.change.key

def perform (state : σ) (operation : Operation α) : σ :=
  (view host.store operation.chain).write operation.change state

def run (operations : List (Operation α)) (state : σ) : σ := operations.foldl (perform host) state

/-- The last operation at a storage key. -/
def lastAt (operations : List (Operation α)) (place : Units) : Option (Operation α) :=
  (operations.filter fun operation => operation.place = place).getLast?

theorem get_perform (chain : List Units) (key : Units) (state : σ) (operation : Operation α) :
    (view host.store chain).get key (perform host state operation) =
      if operation.place = address chain key then operation.change.value
      else (view host.store chain).get key state := by
  have written := get_view_write host operation.chain chain operation.change key state
  by_cases same : operation.place = address chain key
  · rw [if_pos same, perform, written]
    exact if_pos same.symm
  · rw [if_neg same, perform, written]
    exact if_neg fun other => same other.symm

theorem get_run (chain : List Units) (key : Units) (operations : List (Operation α)) (state : σ) :
    (view host.store chain).get key (run host operations state) =
      (lastAt operations (address chain key)).elim ((view host.store chain).get key state)
        fun operation => operation.change.value := by
  induction operations using List.reverseRecOn with
  | nil => rfl
  | append_singleton operations operation induction =>
    have step : run host (operations ++ [operation]) state =
        perform host (run host operations state) operation := by simp [run]
    rw [step, get_perform]
    by_cases here : operation.place = address chain key
    · have last : lastAt (operations ++ [operation]) (address chain key) = some operation := by
        simp [lastAt, here]
      rw [if_pos here, last, Option.elim_some]
    · have last : lastAt (operations ++ [operation]) (address chain key) =
          lastAt operations (address chain key) := by simp [lastAt, here]
      rw [if_neg here, last, induction]

/-- Views whose chains differ share no storage key, and each view holds what was last
written there through a view of its own line of nesting. -/
theorem views_hold :
    (∀ left right : List Units, Apart left right → ∀ key other : Units,
      address left key ≠ address right other) ∧
    (∀ left right : List Units, Apart left right → ∀ (change : Change α) (state : σ),
      (∀ key, (view host.store right).get key ((view host.store left).write change state) =
        (view host.store right).get key state) ∧
      ((view host.store right).keys ((view host.store left).write change state)).Perm
        ((view host.store right).keys state) ∧
      ∀ hear ∈ (view host.store right).subscribe,
        (host.reports (change.rename (address left)) state).filterMap hear = []) ∧
    ∀ (operations : List (Operation α)) (state : σ) (chain : List Units),
      ((view host.store chain).keys (run host operations state)).Nodup ∧
      ∀ key,
        (key ∈ (view host.store chain).keys (run host operations state) ↔
          ((view host.store chain).get key (run host operations state)).isSome) ∧
        (view host.store chain).get key (run host operations state) =
          (lastAt operations (address chain key)).elim ((view host.store chain).get key state)
            (fun operation => operation.change.value) ∧
        ∀ operation ∈ operations, operation.place = address chain key →
          operation.chain <+: chain ∨ chain <+: operation.chain := by
  refine ⟨fun left right apart => apart.address_ne, ?_, ?_⟩
  · intro left right apart change state
    have unread : ∀ key, (view host.store right).get key
        ((view host.store left).write change state) = (view host.store right).get key state := by
      intro key
      rw [get_view_write, if_neg (apart.symm.address_ne key change.key)]
    refine ⟨unread, ?_, fun hear => heard_of_apart host apart change state⟩
    rw [List.perm_ext_iff_of_nodup (nodup_view_keys host right _) (nodup_view_keys host right _)]
    intro key
    rw [mem_view_keys, mem_view_keys, unread]
  · intro operations state chain
    refine ⟨nodup_view_keys host chain _, ?_⟩
    intro key
    exact ⟨mem_view_keys host chain key _, get_run host chain key operations state,
      fun operation _ same => chains_of_address same⟩

end Views

/-! ## The store in memory -/

namespace MemoryStore

variable {α : Type}

def notified (change : Change α) (entries : OrderedMap Units α) : List Units :=
  match change with
  | .set key _ => [key]
  | .remove key => if entries.has key then [key] else []

def store : KeyValueStore (OrderedMap Units α) α where
  get key entries := entries.get key
  set key value entries := entries.set key value
  remove key entries := entries.delete key
  keys entries := entries.keys
  subscribe := some some

def host : Host (OrderedMap Units α) α where
  store := store
  reports := notified
  get_write change key entries := by
    cases change with
    | set place value => exact OrderedMap.get_set entries place key value
    | remove place => exact OrderedMap.get_delete entries place key
  nodup_keys entries := entries.nodup
  mem_keys key entries := OrderedMap.mem_keys
  reports_own change entries key reported := by
    cases change with
    | set place value => exact List.mem_singleton.mp reported
    | remove place =>
      simp only [notified] at reported
      split at reported
      · exact List.mem_singleton.mp reported
      · contradiction
  hears hear listens := (Option.some.inj (Option.mem_def.mp listens)).symm

/-- The two spellings of `a:b:c` that the escaping tells apart. -/
theorem views_hold_memory :
    address [Units.ofString "a"] (Units.ofString "b:c") ≠
      address [Units.ofString "a:b"] (Units.ofString "c") :=
  (views_hold (host : Host (OrderedMap Units Nat) Nat)).1 _ _
    ⟨0, Units.ofString "a", Units.ofString "a:b", rfl, rfl, by decide⟩ _ _

/-- A key is set through a view, and removed through a view of that view. -/
def removedBelow : List (Operation Nat) :=
  [⟨[Units.ofString "a"], .set (Units.ofString "b:c") 1⟩,
    ⟨[Units.ofString "a", Units.ofString "b"], .remove (Units.ofString "c")⟩]

theorem removedBelow_unlisted :
    (removedBelow.filter fun operation =>
      operation.chain = [Units.ofString "a"] ∧ operation.change.key = Units.ofString "b:c").getLast? =
        some ⟨[Units.ofString "a"], .set (Units.ofString "b:c") 1⟩ ∧
    (view store [Units.ofString "a"]).get (Units.ofString "b:c") (run host removedBelow ∅) = none ∧
    Units.ofString "b:c" ∉ (view store [Units.ofString "a"]).keys (run host removedBelow ∅) := by
  decide

end MemoryStore

end NostrWot.Storage

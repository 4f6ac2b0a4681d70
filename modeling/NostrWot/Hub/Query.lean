import NostrWot.Hub.Canonical
import NostrWot.Hub.Publish
import NostrWot.Sync.Run
import NostrWot.Data.OrderedMap

namespace NostrWot.Hub.Query

open NostrWot.Data NostrWot.Sync

/-! # One-shot reads

A query opens one REQ for each distinct relay and settles when every relay has an outcome, or at
its deadline.  Identical queries share the one that is under way, and later ones its result.
-/

inductive QueryRelayOutcome where
  | eose
  | closed
  | timeout
  | unreachable
  deriving DecidableEq

inductive QueryCacheMode where
  | cachedOk
  | fresh
  | bypass
  deriving DecidableEq

structure QuerySpec where
  identityId : String
  relays : List String
  filters : List Filter
  maxWaitMs : Option Nat
  mode : QueryCacheMode

structure QueryResult where
  events : List Event
  complete : Bool
  fromCache : Bool
  perRelay : OrderedMap String QueryRelayOutcome

structure Run where
  key : String
  mode : QueryCacheMode
  urls : List String
  deadlineAt : Nat
  perRelay : OrderedMap String QueryRelayOutcome
  events : List Event
  seen : List String
  subs : List Nat
  /-- The sockets that it keeps busy. -/
  busy : List Nat
  remaining : Nat
  done : Bool
  results : List QueryResult
  /-- The executor of the promise has thrown. -/
  rejected : Bool
  /-- The relays that the loop has not come to. -/
  todo : List String
  /-- The query is entered among those in flight. -/
  entered : Bool
  recorded : Bool
  waiting : List String
  /-- The relay that `registry.subscribe` is being called for, and whether in the loop. -/
  opening : Option (String × Bool)
  issued : List String
  /-- `ref.sub` of each relay. -/
  refs : OrderedMap String Nat
  /-- `closingOurselves`. -/
  closing : List String
  /-- The EOSE that wait for their microtask, and whether the relay sent them. -/
  eoses : List (String × Bool)
  handles : Nat
  held : List Nat
  /-- The relays that have sent EOSE while the query ran. -/
  sent : List String

namespace Run

def finish (run : Run) : Run :=
  if run.done then run
  else
    let perRelay := run.urls.foldl
      (fun map url => if (map.get url).isNone then map.set url .timeout else map) run.perRelay
    { run with
      done := true
      perRelay := perRelay
      held := run.held.filter (· ∉ run.subs)
      results := run.results ++ [{
        events := run.events
        complete := run.urls.all fun url => perRelay.get url = some .eose
        fromCache := false
        perRelay := perRelay }] }

def settle (run : Run) (url : String) (outcome : QueryRelayOutcome) : Run :=
  if (run.perRelay.get url).isSome then run
  else
    let run := { run with
      perRelay := run.perRelay.set url outcome
      remaining := run.remaining - 1 }
    if run.remaining = 0 then run.finish else run

def release (run : Run) (handle : Nat) : Run :=
  { run with held := run.held.filter (· ≠ handle) }

def begin (key : String) (mode : QueryCacheMode) (urls : List String) (deadlineAt : Nat) : Run :=
  let run : Run := {
    key := key, mode := mode, urls := urls, deadlineAt := deadlineAt, perRelay := ∅, events := []
    seen := [], subs := [], busy := [], remaining := urls.length, done := false, results := []
    rejected := false, todo := urls, entered := false, recorded := false, waiting := []
    opening := none, issued := [], refs := ∅, closing := [], eoses := [], handles := 0, held := []
    sent := [] }
  if urls = [] then run.finish else run

/-- The part of `issue` before the REQ calls back. -/
def issue (run : Run) (url : String) (looping : Bool) : Run :=
  if run.done then run
  else { run with opening := some (url, looping), issued := url :: run.issued }

/-- The loop gets the socket of its next relay. -/
def visit (run : Run) (url : String) (rest : List String) (entry : Nat) (up : Bool) : Run :=
  let run := { run with todo := rest, busy := run.busy ++ [entry] }
  if up then run.issue url true else { run with waiting := url :: run.waiting }

/-- `registry.subscribe` returns. -/
def subscribed (run : Run) (url : String) : Run :=
  let handle := run.handles
  let run := { run with
    opening := none
    handles := handle + 1
    refs := run.refs.set url handle
    held := handle :: run.held }
  if run.done || (run.perRelay.get url).isSome then run.release handle
  else { run with subs := run.subs ++ [handle] }

/-- `registry.subscribe` throws: out of the executor, or into a promise that no one looks at. -/
def threw (run : Run) (looping : Bool) : Run :=
  if looping then { run with opening := none, rejected := true, todo := [] }
  else { run with opening := none }

def onevent (run : Run) (event : Event) : Run :=
  if run.done || event.id ∈ run.seen then run
  else { run with seen := event.id :: run.seen, events := run.events ++ [event] }

/-- An EOSE, from the relay or made up, settles in a microtask. -/
def oneose (run : Run) (url : String) (genuine : Bool) : Run :=
  { run with
    eoses := run.eoses ++ [(url, genuine)]
    sent := if genuine && !run.done then url :: run.sent else run.sent }

def onclose (run : Run) (url : String) : Run :=
  if url ∈ run.closing then run else run.settle url .closed

def conclude (run : Run) (url : String) : Run :=
  if run.done || (run.perRelay.get url).isSome then run
  else
    let run := { run with closing := url :: run.closing }.settle url .eose
    match run.refs.get url with
    | some handle => run.release handle
    | none => run

end Run

/-- What a REQ calls back with. -/
inductive Callback where
  | event (event : Event)
  | eose (genuine : Bool)
  | closed

def Run.tell (run : Run) (url : String) : Callback → Run
  | .event event => run.onevent event
  | .eose genuine => run.oneose url genuine
  | .closed => run.onclose url

structure Call where
  urls : List String
  deadlineAt : Nat
  /-- The run whose result it gets. -/
  run : Nat
  /-- The cached result it gets at once. -/
  hit : Option QueryResult

structure Path where
  now : Nat
  runs : List Run
  inflight : OrderedMap String Nat
  /-- Results, and the runs they are of. -/
  cache : OrderedMap String (QueryResult × Nat)
  busy : Nat → Nat
  others : Nat → Nat
  calls : List Call

def Path.initial : Path where
  now := 0
  runs := []
  inflight := ∅
  cache := ∅
  busy := fun _ => 0
  others := fun _ => 0
  calls := []

inductive Move where
  | query (spec : QuerySpec)
  /-- The loop asks for the next socket: which it is and whether it is up, unless that throws. -/
  | ensure (run : Nat) (entry : Option (Nat × Bool))
  | enter (run : Nat)
  | connected (run : Nat) (url : String)
  | unreachable (run : Nat) (url : String)
  | subscribed (run : Nat)
  | threw (run : Nat)
  | tell (run : Nat) (url : String) (callback : Callback)
  | microtask (run : Nat)
  | deadline (run : Nat)
  | record (run : Nat)
  /-- The cache drops an entry: its time or its bytes are up, or its identity goes. -/
  | drop (key : String)
  | borrow (entry : Nat)
  | giveBack (entry : Nat)
  | advance (now : Nat)

namespace Path

variable (host : Host) (defaultMaxWaitMs : Nat)

/-- `Array.from(new Set(urls))`. -/
def distinct (urls : List String) : List String := urls.reverse.dedup.reverse

/-- No synchronous part of a query is under way. -/
def Quiet (path : Path) : Prop :=
  ∀ run ∈ path.runs, run.todo = [] ∧ run.opening = none ∧ run.entered = true

/-- Microtasks are done too. -/
def Idle (path : Path) : Prop := path.Quiet ∧ ∀ run ∈ path.runs, run.eoses = []

instance (path : Path) : Decidable path.Quiet := inferInstanceAs (Decidable (∀ run ∈ _, _))

instance (path : Path) : Decidable path.Idle := inferInstanceAs (Decidable (_ ∧ _))

/-- Sockets are as busy as before the query. -/
def restore (entries : List Nat) (busy : Nat → Nat) : Nat → Nat :=
  entries.foldl (fun busy entry => Function.update busy entry (busy entry - 1)) busy

def alter (path : Path) (index : Nat) (change : Run → Run) : Path :=
  match path.runs[index]? with
  | none => path
  | some run =>
    { path with
      runs := path.runs.set index (change run)
      busy := if (change run).done && !run.done then restore (change run).busy path.busy
        else path.busy }

def query (spec : QuerySpec) (key : String) (urls : List String) (path : Path) : Path :=
  let deadlineAt := path.now + spec.maxWaitMs.getD defaultMaxWaitMs
  match (if spec.mode = .cachedOk then path.cache.get key else none) with
  | some (result, run) =>
    { path with
      calls := path.calls ++ [⟨urls, deadlineAt, run, some { result with fromCache := true }⟩] }
  | none =>
    match path.inflight.get key with
    | some run => { path with calls := path.calls ++ [⟨urls, deadlineAt, run, none⟩] }
    | none =>
      { path with
        runs := path.runs ++ [.begin key spec.mode urls deadlineAt]
        calls := path.calls ++ [⟨urls, deadlineAt, path.runs.length, none⟩] }

def keyed (spec : QuerySpec) : Except String (String × List String) := do
  let urls ← spec.relays.mapM host.normalizeURL
  return (← queryKey host spec.identityId spec.relays spec.filters, distinct urls)

/-- What is done with a result when its promise has settled. -/
def record (index : Nat) (run : Run) (result : QueryResult) (path : Path) : Path :=
  { path with
    inflight := if path.inflight.get run.key = some index then path.inflight.delete run.key
      else path.inflight
    cache := if run.mode = .bypass then path.cache else path.cache.set run.key (result, index) }

def step (path : Path) : Move → Option Path
  | .query spec =>
    match keyed host spec with
    | .error _ => none
    | .ok (key, urls) => some (path.query defaultMaxWaitMs spec key urls)
  | .ensure index entry => do
      let run ← path.runs[index]?
      guard (run.opening = none)
      match run.todo, entry with
      | [], _ => none
      | url :: rest, none =>
        return path.alter index fun run => { run with todo := rest }.settle url .unreachable
      | url :: rest, some (entry, up) =>
        let path := { path with busy := Function.update path.busy entry (path.busy entry + 1) }
        return path.alter index fun run => run.visit url rest entry up
  | .enter index => do
      let run ← path.runs[index]?
      guard (run.todo = [] ∧ run.opening = none ∧ run.entered = false)
      return { path.alter index fun run => { run with entered := true } with
        inflight := path.inflight.set run.key index }
  | .connected index url => do
      let run ← path.runs[index]?
      guard (path.Quiet ∧ url ∈ run.waiting)
      return path.alter index fun run =>
        { run with waiting := run.waiting.erase url }.issue url false
  | .unreachable index url => do
      let run ← path.runs[index]?
      guard (path.Quiet ∧ url ∈ run.waiting)
      return path.alter index fun run =>
        { run with waiting := run.waiting.erase url }.settle url .unreachable
  | .subscribed index => do
      let run ← path.runs[index]?
      let (url, _) ← run.opening
      return path.alter index fun run => run.subscribed url
  | .threw index => do
      let run ← path.runs[index]?
      let (_, looping) ← run.opening
      return path.alter index fun run => run.threw looping
  | .tell index url callback => do
      let run ← path.runs[index]?
      guard (url ∈ run.issued)
      return path.alter index fun run => run.tell url callback
  | .microtask index => do
      let run ← path.runs[index]?
      guard path.Quiet
      match run.eoses with
      | [] => none
      | (url, _) :: rest =>
        return path.alter index fun run => { run with eoses := rest }.conclude url
  | .deadline index => do
      let run ← path.runs[index]?
      guard (path.Idle ∧ run.done = false ∧ run.deadlineAt ≤ path.now)
      return path.alter index Run.finish
  | .record index => do
      let run ← path.runs[index]?
      let result ← run.results.head?
      guard (path.Quiet ∧ run.rejected = false ∧ run.recorded = false)
      return { path.record index run result with
        runs := path.runs.set index { run with recorded := true } }
  | .drop key => some { path with cache := path.cache.delete key }
  | .borrow entry =>
    some { path with
      busy := Function.update path.busy entry (path.busy entry + 1)
      others := Function.update path.others entry (path.others entry + 1) }
  | .giveBack entry => do
      guard (0 < path.others entry)
      return { path with
        busy := Function.update path.busy entry (path.busy entry - 1)
        others := Function.update path.others entry (path.others entry - 1) }
  | .advance now => do
      -- The timers of the queries fire when they are due.
      guard (path.Idle ∧ path.now ≤ now ∧ ∀ run ∈ path.runs, run.done = false → now ≤ run.deadlineAt)
      return { path with now := now }

/-- What a call resolves with, once it does. -/
def answer (path : Path) (call : Call) : Option QueryResult :=
  match call.hit with
  | some result => some result
  | none => path.runs[call.run]?.bind fun run => run.results.head?

end Path

/-! ## What a run keeps -/

namespace Run

structure Sane (run : Run) : Prop where
  kept : run.rejected = false
  urls : run.urls.Nodup
  results : run.results = if run.done then
    [⟨run.events, run.urls.all fun url => run.perRelay.get url = some .eose, false, run.perRelay⟩]
    else []
  known : ∀ url, (run.perRelay.get url).isSome → url ∈ run.urls
  remaining : run.done = false →
    run.remaining = (run.urls.filter fun url => (run.perRelay.get url).isNone).length
  settled : run.done = true → ∀ url ∈ run.urls, (run.perRelay.get url).isSome
  todo : run.todo.Nodup
  unseen : ∀ url ∈ run.todo, url ∈ run.urls ∧ run.perRelay.get url = none ∧ url ∉ run.waiting ∧
    url ∉ run.issued
  waiting : ∀ url ∈ run.waiting, url ∈ run.urls
  issued : ∀ url ∈ run.issued, url ∈ run.urls
  seen : ∀ id, id ∈ run.seen ↔ id ∈ run.events.map Event.id
  ids : (run.events.map Event.id).Nodup
  held : ∀ handle ∈ run.held, handle ∈ run.subs
  released : run.done = true → run.held = []
  proven : ∀ url, run.perRelay.get url = some .eose → url ∈ run.sent
  sent : ∀ url ∈ run.sent, url ∈ run.urls ∧ (run.perRelay.get url = some .eose ∨
    run.done = false ∧ run.perRelay.get url = none ∧ (url, true) ∈ run.eoses)
  queued : ∀ entry ∈ run.eoses, entry.1 ∈ run.issued
  heard : run.done = false → ∀ url, (url, true) ∈ run.eoses → url ∈ run.sent
  single : run.waiting.Nodup
  idle : ∀ url ∈ run.waiting, url ∉ run.issued

/-- What no step of a run takes back. -/
structure Later (run next : Run) : Prop where
  urls : next.urls = run.urls
  deadlineAt : next.deadlineAt = run.deadlineAt
  busy : next.busy = run.busy
  done : run.done = true → next.done = true
  results : ∀ result, run.results.head? = some result → next.results.head? = some result
  sent : run.done = true → next.sent = run.sent

variable {run : Run} {url : String}

theorem get_filled (urls : List String) (map : OrderedMap String QueryRelayOutcome) (url : String) :
    (urls.foldl (fun map url => if (map.get url).isNone then map.set url .timeout else map) map).get url
      = if (map.get url).isSome then map.get url
        else if url ∈ urls then some .timeout else none := by
  induction urls generalizing map with
  | nil => cases held : map.get url <;> simp [held]
  | cons first rest ih =>
    rw [List.foldl_cons, ih]
    cases held : map.get first with
    | some outcome =>
      simp only [Option.isNone_some, Bool.false_eq_true, if_false, List.mem_cons]
      rcases eq_or_ne url first with rfl | apart
      · simp [held]
      · simp [apart]
    | none =>
      simp only [Option.isNone_none, if_true, List.mem_cons, OrderedMap.get_set]
      rcases eq_or_ne url first with rfl | apart
      · simp [held]
      · simp [apart]

theorem Sane.finish (sane : run.Sane) (looped : run.todo = [])
    (heard : run.done = false → ∀ url ∈ run.sent, run.perRelay.get url = some .eose) :
    run.finish.Sane := by
  unfold Run.finish
  cases ended : run.done with
  | true => simpa using sane
  | false =>
    have filled : ∀ url, (run.perRelay.get url).isSome → (run.urls.foldl (fun map url =>
        if (map.get url).isNone then map.set url .timeout else map) run.perRelay).get url =
          run.perRelay.get url := by
      intro url some_
      rw [get_filled, if_pos some_]
    have empty := sane.results
    rw [ended] at empty
    simp only [Bool.false_eq_true, if_false] at empty ⊢
    constructor
    · exact sane.kept
    · exact sane.urls
    · simp [empty]
    · intro url some_
      dsimp only at some_
      rw [get_filled] at some_
      split at some_
      · next before => exact sane.known url before
      · split at some_
        · assumption
        · cases some_
    · intro running
      cases running
    · intro _ url among
      dsimp only
      rw [get_filled]
      split
      · assumption
      · rfl
    · exact sane.todo
    · intro url among
      rw [looped] at among
      cases among
    · exact sane.waiting
    · exact sane.issued
    · exact sane.seen
    · exact sane.ids
    · intro handle among
      exact sane.held handle (List.mem_of_mem_filter among)
    · intro _
      apply List.filter_eq_nil_iff.mpr
      intro handle among
      simpa using sane.held handle among
    · intro url is
      dsimp only at is
      rw [get_filled] at is
      split at is
      · exact sane.proven url is
      · split at is <;> cases is
    · intro url among
      have is := heard ended url among
      exact ⟨(sane.sent url among).1, .inl ((filled url (by rw [is]; rfl)).trans is)⟩
    · exact sane.queued
    · intro running
      cases running
    · exact sane.single
    · exact sane.idle

theorem Later.refl (run : Run) : Later run run :=
  ⟨rfl, rfl, rfl, id, fun _ => id, fun _ => rfl⟩

theorem Later.trans {run middle next : Run} (first : Later run middle) (last : Later middle next) :
    Later run next where
  urls := last.urls.trans first.urls
  deadlineAt := last.deadlineAt.trans first.deadlineAt
  busy := last.busy.trans first.busy
  done ended := last.done (first.done ended)
  results result is := last.results result (first.results result is)
  sent ended := (last.sent (first.done ended)).trans (first.sent ended)

theorem Later.finish (run : Run) : Later run run.finish := by
  unfold Run.finish
  cases ended : run.done with
  | true => simpa using Later.refl run
  | false =>
    refine ⟨rfl, rfl, rfl, fun _ => rfl, ?_, fun _ => rfl⟩
    intro result is
    simp only [Bool.false_eq_true, if_false]
    rw [List.head?_append, is]
    rfl

/-- An outcome is for a relay that the loop has come to, and end of stored events for one that
said so. -/
theorem Sane.settle (sane : run.Sane) {outcome : QueryRelayOutcome} (asked : url ∈ run.urls)
    (visited : url ∉ run.todo)
    (true_ : run.perRelay.get url = none → (outcome = .eose ↔ url ∈ run.sent)) :
    (run.settle url outcome).Sane := by
  unfold Run.settle
  split
  · exact sane
  next absent =>
  have none_ : run.perRelay.get url = none := by simpa using absent
  have running : run.done = false := by
    by_contra ended
    have some_ := sane.settled (by simpa using ended) url asked
    rw [none_] at some_
    cases some_
  have get : ∀ other, (run.perRelay.set url outcome).get other =
      if other = url then some outcome else run.perRelay.get other :=
    fun other => OrderedMap.get_set _ _ _ _
  have counted : (run.urls.filter fun other =>
      ((run.perRelay.set url outcome).get other).isNone).length = run.remaining - 1 := by
    have among : url ∈ run.urls.filter fun other => (run.perRelay.get other).isNone :=
      List.mem_filter.mpr ⟨asked, by rw [none_]; rfl⟩
    rw [sane.remaining running, ← List.length_erase_of_mem among,
      (sane.urls.filter _).erase_eq_filter, List.filter_filter]
    congr 1
    apply List.filter_congr
    intro other _
    rw [get]
    by_cases same : other = url <;> simp [same]
  have set : Sane { run with
      perRelay := run.perRelay.set url outcome
      remaining := run.remaining - 1 } := by
    constructor
    · exact sane.kept
    · exact sane.urls
    · have empty := sane.results
      rw [running] at empty ⊢
      exact empty
    · intro other some_
      dsimp only at some_
      rw [get] at some_
      split at some_
      · next same => exact same ▸ asked
      · exact sane.known other some_
    · intro _
      exact counted.symm
    · intro ended
      exact absurd (running.symm.trans ended) Bool.false_ne_true
    · exact sane.todo
    · intro other among
      obtain ⟨known, unset, rest⟩ := sane.unseen other among
      refine ⟨known, ?_, rest⟩
      dsimp only
      rw [get, if_neg fun same : other = url => visited (same ▸ among), unset]
    · exact sane.waiting
    · exact sane.issued
    · exact sane.seen
    · exact sane.ids
    · exact sane.held
    · exact sane.released
    · intro other is
      dsimp only at is
      rw [get] at is
      split at is
      · next same => exact same.symm ▸ (true_ none_).mp (Option.some.inj is)
      · exact sane.proven other is
    · intro other among
      refine ⟨(sane.sent other among).1, ?_⟩
      dsimp only
      rw [get]
      split
      · next same => exact .inl (congrArg some ((true_ none_).mpr (same ▸ among)))
      · exact (sane.sent other among).2
    · exact sane.queued
    · exact sane.heard
    · exact sane.single
    · exact sane.idle
  dsimp only
  split
  · next zero =>
    have all : ∀ other ∈ run.urls, ((run.perRelay.set url outcome).get other).isSome := by
      intro other among
      have empty := List.eq_nil_of_length_eq_zero (counted.trans zero)
      by_contra unset
      have inside : other ∈ run.urls.filter fun other =>
          ((run.perRelay.set url outcome).get other).isNone :=
        List.mem_filter.mpr ⟨among, by simpa using unset⟩
      rw [empty] at inside
      cases inside
    apply set.finish
    · apply List.eq_nil_iff_forall_not_mem.mpr
      intro other among
      have some_ := all other (set.unseen other among).1
      rw [(set.unseen other among).2.1] at some_
      cases some_
    · intro _ other among
      rcases (set.sent other among).2 with is | ⟨-, unset, -⟩
      · exact is
      · have some_ := all other (set.sent other among).1
        rw [unset] at some_
        cases some_
  · exact set

theorem Later.settle (run : Run) (url : String) (outcome : QueryRelayOutcome) :
    Later run (run.settle url outcome) := by
  unfold Run.settle
  split
  · exact .refl run
  · dsimp only
    have first : Later run { run with
        perRelay := run.perRelay.set url outcome
        remaining := run.remaining - 1 } := ⟨rfl, rfl, rfl, id, fun _ => id, fun _ => rfl⟩
    split
    · have last := Later.finish { run with
        perRelay := run.perRelay.set url outcome
        remaining := run.remaining - 1 }
      exact ⟨last.urls, last.deadlineAt, last.busy, fun ended => last.done ended, last.results,
        last.sent⟩
    · exact first

theorem Sane.begin {key : String} {mode : QueryCacheMode} {urls : List String} {deadlineAt : Nat}
    (distinct : urls.Nodup) : (Run.begin key mode urls deadlineAt).Sane := by
  have empty : ∀ url : String, (∅ : OrderedMap String QueryRelayOutcome).get url = none :=
    fun _ => rfl
  unfold Run.begin
  dsimp only
  split
  · next none_ =>
    subst none_
    apply Sane.finish
    · constructor <;> simp [empty]
    · rfl
    · intro _ url among
      cases among
  · constructor <;> simp [empty, distinct]

theorem deadlineAt_begin {key : String} {mode : QueryCacheMode} {urls : List String}
    {deadlineAt : Nat} : (Run.begin key mode urls deadlineAt).deadlineAt = deadlineAt ∧
      (Run.begin key mode urls deadlineAt).urls = urls ∧
      (Run.begin key mode urls deadlineAt).busy = [] := by
  unfold Run.begin Run.finish
  dsimp only
  split <;> exact ⟨rfl, rfl, rfl⟩

theorem Sane.issue (sane : run.Sane) (asked : url ∈ run.urls) (visited : url ∉ run.todo)
    (waits : url ∉ run.waiting) (looping : Bool) : (run.issue url looping).Sane := by
  unfold Run.issue
  split
  · exact sane
  · refine { sane with unseen := ?_, issued := ?_, queued := ?_, idle := ?_ }
    · intro other among
      obtain ⟨known, unset, idle, apart⟩ := sane.unseen other among
      refine ⟨known, unset, idle, fun inside => ?_⟩
      rcases List.mem_cons.mp inside with rfl | before
      · exact visited among
      · exact apart before
    · intro other among
      rcases List.mem_cons.mp among with rfl | before
      · exact asked
      · exact sane.issued other before
    · exact fun entry among => List.mem_cons_of_mem _ (sane.queued entry among)
    · intro other among inside
      rcases List.mem_cons.mp inside with rfl | before
      · exact waits among
      · exact sane.idle other among before

theorem Later.issue (run : Run) (url : String) (looping : Bool) :
    Later run (run.issue url looping) := by
  unfold Run.issue
  split
  · exact .refl run
  · exact ⟨rfl, rfl, rfl, id, fun _ => id, fun _ => rfl⟩

variable {rest : List String}

theorem Sane.running_of_todo (sane : run.Sane) (todo : run.todo = url :: rest) :
    run.done = false := by
  obtain ⟨known, unset, -⟩ := sane.unseen url (todo ▸ List.mem_cons_self)
  by_contra ended
  have some_ := sane.settled (by simpa using ended) url known
  rw [unset] at some_
  cases some_

theorem Sane.pop (sane : run.Sane) (todo : run.todo = url :: rest) (busy : List Nat) :
    Sane { run with todo := rest, busy := busy } ∧ url ∉ rest := by
  have single := sane.todo
  rw [todo] at single
  obtain ⟨fresh, others⟩ := List.nodup_cons.mp single
  refine ⟨{ sane with todo := others, unseen := fun other among => ?_ }, fresh⟩
  exact sane.unseen other (todo ▸ List.mem_cons_of_mem _ among)

theorem Sane.visit (sane : run.Sane) (todo : run.todo = url :: rest) (entry : Nat) (up : Bool) :
    (run.visit url rest entry up).Sane := by
  obtain ⟨known, -, quiet, unissued⟩ := sane.unseen url (todo ▸ List.mem_cons_self)
  obtain ⟨popped, fresh⟩ := sane.pop todo (run.busy ++ [entry])
  unfold Run.visit
  dsimp only
  split
  · exact popped.issue known fresh quiet true
  · refine { popped with
      unseen := ?_, waiting := ?_, single := List.nodup_cons.mpr ⟨quiet, sane.single⟩, idle := ?_ }
    · intro other among
      obtain ⟨asked, unset, idle, quiet⟩ := popped.unseen other among
      refine ⟨asked, unset, fun inside => ?_, quiet⟩
      rcases List.mem_cons.mp inside with rfl | before
      · exact fresh among
      · exact idle before
    · intro other among
      rcases List.mem_cons.mp among with rfl | before
      · exact known
      · exact sane.waiting other before
    · intro other among
      rcases List.mem_cons.mp among with rfl | before
      · exact unissued
      · exact sane.idle other before

theorem Sane.unsent (sane : run.Sane) (unset : run.perRelay.get url = none)
    (unissued : url ∉ run.issued) : url ∉ run.sent := by
  intro said
  rcases (sane.sent url said).2 with is | ⟨-, -, waits⟩
  · rw [unset] at is
    cases is
  · exact unissued (sane.queued _ waits)

theorem Sane.awaited (sane : run.Sane) (among : url ∈ run.waiting) :
    Sane { run with waiting := run.waiting.erase url } ∧ url ∈ run.urls ∧ url ∉ run.todo ∧
      url ∉ run.waiting.erase url := by
  refine ⟨{ sane with
      unseen := fun other todo => ?_
      waiting := fun other inside => sane.waiting other (List.mem_of_mem_erase inside)
      single := sane.single.erase url
      idle := fun other inside => sane.idle other (List.mem_of_mem_erase inside) },
    sane.waiting url among, fun todo => (sane.unseen url todo).2.2.1 among,
    sane.single.not_mem_erase⟩
  obtain ⟨known, unset, idle, quiet⟩ := sane.unseen other todo
  exact ⟨known, unset, fun inside => idle (List.mem_of_mem_erase inside), quiet⟩

theorem visit_keeps (run : Run) (url : String) (rest : List String) (entry : Nat) (up : Bool) :
    (run.visit url rest entry up).urls = run.urls ∧
      (run.visit url rest entry up).deadlineAt = run.deadlineAt ∧
      (run.visit url rest entry up).busy = run.busy ++ [entry] ∧
      (run.visit url rest entry up).done = run.done ∧
      (run.visit url rest entry up).results = run.results := by
  unfold Run.visit Run.issue
  dsimp only
  split
  · split <;> exact ⟨rfl, rfl, rfl, rfl, rfl⟩
  · exact ⟨rfl, rfl, rfl, rfl, rfl⟩

theorem Sane.subscribed (sane : run.Sane) : (run.subscribed url).Sane := by
  have fewer : ∀ handle, (handle :: run.held).filter (· ≠ handle) = run.held.filter (· ≠ handle) := by
    intro handle
    rw [List.filter_cons_of_neg (by simp)]
  unfold Run.subscribed
  dsimp only
  split
  · unfold Run.release
    refine { sane with held := ?_, released := ?_ }
    · intro handle among
      dsimp only at among
      rw [fewer] at among
      exact sane.held handle (List.mem_of_mem_filter among)
    · intro ended
      dsimp only
      rw [fewer, sane.released ended]
      rfl
  · next open_ =>
    have running : run.done = false ∧ (run.perRelay.get url).isSome = false := by simpa using open_
    refine { sane with held := ?_, released := ?_ }
    · intro handle among
      rcases List.mem_cons.mp among with rfl | before
      · exact List.mem_append_right _ (List.mem_singleton.mpr rfl)
      · exact List.mem_append_left _ (sane.held handle before)
    · intro ended
      exact absurd (running.1.symm.trans ended) Bool.false_ne_true

theorem Later.subscribed (run : Run) (url : String) : Later run (run.subscribed url) := by
  unfold Run.subscribed Run.release
  dsimp only
  split <;> exact ⟨rfl, rfl, rfl, id, fun _ => id, fun _ => rfl⟩

theorem Sane.release (sane : run.Sane) (handle : Nat) : (run.release handle).Sane := by
  refine { sane with held := ?_, released := ?_ }
  · exact fun other among => sane.held other (List.mem_of_mem_filter among)
  · intro ended
    show run.held.filter _ = []
    rw [sane.released ended]
    rfl

theorem Sane.onevent (sane : run.Sane) (event : Event) : (run.onevent event).Sane := by
  unfold Run.onevent
  split
  · exact sane
  next fresh =>
  have new : run.done = false ∧ event.id ∉ run.seen := by simpa using fresh
  refine { sane with results := ?_, seen := ?_, ids := ?_ }
  · have empty := sane.results
    rw [new.1] at empty ⊢
    exact empty
  · intro id
    rw [List.map_append, List.mem_append, List.mem_cons, sane.seen id]
    simp [or_comm]
  · rw [List.map_append]
    apply List.Nodup.append sane.ids (List.nodup_singleton _)
    intro id before now
    rw [List.mem_singleton.mp now] at before
    exact new.2 ((sane.seen _).mpr before)

theorem Later.onevent (run : Run) (event : Event) : Later run (run.onevent event) := by
  unfold Run.onevent
  split
  · exact .refl run
  · exact ⟨rfl, rfl, rfl, id, fun _ => id, fun _ => rfl⟩

theorem Sane.oneose (sane : run.Sane) (asked : url ∈ run.issued) {genuine : Bool}
    (early : genuine = true → run.done = false →
      run.perRelay.get url = none ∨ run.perRelay.get url = some .eose) :
    (run.oneose url genuine).Sane := by
  unfold Run.oneose
  refine { sane with proven := ?_, sent := ?_, queued := ?_, heard := ?_ }
  · intro other is
    have before := sane.proven other is
    dsimp only
    split
    · exact List.mem_cons_of_mem _ before
    · exact before
  · intro other among
    have kept : other ∈ run.sent → other ∈ run.urls ∧ (run.perRelay.get other = some .eose ∨
        run.done = false ∧ run.perRelay.get other = none ∧
          (other, true) ∈ run.eoses ++ [(url, genuine)]) := by
      intro before
      obtain ⟨known, is⟩ := sane.sent other before
      refine ⟨known, is.imp id ?_⟩
      rintro ⟨running, unset, waits⟩
      exact ⟨running, unset, List.mem_append_left _ waits⟩
    dsimp only at among
    split at among
    · next now =>
      have own : genuine = true ∧ run.done = false := by simpa using now
      rcases List.mem_cons.mp among with rfl | before
      · refine ⟨sane.issued other asked, ?_⟩
        rcases early own.1 own.2 with unset | is
        · have last : (other, true) ∈ [(other, genuine)] := by rw [own.1]; exact List.mem_singleton.mpr rfl
          exact .inr ⟨own.2, unset, List.mem_append_right _ last⟩
        · exact .inl is
      · exact kept before
    · exact kept among
  · intro entry among
    rcases List.mem_append.mp among with old | new
    · exact sane.queued entry old
    · rw [List.mem_singleton.mp new]
      exact asked
  · intro running other among
    have run_ : run.done = false := running
    dsimp only
    rcases List.mem_append.mp among with old | new
    · have before := sane.heard running other old
      split
      · exact List.mem_cons_of_mem _ before
      · exact before
    · cases List.mem_singleton.mp new
      simp [run_]

theorem Later.oneose (run : Run) (url : String) (genuine : Bool) :
    Later run (run.oneose url genuine) := by
  refine ⟨rfl, rfl, rfl, id, fun _ => id, fun ended => ?_⟩
  unfold Run.oneose
  simp [ended]

theorem settle_with (run : Run) (url : String) (outcome : QueryRelayOutcome)
    (eoses : List (String × Bool)) (closing : List String) :
    Run.settle { run with eoses := eoses, closing := closing } url outcome =
      { run.settle url outcome with eoses := eoses, closing := closing } := by
  unfold Run.settle Run.finish
  dsimp only
  split
  · rfl
  · split
    · cases run.done <;> rfl
    · rfl

theorem settle_eoses (run : Run) (url : String) (outcome : QueryRelayOutcome) :
    (run.settle url outcome).eoses = run.eoses := by
  unfold Run.settle Run.finish
  dsimp only
  split
  · rfl
  · split
    · cases run.done <;> rfl
    · rfl

theorem isSome_settle (run : Run) (url : String) (outcome : QueryRelayOutcome) :
    ((run.settle url outcome).perRelay.get url).isSome := by
  unfold Run.settle Run.finish
  dsimp only
  split
  · assumption
  · split
    · cases run.done
      · simp only [Bool.false_eq_true, if_false]
        rw [get_filled]
        simp
      · simp
    · simp

theorem Sane.dequeue {genuine : Bool} {rest : List (String × Bool)} (sane : run.Sane)
    (waits : run.eoses = (url, genuine) :: rest)
    (over_ : (run.done || (run.perRelay.get url).isSome) = true) (closing : List String) :
    Sane { run with eoses := rest, closing := closing } := by
  refine { sane with sent := ?_, queued := ?_, heard := ?_ }
  · intro other among
    obtain ⟨known, is⟩ := sane.sent other among
    refine ⟨known, is.imp id ?_⟩
    rintro ⟨running, unset, inside⟩
    rw [waits] at inside
    rcases List.mem_cons.mp inside with same | later
    · cases same
      simp [running, unset] at over_
    · exact ⟨running, unset, later⟩
  · exact fun entry among => sane.queued entry (waits ▸ List.mem_cons_of_mem _ among)
  · exact fun running other among => sane.heard running other (waits ▸ List.mem_cons_of_mem _ among)

theorem Sane.conclude {genuine : Bool} {rest : List (String × Bool)} (sane : run.Sane)
    (waits : run.eoses = (url, genuine) :: rest) (asked : url ∈ run.urls)
    (visited : url ∉ run.todo)
    (sent : run.done = false → run.perRelay.get url = none → url ∈ run.sent) :
    (Run.conclude { run with eoses := rest } url).Sane := by
  unfold Run.conclude
  dsimp only
  split
  · next over_ => exact sane.dequeue waits over_ run.closing
  next open_ =>
  have running : run.done = false ∧ run.perRelay.get url = none := by simpa using open_
  have settled : (run.settle url .eose).Sane :=
    sane.settle asked visited fun unset => iff_of_true rfl (sent running.1 unset)
  have kept := settled.dequeue (by rw [settle_eoses]; exact waits)
    (by rw [isSome_settle, Bool.or_true]) (url :: run.closing)
  rw [settle_with run url .eose rest (url :: run.closing)]
  split
  · exact kept.release _
  · exact kept

theorem Later.conclude (run : Run) (url : String) (rest : List (String × Bool)) :
    Later run (Run.conclude { run with eoses := rest } url) := by
  unfold Run.conclude
  dsimp only
  split
  · exact ⟨rfl, rfl, rfl, id, fun _ => id, fun _ => rfl⟩
  · rw [settle_with run url .eose rest (url :: run.closing)]
    obtain ⟨urls, deadlineAt, busy, done, results, sent⟩ := Later.settle run url .eose
    split <;> exact ⟨urls, deadlineAt, busy, done, results, sent⟩

theorem Sane.onclose (sane : run.Sane) (asked : url ∈ run.urls) (visited : url ∉ run.todo)
    (first : url ∉ run.closing → run.perRelay.get url = none → url ∉ run.sent) :
    (run.onclose url).Sane := by
  unfold Run.onclose
  split
  · exact sane
  · next other =>
    exact sane.settle asked visited fun unset =>
      iff_of_false (fun is => nomatch is) (first other unset)

theorem Later.onclose (run : Run) (url : String) : Later run (run.onclose url) := by
  unfold Run.onclose
  split
  · exact .refl run
  · exact .settle run url .closed

end Run

/-! ## What holds in every state -/

def Run.holds (run : Run) (entry : Nat) : Nat := if run.done then 0 else run.busy.count entry

namespace Path

structure Steady (path : Path) : Prop where
  runs : ∀ run ∈ path.runs, run.Sane ∧ (run.done = false → path.now ≤ run.deadlineAt)
  inflight : ∀ key index, path.inflight.get key = some index → index < path.runs.length
  cache : ∀ key result index, path.cache.get key = some (result, index) →
    ∃ run, path.runs[index]? = some run ∧ run.results.head? = some result
  calls : ∀ call ∈ path.calls, ∃ run, path.runs[call.run]? = some run ∧
    run.urls.Perm call.urls ∧
    (∀ result, call.hit = some result →
      ∃ own, run.results.head? = some own ∧ result = { own with fromCache := true }) ∧
    (call.hit = none → run.done = true ∨ run.deadlineAt ≤ call.deadlineAt)
  busy : ∀ entry, path.busy entry =
    path.others entry + (path.runs.map fun run => run.holds entry).sum

theorem sum_set {values : List Nat} {index old : Nat} (found : values[index]? = some old)
    (new : Nat) : (values.set index new).sum + old = values.sum + new := by
  induction values generalizing index with
  | nil => cases found
  | cons value rest ih =>
    cases index with
    | zero =>
      cases found
      simp only [List.set_cons_zero, List.sum_cons]
      omega
    | succ index =>
      have others := ih found
      simp only [List.set_cons_succ, List.sum_cons]
      omega

theorem restore_apply (entries : List Nat) (busy : Nat → Nat) (entry : Nat) :
    restore entries busy entry = busy entry - entries.count entry := by
  induction entries generalizing busy with
  | nil => rfl
  | cons first rest ih =>
    show restore rest _ entry = _
    rw [ih, List.count_cons]
    dsimp only
    rcases eq_or_ne entry first with rfl | apart
    · rw [Function.update_self]
      simp only [beq_self_eq_true, if_true]
      omega
    · rw [Function.update_of_ne apart]
      simp [apart.symm]

variable {path : Path} {index : Nat} {run : Run}

theorem Steady.change (steady : path.Steady) (found : path.runs[index]? = some run) {next : Run}
    (sane : next.Sane) (urls : next.urls = run.urls) (deadlineAt : next.deadlineAt = run.deadlineAt)
    (done : run.done = true → next.done = true)
    (results : ∀ result, run.results.head? = some result → next.results.head? = some result)
    {busy : Nat → Nat}
    (balance : ∀ entry, busy entry + run.holds entry = path.busy entry + next.holds entry) :
    Steady { path with runs := path.runs.set index next, busy := busy } := by
  have less := (List.getElem?_eq_some_iff.mp found).1
  have here : (path.runs.set index next)[index]? = some next := List.getElem?_set_self less
  have there : ∀ other, other ≠ index → (path.runs.set index next)[other]? = path.runs[other]? :=
    fun other apart => List.getElem?_set_ne apart.symm
  constructor
  · intro other among
    rcases List.mem_or_eq_of_mem_set among with old | rfl
    · exact steady.runs other old
    · refine ⟨sane, fun running => ?_⟩
      have before : run.done = false := by
        cases ended : run.done with
        | false => rfl
        | true => exact absurd (running.symm.trans (done ended)) Bool.false_ne_true
      exact deadlineAt ▸ (steady.runs run (List.mem_of_getElem? found)).2 before
  · intro key other entered
    have within := steady.inflight key other entered
    simpa using within
  · intro key result other cached
    obtain ⟨own, at_, is⟩ := steady.cache key result other cached
    rcases eq_or_ne other index with rfl | apart
    · rw [found] at at_
      cases at_
      exact ⟨next, here, results result is⟩
    · exact ⟨own, (there other apart).trans at_, is⟩
  · intro call among
    obtain ⟨own, at_, same, hit, soon⟩ := steady.calls call among
    rcases eq_or_ne call.run index with same_ | apart
    · rw [same_, found] at at_
      cases at_
      refine ⟨next, by rw [same_]; exact here, urls ▸ same, ?_, ?_⟩
      · intro result is
        obtain ⟨before, held, rfl⟩ := hit result is
        exact ⟨before, results before held, rfl⟩
      · intro none_
        exact (soon none_).imp done fun le => deadlineAt ▸ le
    · exact ⟨own, (there call.run apart).trans at_, same, hit, soon⟩
  · intro entry
    have total := @sum_set (path.runs.map fun run => run.holds entry) index (run.holds entry)
      (by rw [List.getElem?_map, found]; rfl) (next.holds entry)
    have old := steady.busy entry
    have now := balance entry
    dsimp only
    rw [List.map_set]
    omega

theorem Steady.alter (steady : path.Steady) (found : path.runs[index]? = some run)
    {change : Run → Run} (sane : (change run).Sane) (later : Run.Later run (change run)) :
    (path.alter index change).Steady := by
  unfold Path.alter
  rw [found]
  apply steady.change found sane later.urls later.deadlineAt later.done later.results
  intro entry
  have whole := steady.busy entry
  have part := @sum_set (path.runs.map fun run => run.holds entry) index (run.holds entry)
    (by rw [List.getElem?_map, found]; rfl) 0
  cases before : run.done with
  | true =>
    have after := later.done before
    simp [Run.holds, before, after]
  | false =>
    have own : run.holds entry = run.busy.count entry := by simp [Run.holds, before]
    rw [own] at part ⊢
    cases after : (change run).done with
    | false => simp [Run.holds, after, later.busy]
    | true =>
      have none_ : (change run).holds entry = 0 := by simp [Run.holds, after]
      simp only [Bool.not_false, Bool.and_true, if_true, restore_apply, later.busy]
      omega

end Path

/-- No call joins a query that may take longer or asks other relays, the relay layer does not
throw, and the first that a query hears of a relay's end is what the relay said first. -/
def Fair (host : Host) (defaultMaxWaitMs : Nat) (path : Path) : Move → Prop
  | .query spec => ∀ key urls, Path.keyed host spec = .ok (key, urls) →
      (∀ result index run, spec.mode = .cachedOk → path.cache.get key = some (result, index) →
        path.runs[index]? = some run → run.urls.Perm urls) ∧
      ∀ index run, path.inflight.get key = some index → path.runs[index]? = some run →
        run.urls.Perm urls ∧ (run.done = false →
          run.deadlineAt ≤ path.now + spec.maxWaitMs.getD defaultMaxWaitMs)
  | .threw index => ∀ run url, path.runs[index]? = some run → run.opening ≠ some (url, true)
  | .microtask index => ∀ run url rest, path.runs[index]? = some run →
      run.eoses = (url, false) :: rest → run.done = false → run.perRelay.get url = none →
        url ∈ run.sent
  | .tell index url (.eose true) => ∀ run, path.runs[index]? = some run → run.done = false →
      run.perRelay.get url = none ∨ run.perRelay.get url = some .eose
  | .tell index url .closed => ∀ run, path.runs[index]? = some run → run.done = false →
      run.perRelay.get url = none → url ∉ run.sent
  | _ => True

namespace Path

variable {host : Host} {defaultMaxWaitMs : Nat} {path next : Path}

theorem nodup_distinct (urls : List String) : (distinct urls).Nodup :=
  List.nodup_reverse.mpr (List.nodup_dedup _)

theorem keyed_nodup {spec : QuerySpec} {key : String} {urls : List String}
    (is : keyed host spec = .ok (key, urls)) : urls.Nodup := by
  unfold keyed at is
  cases normal : spec.relays.mapM host.normalizeURL with
  | error reason =>
    rw [normal] at is
    cases is
  | ok all =>
    rw [normal] at is
    cases named : queryKey host spec.identityId spec.relays spec.filters with
    | error reason =>
      rw [named] at is
      cases is
    | ok text =>
      rw [named] at is
      cases is
      exact nodup_distinct all

theorem Steady.query (steady : path.Steady) {spec : QuerySpec} {key : String} {urls : List String}
    (is : keyed host spec = .ok (key, urls))
    (fair : Fair host defaultMaxWaitMs path (.query spec)) :
    (path.query defaultMaxWaitMs spec key urls).Steady := by
  obtain ⟨hits, joins⟩ := fair key urls is
  unfold Path.query
  dsimp only
  split
  · next result index cached =>
    have stored : spec.mode = .cachedOk ∧ path.cache.get key = some (result, index) := by
      by_cases ok : spec.mode = .cachedOk
      · rw [if_pos ok] at cached
        exact ⟨ok, cached⟩
      · rw [if_neg ok] at cached
        cases cached
    obtain ⟨run, found, own⟩ := steady.cache key result index stored.2
    refine { steady with calls := ?_ }
    intro call among
    rcases List.mem_append.mp among with old | new
    · exact steady.calls call old
    · rw [List.mem_singleton.mp new]
      refine ⟨run, found, hits result index run stored.1 stored.2 found, ?_, ?_⟩
      · intro other same
        exact ⟨result, own, (Option.some.inj same).symm⟩
      · intro none_
        cases none_
  · split
    · next index entered =>
      have less := steady.inflight key index entered
      have found := List.getElem?_eq_getElem less
      obtain ⟨same, soon⟩ := joins index _ entered found
      refine { steady with calls := ?_ }
      intro call among
      rcases List.mem_append.mp among with old | new
      · exact steady.calls call old
      · rw [List.mem_singleton.mp new]
        refine ⟨_, found, same, fun _ none_ => (nomatch none_), fun _ => ?_⟩
        cases ended : path.runs[index].done with
        | true => exact .inl rfl
        | false => exact .inr (soon ended)
    · have grown : ∀ (other : Nat) (run : Run), path.runs[other]? = some run →
          (path.runs ++ [Run.begin key spec.mode urls
            (path.now + spec.maxWaitMs.getD defaultMaxWaitMs)])[other]? = some run := by
        intro other run found
        rw [List.getElem?_append_left (List.getElem?_eq_some_iff.mp found).1, found]
      obtain ⟨at_, own, idle⟩ := @Run.deadlineAt_begin key spec.mode urls
        (path.now + spec.maxWaitMs.getD defaultMaxWaitMs)
      constructor
      · intro run among
        rcases List.mem_append.mp among with old | new
        · exact steady.runs run old
        · rw [List.mem_singleton.mp new]
          refine ⟨.begin (keyed_nodup is), fun _ => ?_⟩
          rw [at_]
          exact Nat.le_add_right _ _
      · intro other index entered
        have less := steady.inflight other index entered
        rw [List.length_append]
        exact Nat.lt_add_right _ less
      · intro other result index cached
        obtain ⟨run, found, rest⟩ := steady.cache other result index cached
        exact ⟨run, grown index run found, rest⟩
      · intro call among
        rcases List.mem_append.mp among with old | new
        · obtain ⟨run, found, rest⟩ := steady.calls call old
          exact ⟨run, grown call.run run found, rest⟩
        · rw [List.mem_singleton.mp new]
          refine ⟨_, List.getElem?_concat_length, List.Perm.of_eq own,
            fun _ none_ => (nomatch none_), fun _ => .inr (Nat.le_of_eq at_)⟩
      · intro entry
        have none_ : (Run.begin key spec.mode urls
            (path.now + spec.maxWaitMs.getD defaultMaxWaitMs)).holds entry = 0 := by
          unfold Run.holds
          rw [idle]
          simp
        rw [List.map_append, List.sum_append, List.map_singleton, List.sum_singleton, none_]
        exact steady.busy entry

theorem Steady.visit (steady : path.Steady) {index : Nat} {run : Run}
    (found : path.runs[index]? = some run) {url : String} {rest : List String}
    (todo : run.todo = url :: rest) (entry : Nat) (up : Bool) :
    (({ path with busy := Function.update path.busy entry (path.busy entry + 1) } : Path).alter index
      fun run => run.visit url rest entry up).Steady := by
  have sane := (steady.runs run (List.mem_of_getElem? found)).1
  obtain ⟨same, at_, busy, done, results⟩ := Run.visit_keeps run url rest entry up
  have running := sane.running_of_todo todo
  unfold Path.alter
  dsimp only
  rw [found]
  dsimp only
  rw [done, Bool.and_not_self, if_neg Bool.false_ne_true]
  apply steady.change found (sane.visit todo entry up) same at_
  · exact fun ended => done.trans ended
  · exact fun result is => results ▸ is
  · intro other
    unfold Run.holds
    rw [done, busy, running, if_neg Bool.false_ne_true, if_neg Bool.false_ne_true, List.count_append]
    rcases eq_or_ne other entry with rfl | apart
    · rw [Function.update_self, List.count_singleton_self]
      omega
    · rw [Function.update_of_ne apart, List.count_singleton]
      simp [apart.symm]

theorem Steady.step (steady : path.Steady) {move : Move}
    (fair : Fair host defaultMaxWaitMs path move)
    (stepped : path.step host defaultMaxWaitMs move = some next) : next.Steady := by
  have sane : ∀ {index : Nat} {run : Run}, path.runs[index]? = some run → run.Sane :=
    fun found => (steady.runs _ (List.mem_of_getElem? found)).1
  cases move with
  | query spec =>
    unfold Path.step at stepped
    dsimp only at stepped
    cases is : keyed host spec with
    | error reason =>
      rw [is] at stepped
      cases stepped
    | ok both =>
      rw [is] at stepped
      cases stepped
      exact steady.query is fair
  | ensure index entry =>
    obtain ⟨run, found, rest⟩ := Option.bind_eq_some_iff.mp stepped
    obtain ⟨_, -, rest⟩ := Option.bind_eq_some_iff.mp rest
    cases todo : run.todo with
    | nil =>
      rw [todo] at rest
      cases entry <;> cases rest
    | cons url others =>
      rw [todo] at rest
      cases entry with
      | none =>
        cases rest
        obtain ⟨popped, fresh⟩ := (sane found).pop todo run.busy
        obtain ⟨known, unset, -, unissued⟩ :=
          (sane found).unseen url (todo ▸ List.mem_cons_self)
        have silent := (sane found).unsent unset unissued
        apply steady.alter found
        · exact popped.settle known fresh fun _ => iff_of_false (fun is => nomatch is) silent
        · have first : Run.Later run { run with todo := others } :=
            ⟨rfl, rfl, rfl, id, fun _ => id, fun _ => rfl⟩
          exact first.trans (.settle _ url .unreachable)
      | some socket =>
        cases rest
        exact steady.visit found todo socket.1 socket.2
  | enter index =>
    obtain ⟨run, found, rest⟩ := Option.bind_eq_some_iff.mp stepped
    obtain ⟨_, -, rest⟩ := Option.bind_eq_some_iff.mp rest
    cases rest
    have altered : (path.alter index fun run => { run with entered := true }).Steady :=
      steady.alter found { sane found with } ⟨rfl, rfl, rfl, id, fun _ => id, fun _ => rfl⟩
    refine { altered with inflight := ?_ }
    intro key other entered
    dsimp only at entered
    rw [OrderedMap.get_set] at entered
    have counted : (path.alter index fun run => { run with entered := true }).runs.length =
        path.runs.length := by
      rw [Path.alter, found]
      exact List.length_set
    dsimp only
    rw [counted]
    split at entered
    · cases entered
      exact (List.getElem?_eq_some_iff.mp found).1
    · exact steady.inflight key other entered
  | connected index url =>
    obtain ⟨run, found, rest⟩ := Option.bind_eq_some_iff.mp stepped
    obtain ⟨_, guarded, rest⟩ := Option.bind_eq_some_iff.mp rest
    cases rest
    have holds : path.Quiet ∧ url ∈ run.waiting := by simpa using guarded
    obtain ⟨kept, known, fresh, waits⟩ := (sane found).awaited holds.2
    have first : Run.Later run { run with waiting := run.waiting.erase url } :=
      ⟨rfl, rfl, rfl, id, fun _ => id, fun _ => rfl⟩
    exact steady.alter found (kept.issue known fresh waits false) (first.trans (.issue _ url false))
  | unreachable index url =>
    obtain ⟨run, found, rest⟩ := Option.bind_eq_some_iff.mp stepped
    obtain ⟨_, guarded, rest⟩ := Option.bind_eq_some_iff.mp rest
    cases rest
    have holds : path.Quiet ∧ url ∈ run.waiting := by simpa using guarded
    obtain ⟨kept, known, fresh, -⟩ := (sane found).awaited holds.2
    have first : Run.Later run { run with waiting := run.waiting.erase url } :=
      ⟨rfl, rfl, rfl, id, fun _ => id, fun _ => rfl⟩
    apply steady.alter found _ (first.trans (.settle _ url .unreachable))
    exact kept.settle known fresh fun unset => iff_of_false (fun is => nomatch is)
      ((sane found).unsent unset ((sane found).idle url holds.2))
  | subscribed index =>
    obtain ⟨run, found, rest⟩ := Option.bind_eq_some_iff.mp stepped
    obtain ⟨opening, -, rest⟩ := Option.bind_eq_some_iff.mp rest
    cases rest
    exact steady.alter found (sane found).subscribed (.subscribed run opening.1)
  | threw index =>
    obtain ⟨run, found, rest⟩ := Option.bind_eq_some_iff.mp stepped
    obtain ⟨opening, here, rest⟩ := Option.bind_eq_some_iff.mp rest
    cases rest
    obtain ⟨url, looping⟩ := opening
    cases looping with
    | true => exact absurd here (fair run url found)
    | false =>
      exact steady.alter found { sane found with }
        ⟨rfl, rfl, rfl, id, fun _ => id, fun _ => rfl⟩
  | tell index url callback =>
    obtain ⟨run, found, rest⟩ := Option.bind_eq_some_iff.mp stepped
    obtain ⟨_, guarded, rest⟩ := Option.bind_eq_some_iff.mp rest
    cases rest
    have issued : url ∈ run.issued := by simpa using guarded
    have known := (sane found).issued url issued
    have fresh : url ∉ run.todo := fun todo => ((sane found).unseen url todo).2.2.2 issued
    cases callback with
    | event event => exact steady.alter found ((sane found).onevent event) (.onevent run event)
    | eose genuine =>
      have early : genuine = true → run.done = false →
          run.perRelay.get url = none ∨ run.perRelay.get url = some .eose := by
        rintro rfl running
        exact fair run found running
      exact steady.alter found ((sane found).oneose issued early) (.oneose run url genuine)
    | closed =>
      have first : url ∉ run.closing → run.perRelay.get url = none → url ∉ run.sent := by
        intro _ unset
        apply fair run found _ unset
        by_contra ended
        have some_ := (sane found).settled (by simpa using ended) url known
        rw [unset] at some_
        cases some_
      exact steady.alter found ((sane found).onclose known fresh first) (.onclose run url)
  | microtask index =>
    obtain ⟨run, found, rest⟩ := Option.bind_eq_some_iff.mp stepped
    obtain ⟨_, -, rest⟩ := Option.bind_eq_some_iff.mp rest
    cases waits : run.eoses with
    | nil =>
      rw [waits] at rest
      cases rest
    | cons first others =>
      rw [waits] at rest
      cases rest
      obtain ⟨url, genuine⟩ := first
      have issued := (sane found).queued (url, genuine) (waits ▸ List.mem_cons_self)
      have fresh : url ∉ run.todo := fun todo => ((sane found).unseen url todo).2.2.2 issued
      have sent : run.done = false → run.perRelay.get url = none → url ∈ run.sent := by
        intro running unset
        cases genuine with
        | true => exact (sane found).heard running url (waits ▸ List.mem_cons_self)
        | false => exact fair run url others found waits running unset
      exact steady.alter found
        ((sane found).conclude waits ((sane found).issued url issued) fresh sent)
        (.conclude run url others)
  | deadline index =>
    obtain ⟨run, found, rest⟩ := Option.bind_eq_some_iff.mp stepped
    obtain ⟨_, guarded, rest⟩ := Option.bind_eq_some_iff.mp rest
    cases rest
    have holds : path.Idle ∧ run.done = false ∧ run.deadlineAt ≤ path.now := by simpa using guarded
    obtain ⟨⟨quiet, drained⟩, -, -⟩ := holds
    have among := List.mem_of_getElem? found
    have heard : run.done = false → ∀ url ∈ run.sent, run.perRelay.get url = some .eose := by
      intro _ url said
      rcases ((sane found).sent url said).2 with is | ⟨-, -, waits⟩
      · exact is
      · rw [drained run among] at waits
        cases waits
    exact steady.alter found ((sane found).finish (quiet run among).1 heard) (.finish run)
  | record index =>
    obtain ⟨run, found, rest⟩ := Option.bind_eq_some_iff.mp stepped
    obtain ⟨result, is, rest⟩ := Option.bind_eq_some_iff.mp rest
    obtain ⟨_, -, rest⟩ := Option.bind_eq_some_iff.mp rest
    cases rest
    have marked : Run.Sane { run with recorded := true } := { sane found with }
    have changed : Steady { path with
        runs := path.runs.set index { run with recorded := true }, busy := path.busy } :=
      steady.change found marked rfl rfl id (fun _ => id) fun _ => rfl
    refine { changed with inflight := ?_, cache := ?_ }
    · intro key other entered
      apply changed.inflight key other
      dsimp only [Path.record] at entered ⊢
      split at entered
      · rw [OrderedMap.get_delete] at entered
        split at entered
        · cases entered
        · exact entered
      · exact entered
    · intro key stored other cached
      dsimp only [Path.record] at cached
      split at cached
      · exact changed.cache key stored other cached
      · rw [OrderedMap.get_set] at cached
        split at cached
        · cases cached
          exact ⟨{ run with recorded := true },
            List.getElem?_set_self (List.getElem?_eq_some_iff.mp found).1, is⟩
        · exact changed.cache key stored other cached
  | drop key =>
    cases stepped
    refine { steady with cache := ?_ }
    intro other result index cached
    have before : path.cache.get other = some (result, index) := by
      have inside := cached
      rw [OrderedMap.get_delete] at inside
      split at inside
      · cases inside
      · exact inside
    exact steady.cache other result index before
  | borrow entry =>
    cases stepped
    refine { steady with busy := fun other => ?_ }
    have before := steady.busy other
    dsimp only
    rcases eq_or_ne other entry with rfl | apart
    · rw [Function.update_self, Function.update_self]
      omega
    · rw [Function.update_of_ne apart, Function.update_of_ne apart, before]
  | giveBack entry =>
    obtain ⟨_, guarded, rest⟩ := Option.bind_eq_some_iff.mp stepped
    cases rest
    have some_ : 0 < path.others entry := by simpa using guarded
    refine { steady with busy := fun other => ?_ }
    have before := steady.busy other
    dsimp only
    rcases eq_or_ne other entry with rfl | apart
    · rw [Function.update_self, Function.update_self]
      omega
    · rw [Function.update_of_ne apart, Function.update_of_ne apart, before]
  | advance now =>
    obtain ⟨_, guarded, rest⟩ := Option.bind_eq_some_iff.mp stepped
    cases rest
    have holds : path.Idle ∧ path.now ≤ now ∧
        ∀ run ∈ path.runs, run.done = false → now ≤ run.deadlineAt := by simpa using guarded
    refine { steady with runs := ?_ }
    exact fun run among => ⟨(steady.runs run among).1, holds.2.2 run among⟩

theorem Steady.initial : Path.initial.Steady := by
  constructor
  · exact fun run among => (nomatch among)
  · exact fun key index entered => (nomatch entered)
  · exact fun key result index cached => (nomatch cached)
  · exact fun call among => (nomatch among)
  · exact fun entry => rfl

end Path

/-! ## What callers get -/

/-- The relays that sent EOSE to the query whose result a call gets. -/
def Path.sentTo (path : Path) (call : Call) : List String :=
  (path.runs[call.run]?).elim [] Run.sent

/-- What a call of `query` is promised. -/
structure Promised (path : Path) (call : Call) : Prop where
  byDeadline : call.deadlineAt < path.now → (path.answer call).isSome
  outcomes : ∀ result, path.answer call = some result → result.perRelay.keys.Perm call.urls
  single : ∀ result, path.answer call = some result → (result.events.map Event.id).Nodup
  complete : ∀ result, path.answer call = some result →
    (result.complete = true ↔ ∀ url ∈ call.urls, url ∈ path.sentTo call)

structure Kept (path : Path) : Prop where
  once : ∀ run ∈ path.runs, run.rejected = false ∧
    run.results.length = if run.done then 1 else 0
  calls : ∀ call ∈ path.calls, Promised path call
  released : ∀ run ∈ path.runs, run.done = true → run.held = []
  restored : ∀ entry, path.busy entry =
    path.others entry + (path.runs.map fun run => run.holds entry).sum

theorem Run.Sane.result {run : Run} (sane : run.Sane) {result : QueryResult}
    (is : run.results.head? = some result) : result.perRelay.keys.Perm run.urls ∧
      (result.events.map Event.id).Nodup ∧
      (result.complete = true ↔ ∀ url ∈ run.urls, url ∈ run.sent) := by
  have results := sane.results
  cases ended : run.done with
  | false =>
    rw [ended] at results
    rw [results] at is
    cases is
  | true =>
    rw [ended] at results
    rw [results] at is
    cases is
    refine ⟨?_, sane.ids, ?_⟩
    · apply (List.perm_ext_iff_of_nodup run.perRelay.nodup sane.urls).mpr
      intro url
      exact OrderedMap.mem_keys.trans ⟨sane.known url, sane.settled ended url⟩
    · rw [List.all_eq_true]
      constructor
      · exact fun all url among => sane.proven url (of_decide_eq_true (all url among))
      · intro all url among
        rcases (sane.sent url (all url among)).2 with is | ⟨running, -⟩
        · exact decide_eq_true is
        · exact absurd (running.symm.trans ended) Bool.false_ne_true

theorem Path.Steady.promised {path : Path} (steady : path.Steady) {call : Call}
    (among : call ∈ path.calls) : Promised path call := by
  obtain ⟨run, found, same, hit, soon⟩ := steady.calls call among
  obtain ⟨sane, waits⟩ := steady.runs run (List.mem_of_getElem? found)
  have sent : path.sentTo call = run.sent := by
    rw [Path.sentTo, found]
    rfl
  -- What a call is answered with is the run's result, cached or not.
  have from_ : ∀ result, path.answer call = some result → ∃ own,
      run.results.head? = some own ∧ result.events = own.events ∧
        result.complete = own.complete ∧ result.perRelay = own.perRelay := by
    intro result is
    unfold Path.answer at is
    cases cached : call.hit with
    | some before =>
      rw [cached] at is
      cases is
      obtain ⟨own, held, rfl⟩ := hit _ cached
      exact ⟨own, held, rfl, rfl, rfl⟩
    | none =>
      rw [cached] at is
      dsimp only at is
      rw [found] at is
      exact ⟨result, is, rfl, rfl, rfl⟩
  constructor
  · intro late
    unfold Path.answer
    cases cached : call.hit with
    | some before => rfl
    | none =>
      dsimp only
      rw [found]
      have ended : run.done = true := by
        by_contra running
        have open_ : run.done = false := by simpa using running
        rcases soon cached with over_ | before
        · exact running over_
        · have := waits open_
          omega
      have results := sane.results
      rw [ended] at results
      rw [Option.bind_some, results]
      rfl
  · intro result is
    obtain ⟨own, held, -, -, perRelay⟩ := from_ result is
    exact perRelay ▸ (sane.result held).1.trans same
  · intro result is
    obtain ⟨own, held, events, -, -⟩ := from_ result is
    exact events ▸ (sane.result held).2.1
  · intro result is
    obtain ⟨own, held, -, complete, -⟩ := from_ result is
    rw [complete, sent, (sane.result held).2.2]
    exact forall_congr' fun url => imp_congr_left same.mem_iff

/-- Queries keep their promises in every run that is fair to them, and a publish keeps its own
just where every relay can be answered for and no report throws. -/
theorem queries_and_publishes (host : Host) (defaultMaxWaitMs : Nat) :
    (∀ path, Reaches (Path.step host defaultMaxWaitMs) (Fair host defaultMaxWaitMs) .initial path →
      Kept path) ∧
    ∀ (deps : Publish.Deps) (spec : Publish.PublishSpec) (order : List Nat),
      order.Perm (List.range (Publish.collect deps spec.relays []).length) →
        (Publish.Publishes deps spec (Publish.publishToRelays deps spec order) ↔
          ∀ task ∈ Publish.collect deps spec.relays [],
            task.Answerable deps spec ∧ task.Reported deps spec) := by
  refine ⟨fun path reaches => ?_, fun deps spec order all => Publish.publishes_iff all⟩
  have steady : path.Steady := reaches.invariant Path.Steady.initial
    fun state move next held fair stepped => held.step fair stepped
  constructor
  · intro run among
    obtain ⟨sane, -⟩ := steady.runs run among
    refine ⟨sane.kept, ?_⟩
    rw [sane.results]
    split <;> rfl
  · exact fun call among => steady.promised among
  · exact fun run among => (steady.runs run among).1.released
  · exact steady.busy

section Example

def within (maxWaitMs : Nat) : QuerySpec where
  identityId := "session"
  relays := ["wss://relay.example"]
  filters := [∅]
  maxWaitMs := some maxWaitMs
  mode := .fresh

theorem keyed_within (first second : Nat) : ∃ key,
    Path.keyed plainHost (within first) = .ok (key, ["wss://relay.example"]) ∧
      Path.keyed plainHost (within second) = .ok (key, ["wss://relay.example"]) :=
  ⟨_, rfl, rfl⟩

def oneRelay (onResult : Publish.PublishResult → Bool) : Publish.PublishSpec where
  relays := ["wss://relay.example"]
  kind := 1
  authMode := .policy
  onResult := some onResult

/-- Every relay takes the event. -/
def willing : Publish.Deps where
  normalizeURL := .ok
  meets := fun _ => ⟨.ok (), .ok (), false, ⟨none, false, none, false, none⟩, some (.ok ""), false,
    ⟨none, false, none, false, none⟩, none⟩

theorem step_query {path : Path} {spec : QuerySpec} {key : String} {urls : List String}
    (is : Path.keyed plainHost spec = .ok (key, urls)) :
    path.step plainHost 4000 (.query spec) = some (path.query 4000 spec key urls) := by
  unfold Path.step
  dsimp only
  rw [is]

theorem queries_and_publishes_oneRelay :
    (∃ path call, path.calls = [call] ∧ (path.answer call).isSome ∧ Kept path) ∧
      (Publish.Publishes willing (oneRelay fun _ => false)
          (Publish.publishToRelays willing (oneRelay fun _ => false) [0]) ↔
        ∀ task ∈ Publish.collect willing ["wss://relay.example"] [],
          task.Answerable willing (oneRelay fun _ => false) ∧
            task.Reported willing (oneRelay fun _ => false)) := by
  obtain ⟨key, is, -⟩ := keyed_within 1000 1000
  have asked : Reaches (Path.step plainHost 4000) (Fair plainHost 4000) .initial
      (Path.initial.query 4000 (within 1000) key ["wss://relay.example"]) := by
    apply Reaches.step (.query (within 1000)) .refl _ (step_query is)
    intro _ _ _
    exact ⟨fun _ _ _ _ cached => (nomatch cached), fun _ _ entered => (nomatch entered)⟩
  have answered := Reaches.step (Move.ensure 0 none) asked trivial rfl
  exact ⟨⟨_, _, rfl, rfl, (queries_and_publishes plainHost 4000).1 _ answered⟩,
    (queries_and_publishes plainHost 4000).2 willing (oneRelay fun _ => false) [0] (.refl _)⟩

/-- A call that joins a longer query is not answered at its own deadline, and a callback that
throws rejects the whole publish. -/
theorem longer_query_joined :
    (∃ path, Reaches (Path.step plainHost 4000) (fun _ _ => True) .initial path ∧
      ∃ call ∈ path.calls, call.deadlineAt < path.now ∧ path.answer call = none) ∧
    (Publish.publishToRelays willing (oneRelay fun _ => true) [0]).answer = some (.error ()) := by
  refine ⟨?_, rfl⟩
  obtain ⟨key, slow, quick⟩ := keyed_within 10000 1000
  have asked : Reaches (Path.step plainHost 4000) (fun _ _ => True) .initial
      (Path.initial.query 4000 (within 10000) key ["wss://relay.example"]) :=
    .step (.query (within 10000)) .refl trivial (step_query slow)
  have opening := Reaches.step (.ensure 0 (some (0, true))) asked trivial rfl
  have open_ := Reaches.step (.subscribed 0) opening trivial rfl
  have entered := Reaches.step (.enter 0) open_ trivial rfl
  have found : ∃ path run, Reaches (Path.step plainHost 4000) (fun _ _ => True) .initial path ∧
      path.now = 0 ∧ path.inflight.get key = some 0 ∧ path.runs = [run] ∧ run.todo = [] ∧
      run.opening = none ∧ run.entered = true ∧ run.eoses = [] ∧ run.deadlineAt = 10000 ∧
      run.results = [] := by
    refine ⟨_, _, entered, rfl, ?_, rfl, rfl, rfl, rfl, rfl, rfl, rfl⟩
    dsimp only
    rw [OrderedMap.get_set]
    exact if_pos rfl
  obtain ⟨path, run, reaches, now, inflight, runs, looped, idle, in_, drained, due, none_⟩ := found
  have joined := Reaches.step (.query (within 1000)) reaches trivial (step_query quick)
  have same : path.query 4000 (within 1000) key ["wss://relay.example"] = { path with
      calls := path.calls ++ [⟨["wss://relay.example"], 1000, 0, none⟩] } := by
    unfold Path.query
    simp [within, inflight, now]
  rw [same] at joined
  have waited : Path.step plainHost 4000 { path with
      calls := path.calls ++ [⟨["wss://relay.example"], 1000, 0, none⟩] } (.advance 5000) =
      some { path with
        now := 5000, calls := path.calls ++ [⟨["wss://relay.example"], 1000, 0, none⟩] } := by
    simp [Path.step, Path.Idle, Path.Quiet, runs, looped, idle, in_, drained, due, now]
  refine ⟨_, Reaches.step (.advance 5000) joined trivial waited, ⟨["wss://relay.example"], 1000, 0, none⟩,
    List.mem_append_right _ List.mem_cons_self, Nat.lt_of_sub_pos (by decide : 0 < 5000 - 1000), ?_⟩
  simp [Path.answer, runs, none_]

end Example

end NostrWot.Hub.Query

import Mathlib.Data.List.Perm.Basic

namespace NostrWot.Hub

inductive AuthState where
  | none
  | notRequired
  | challenged
  | signing
  | authenticated
  | refused
  | failed
  | stale
  deriving DecidableEq, Repr

namespace Publish

/-! # Publishing to relays

One result for each distinct relay, in the order of the spec, however each of them answers.
-/

inductive PublishStatus where
  | ok
  | rejected
  | timeout
  | unreachable
  deriving DecidableEq

structure PublishResult where
  url : String
  status : PublishStatus
  reason : Option String
  deriving DecidableEq

/-- What is thrown, or what a promise rejects with. -/
inductive Fault where
  | error (message : String)
  /-- No `Error`; `String(err)` may throw too. -/
  | other (text : Option String)
  deriving DecidableEq

/-- `none` where it throws. -/
def errorMessage : Fault → Option String
  | .error message => some message
  | .other text => text

inductive PublishAuthMode where
  | policy
  | never
  | authFirst
  deriving DecidableEq

structure PublishSpec where
  relays : List String
  kind : Int
  authMode : PublishAuthMode
  /-- Whether the callback throws at a result. -/
  onResult : Option (PublishResult → Bool)

def TIMEOUT_MARKER : String := "hub: publish ack timed out"

def AUTH_UNAVAILABLE : String := "hub: auth unavailable"

def isEphemeralKind (kind : Int) : Bool := 20000 ≤ kind && kind < 30000

/-- What the AUTH of a socket looks like when a publish needs it. -/
structure AuthView where
  state : Option AuthState
  /-- The record is of the socket's generation. -/
  current : Bool
  /-- How the record's verdict settles, if it has one; `none` where it never does. -/
  verdict : Option (Option Bool)
  onauth : Bool
  auth : Option Bool

/-- `none` where it never settles. -/
def awaitAuth (view : AuthView) : Option Bool :=
  if view.state = some .refused then some false
  else if view.state = some .authenticated ∧ view.current = true then some true
  else match view.verdict with
    | some verdict =>
      if view.state = some .signing ∨ view.state = some .challenged then verdict
      else if view.onauth then view.auth
      else some false
    | none => if view.onauth then view.auth else some false

/-- What one publish meets on its way. -/
structure Encounter where
  ensure : Except Fault Unit
  connected : Except Fault Unit
  /-- `relay.onauth` is set when an `auth-first` publish looks. -/
  onauth : Bool
  authFirst : AuthView
  /-- How the publish settles in time. -/
  first : Option (Except Fault String)
  /-- `relay.onauth` is set when the relay has asked for AUTH. -/
  onauthThen : Bool
  authThen : AuthView
  second : Option (Except Fault String)

def withTimeout (settled : Option (Except Fault String)) : Except Fault String :=
  settled.getD (.error (.error TIMEOUT_MARKER))

section PublishOne

variable (spec : PublishSpec) (url : String)

/-- A row with the text of what was thrown. -/
def failed (status : PublishStatus) (fault : Fault) : Except Unit PublishResult :=
  match errorMessage fault with
  | some message => .ok ⟨url, status, some message⟩
  | none => .error ()

def acked (reason : String) : PublishResult := ⟨url, .ok, if reason = "" then none else some reason⟩

/-- The publish after the relay has asked for AUTH and got it. -/
def retried (meets : Encounter) : Except Unit PublishResult :=
  match withTimeout meets.second with
  | .ok reason => .ok (acked url reason)
  | .error fault =>
    if errorMessage fault = some TIMEOUT_MARKER then .ok ⟨url, .timeout, none⟩
    else failed url .rejected fault

/-- A relay that answers `auth-required:` gets the AUTH it asks for, if the policy says so. -/
def asksAuth (meets : Encounter) (message : String) : Bool :=
  "auth-required:".toList.isPrefixOf message.toList && spec.authMode = .policy && meets.onauthThen

def attempted (meets : Encounter) : Option (Except Unit PublishResult) :=
  match withTimeout meets.first with
  | .ok reason => some (.ok (acked url reason))
  | .error fault =>
    match errorMessage fault with
    | none => some (.error ())
    | some message =>
      if message = TIMEOUT_MARKER then
        some (.ok (if isEphemeralKind spec.kind then ⟨url, .ok, some "no ack (ephemeral kind)"⟩
          else ⟨url, .timeout, none⟩))
      else if asksAuth spec meets message then
        (awaitAuth meets.authThen).map fun ok =>
          if ok then retried url meets else .ok ⟨url, .rejected, some message⟩
      else some (.ok ⟨url, .rejected, some message⟩)

def opened (meets : Encounter) : Option (Except Unit PublishResult) :=
  if spec.authMode = .authFirst then
    if meets.onauth then
      (awaitAuth meets.authFirst).bind fun ok =>
        if ok then attempted spec url meets
        else some (.ok ⟨url, .rejected, some AUTH_UNAVAILABLE⟩)
    else some (.ok ⟨url, .rejected, some AUTH_UNAVAILABLE⟩)
  else attempted spec url meets

/-- How the publish to one relay settles; `none` where it never does. -/
def publishOne (meets : Encounter) : Option (Except Unit PublishResult) :=
  match meets.ensure with
  | .error fault => some (failed url .unreachable fault)
  | .ok () =>
    match meets.connected with
    | .error fault => some (failed url .unreachable fault)
    | .ok () => opened spec url meets

end PublishOne

/-- One entry of `tasks`. -/
inductive Task where
  | invalid (raw reason : String)
  | relay (url : String)

def Task.url : Task → String
  | .invalid raw _ => raw
  | .relay url => url

/-- What the calls take from `nostr-tools` and meet at the relays. -/
structure Deps where
  /-- Its error is an `Error`. -/
  normalizeURL : String → Except String String
  meets : String → Encounter

variable (deps : Deps)

/-- What a relay of the spec counts as. -/
def Deps.label (raw : String) : String :=
  match deps.normalizeURL raw with
  | .ok url => url
  | .error _ => raw

def collect : List String → List String → List Task
  | [], _ => []
  | raw :: rest, seen =>
    match deps.normalizeURL raw with
    | .error reason =>
      if raw ∈ seen then collect rest seen
      else .invalid raw reason :: collect rest (raw :: seen)
    | .ok url =>
      if url ∈ seen then collect rest seen else .relay url :: collect rest (url :: seen)

def Task.outcome (spec : PublishSpec) : Task → Option (Except Unit PublishResult)
  | .invalid raw reason => some (.ok ⟨raw, .unreachable, some reason⟩)
  | .relay url => publishOne spec url (deps.meets url)

structure Publishing where
  rows : List (Option PublishResult)
  /-- What `onResult` has been called with. -/
  reports : List PublishResult
  /-- What `Promise.all` has settled with. -/
  answer : Option (Except Unit (List PublishResult))

def Publishing.initial (tasks : Nat) : Publishing where
  rows := List.replicate tasks none
  reports := []
  answer := if tasks = 0 then some (.ok []) else none

/-- The rejection of a task rejects `Promise.all`, unless that has settled. -/
def Publishing.reject (state : Publishing) : Publishing :=
  { state with answer := state.answer <|> some (.error ()) }

def Publishing.fulfil (state : Publishing) (index : Nat) (result : PublishResult) : Publishing :=
  let rows := state.rows.set index (some result)
  { state with
    rows := rows
    answer := state.answer <|>
      if rows.all Option.isSome then some (.ok (rows.filterMap id)) else none }

def Publishing.settle (onResult : Option (PublishResult → Bool)) (state : Publishing) (index : Nat) :
    Except Unit PublishResult → Publishing
  | .error () => state.reject
  | .ok result =>
    match onResult with
    | none => state.fulfil index result
    | some report =>
      let state := { state with reports := state.reports ++ [result] }
      if report result then state.reject else state.fulfil index result

def settleTask (spec : PublishSpec) (tasks : List Task) (state : Publishing) (index : Nat) :
    Publishing :=
  match tasks[index]?.bind (Task.outcome deps spec) with
  | some outcome => state.settle spec.onResult index outcome
  | none => state

def publishToRelays (spec : PublishSpec) (order : List Nat) : Publishing :=
  order.foldl (settleTask deps spec (collect deps spec.relays []))
    (.initial (collect deps spec.relays []).length)

/-! ## What a publish settles with -/

section Outcome

variable {deps : Deps} {spec : PublishSpec} {url : String} {meets : Encounter}

/-- The value has a text. -/
def Fault.Speaks (fault : Fault) : Prop := (errorMessage fault).isSome

/-- What an attempt waits for settles, and what it rejects with has a text. -/
def Attempted (spec : PublishSpec) (meets : Encounter) : Prop :=
  ∀ fault, withTimeout meets.first = .error fault → ∃ message, errorMessage fault = some message ∧
    (message ≠ TIMEOUT_MARKER → asksAuth spec meets message = true →
      ∃ ok, awaitAuth meets.authThen = some ok ∧
        (ok = true → ∀ other, withTimeout meets.second = .error other → other.Speaks))

def Opened (spec : PublishSpec) (meets : Encounter) : Prop :=
  (spec.authMode = .authFirst → meets.onauth = true →
    ∃ ok, awaitAuth meets.authFirst = some ok ∧ (ok = true → Attempted spec meets)) ∧
  (spec.authMode ≠ .authFirst → Attempted spec meets)

/-- What is thrown on the way has a text, and AUTH that is waited for settles. -/
structure Answerable (spec : PublishSpec) (meets : Encounter) : Prop where
  ensure : ∀ fault, meets.ensure = .error fault → fault.Speaks
  connected : meets.ensure = .ok () → ∀ fault, meets.connected = .error fault → fault.Speaks
  opened : meets.ensure = .ok () → meets.connected = .ok () → Opened spec meets

theorem failed_ok {status : PublishStatus} {fault : Fault} :
    (∃ result, failed url status fault = .ok result) ↔ fault.Speaks := by
  unfold failed Fault.Speaks
  cases errorMessage fault <;> simp

variable {result : PublishResult}

theorem failed_url {status : PublishStatus} {fault : Fault}
    (is : failed url status fault = .ok result) : result.url = url := by
  unfold failed at is
  cases said : errorMessage fault with
  | none => rw [said] at is; cases is
  | some message => rw [said] at is; cases is; rfl

theorem retried_ok : (∃ result, retried url meets = .ok result) ↔
    ∀ fault, withTimeout meets.second = .error fault → fault.Speaks := by
  unfold retried
  cases settled : withTimeout meets.second with
  | ok reason => simp
  | error fault =>
    by_cases late : errorMessage fault = some TIMEOUT_MARKER
    · simp [late, Fault.Speaks]
    · simp [late, failed_ok]

theorem retried_url (is : retried url meets = .ok result) :
    result.url = url := by
  unfold retried at is
  cases settled : withTimeout meets.second with
  | ok reason => rw [settled] at is; cases is; rfl
  | error fault =>
    rw [settled] at is
    dsimp only at is
    split at is
    · cases is
      rfl
    · exact failed_url is

theorem attempted_ok : (∃ result, attempted spec url meets = some (.ok result)) ↔
    Attempted spec meets := by
  unfold attempted Attempted
  cases settled : withTimeout meets.first with
  | ok reason => simp
  | error fault =>
    cases said : errorMessage fault with
    | none => simp [said]
    | some message =>
      by_cases late : message = TIMEOUT_MARKER
      · simp [said, late]
      · by_cases asks : asksAuth spec meets message = true
        · cases auth : awaitAuth meets.authThen with
          | none => simp [said, late, asks]
          | some ok =>
            cases ok with
            | false => simp [said, late, asks]
            | true => simpa [said, late, asks] using retried_ok
        · simp [said, late, asks]

theorem attempted_url (is : attempted spec url meets = some (.ok result)) : result.url = url := by
  unfold attempted at is
  split at is
  · cases is
    rfl
  · split at is
    · cases is
    · split at is
      · cases is
        split <;> rfl
      · split at is
        · obtain ⟨ok, -, tried⟩ := Option.map_eq_some_iff.mp is
          cases ok with
          | true => exact retried_url tried
          | false => cases tried; rfl
        · cases is
          rfl

theorem opened_ok : (∃ result, opened spec url meets = some (.ok result)) ↔ Opened spec meets := by
  unfold opened Opened
  by_cases early : spec.authMode = .authFirst
  · cases signer : meets.onauth with
    | false => simp [early]
    | true =>
      cases auth : awaitAuth meets.authFirst with
      | none => simp [early]
      | some ok =>
        cases ok with
        | false => simp [early]
        | true => simpa [early] using attempted_ok
  · simpa [early] using attempted_ok

theorem opened_url (is : opened spec url meets = some (.ok result)) :
    result.url = url := by
  unfold opened at is
  split at is
  · split at is
    · obtain ⟨ok, -, tried⟩ := Option.bind_eq_some_iff.mp is
      cases ok with
      | true => exact attempted_url tried
      | false => cases tried; rfl
    · cases is
      rfl
  · exact attempted_url is

theorem publishOne_ok : (∃ result, publishOne spec url meets = some (.ok result)) ↔
    Answerable spec meets := by
  unfold publishOne
  cases begun : meets.ensure with
  | error fault =>
    constructor
    · rintro ⟨result, is⟩
      have spoken : fault.Speaks := failed_ok.mp ⟨result, Option.some.inj is⟩
      constructor
      · intro other same
        rw [begun] at same
        cases same
        exact spoken
      · simp [begun]
      · simp [begun]
    · intro answerable
      obtain ⟨result, is⟩ := @failed_ok url .unreachable fault |>.mpr (answerable.ensure fault begun)
      exact ⟨result, congrArg some is⟩
  | ok _ =>
    cases up : meets.connected with
    | error fault =>
      constructor
      · rintro ⟨result, is⟩
        have spoken : fault.Speaks := failed_ok.mp ⟨result, Option.some.inj is⟩
        constructor
        · simp [begun]
        · intro _ other same
          rw [up] at same
          cases same
          exact spoken
        · simp [up]
      · intro answerable
        obtain ⟨result, is⟩ :=
          @failed_ok url .unreachable fault |>.mpr (answerable.connected begun fault up)
        exact ⟨result, congrArg some is⟩
    | ok _ =>
      refine opened_ok.trans ⟨fun opened => ?_, fun answerable => answerable.opened begun up⟩
      constructor
      · simp [begun]
      · simp [up]
      · exact fun _ _ => opened

theorem publishOne_url (is : publishOne spec url meets = some (.ok result)) : result.url = url := by
  unfold publishOne at is
  split at is
  · exact failed_url (Option.some.inj is)
  · split at is
    · exact failed_url (Option.some.inj is)
    · exact opened_url is

def Task.Answerable (deps : Deps) (spec : PublishSpec) : Task → Prop
  | .invalid _ _ => True
  | .relay url => Publish.Answerable spec (deps.meets url)

theorem Task.outcome_ok {task : Task} : (∃ result, task.outcome deps spec = some (.ok result)) ↔
    task.Answerable deps spec := by
  cases task with
  | invalid raw reason => exact ⟨fun _ => trivial, fun _ => ⟨_, rfl⟩⟩
  | relay url => exact publishOne_ok

theorem Task.outcome_url {task : Task} (is : task.outcome deps spec = some (.ok result)) :
    result.url = task.url := by
  cases task with
  | invalid raw reason => cases is; rfl
  | relay url => exact publishOne_url is

theorem collect_urls (relays seen : List String) : (collect deps relays seen).map Task.url =
    ((relays.map deps.label).filter (· ∉ seen)).eraseDups := by
  induction relays generalizing seen with
  | nil => rfl
  | cons raw rest ih =>
    have kept : ∀ label, label ∉ seen → label :: ((rest.map deps.label).filter
        (· ∉ label :: seen)).eraseDups = ((label :: rest.map deps.label).filter (· ∉ seen)).eraseDups := by
      intro label fresh
      have both : (rest.map deps.label).filter (fun other => other ∉ label :: seen) =
          ((rest.map deps.label).filter (· ∉ seen)).filter fun other => !other == label := by
        rw [List.filter_filter]
        apply List.filter_congr
        intro other _
        by_cases same : other = label <;> simp [same]
      rw [@List.filter_cons_of_pos _ (· ∉ seen) label _ (by simpa using fresh), List.eraseDups_cons, both]
    have left : ∀ label, label ∈ seen → ((label :: rest.map deps.label).filter (· ∉ seen)) =
        (rest.map deps.label).filter (· ∉ seen) := by
      intro label old
      exact List.filter_cons_of_neg (by simpa using old)
    unfold collect
    cases normal : deps.normalizeURL raw with
    | error reason =>
      have own : deps.label raw = raw := by rw [Deps.label, normal]
      rw [List.map_cons, own]
      by_cases old : raw ∈ seen
      · rw [left raw old, ← ih]
        simp [old]
      · rw [← kept raw old, ← ih]
        simp [old, Task.url]
    | ok url =>
      have own : deps.label raw = url := by rw [Deps.label, normal]
      rw [List.map_cons, own]
      by_cases old : url ∈ seen
      · rw [left url old, ← ih]
        simp [old]
      · rw [← kept url old, ← ih]
        simp [old, Task.url]

end Outcome

/-! ## What a call settles with -/

section Settling

variable {deps : Deps} {spec : PublishSpec}

/-- The callback does not throw at what the task comes to. -/
def Task.Reported (deps : Deps) (spec : PublishSpec) (task : Task) : Prop :=
  ∀ result, task.outcome deps spec = some (.ok result) → spec.onResult.any (· result) = false

structure Settled (deps : Deps) (spec : PublishSpec) (tasks : List Task) (state : Publishing) :
    Prop where
  length : state.rows.length = tasks.length
  rows : ∀ (index : Nat) (result : PublishResult), state.rows[index]? = some (some result) →
    ∃ task, tasks[index]? = some task ∧ task.outcome deps spec = some (.ok result) ∧
      spec.onResult.any (· result) = false
  answered : ∀ results, state.answer = some (.ok results) →
    state.rows.all Option.isSome = true

theorem Settled.step {tasks : List Task} {state : Publishing}
    (settled : Settled deps spec tasks state) (index : Nat) :
    Settled deps spec tasks (settleTask deps spec tasks state index) := by
  obtain ⟨length, rows, answered⟩ := settled
  have rejected : ∀ reports, Settled deps spec tasks
      ({ state with reports := reports } : Publishing).reject := by
    intro reports
    refine ⟨length, rows, fun results is => ?_⟩
    unfold Publishing.reject at is ⊢
    cases held : state.answer with
    | none => simp [held] at is
    | some answer => exact answered results (by simpa [held] using is)
  unfold settleTask
  cases found : tasks[index]?.bind (Task.outcome deps spec) with
  | none => exact ⟨length, rows, answered⟩
  | some outcome =>
    obtain ⟨task, here, is⟩ := Option.bind_eq_some_iff.mp found
    cases outcome with
    | error _ => exact rejected state.reports
    | ok result =>
      have fulfilled : ∀ reports, spec.onResult.any (· result) = false →
          Settled deps spec tasks
            (({ state with reports := reports } : Publishing).fulfil index result) := by
        intro reports quiet
        unfold Publishing.fulfil
        dsimp only
        refine ⟨by rw [List.length_set, length], ?_, ?_⟩
        · intro other row held
          rcases eq_or_ne index other with rfl | apart
          · rw [List.getElem?_set_self'] at held
            obtain ⟨_, _, same⟩ := Option.map_eq_some_iff.mp held
            cases same
            exact ⟨task, here, is, quiet⟩
          · rw [List.getElem?_set_ne apart] at held
            exact rows other row held
        · intro results answer
          cases before : state.answer with
          | none =>
            by_contra unfilled
            simp [before, unfilled] at answer
          | some old =>
            rw [before] at answer
            have full := answered results (by rw [before]; exact answer)
            rw [List.all_eq_true] at full ⊢
            intro row among
            rcases List.mem_or_eq_of_mem_set among with old | rfl
            · exact full row old
            · rfl
      unfold Publishing.settle
      cases report : spec.onResult with
      | none => exact fulfilled state.reports (by rw [report]; rfl)
      | some callback =>
        dsimp only
        cases throws : callback result with
        | true => exact rejected _
        | false => exact fulfilled _ (by rw [report]; exact throws)

theorem Settled.initial (tasks : List Task) :
    Settled deps spec tasks (.initial tasks.length) := by
  constructor
  · exact List.length_replicate
  · intro index result held
    rw [Publishing.initial, List.getElem?_replicate] at held
    split at held <;> cases held
  · intro results is
    unfold Publishing.initial at is ⊢
    dsimp only at is ⊢
    split at is
    · next none_ => simp [none_]
    · cases is

variable {results : List PublishResult}

theorem answered_tasks {order : List Nat}
    (is : (publishToRelays deps spec order).answer = some (.ok results)) :
    ∀ task ∈ collect deps spec.relays [], task.Answerable deps spec ∧ task.Reported deps spec := by
  have settled : Settled deps spec (collect deps spec.relays [])
      (publishToRelays deps spec order) := by
    have run : ∀ (indices : List Nat) (state : Publishing),
        Settled deps spec (collect deps spec.relays []) state →
          Settled deps spec (collect deps spec.relays [])
            (indices.foldl (settleTask deps spec (collect deps spec.relays [])) state) := by
      intro indices
      induction indices with
      | nil => exact fun _ settled => settled
      | cons index rest ih => exact fun state settled => ih _ (settled.step index)
    exact run order _ (.initial _)
  intro task among
  obtain ⟨index, found⟩ := List.getElem?_of_mem among
  have less : index < (publishToRelays deps spec order).rows.length := by
    rw [settled.length]
    exact (List.getElem?_eq_some_iff.mp found).1
  have full := List.all_eq_true.mp (settled.answered results is) _ (List.getElem_mem less)
  obtain ⟨row, filled⟩ := Option.isSome_iff_exists.mp full
  obtain ⟨own, here, fulfilled, quiet⟩ := settled.rows index row
    (by rw [List.getElem?_eq_getElem less, filled])
  cases found.symm.trans here
  refine ⟨Task.outcome_ok.mp ⟨row, fulfilled⟩, fun result same => ?_⟩
  cases fulfilled.symm.trans same
  exact quiet

structure Filling (tasks : List Task) (results : List PublishResult) (reported : Bool)
    (seen : List Nat) (state : Publishing) : Prop where
  rows : ∀ index < results.length,
    state.rows[index]? = some (if index ∈ seen then results[index]? else none)
  length : state.rows.length = results.length
  reports : reported = true → state.reports = seen.filterMap (results[·]?)
  answer : state.answer = none ∨ state.answer = some (.ok results)
  full : state.rows.all Option.isSome = true → state.answer = some (.ok results)

theorem rows_full {rows : List (Option PublishResult)} {seen : List Nat}
    (length : rows.length = results.length) (filled : ∀ index < results.length,
      rows[index]? = some (if index ∈ seen then results[index]? else none))
    (full : rows.all Option.isSome = true) : rows = results.map some := by
  apply List.ext_getElem?
  intro index
  rcases Nat.lt_or_ge index results.length with less | more
  · have here := filled index less
    have among := List.mem_of_getElem? here
    have held := List.all_eq_true.mp full _ among
    split at held
    · next inside =>
      rw [here, if_pos inside, List.getElem?_map, List.getElem?_eq_getElem less]
      rfl
    · cases held
  · rw [List.getElem?_eq_none (length ▸ more), List.getElem?_eq_none (by simpa using more)]

theorem Filling.step {tasks : List Task} {results : List PublishResult} {seen : List Nat}
    {state : Publishing}
    (fulfils : ∀ (index : Nat) (result : PublishResult), results[index]? = some result →
      tasks[index]?.bind (Task.outcome deps spec) = some (.ok result) ∧
        spec.onResult.any (· result) = false)
    (filling : Filling tasks results spec.onResult.isSome seen state) {index : Nat}
    (less : index < results.length) :
    Filling tasks results spec.onResult.isSome (seen ++ [index])
      (settleTask deps spec tasks state index) := by
  obtain ⟨rows, length, reports, answer, full⟩ := filling
  have here := List.getElem?_eq_getElem less
  obtain ⟨outcome, quiet⟩ := fulfils index _ here
  have filled : ∀ (told : List PublishResult),
      (spec.onResult.isSome = true → told = (seen ++ [index]).filterMap (results[·]?)) →
        Filling tasks results spec.onResult.isSome (seen ++ [index])
          (({ state with reports := told } : Publishing).fulfil index results[index]) := by
    intro told reported
    have set : ∀ other < results.length, (state.rows.set index (some results[index]))[other]? =
        some (if other ∈ seen ++ [index] then results[other]? else none) := by
      intro other within
      rcases eq_or_ne index other with rfl | apart
      · rw [List.getElem?_set_self (length ▸ less), if_pos (by simp), here]
      · rw [List.getElem?_set_ne apart, rows other within]
        simp [apart.symm]
    have size : (state.rows.set index (some results[index])).length = results.length := by
      rw [List.length_set, length]
    unfold Publishing.fulfil
    refine ⟨set, size, reported, ?_, ?_⟩
    · dsimp only
      rcases answer with none_ | ok
      · rw [none_]
        by_cases all : (state.rows.set index (some results[index])).all Option.isSome = true
        · right
          simp [rows_full size set all]
        · left
          simp [all]
      · right
        rw [ok]
        rfl
    · dsimp only
      intro all
      rcases answer with none_ | ok
      · simp [none_, rows_full size set all]
      · rw [ok]
        rfl
  unfold settleTask
  rw [outcome]
  unfold Publishing.settle
  cases callback : spec.onResult with
  | none =>
    rw [callback] at filled
    exact filled state.reports (fun some_ => nomatch some_)
  | some report =>
    rw [callback] at filled quiet reports
    have calm : report results[index] = false := quiet
    dsimp only
    rw [calm]
    apply filled
    intro _
    rw [reports rfl, List.filterMap_append, List.filterMap_cons, here]
    rfl

theorem Filling.run {tasks : List Task}
    (fulfils : ∀ (index : Nat) (result : PublishResult), results[index]? = some result →
      tasks[index]?.bind (Task.outcome deps spec) = some (.ok result) ∧
        spec.onResult.any (· result) = false) (order : List Nat) {seen : List Nat}
    {state : Publishing} (filling : Filling tasks results spec.onResult.isSome seen state)
    (within : ∀ index ∈ order, index < results.length) :
    Filling tasks results spec.onResult.isSome (seen ++ order)
      (order.foldl (settleTask deps spec tasks) state) := by
  induction order generalizing seen state with
  | nil => rwa [List.append_nil]
  | cons index rest ih =>
    have first := filling.step fulfils (within index List.mem_cons_self)
    have all := ih first fun other among => within other (List.mem_cons_of_mem _ among)
    rwa [List.append_assoc] at all

theorem exists_results {tasks : List Task}
    (good : ∀ task ∈ tasks, task.Answerable deps spec ∧ task.Reported deps spec) :
    ∃ results : List PublishResult, results.map PublishResult.url = tasks.map Task.url ∧
      ∀ (index : Nat) (result : PublishResult), results[index]? = some result →
        tasks[index]?.bind (Task.outcome deps spec) = some (.ok result) ∧
          spec.onResult.any (· result) = false := by
  induction tasks with
  | nil => exact ⟨[], rfl, fun index result held => (nomatch held)⟩
  | cons task rest ih =>
    obtain ⟨results, urls, each⟩ := ih fun other among => good other (List.mem_cons_of_mem _ among)
    obtain ⟨answerable, reported⟩ := good task List.mem_cons_self
    obtain ⟨result, is⟩ := Task.outcome_ok.mpr answerable
    refine ⟨result :: results, ?_, ?_⟩
    · rw [List.map_cons, List.map_cons, urls, Task.outcome_url is]
    · intro index
      cases index with
      | zero =>
        intro other held
        cases held
        exact ⟨is, reported _ is⟩
      | succ index => exact each index

theorem filterMap_range {α : Type} (values : List α) :
    (List.range values.length).filterMap (values[·]?) = values := by
  induction values with
  | nil => rfl
  | cons value rest ih =>
    rw [List.length_cons, List.range_succ_eq_map, List.filterMap_cons, List.filterMap_map]
    exact congrArg (value :: ·) ih

/-- What is promised of a call: a row for each distinct relay in order, each reported once. -/
def Publishes (deps : Deps) (spec : PublishSpec) (state : Publishing) : Prop :=
  ∃ results, state.answer = some (.ok results) ∧
    results.map PublishResult.url = (spec.relays.map deps.label).eraseDups ∧
    (spec.onResult.isSome = true → state.reports.Perm results)

theorem publishes_iff {order : List Nat}
    (all : order.Perm (List.range (collect deps spec.relays []).length)) :
    Publishes deps spec (publishToRelays deps spec order) ↔
      ∀ task ∈ collect deps spec.relays [], task.Answerable deps spec ∧
        task.Reported deps spec := by
  constructor
  · rintro ⟨results, is, -⟩
    exact answered_tasks is
  · intro good
    obtain ⟨results, urls, fulfils⟩ := exists_results good
    have count : results.length = (collect deps spec.relays []).length := by
      have both := congrArg List.length urls
      rwa [List.length_map, List.length_map] at both
    have start : Filling (collect deps spec.relays []) results spec.onResult.isSome []
        (.initial (collect deps spec.relays []).length) := by
      rw [← count]
      refine ⟨?_, List.length_replicate, fun _ => rfl, ?_, ?_⟩
      · intro index less
        rw [Publishing.initial, List.getElem?_replicate, if_pos less]
        simp
      · unfold Publishing.initial
        cases results with
        | nil => exact .inr rfl
        | cons _ _ => exact .inl rfl
      · unfold Publishing.initial
        cases results with
        | nil => exact fun _ => rfl
        | cons _ _ =>
          intro full
          simp [List.replicate_succ] at full
    have filled := Filling.run fulfils order start fun index among =>
      count ▸ List.mem_range.mp (all.mem_iff.mp among)
    rw [List.nil_append] at filled
    have full : (publishToRelays deps spec order).rows.all Option.isSome = true := by
      rw [List.all_eq_true]
      intro row among
      obtain ⟨index, held⟩ := List.getElem?_of_mem among
      have less : index < results.length := by
        rw [← filled.length]
        exact (List.getElem?_eq_some_iff.mp held).1
      have here := filled.rows index less
      rw [if_pos (all.mem_iff.mpr (List.mem_range.mpr (count ▸ less))),
        List.getElem?_eq_getElem less] at here
      cases held.symm.trans here
      rfl
    refine ⟨results, filled.full full, ?_, ?_⟩
    · rw [urls, collect_urls]
      congr 1
      exact List.filter_eq_self.mpr fun label _ => by simp
    · intro reported
      have told : (publishToRelays deps spec order).reports = order.filterMap (results[·]?) :=
        filled.reports reported
      rw [told]
      have each := all.filterMap (results[·]?)
      rw [← count] at each
      rwa [filterMap_range] at each

end Settling

end Publish

end NostrWot.Hub

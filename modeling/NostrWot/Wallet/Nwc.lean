import NostrWot.Data.Json
import NostrWot.Sync.Run
import NostrWot.Wallet.Types

namespace NostrWot.Wallet

open NostrWot.Data NostrWot.Sync

/-! # Wallet calls

One call of a wallet over a transport that may do anything: the query of the info event, the
subscription, the two timers and the publish race for one promise.
-/

/-- The keys of the connection, with the functions of the packages the client is built on; what
an encryption draws is one of its arguments. -/
structure NwcClient (Draw : Type) where
  walletPubkey : String
  clientPubkey : String
  nip44Encrypt : Draw → String → Except String String
  nip04Encrypt : Draw → String → Except String String
  nip44Decrypt : String → Option String
  nip04Decrypt : String → Option String
  jsonParse : String → Option Value
  verifyEvent : NostrEvent → Bool
  finalizeEvent : EventTemplate → Except String NostrEvent

inductive Job where
  | call (method message : String) (timeoutMs : Nat)
  | payInvoice (invoice : String) (timeoutMs : Nat)

namespace Job

def method : Job → String
  | .call method _ _ => method
  | .payInvoice _ _ => "pay_invoice"

def message : Job → String
  | .call _ message _ => message
  | .payInvoice invoice _ =>
    "\x7b\"method\":\"pay_invoice\",\"params\":\x7b\"invoice\":" ++
      String.ofList (Json.quote invoice.toList) ++ "\x7d\x7d"

def timeoutMs : Job → Nat
  | .call _ _ timeoutMs | .payInvoice _ timeoutMs => timeoutMs

end Job

/-- How the caller's promise settles; `raised` is an error that is no `NwcError`. -/
inductive Outcome where
  | resolved (value : Value)
  | paid (preimage : String) (feesPaidMsats : Option Number)
  | rejected (error : NwcError)
  | raised (reason : String)

def num : Value → Option Number
  | .number value => if value.isFinite then some value else none
  | _ => none

def isPreimage (text : String) : Bool :=
  text.toList.length = 64 && text.toList.all fun char =>
    ('0' ≤ char && char ≤ '9') || ('a' ≤ char && char ≤ 'f') || ('A' ≤ char && char ≤ 'F')

def Job.outcome (result : Value) : Job → Outcome
  | .call .. => .resolved result
  | .payInvoice .. =>
    match result.field "preimage" with
    | .text preimage =>
      if isPreimage preimage then .paid preimage (num (result.field "fees_paid"))
      else .rejected ⟨.failed, .unknown, none⟩
    | _ => .rejected ⟨.failed, .unknown, none⟩

variable {Draw : Type} (client : NwcClient Draw)

def encryptFor (scheme : NwcEncryption) (draw : Draw) (text : String) : Except String String :=
  match scheme with
  | .nip44_v2 => client.nip44Encrypt draw text
  | .nip04 => client.nip04Encrypt draw text

def decryptFrom (scheme : NwcEncryption) (data : String) : Option String :=
  match scheme with
  | .nip44_v2 => (client.nip44Decrypt data).orElse fun _ => client.nip04Decrypt data
  | .nip04 => (client.nip04Decrypt data).orElse fun _ => client.nip44Decrypt data

def createRequest (job : Job) (scheme : NwcEncryption) (createdAt : Int) (draw : Draw) :
    Except String NostrEvent := do
  let content ← encryptFor client scheme draw job.message
  client.finalizeEvent {
    kind := NWC_KINDS.request
    created_at := createdAt
    tags := [["p", client.walletPubkey],
      ["expiration", toString (createdAt + ((job.timeoutMs + 999) / 1000 : Nat))]] ++
      if scheme = .nip44_v2 then [["encryption", "nip44_v2"]] else []
    content := content }

/-- `fetchInfo`, of the events that the query gave; `none` when it failed. -/
def readInfo (events : Option (List NostrEvent)) : Except Outcome NwcInfo :=
  match events with
  | none => .error (.raised "query")
  | some events =>
    let known := events.filter fun event => event.pubkey = client.walletPubkey &&
      event.kind = NWC_KINDS.info && client.verifyEvent event
    match known.insertionSort fun left right => right.created_at ≤ left.created_at with
    | newest :: _ => .ok (parseNwcInfo newest)
    | [] => .error (.rejected ⟨.unreachable, .notPaid, none⟩)

/-! ## Answers -/

def concerns (request event : NostrEvent) : Bool :=
  event.pubkey = client.walletPubkey && event.kind = NWC_KINDS.response &&
    client.verifyEvent event && event.hasTag "p" client.clientPubkey &&
    event.hasTag "e" request.id

inductive Answer where
  | unreadable
  | error (code : String)
  | result (value : Value)

def readAnswer (method : String) (answer : Value) : Answer :=
  match answer, answer.field "result_type" with
  | .object _, .text type =>
    if type ≠ method then .unreadable
    else
      match answer.field "error" with
      | .undefined | .null =>
        match answer.field "result" with
        | .object fields => .result (.object fields)
        | _ => .unreadable
      | .object fields =>
        match (Value.object fields).field "code", (Value.object fields).field "message" with
        | .text code, .text _ => if code = "" then .unreadable else .error code
        | _, _ => .unreadable
      | _ => .unreadable
  | _, _ => .unreadable

def openAnswer (method : String) (scheme : NwcEncryption) (content : String) : Answer :=
  match (decryptFrom client scheme content).bind client.jsonParse with
  | some answer => readAnswer method answer
  | none => .unreadable

/-- What an event settles the call with, if anything. -/
def verdict (job : Job) (scheme : NwcEncryption) (request event : NostrEvent) : Option Outcome :=
  if concerns client request event then
    match openAnswer client job.method scheme event.content with
    | .unreadable => some (.rejected ⟨.failed, .unknown, none⟩)
    | .error code => some (.rejected ⟨codeForWalletError code, .notPaid, some code⟩)
    | .result value => some (job.outcome value)
  else none

/-! ## The call -/

inductive Stage where
  /-- `payInvoice` waits for the info event. -/
  | asking
  /-- `call` waits for it. -/
  | calling
  /-- The request is made, and is about to be subscribed for. -/
  | opening (scheme : NwcEncryption) (request : NostrEvent)
  | waiting (scheme : NwcEncryption) (request : NostrEvent)
  /-- Settled before a request was made. -/
  | finished

inductive Publishing where
  | idle
  | queued
  | waiting
  | answered
  deriving DecidableEq

structure CallState where
  stage : Stage
  settled : Bool := false
  sent : Bool := false
  sub : Bool := false
  readyTimer : Bool := false
  answerTimer : Bool := false
  /-- The microtasks that will `send`. -/
  sends : Nat := 0
  publishing : Publishing := .idle
  handed : Nat := 0
  /-- What `publish` resolved with. -/
  reached : Option Bool := none
  delivered : List NostrEvent := []
  outcomes : List Outcome := []

namespace CallState

def begun : Job → CallState
  | .call .. => { stage := .calling }
  | .payInvoice .. => { stage := .asking }

/-- `finish`; `throws` is whether closing the subscription would. -/
def finish (state : CallState) (throws : Bool) (outcome : Outcome) : CallState :=
  if state.settled then state
  else
    let closed := { state with settled := true, readyTimer := false, answerTimer := false }
    if state.sub && throws then closed
    else { closed with outcomes := state.outcomes ++ [outcome] }

def send (state : CallState) : CallState :=
  if state.sent || state.settled then state
  else { state with
    sent := true
    readyTimer := false
    answerTimer := true
    publishing := .queued }

end CallState

open CallState

def onAnswer (job : Job) (scheme : NwcEncryption) (request : NostrEvent) (throws : Bool)
    (state : CallState) (event : NostrEvent) : CallState :=
  let seen := { state with delivered := state.delivered ++ [event] }
  match verdict client job scheme request event with
  | some outcome => seen.finish throws outcome
  | none => seen

/-- What a transport calls while it subscribes. -/
inductive Callback where
  | event (event : NostrEvent)
  | ready

def callback (job : Job) (scheme : NwcEncryption) (request : NostrEvent) (state : CallState) :
    Callback → CallState
  | .event event => onAnswer client job scheme request false state event
  | .ready => { state with sends := state.sends + 1 }

inductive Move (Draw : Type) where
  | informed (events : Option (List NostrEvent))
  | called (events : Option (List NostrEvent)) (createdAt : Int) (draw : Draw)
  /-- `subscribe` calls back, and then returns or throws. -/
  | subscribed (callbacks : List Callback) (returned : Bool)
  | event (event : NostrEvent) (throws : Bool)
  | ready
  | readyTimeout
  | send
  | publish
  /-- `none` when it is rejected. -/
  | published (answer : Option Bool) (throws : Bool)
  | answerTimeout (throws : Bool)

def relayFailed (outcome : NwcOutcome) : Outcome := .rejected ⟨.relayFailed, outcome, none⟩

/-- The end of a call that has made no request. -/
def CallState.reject (state : CallState) (outcome : Outcome) : CallState :=
  { state with stage := .finished, outcomes := state.outcomes ++ [outcome] }

def step (job : Job) (state : CallState) : Move Draw → Option CallState
  | .informed events =>
    match state.stage with
    | .asking =>
      match readInfo client events with
      | .error outcome => some (state.reject outcome)
      | .ok info =>
        if canPay info then some { state with stage := .calling }
        else some (state.reject (.rejected ⟨.cannotPay, .notPaid, none⟩))
    | _ => none
  | .called events createdAt draw =>
    match state.stage with
    | .calling =>
      match readInfo client events with
      | .error outcome => some (state.reject outcome)
      | .ok info =>
        match createRequest client job (chooseEncryption info) createdAt draw with
        | .error reason => some (state.reject (.raised reason))
        | .ok request =>
          some { state with stage := .opening (chooseEncryption info) request }
    | _ => none
  | .subscribed callbacks returned =>
    match state.stage with
    | .opening scheme request =>
      let armed := { state with stage := .waiting scheme request, readyTimer := true }
      let called := callbacks.foldl (callback client job scheme request) armed
      if returned then some (if called.settled then called else { called with sub := true })
      else some (called.finish false (relayFailed .notPaid))
    | _ => none
  | .event event throws =>
    match state.stage with
    | .waiting scheme request => some (onAnswer client job scheme request throws state event)
    | _ => none
  | .ready =>
    match state.stage with
    | .waiting _ _ => some { state with sends := state.sends + 1 }
    | _ => none
  | .readyTimeout =>
    if state.readyTimer then some ({ state with readyTimer := false }.send) else none
  | .send => if 0 < state.sends then some ({ state with sends := state.sends - 1 }.send) else none
  | .publish =>
    match state.publishing with
    | .queued => some { state with publishing := .waiting, handed := state.handed + 1 }
    | _ => none
  | .published answer throws =>
    match state.publishing with
    | .waiting =>
      let answered := { state with publishing := .answered, reached := answer }
      match answer with
      | some true => some answered
      | some false => some (answered.finish throws (relayFailed .notPaid))
      | none => some (answered.finish throws (relayFailed .unknown))
    | _ => none
  | .answerTimeout throws =>
    if state.answerTimer then
      some ({ state with answerTimer := false }.finish throws
        (.rejected ⟨.timeout, .unknown, none⟩))
    else none

/-! ## What a call promises -/

def settles (job : Job) (state : CallState) : Move Draw → Bool
  | .event event _ =>
    match state.stage with
    | .waiting scheme request => (verdict client job scheme request event).isSome
    | _ => false
  | .published answer _ => answer ≠ some true
  | .answerTimeout _ => true
  | _ => false

def Move.throws : Move Draw → Bool
  | .event _ throws | .published _ throws | .answerTimeout throws => throws
  | _ => false

def Closes (job : Job) (state : CallState) (move : Move Draw) : Prop :=
  state.settled = false → state.sub = true → settles client job state move = true →
    move.throws = false

def Answers (job : Job) (state : CallState) (holds : Answer → Prop) : Prop :=
  ∃ scheme request, state.stage = .waiting scheme request ∧ ∃ event ∈ state.delivered,
    concerns client request event = true ∧
      holds (openAnswer client job.method scheme event.content)

def Grounded (job : Job) (state : CallState) : Outcome → Prop
  | .rejected error => error.outcome = .notPaid →
      state.handed = 0 ∨ state.reached = some false ∨
        Answers client job state fun answer => ∃ code, answer = .error code
  | .raised _ => state.handed = 0
  | outcome =>
    Answers client job state fun answer => ∃ value, answer = .result value ∧
      job.outcome value = outcome

/-- What the call still does by itself. -/
def CallState.rank (state : CallState) : Nat :=
  match state.stage with
  | .asking => 5
  | .calling => 4
  | .opening _ _ => 3
  | .waiting _ _ => (if state.readyTimer then 2 else 0) + if state.answerTimer then 1 else 0
  | .finished => 0

def Move.isOwn : Move Draw → Bool
  | .informed _ | .called .. | .subscribed .. | .readyTimeout | .answerTimeout _ => true
  | _ => false

/-- As `Grounded`, before it is known that nothing is sent later. -/
def Honest (job : Job) (scheme : NwcEncryption) (request : NostrEvent) (state : CallState) :
    Outcome → Prop
  | .rejected error => error.outcome = .notPaid →
      (state.sent = false ∧ state.settled = true) ∨ state.reached = some false ∨
        ∃ event ∈ state.delivered, concerns client request event = true ∧
          ∃ code, openAnswer client job.method scheme event.content = .error code
  | .raised _ => False
  | outcome =>
    ∃ event ∈ state.delivered, concerns client request event = true ∧
      ∃ value, openAnswer client job.method scheme event.content = .result value ∧
        job.outcome value = outcome

structure Waiting (job : Job) (scheme : NwcEncryption) (request : NostrEvent)
    (state : CallState) : Prop where
  stage : state.stage = .waiting scheme request
  unsettled : state.settled = false →
    state.outcomes = [] ∧ (state.sent = false → state.readyTimer = true) ∧
      (state.sent = true → state.answerTimer = true)
  settled : state.settled = true →
    state.outcomes.length = 1 ∧ state.readyTimer = false ∧ state.answerTimer = false
  unsent : state.sent = false → state.publishing = .idle ∧ state.answerTimer = false
  sent : state.sent = true → state.readyTimer = false
  before : state.publishing = .idle ∨ state.publishing = .queued → state.handed = 0
  after : state.publishing = .waiting ∨ state.publishing = .answered → state.handed = 1
  silent : state.publishing ≠ .answered → state.reached = none
  honest : ∀ outcome ∈ state.outcomes, Honest client job scheme request state outcome

inductive Sound (job : Job) : CallState → Prop
  | early (stage : Stage) (before : ∀ scheme request, stage ≠ .waiting scheme request)
      (open_ : stage ≠ .finished) : Sound job { stage := stage }
  | finished (outcome : Outcome) (failed : (∃ error, outcome = .rejected error) ∨
      ∃ reason, outcome = .raised reason) : Sound job { stage := .finished, outcomes := [outcome] }
  | waiting {state : CallState} (scheme : NwcEncryption) (request : NostrEvent)
      (waits : Waiting client job scheme request state) : Sound job state

variable {client} {job : Job} {scheme : NwcEncryption} {request : NostrEvent} {state next : CallState}

theorem Honest.mono {outcome : Outcome} (honest : Honest client job scheme request state outcome)
    (sent : state.sent = false → state.settled = true → next.sent = false ∧ next.settled = true)
    (reached : state.reached = some false → next.reached = some false)
    (delivered : ∀ event ∈ state.delivered, event ∈ next.delivered) :
    Honest client job scheme request next outcome := by
  cases outcome with
  | rejected error =>
    intro paid
    rcases honest paid with ⟨unsent, settled⟩ | unreached | ⟨event, held, concerned⟩
    · exact .inl (sent unsent settled)
    · exact .inr (.inl (reached unreached))
    · exact .inr (.inr ⟨event, delivered event held, concerned⟩)
  | raised reason => exact honest
  | resolved value =>
    obtain ⟨event, held, concerned⟩ := honest
    exact ⟨event, delivered event held, concerned⟩
  | paid preimage fees =>
    obtain ⟨event, held, concerned⟩ := honest
    exact ⟨event, delivered event held, concerned⟩

theorem Waiting.finish (waits : Waiting client job scheme request state) {throws : Bool}
    {outcome : Outcome} (closes : state.settled = false → state.sub = true → throws = false)
    (honest : Honest client job scheme request { state with settled := true } outcome) :
    Waiting client job scheme request (state.finish throws outcome) := by
  unfold CallState.finish
  cases settled : state.settled with
  | true => exact waits
  | false =>
    have quiet : (state.sub && throws) = false := by
      cases held : state.sub with
      | true => simp [closes settled held]
      | false => rfl
    simp only [quiet, Bool.false_eq_true, if_false]
    refine ⟨waits.stage, fun absurd => (nomatch absurd), fun _ => ⟨?_, rfl, rfl⟩,
      fun unsent => ⟨(waits.unsent unsent).1, rfl⟩, fun _ => rfl, waits.before, waits.after,
      waits.silent, fun other member => ?_⟩
    · rw [(waits.unsettled settled).1]
      rfl
    · rw [(waits.unsettled settled).1, List.nil_append, List.mem_singleton] at member
      rw [member]
      exact honest.mono (fun unsent _ => ⟨unsent, rfl⟩) id fun _ => id

theorem Waiting.send (waits : Waiting client job scheme request state) :
    Waiting client job scheme request state.send := by
  unfold CallState.send
  cases sent : state.sent with
  | true => exact waits
  | false =>
    cases settled : state.settled with
    | true => exact waits
    | false =>
      have idle := (waits.unsent sent).1
      have empty := (waits.unsettled settled).1
      simp only [Bool.or_self, Bool.false_eq_true, if_false]
      refine ⟨waits.stage, fun _ => ⟨empty, fun absurd => (nomatch absurd), fun _ => rfl⟩, ?_,
        fun absurd => (nomatch absurd), fun _ => rfl, fun _ => waits.before (.inl idle),
        fun absurd => ?_, fun _ => waits.silent (by rw [idle]; decide), ?_⟩
      · intro absurd
        contradiction
      · rcases absurd with absurd | absurd <;> contradiction
      · intro outcome member
        have member : outcome ∈ state.outcomes := member
        rw [empty] at member
        contradiction

theorem Waiting.queued (waits : Waiting client job scheme request state) (sends : Nat) :
    Waiting client job scheme request { state with sends := sends } :=
  ⟨waits.stage, waits.unsettled, waits.settled, waits.unsent, waits.sent, waits.before,
    waits.after, waits.silent, fun outcome member => (waits.honest outcome member).mono
      (fun unsent settled => ⟨unsent, settled⟩) id fun _ => id⟩

theorem Waiting.held (waits : Waiting client job scheme request state) :
    Waiting client job scheme request { state with sub := true } :=
  ⟨waits.stage, waits.unsettled, waits.settled, waits.unsent, waits.sent, waits.before,
    waits.after, waits.silent, fun outcome member => (waits.honest outcome member).mono
      (fun unsent settled => ⟨unsent, settled⟩) id fun _ => id⟩

variable {event : NostrEvent}

theorem verdict_honest {outcome : Outcome}
    (settles : verdict client job scheme request event = some outcome)
    (delivered : event ∈ state.delivered) : Honest client job scheme request state outcome := by
  unfold verdict at settles
  split at settles
  · rename_i concerned
    cases opened : openAnswer client job.method scheme event.content with
    | unreadable =>
      rw [opened] at settles
      cases settles
      exact fun absurd => nomatch absurd
    | error code =>
      rw [opened] at settles
      cases settles
      exact fun _ => .inr (.inr ⟨event, delivered, concerned, code, opened⟩)
    | result value =>
      rw [opened] at settles
      have is : job.outcome value = outcome := Option.some.inj settles
      have grounds : ∃ event ∈ state.delivered, concerns client request event = true ∧
          ∃ value, openAnswer client job.method scheme event.content = .result value ∧
            job.outcome value = outcome := ⟨event, delivered, concerned, value, opened, is⟩
      cases outcome with
      | resolved value => exact grounds
      | paid preimage fees => exact grounds
      | raised reason =>
        cases job with
        | call method message timeoutMs => contradiction
        | payInvoice invoice timeoutMs =>
          unfold Job.outcome at is
          dsimp only at is
          split at is
          · split at is <;> contradiction
          · contradiction
      | rejected error =>
        cases job with
        | call method message timeoutMs => contradiction
        | payInvoice invoice timeoutMs =>
          -- a result that is no receipt says nothing of what was paid
          have unknown : error.outcome = .unknown := by
            unfold Job.outcome at is
            dsimp only at is
            split at is
            · split at is
              · contradiction
              · cases is
                rfl
            · cases is
              rfl
          intro absurd
          rw [unknown] at absurd
          contradiction
  · contradiction

theorem Waiting.onAnswer (waits : Waiting client job scheme request state) {throws : Bool}
    (closes : state.settled = false → state.sub = true →
      (verdict client job scheme request event).isSome = true → throws = false) :
    Waiting client job scheme request (onAnswer client job scheme request throws state event) := by
  have seen : Waiting client job scheme request
      { state with delivered := state.delivered ++ [event] } :=
    ⟨waits.stage, waits.unsettled, waits.settled, waits.unsent, waits.sent, waits.before,
      waits.after, waits.silent, fun outcome member => (waits.honest outcome member).mono
        (fun unsent settled => ⟨unsent, settled⟩) id fun _ => List.mem_append_left _⟩
  unfold NostrWot.Wallet.onAnswer
  dsimp only
  cases settles : verdict client job scheme request event with
  | none => exact seen
  | some outcome =>
    rw [settles] at closes
    refine seen.finish (fun unsettled held => closes unsettled held rfl) ?_
    exact verdict_honest settles (List.mem_append_right _ List.mem_cons_self)

theorem finish_unheld {throws : Bool} {outcome : Outcome} :
    (state.finish throws outcome).sub = state.sub := by
  unfold CallState.finish
  dsimp only
  split
  · rfl
  · split <;> rfl

theorem callback_unheld (called : Callback) :
    (callback client job scheme request state called).sub = state.sub := by
  cases called with
  | ready => rfl
  | event event =>
    show (NostrWot.Wallet.onAnswer client job scheme request false state event).sub = _
    unfold NostrWot.Wallet.onAnswer
    dsimp only
    split
    · exact finish_unheld
    · rfl

theorem Waiting.callbacks (callbacks : List Callback) :
    ∀ state : CallState, Waiting client job scheme request state → state.sub = false →
      Waiting client job scheme request
        (callbacks.foldl (callback client job scheme request) state) := by
  induction callbacks with
  | nil => exact fun _ waits _ => waits
  | cons called rest ih =>
    intro state waits unheld
    refine ih _ ?_ ((callback_unheld called).trans unheld)
    cases called with
    | ready => exact waits.queued _
    | event event =>
      refine waits.onAnswer fun _ held => ?_
      rw [unheld] at held
      contradiction

theorem finish_sent {throws : Bool} {outcome : Outcome} :
    (state.finish throws outcome).sent = state.sent := by
  unfold CallState.finish
  dsimp only
  split
  · rfl
  · split <;> rfl

theorem callbacks_sent (callbacks : List Callback) : ∀ state : CallState,
    (callbacks.foldl (callback client job scheme request) state).sent = state.sent := by
  induction callbacks with
  | nil => exact fun _ => rfl
  | cons called rest ih =>
    intro state
    refine (ih _).trans ?_
    cases called with
    | ready => rfl
    | event event =>
      show (NostrWot.Wallet.onAnswer client job scheme request false state event).sent = _
      unfold NostrWot.Wallet.onAnswer
      dsimp only
      split
      · exact finish_sent
      · rfl

theorem Waiting.publish (waits : Waiting client job scheme request state)
    (queued : state.publishing = .queued) : Waiting client job scheme request
      { state with publishing := .waiting, handed := state.handed + 1 } := by
  have none := waits.before (.inr queued)
  have silent := waits.silent (by rw [queued]; decide)
  refine ⟨waits.stage, waits.unsettled, waits.settled, fun unsent => ?_, waits.sent, fun absurd => ?_,
    fun _ => ?_, fun _ => silent, fun outcome member => (waits.honest outcome member).mono
      (fun unsent settled => ⟨unsent, settled⟩) id fun _ => id⟩
  · have idle := (waits.unsent unsent).1
    rw [queued] at idle
    contradiction
  · rcases absurd with absurd | absurd <;> contradiction
  · show state.handed + 1 = 1
    omega

theorem Waiting.published (waits : Waiting client job scheme request state)
    (handed : state.publishing = .waiting) (answer : Option Bool) :
    Waiting client job scheme request
      { state with publishing := .answered, reached := answer } := by
  have silent := waits.silent (by rw [handed]; decide)
  refine ⟨waits.stage, waits.unsettled, waits.settled, fun unsent => ?_, waits.sent, fun absurd => ?_,
    fun _ => waits.after (.inl handed), fun absurd => (absurd rfl).elim,
    fun outcome member => (waits.honest outcome member).mono
      (fun unsent settled => ⟨unsent, settled⟩) (fun reached => ?_) fun _ => id⟩
  · have idle := (waits.unsent unsent).1
    rw [handed] at idle
    contradiction
  · rcases absurd with absurd | absurd <;> contradiction
  · rw [silent] at reached
    contradiction

theorem readInfo_error {events : Option (List NostrEvent)} {outcome : Outcome}
    (failed : readInfo client events = .error outcome) :
    (∃ error, outcome = .rejected error) ∨ ∃ reason, outcome = .raised reason := by
  unfold readInfo at failed
  split at failed
  · cases failed
    exact .inr ⟨_, rfl⟩
  · dsimp only at failed
    split at failed
    · contradiction
    · cases failed
      exact .inl ⟨_, rfl⟩

/-- A state before the wait is the one it began as, but for its stage. -/
theorem Sound.before (sound : Sound client job state) (early : state.stage ≠ .finished)
    (before : ∀ scheme request, state.stage ≠ .waiting scheme request) :
    state = { stage := state.stage } := by
  cases sound with
  | early stage _ _ => rfl
  | finished outcome failed => exact absurd rfl early
  | waiting scheme request waits => exact absurd waits.stage (before scheme request)

theorem Sound.waits (sound : Sound client job state) (waiting : state.stage = .waiting scheme request) :
    Waiting client job scheme request state := by
  cases sound with
  | early stage before _ => exact absurd waiting (before scheme request)
  | finished outcome failed => contradiction
  | waiting other also waits =>
    have same := waits.stage
    rw [waiting] at same
    cases same
    exact waits

theorem Sound.busy (sound : Sound client job state)
    (busy : state.readyTimer = true ∨ state.answerTimer = true ∨ 0 < state.sends ∨
      state.publishing ≠ .idle) : ∃ scheme request, Waiting client job scheme request state := by
  cases sound with
  | early stage _ _ => simp at busy
  | finished outcome failed => simp at busy
  | waiting scheme request waits => exact ⟨scheme, request, waits⟩

theorem opened_waits : Waiting client job scheme request
    { stage := .waiting scheme request, readyTimer := true } :=
  ⟨rfl, fun _ => ⟨rfl, fun _ => rfl, fun absurd => (nomatch absurd)⟩,
    fun absurd => (nomatch absurd), fun _ => ⟨rfl, rfl⟩, fun absurd => (nomatch absurd),
    fun _ => rfl, fun absurd => by rcases absurd with absurd | absurd <;> contradiction,
    fun _ => rfl, fun _ absurd => (nomatch absurd)⟩

theorem rejected_sound {stage : Stage} {outcome : Outcome}
    (failed : (∃ error, outcome = .rejected error) ∨ ∃ reason, outcome = .raised reason) :
    Sound client job (({ stage := stage } : CallState).reject outcome) :=
  .finished outcome failed

theorem settles_event (waiting : state.stage = .waiting scheme request) {throws : Bool} :
    settles client job state (.event event throws) =
      (verdict client job scheme request event).isSome := by
  unfold settles
  rw [waiting]

variable {move : Move Draw}

theorem sound_step (sound : Sound client job state) (closes : Closes client job state move)
    (moved : step client job state move = some next) :
    Sound client job next := by
  cases move with
  | informed events =>
    simp only [step] at moved
    split at moved
    · rename_i asking
      have fresh := sound.before (by rw [asking]; exact Stage.noConfusion)
        fun _ _ => by rw [asking]; exact Stage.noConfusion
      rw [fresh] at moved
      split at moved
      · rename_i outcome failed
        cases moved
        exact rejected_sound (readInfo_error failed)
      · split at moved
        · cases moved
          exact .early .calling (fun _ _ => Stage.noConfusion) Stage.noConfusion
        · cases moved
          exact rejected_sound (.inl ⟨_, rfl⟩)
    · contradiction
  | called events createdAt draw =>
    simp only [step] at moved
    split at moved
    · rename_i calling
      have fresh := sound.before (by rw [calling]; exact Stage.noConfusion)
        fun _ _ => by rw [calling]; exact Stage.noConfusion
      rw [fresh] at moved
      split at moved
      · rename_i outcome failed
        cases moved
        exact rejected_sound (readInfo_error failed)
      · split at moved
        · cases moved
          exact rejected_sound (.inr ⟨_, rfl⟩)
        · cases moved
          exact .early (.opening _ _) (fun _ _ => Stage.noConfusion) Stage.noConfusion
    · contradiction
  | subscribed callbacks returned =>
    simp only [step] at moved
    split at moved
    · rename_i scheme request opening
      have fresh := sound.before (by rw [opening]; exact Stage.noConfusion)
        fun _ _ => by rw [opening]; exact Stage.noConfusion
      rw [fresh] at moved
      have called := @Waiting.callbacks _ client job scheme request callbacks _
        (@opened_waits _ client job scheme request) rfl
      split at moved
      · cases moved
        split
        · exact .waiting scheme request called
        · exact .waiting scheme request called.held
      · cases moved
        refine .waiting scheme request (called.finish (fun _ _ => rfl) fun _ => .inl ⟨?_, rfl⟩)
        exact callbacks_sent callbacks _
    · contradiction
  | event event throws =>
    simp only [step] at moved
    split at moved
    · rename_i scheme request waiting
      cases moved
      have waits := sound.waits waiting
      refine .waiting scheme request (waits.onAnswer fun unsettled held settles => ?_)
      refine closes unsettled held ?_
      rw [settles_event waiting]
      exact settles
    · contradiction
  | ready =>
    simp only [step] at moved
    split at moved
    · rename_i scheme request waiting
      cases moved
      exact .waiting scheme request ((sound.waits waiting).queued _)
    · contradiction
  | readyTimeout =>
    simp only [step] at moved
    split at moved
    · rename_i armed
      cases moved
      obtain ⟨scheme, request, waits⟩ := sound.busy (.inl armed)
      have unsent : state.sent = false := by
        by_contra sent
        have off := waits.sent (Bool.eq_true_of_not_eq_false sent)
        rw [armed] at off
        contradiction
      have unsettled : state.settled = false := by
        by_contra settled
        have off := (waits.settled (Bool.eq_true_of_not_eq_false settled)).2.1
        rw [armed] at off
        contradiction
      have same : ({ state with readyTimer := false } : CallState).send = state.send := by
        unfold CallState.send
        simp only [unsent, unsettled, Bool.or_self, Bool.false_eq_true, if_false]
      rw [same]
      exact .waiting scheme request waits.send
    · contradiction
  | send =>
    simp only [step] at moved
    split at moved
    · rename_i queued
      cases moved
      obtain ⟨scheme, request, waits⟩ := sound.busy (.inr (.inr (.inl queued)))
      exact .waiting scheme request (waits.queued _).send
    · contradiction
  | publish =>
    simp only [step] at moved
    split at moved
    · rename_i queued
      cases moved
      obtain ⟨scheme, request, waits⟩ := sound.busy (.inr (.inr (.inr (by rw [queued]; decide))))
      exact .waiting scheme request (waits.publish queued)
    · contradiction
  | published answer throws =>
    simp only [step] at moved
    split at moved
    · rename_i handed
      obtain ⟨scheme, request, waits⟩ := sound.busy (.inr (.inr (.inr (by rw [handed]; decide))))
      have answered := waits.published handed answer
      split at moved
      · cases moved
        exact .waiting scheme request answered
      · cases moved
        exact .waiting scheme request (answered.finish
          (fun unsettled held => closes unsettled held rfl) fun _ => .inr (.inl rfl))
      · cases moved
        exact .waiting scheme request (answered.finish
          (fun unsettled held => closes unsettled held rfl) fun absurd => (nomatch absurd))
    · contradiction
  | answerTimeout throws =>
    simp only [step] at moved
    split at moved
    · rename_i armed
      cases moved
      obtain ⟨scheme, request, waits⟩ := sound.busy (.inr (.inl armed))
      have unsettled : state.settled = false := by
        by_contra settled
        have off := (waits.settled (Bool.eq_true_of_not_eq_false settled)).2.2
        rw [armed] at off
        contradiction
      have same : ({ state with answerTimer := false } : CallState).finish throws
          (.rejected ⟨.timeout, .unknown, none⟩) =
            state.finish throws (.rejected ⟨.timeout, .unknown, none⟩) := by
        unfold CallState.finish
        simp only [unsettled, Bool.false_eq_true, if_false]
      rw [same]
      exact .waiting scheme request (waits.finish
        (fun unsettled held => closes unsettled held rfl) fun absurd => (nomatch absurd))
    · contradiction

/-! ## Rank -/

theorem finish_rank {throws : Bool} {outcome : Outcome} :
    (state.finish throws outcome).rank ≤ state.rank := by
  unfold CallState.finish
  dsimp only
  split
  · exact Nat.le_refl _
  · split
    all_goals
      unfold CallState.rank
      dsimp only
      split <;> simp

theorem onAnswer_rank {throws : Bool} :
    (onAnswer client job scheme request throws state event).rank ≤ state.rank := by
  unfold NostrWot.Wallet.onAnswer
  dsimp only
  split
  · exact finish_rank
  · exact Nat.le_refl _

theorem callbacks_rank (callbacks : List Callback) : ∀ state : CallState,
    (callbacks.foldl (callback client job scheme request) state).rank ≤ state.rank := by
  induction callbacks with
  | nil => exact fun _ => Nat.le_refl _
  | cons called rest ih =>
    intro state
    refine Nat.le_trans (ih _) ?_
    cases called with
    | ready => exact Nat.le_refl _
    | event event => exact onAnswer_rank

theorem Waiting.send_rank (waits : Waiting client job scheme request state) :
    state.send.rank ≤ state.rank := by
  unfold CallState.send
  cases sent : state.sent with
  | true => exact Nat.le_refl _
  | false =>
    cases settled : state.settled with
    | true => exact Nat.le_refl _
    | false =>
      have armed := (waits.unsettled settled).2.1 sent
      simp only [Bool.or_self, Bool.false_eq_true, if_false]
      unfold CallState.rank
      simp only [waits.stage, armed]
      cases state.answerTimer <;> simp

theorem rank_step (sound : Sound client job state)
    (moved : step client job state move = some next) :
    next.rank ≤ state.rank ∧ (move.isOwn = true → next.rank < state.rank) := by
  have own : next.rank < state.rank →
      next.rank ≤ state.rank ∧ (move.isOwn = true → next.rank < state.rank) :=
    fun less => ⟨Nat.le_of_lt less, fun _ => less⟩
  cases move with
  | informed events =>
    simp only [step] at moved
    split at moved
    · rename_i asking
      have rank : state.rank = 5 := by
        unfold CallState.rank
        rw [asking]
      refine own ?_
      rw [rank]
      split at moved
      · cases moved
        exact Nat.zero_lt_succ _
      · split at moved
        · cases moved
          exact Nat.lt_succ_self 4
        · cases moved
          exact Nat.zero_lt_succ _
    · contradiction
  | called events createdAt draw =>
    simp only [step] at moved
    split at moved
    · rename_i calling
      have rank : state.rank = 4 := by
        unfold CallState.rank
        rw [calling]
      refine own ?_
      rw [rank]
      split at moved
      · cases moved
        exact Nat.zero_lt_succ _
      · split at moved
        · cases moved
          exact Nat.zero_lt_succ _
        · cases moved
          exact Nat.lt_succ_self 3
    · contradiction
  | subscribed callbacks returned =>
    simp only [step] at moved
    split at moved
    · rename_i scheme request opening
      have rank : state.rank = 3 := by
        unfold CallState.rank
        rw [opening]
      have fresh := sound.before (by rw [opening]; exact Stage.noConfusion)
        fun _ _ => by rw [opening]; exact Stage.noConfusion
      rw [fresh] at moved
      have called := @callbacks_rank _ client job scheme request callbacks
        { stage := .waiting scheme request, readyTimer := true }
      have two : ({ stage := .waiting scheme request, readyTimer := true } : CallState).rank = 2 :=
        rfl
      generalize callbacks.foldl _ _ = called_ at called moved
      have finished := @finish_rank called_ false (relayFailed .notPaid)
      have held : ({ called_ with sub := true } : CallState).rank = called_.rank := rfl
      refine own ?_
      split at moved
      · have moved := Option.some.inj moved
        split at moved
        · rw [← moved]
          omega
        · rw [← moved]
          omega
      · have moved := Option.some.inj moved
        rw [← moved]
        omega
    · contradiction
  | event event throws =>
    simp only [step] at moved
    split at moved
    · cases moved
      exact ⟨onAnswer_rank, fun absurd => nomatch absurd⟩
    · contradiction
  | ready =>
    simp only [step] at moved
    split at moved
    · cases moved
      exact ⟨Nat.le_refl _, fun absurd => nomatch absurd⟩
    · contradiction
  | readyTimeout =>
    simp only [step] at moved
    split at moved
    · rename_i armed
      cases moved
      obtain ⟨scheme, request, waits⟩ := sound.busy (.inl armed)
      have unsettled : state.settled = false := by
        by_contra settled
        have off := (waits.settled (Bool.eq_true_of_not_eq_false settled)).2.1
        rw [armed] at off
        contradiction
      have unsent : state.sent = false := by
        by_contra sent
        have off := waits.sent (Bool.eq_true_of_not_eq_false sent)
        rw [armed] at off
        contradiction
      have off := (waits.unsent unsent).2
      refine own ?_
      unfold CallState.send CallState.rank
      simp only [unsent, unsettled, Bool.or_self, Bool.false_eq_true, if_false, waits.stage, armed,
        off]
      decide
    · contradiction
  | send =>
    simp only [step] at moved
    split at moved
    · rename_i queued
      cases moved
      obtain ⟨scheme, request, waits⟩ := sound.busy (.inr (.inr (.inl queued)))
      exact ⟨(waits.queued _).send_rank, fun absurd => nomatch absurd⟩
    · contradiction
  | publish =>
    simp only [step] at moved
    split at moved
    · cases moved
      exact ⟨Nat.le_refl _, fun absurd => nomatch absurd⟩
    · contradiction
  | published answer throws =>
    simp only [step] at moved
    split at moved
    · split at moved
      · cases moved
        exact ⟨Nat.le_refl _, fun absurd => nomatch absurd⟩
      · cases moved
        exact ⟨finish_rank, fun absurd => nomatch absurd⟩
      · cases moved
        exact ⟨finish_rank, fun absurd => nomatch absurd⟩
    · contradiction
  | answerTimeout throws =>
    simp only [step] at moved
    split at moved
    · rename_i armed
      cases moved
      obtain ⟨scheme, request, waits⟩ := sound.busy (.inr (.inl armed))
      have finished := @finish_rank { state with answerTimer := false } throws
        (.rejected ⟨.timeout, .unknown, none⟩)
      refine own (Nat.lt_of_le_of_lt finished ?_)
      unfold CallState.rank
      simp only [waits.stage, armed]
      simp
    · contradiction

theorem begun_sound : Sound client job (begun job) := by
  cases job with
  | call method message timeoutMs =>
    exact .early .calling (fun _ _ => Stage.noConfusion) Stage.noConfusion
  | payInvoice invoice timeoutMs =>
    exact .early .asking (fun _ _ => Stage.noConfusion) Stage.noConfusion

theorem Sound.settled (sound : Sound client job state) :
    state.outcomes.length ≤ 1 ∧ (state.rank = 0 → state.outcomes.length = 1) := by
  cases sound with
  | early stage before open_ =>
    refine ⟨Nat.zero_le _, fun rest => ?_⟩
    cases stage with
    | asking => contradiction
    | calling => contradiction
    | opening scheme request => contradiction
    | waiting scheme request => exact absurd rfl (before scheme request)
    | finished => exact absurd rfl open_
  | finished outcome failed => exact ⟨Nat.le_refl _, fun _ => rfl⟩
  | waiting scheme request waits =>
    cases settled : state.settled with
    | true =>
      have one := (waits.settled settled).1
      exact ⟨by omega, fun _ => one⟩
    | false =>
      obtain ⟨empty, ready, answer⟩ := waits.unsettled settled
      refine ⟨by rw [empty]; exact Nat.zero_le _, fun rest => ?_⟩
      unfold CallState.rank at rest
      simp only [waits.stage] at rest
      cases sent : state.sent with
      | true => simp [answer sent] at rest
      | false => simp [ready sent] at rest

theorem Sound.handed (sound : Sound client job state) : state.handed ≤ 1 := by
  cases sound with
  | early stage before open_ => exact Nat.zero_le _
  | finished outcome failed => exact Nat.zero_le _
  | waiting scheme request waits =>
    cases publishing : state.publishing with
    | idle => exact Nat.le_of_eq (waits.before (.inl publishing)) |>.trans (Nat.zero_le _)
    | queued => exact Nat.le_of_eq (waits.before (.inr publishing)) |>.trans (Nat.zero_le _)
    | waiting => exact Nat.le_of_eq (waits.after (.inl publishing))
    | answered => exact Nat.le_of_eq (waits.after (.inr publishing))

theorem Sound.grounded (sound : Sound client job state) {outcome : Outcome}
    (member : outcome ∈ state.outcomes) : Grounded client job state outcome := by
  cases sound with
  | early stage before open_ => contradiction
  | finished other failed =>
    have same : outcome = other := List.mem_singleton.mp member
    rw [same]
    rcases failed with ⟨error, is⟩ | ⟨reason, is⟩
    · rw [is]
      exact fun _ => .inl rfl
    · rw [is]
      rfl
  | waiting scheme request waits =>
    have honest := waits.honest outcome member
    cases outcome with
    | rejected error =>
      intro paid
      rcases honest paid with ⟨unsent, _⟩ | unreached | ⟨event, held, concerned, opened⟩
      · exact .inl (waits.before (.inl (waits.unsent unsent).1))
      · exact .inr (.inl unreached)
      · exact .inr (.inr ⟨scheme, request, waits.stage, event, held, concerned, opened⟩)
    | raised reason => exact honest.elim
    | resolved value =>
      obtain ⟨event, held, concerned, opened⟩ := honest
      exact ⟨scheme, request, waits.stage, event, held, concerned, opened⟩
    | paid preimage fees =>
      obtain ⟨event, held, concerned, opened⟩ := honest
      exact ⟨scheme, request, waits.stage, event, held, concerned, opened⟩

/-- A call settles once its own moves are made, and only once; it hands its request over once,
and what it settles with rests on an answer of the wallet, or on what became of the request. -/
theorem call_settles_once
    (reaches : Reaches (step client job) (Closes client job) (begun job) state) :
    state.outcomes.length ≤ 1 ∧
      (state.rank = 0 → state.outcomes.length = 1) ∧
      (∀ move next, step client job state move = some next →
        next.rank ≤ state.rank ∧ (move.isOwn = true → next.rank < state.rank)) ∧
      state.handed ≤ 1 ∧
      ∀ outcome ∈ state.outcomes, Grounded client job state outcome := by
  have sound : Sound client job state :=
    reaches.invariant begun_sound fun _ _ _ sound closes moved => sound_step sound closes moved
  exact ⟨sound.settled.1, sound.settled.2, fun _ _ moved => rank_step sound moved, sound.handed,
    fun _ => sound.grounded⟩

theorem settled_step (waiting : state.stage = .waiting scheme request)
    (settled : state.settled = true) (moved : step client job state move = some next) :
    next.stage = .waiting scheme request ∧ next.settled = true ∧ next.outcomes = state.outcomes := by
  have finishes : ∀ (other : CallState) (throws : Bool) (outcome : Outcome),
      other.stage = .waiting scheme request → other.settled = true →
        (other.finish throws outcome).stage = .waiting scheme request ∧
          (other.finish throws outcome).settled = true ∧
          (other.finish throws outcome).outcomes = other.outcomes := by
    intro other throws outcome waits already
    have same : other.finish throws outcome = other := by
      unfold CallState.finish
      rw [if_pos already]
    rw [same]
    exact ⟨waits, already, rfl⟩
  have sends : ∀ other : CallState, other.stage = .waiting scheme request → other.settled = true →
      other.send.stage = .waiting scheme request ∧ other.send.settled = true ∧
        other.send.outcomes = other.outcomes := by
    intro other waits already
    have same : other.send = other := by
      unfold CallState.send
      simp [already]
    rw [same]
    exact ⟨waits, already, rfl⟩
  cases move with
  | informed events => simp [step, waiting] at moved
  | called events createdAt draw => simp [step, waiting] at moved
  | subscribed callbacks returned => simp [step, waiting] at moved
  | event event throws =>
    simp only [step] at moved
    split at moved
    · cases moved
      unfold NostrWot.Wallet.onAnswer
      dsimp only
      split
      · exact finishes { state with delivered := state.delivered ++ [event] } _ _ waiting settled
      · exact ⟨waiting, settled, rfl⟩
    · contradiction
  | ready =>
    simp only [step] at moved
    split at moved
    · cases moved
      exact ⟨waiting, settled, rfl⟩
    · contradiction
  | readyTimeout =>
    simp only [step] at moved
    split at moved
    · cases moved
      exact sends { state with readyTimer := false } waiting settled
    · contradiction
  | send =>
    simp only [step] at moved
    split at moved
    · cases moved
      exact sends { state with sends := state.sends - 1 } waiting settled
    · contradiction
  | publish =>
    simp only [step] at moved
    split at moved
    · cases moved
      exact ⟨waiting, settled, rfl⟩
    · contradiction
  | published answer throws =>
    simp only [step] at moved
    split at moved
    · split at moved
      · cases moved
        exact ⟨waiting, settled, rfl⟩
      all_goals
        cases moved
        exact finishes { state with publishing := .answered, reached := _ } _ _ waiting settled
    · contradiction
  | answerTimeout throws =>
    simp only [step] at moved
    split at moved
    · cases moved
      exact finishes { state with answerTimer := false } _ _ waiting settled
    · contradiction

/-! ## One wallet -/

def receipt : Value := .object [("result_type", .text "pay_invoice"),
  ("result", .object [("preimage", .text (String.ofList (List.replicate 64 'a')))])]

/-- A client that encrypts nothing, of a wallet that answers `receipt`. -/
def openClient : NwcClient Unit where
  walletPubkey := "w"
  clientPubkey := "c"
  nip44Encrypt _ text := .ok text
  nip04Encrypt _ text := .ok text
  nip44Decrypt data := some data
  nip04Decrypt data := some data
  jsonParse text := if text = "receipt" then some receipt else none
  verifyEvent _ := true
  finalizeEvent template := .ok {
    id := "r"
    pubkey := "c"
    kind := template.kind
    created_at := template.created_at
    tags := template.tags
    content := template.content
    sig := "" }

def anInvoice : Job := .payInvoice "i" 60000

def infoEvent : NostrEvent := ⟨"n", "w", 13194, 0, [], "pay_invoice", ""⟩

def paidEvent : NostrEvent := ⟨"a", "w", 23195, 0, [["p", "c"], ["e", "r"]], "receipt", ""⟩

def asked : List (Move Unit) :=
  [.informed (some [infoEvent]), .called (some [infoEvent]) 0 (), .subscribed [] true, .readyTimeout,
    .publish]

theorem call_settles_once_paid :
    ∃ state, exec (step openClient anInvoice) (begun anInvoice)
        (asked ++ [.event paidEvent false]) = some state ∧
      state.outcomes.length = 1 ∧ state.handed ≤ 1 := by
  have executed : ∃ state, exec (step openClient anInvoice) (begun anInvoice)
      (asked ++ [.event paidEvent false]) = some state ∧ state.rank = 0 := ⟨_, rfl, rfl⟩
  obtain ⟨state, executed, rest⟩ := executed
  have closes : ∀ (state : CallState) (move : Move Unit), move.throws = false →
      Closes openClient anInvoice state move := fun _ _ kind _ _ _ => kind
  have reaches : Reaches (step openClient anInvoice) (Closes openClient anInvoice)
      (begun anInvoice) state := by
    refine .of_permitted executed ?_
    exact ⟨closes _ _ rfl, fun _ _ => ⟨closes _ _ rfl, fun _ _ => ⟨closes _ _ rfl, fun _ _ =>
      ⟨closes _ _ rfl, fun _ _ => ⟨closes _ _ rfl, fun _ _ => ⟨closes _ _ rfl, fun _ _ =>
        trivial⟩⟩⟩⟩⟩⟩
  have settles := call_settles_once reaches
  exact ⟨state, executed, settles.2.1 rest, settles.2.2.2.1⟩

/-- A subscription whose `close` throws when the wallet's receipt arrives: the invoice is paid,
and the caller waits for ever. -/
theorem thrown_close_hangs :
    ∃ state, exec (step openClient anInvoice) (begun anInvoice)
        (asked ++ [.event paidEvent true]) = some state ∧
      state.rank = 0 ∧ state.outcomes = [] ∧
      ∀ later, Reaches (step openClient anInvoice) (fun _ _ => True) state later →
        later.outcomes = [] := by
  have executed : ∃ state scheme request, exec (step openClient anInvoice) (begun anInvoice)
      (asked ++ [.event paidEvent true]) = some state ∧ state.rank = 0 ∧ state.outcomes = [] ∧
        state.stage = .waiting scheme request ∧ state.settled = true :=
    ⟨_, _, _, rfl, rfl, rfl, rfl, rfl⟩
  obtain ⟨state, scheme, request, executed, rest, empty, waiting, settled⟩ := executed
  refine ⟨state, executed, rest, empty, fun later reaches => ?_⟩
  have stays : later.stage = .waiting scheme request ∧ later.settled = true ∧ later.outcomes = [] :=
    @Reaches.invariant _ _ _ _ _ _ (fun state : CallState => state.stage = .waiting scheme request ∧
      state.settled = true ∧ state.outcomes = []) reaches ⟨waiting, settled, empty⟩
      fun _ _ _ held _ moved => by
        obtain ⟨stage, done, outcomes⟩ := settled_step held.1 held.2.1 moved
        exact ⟨stage, done, outcomes.trans held.2.2⟩
  exact stays.2.2

end NostrWot.Wallet

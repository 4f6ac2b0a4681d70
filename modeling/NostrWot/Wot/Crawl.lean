import NostrWot.Wot.Distance

namespace NostrWot.Wot

open NostrWot.Data NostrWot.Sync NostrWot.Traverse

/-! # Crawling

The follow lists of a root, of those it follows and so on are asked for, one level after the other.
The batches of a level are asked for at the same time and are answered in any order.
-/

variable {Value : Type}

namespace Graph

def getFollows (graph : Graph Value) (pubkey : String) : List String :=
  match graph.pubkeyToId.get pubkey with
  | none => []
  | some id =>
    (graph.getFollowIdsSync id).filterMap fun follow =>
      (graph.idToPubkey.get follow).filter (· ≠ "")

def getFollowVersion (graph : Graph Value) (pubkey : String) : Option FollowVersion :=
  (graph.pubkeyToId.get pubkey).bind graph.versions.get

end Graph

/-- What a relay sends. `pubkey` is there if it is a string, and `id` is what `String` makes of it. -/
structure CrawlEvent where
  kind : Number
  pubkey : Option String
  created_at : Number
  id : String
  tags : List (List String)
  deriving DecidableEq

namespace CrawlEvent

/-- The events of `authors` that are taken up at a time in milliseconds: none is more than a minute
ahead. -/
def admissible (event : CrawlEvent) (authors : List String) (now : Nat) : Option (String × Nat) :=
  match event.pubkey, hopLimit event.created_at with
  | some pubkey, some created =>
    if event.kind = 3 ∧ pubkey ∈ authors ∧ created * 1000 ≤ now + 60000 then
      some (pubkey, created)
    else none
  | _, _ => none

/-- The pubkeys that a contact list names. -/
def followed (event : CrawlEvent) : List String :=
  event.tags.filterMap fun tag =>
    match tag with
    | "p" :: follow :: _ => if follow ≠ "" then some follow else none
    | _ => none

end CrawlEvent

structure Delivery where
  pubkey : String
  version : FollowVersion
  event : CrawlEvent
  deriving DecidableEq

/-- A batch that is asked for, and the newest events that came. -/
structure Flight where
  authors : List String
  newest : List Delivery
  settled : Bool

structure CrawlState (Value : Type) where
  storage : GraphStorage Value
  root : String
  levels : Nat
  batchSize : Nat
  maxConcurrent : Nat
  aborted : Bool
  depth : Nat
  seen : List String
  nextSet : List String
  items : Nat
  waiting : List (List String)
  /-- The batches that a lane has taken and delays. -/
  taken : List (List String)
  flights : List Flight
  requested : List String
  /-- What was taken up. -/
  accepted : List Delivery

inductive CrawlMove where
  | take
  /-- The delay of a batch is over. The pool may refuse it. -/
  | subscribe (index : Nat) (refused : Bool)
  | event (index : Nat) (event : CrawlEvent) (now : Nat)
  | finish (index : Nat)
  /-- A batch that is finished is worked through. An observer may stop the crawl at an author. -/
  | work (index : Nat) (stopsAt : Option Nat)
  | nextLevel
  | stop

namespace CrawlState

def slices (size : Nat) : Nat → List String → List (List String)
  | 0, _ => []
  | fuel + 1, level =>
    if level = [] then [] else level.take size :: slices size fuel (level.drop size)

def openLevel (state : CrawlState Value) (level : List String) : CrawlState Value :=
  let batches := slices state.batchSize level.length level
  { state with waiting := batches, items := batches.length, nextSet := [] }

inductive Start (Value : Type) where
  | crawlError
  | rangeError
  | running (state : CrawlState Value)

/-- How many levels are to be fetched. -/
def levelsOf (maxDepth maxHops : Option Number) : Option Nat :=
  match maxHops with
  | some bound => hopLimit bound
  | none => (hopLimit (maxDepth.getD 2)).map (· + 1)

def fresh (storage : GraphStorage Value) (root : String)
    (levels batchSize maxConcurrent : Nat) : CrawlState Value where
  storage := storage
  root := root
  levels := levels
  batchSize := batchSize
  maxConcurrent := maxConcurrent
  aborted := false
  depth := 0
  seen := [root]
  nextSet := []
  items := 0
  waiting := []
  taken := []
  flights := []
  requested := []
  accepted := []

/-- The constructor, and `crawl` up to its first level. -/
def begin_ (relays : List String) (batchSize maxConcurrent : Nat) (storage : GraphStorage Value)
    (root : String) (maxDepth maxHops : Option Number) : Start Value :=
  if batchSize = 0 ∨ maxConcurrent = 0 then .rangeError
  else if relays = [] then .crawlError
  else
    match levelsOf maxDepth maxHops with
    | none => .rangeError
    | some levels =>
      let state := fresh storage root levels batchSize maxConcurrent
      .running (if levels = 0 then state else state.openLevel [root])

/-- The newest of an author stays. -/
def retain (newest : List Delivery) (delivery : Delivery) : List Delivery :=
  match newest.find? fun prior => prior.pubkey = delivery.pubkey with
  | none => newest ++ [delivery]
  | some prior =>
    if newerVersion delivery.version prior.version then
      newest.map fun other => if other.pubkey = delivery.pubkey then delivery else other
    else newest

def expand (state : CrawlState Value) (follows : List String) : CrawlState Value :=
  follows.foldl (fun state follow =>
    if follow ∈ state.seen then state
    else { state with seen := state.seen ++ [follow], nextSet := state.nextSet ++ [follow] }) state

/-- One author of a batch. -/
def handle (newest : List Delivery) (state : CrawlState Value) (pubkey : String) :
    CrawlState Value :=
  let saved :=
    match newest.find? fun delivery => delivery.pubkey = pubkey with
    | none => state
    | some delivery =>
      { state with
        storage := state.storage.saveFollows pubkey delivery.event.followed (some delivery.version) }
  if saved.depth + 1 < saved.levels then saved.expand (saved.storage.graph.getFollows pubkey)
  else saved

def stopped (state : CrawlState Value) : CrawlState Value :=
  { state with
    aborted := true
    flights := state.flights.map fun flight => { flight with settled := true } }

def step (state : CrawlState Value) : CrawlMove → Option (CrawlState Value)
  | .take =>
    match state.waiting with
    | [] => none
    | batch :: rest =>
      if state.aborted ∨
          min state.maxConcurrent (max 1 state.items) ≤ state.taken.length + state.flights.length
      then none
      else some { state with waiting := rest, taken := state.taken ++ [batch] }
  | .subscribe index refused =>
    match state.taken[index]? with
    | none => none
    | some authors =>
      let woken := { state with taken := state.taken.eraseIdx index }
      if state.aborted then some woken
      else if refused then some woken.stopped
      else some { woken with
        flights := state.flights ++ [⟨authors, [], false⟩]
        requested := state.requested ++ authors }
  | .event index event now =>
    match state.flights[index]? with
    | none => none
    | some flight =>
      match event.admissible flight.authors now with
      | none => some state
      | some (pubkey, created) =>
        if flight.settled then some state
        else
          let delivery : Delivery := ⟨pubkey, ⟨created, event.id⟩, event⟩
          some { state with
            flights := state.flights.set index
              { flight with newest := retain flight.newest delivery }
            accepted := state.accepted ++ [delivery] }
  | .finish index =>
    match state.flights[index]? with
    | none => none
    | some flight => some { state with flights := state.flights.set index { flight with settled := true } }
  | .work index stopsAt =>
    match state.flights[index]? with
    | none => none
    | some flight =>
      if flight.settled = false then none
      else
        let done := { state with flights := state.flights.eraseIdx index }
        if state.aborted then some done
        else
          match stopsAt with
          | none => some (flight.authors.foldl (handle flight.newest) done)
          | some author =>
            some ((flight.authors.take (author + 1)).foldl (handle flight.newest) done).stopped
  | .nextLevel =>
    if state.aborted ∨ state.waiting ≠ [] ∨ state.taken ≠ [] ∨ state.flights ≠ [] ∨
        state.levels ≤ state.depth ∨ state.items = 0 then none
    else
      let deeper := { state with depth := state.depth + 1 }
      some (if deeper.depth < deeper.levels then deeper.openLevel state.nextSet
        else { deeper with nextSet := [] })
  | .stop => some state.stopped

/-- The loop is left: all levels were fetched, or there is none left to fetch. -/
def Done (state : CrawlState Value) : Prop :=
  state.aborted = false ∧ state.waiting = [] ∧ state.taken = [] ∧ state.flights = [] ∧
    (state.levels ≤ state.depth ∨ state.items = 0)

instance (state : CrawlState Value) : Decidable state.Done :=
  inferInstanceAs (Decidable (_ ∧ _ ∧ _ ∧ _ ∧ _))

end CrawlState

end NostrWot.Wot

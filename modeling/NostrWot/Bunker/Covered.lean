import NostrWot.Bunker.Server
import NostrWot.Data.JsonTree

namespace NostrWot.Bunker

open NostrWot.Data

/-! # What the state's MAC covers

A state is authenticated by the text of its canonical form, and `restore` reads the state itself.
-/

/-- The bytes `canonicalState` returns. -/
def canonicalBytes (numbers : Json.NumberText) (state : Value) : Option ByteArray :=
  ((canonicalState state).jsonText numbers).map fun text => (String.ofList text).toUTF8

section Fields

variable {record other state : Value}

theorem canonicalBytes_tree {numbers : Json.NumberText}
    (same : canonicalBytes numbers state = canonicalBytes numbers other) :
    (canonicalState state).tree = (canonicalState other).tree := by
  have injective : Function.Injective fun text : List Char => (String.ofList text).toUTF8 := by
    intro left right bytes
    exact String.ofList_inj.mp (String.toByteArray_inj.mp bytes)
  exact Value.tree_of_jsonText (Option.map_injective injective same)

/-- The fields of a secret record that `restore` reads. -/
def SECRET_FIELDS : List String :=
  ["secret", "origin", "relays", "clientPubkey", "confirmed", "expiresAt"]

def CLIENT_FIELDS : List String := ["clientPubkey", "relays", "secret", "connectedAt"]

theorem eq_undefined {value : Value} (absent : value.isDefined = false) : value = .undefined := by
  cases value <;> first | rfl | contradiction

theorem canonicalSecret_fields (record : Value) : ∃ fields, canonicalSecret record = .object fields ∧
    (fields.map Prod.fst).Nodup ∧
      ∀ name ∈ SECRET_FIELDS, (Value.object fields).field name = record.field name := by
  refine ⟨_, rfl, ?_, ?_⟩
  · unfold definedField
    split <;> split <;> simp
  · simp only [SECRET_FIELDS, List.forall_mem_cons, List.not_mem_nil, false_imp_iff, implies_true,
      and_true, definedField]
    generalize record.field "secret" = secret
    generalize record.field "origin" = origin
    generalize record.field "relays" = relays
    generalize record.field "confirmed" = confirmed
    cases bound : (record.field "clientPubkey").isDefined <;>
      cases lapses : (record.field "expiresAt").isDefined
    · rw [eq_undefined bound, eq_undefined lapses]
      simp [Value.field]
    · rw [eq_undefined bound]
      generalize record.field "expiresAt" = expiresAt
      simp [Value.field]
    · rw [eq_undefined lapses]
      generalize record.field "clientPubkey" = clientPubkey
      simp [Value.field]
    · generalize record.field "clientPubkey" = clientPubkey
      generalize record.field "expiresAt" = expiresAt
      simp [Value.field]

theorem canonicalClient_fields (client : Value) : ∃ fields, canonicalClient client = .object fields ∧
    (fields.map Prod.fst).Nodup ∧
      ∀ name ∈ CLIENT_FIELDS, (Value.object fields).field name = client.field name := by
  refine ⟨_, rfl, ?_, ?_⟩
  · unfold definedField
    split <;> simp
  · simp only [CLIENT_FIELDS, List.forall_mem_cons, List.not_mem_nil, false_imp_iff, implies_true,
      and_true, definedField]
    generalize client.field "clientPubkey" = clientPubkey
    generalize client.field "relays" = relays
    generalize client.field "connectedAt" = connectedAt
    cases named : (client.field "secret").isDefined
    · rw [eq_undefined named]
      simp [Value.field]
    · generalize client.field "secret" = secret
      simp [Value.field]

def AgreeOn (names : List String) (record other : Value) : Prop :=
  ∀ name ∈ names, (record.field name).tree = (other.field name).tree

theorem canonicalSecret_field (same : (canonicalSecret record).tree = (canonicalSecret other).tree) :
    AgreeOn SECRET_FIELDS record other := by
  obtain ⟨fields, written, distinct, read⟩ := canonicalSecret_fields record
  obtain ⟨others, written', distinct', read'⟩ := canonicalSecret_fields other
  rw [written, written'] at same
  intro name member
  rw [← read name member, ← read' name member]
  exact Value.field_tree_of_tree distinct distinct' same name

theorem canonicalClient_field (same : (canonicalClient record).tree = (canonicalClient other).tree) :
    AgreeOn CLIENT_FIELDS record other := by
  obtain ⟨fields, written, distinct, read⟩ := canonicalClient_fields record
  obtain ⟨others, written', distinct', read'⟩ := canonicalClient_fields other
  rw [written, written'] at same
  intro name member
  rw [← read name member, ← read' name member]
  exact Value.field_tree_of_tree distinct distinct' same name

/-- What the canonical form of a state says. -/
structure SameState (state other : Value) : Prop where
  fields : AgreeOn ["version", "connectionPubkey", "generation"] state other
  secrets : List.Forall₂ (AgreeOn SECRET_FIELDS) (state.field "secrets").itemsOf
    (other.field "secrets").itemsOf
  clients : List.Forall₂ (AgreeOn CLIENT_FIELDS) (state.field "clients").itemsOf
    (other.field "clients").itemsOf

theorem agree_of_items {canonical : Value → Value} {records others : List Value}
    {names : List String} (object : ∀ record, ∃ fields, canonical record = .object fields)
    (reads : ∀ {record other : Value}, (canonical record).tree = (canonical other).tree →
      AgreeOn names record other)
    (same : (Value.array (records.map canonical)).tree = (Value.array (others.map canonical)).tree) :
    List.Forall₂ (AgreeOn names) records others := by
  simp only [Value.tree, Option.some.injEq, Json.Tree.array.injEq, Value.itemTrees_eq,
    List.map_map] at same
  induction records generalizing others with
  | nil =>
    rw [List.map_nil, eq_comm, List.map_eq_nil_iff] at same
    rw [same]
    exact .nil
  | cons record records ih =>
    cases others with
    | nil => simp at same
    | cons other others =>
      rw [List.map_cons, List.map_cons, List.cons_eq_cons] at same
      refine .cons ?_ (ih same.2)
      obtain ⟨fields, written⟩ := object record
      obtain ⟨fields', written'⟩ := object other
      have trees := same.1
      simp only [Function.comp_apply, written, written', Value.tree, Option.getD_some] at trees
      apply reads
      rw [written, written', Value.tree, Value.tree, trees]

theorem sameState_of_tree (same : (canonicalState state).tree = (canonicalState other).tree) :
    SameState state other := by
  have each := Value.field_tree_of_tree (by simp) (by simp) same
  refine ⟨?fields, ?secrets, ?clients⟩
  case fields =>
    simp only [AgreeOn, List.forall_mem_cons, List.not_mem_nil, false_imp_iff, implies_true, and_true]
    exact ⟨each "version", each "connectionPubkey", each "generation"⟩
  case secrets =>
    refine agree_of_items (fun record => ?_) canonicalSecret_field (each "secrets")
    obtain ⟨fields, written, -⟩ := canonicalSecret_fields record
    exact ⟨fields, written⟩
  case clients =>
    refine agree_of_items (fun client => ?_) canonicalClient_field (each "clients")
    obtain ⟨fields, written, -⟩ := canonicalClient_fields client
    exact ⟨fields, written⟩

end Fields

section Validated

variable {host : Host} {now : Rat} {record other : Value}

theorem refuseIf_bind {when : Bool} {text : String} {α : Type} {next : Unit → Except Fault α}
    {result : α} (ran : (refuseIf when text >>= next) = .ok result) :
    when = false ∧ next () = .ok result := by
  obtain ⟨⟨⟩, passed, ran⟩ := bind_ok ran
  exact ⟨refuseIf_ok passed, ran⟩

variable {value : Value}

theorem textOf_plain {holds : String → Bool} {text found : String}
    (read : textOf value holds text = .ok found) : value.Plain := by
  rw [(textOf_ok read).1]
  exact .text found

theorem originOf_plain {origin : SecretOrigin} (read : originOf value = .ok origin) :
    value.Plain := by
  unfold originOf at read
  split at read
  · exact .text _
  · exact .text _
  · contradiction

theorem confirmedOf_plain {flag : Bool} (read : confirmedOf value = .ok flag) :
    value.Plain := by
  unfold confirmedOf at read
  split at read
  · exact .boolean _
  · contradiction

theorem finiteOf_plain {text : String} {number : Number} (read : finiteOf value text = .ok number) :
    value.Plain := by
  unfold finiteOf at read
  split at read
  · next held =>
    cases held with
    | finite amount => exact .number amount
    | _ => contradiction
  · contradiction

theorem boundOf_plain {client : Option String} (read : boundOf value = .ok client) :
    value.Plain := by
  unfold boundOf at read
  split at read
  · exact .undefined
  · cases found : textOf value HEX64 "secret clientPubkey must be 64 hex characters" with
    | error fault =>
      rw [found] at read
      contradiction
    | ok text => exact textOf_plain found

theorem expiryOf_plain {expiresAt : Option Number} (read : expiryOf value = .ok expiresAt) :
    value.Plain := by
  unfold expiryOf at read
  split at read
  · exact .undefined
  · cases found : finiteOf value "secret expiresAt must be a finite number" with
    | error fault =>
      rw [found] at read
      contradiction
    | ok number => exact finiteOf_plain found

theorem texts_of_mapM {items : List Value} {texts : List String}
    (read : items.mapM Value.asText? = some texts) : items = texts.map .text := by
  induction items generalizing texts with
  | nil =>
    cases read
    rfl
  | cons item rest ih =>
    rw [List.mapM_cons] at read
    obtain ⟨text, held, read⟩ := Option.bind_eq_some_iff.mp read
    obtain ⟨others, more, read⟩ := Option.bind_eq_some_iff.mp read
    cases read
    have spelled : item = .text text := by
      cases item <;> first | contradiction | (cases held; rfl)
    rw [spelled, ih more, List.map_cons]

theorem relaysOf_plain {what : String} {relays : List String}
    (read : relaysOf host value what = .ok relays) : value.Plain := by
  unfold relaysOf at read
  split at read
  · contradiction
  · next urls strings =>
    unfold stringsOf at strings
    split at strings
    · next items =>
      have whole := (Option.ite_none_left_eq_some.mp strings).2
      rw [texts_of_mapM whole]
      exact .texts urls
    · contradiction

theorem backedSecret_plain {secrets : OrderedMap String SecretState} {client : String}
    {relays : List String} {secret : Option String}
    (read : backedSecret host secrets client relays value = .ok secret) : value.Plain := by
  unfold backedSecret at read
  split at read
  · exact .undefined
  · exact .text _
  · contradiction

variable {result : Option (String × SecretState)}

theorem validateSecret_plain {secrets : OrderedMap String SecretState}
    (valid : validateSecret host now secrets record = .ok result) :
    record.isObject = true ∧ record.field "secret" ≠ .undefined ∧
      ∀ name ∈ SECRET_FIELDS, (record.field name).Plain := by
  unfold validateSecret at valid
  obtain ⟨object, valid⟩ := refuseIf_bind valid
  obtain ⟨secret, named, valid⟩ := bind_ok valid
  obtain ⟨-, valid⟩ := refuseIf_bind valid
  obtain ⟨origin, minted, valid⟩ := bind_ok valid
  obtain ⟨confirmed, flagged, valid⟩ := bind_ok valid
  obtain ⟨bound, keyed, valid⟩ := bind_ok valid
  obtain ⟨-, valid⟩ := refuseIf_bind valid
  obtain ⟨expiresAt, lapses, valid⟩ := bind_ok valid
  obtain ⟨relays, answered, valid⟩ := bind_ok valid
  refine ⟨by simpa using object, by rw [(textOf_ok named).1]; nofun, ?_⟩
  simp only [SECRET_FIELDS, List.forall_mem_cons, List.not_mem_nil, false_imp_iff, implies_true,
    and_true]
  exact ⟨textOf_plain named, originOf_plain minted, relaysOf_plain answered, boundOf_plain keyed,
    confirmedOf_plain flagged, expiryOf_plain lapses⟩

theorem validateClient_plain {secrets : OrderedMap String SecretState}
    {clients : List RestoredClient} {client : RestoredClient}
    (valid : validateClient host secrets clients record = .ok client) :
    record.isObject = true ∧ record.field "clientPubkey" ≠ .undefined ∧
      ∀ name ∈ CLIENT_FIELDS, (record.field name).Plain := by
  unfold validateClient at valid
  obtain ⟨object, valid⟩ := refuseIf_bind valid
  obtain ⟨pubkey, named, valid⟩ := bind_ok valid
  obtain ⟨-, valid⟩ := refuseIf_bind valid
  obtain ⟨connectedAt, since, valid⟩ := bind_ok valid
  obtain ⟨relays, answered, valid⟩ := bind_ok valid
  obtain ⟨secret, backed, valid⟩ := bind_ok valid
  refine ⟨by simpa using object, by rw [(textOf_ok named).1]; nofun, ?_⟩
  simp only [CLIENT_FIELDS, List.forall_mem_cons, List.not_mem_nil, false_imp_iff, implies_true,
    and_true]
  exact ⟨textOf_plain named, relaysOf_plain answered, backedSecret_plain backed,
    finiteOf_plain since⟩

theorem isObject_of_field (name : String) (defined : value.field name ≠ .undefined) :
    value.isObject = true := by
  cases value <;> first | rfl | exact absurd rfl defined

theorem validateSecret_agree {secrets : OrderedMap String SecretState}
    (valid : validateSecret host now secrets record = .ok result)
    (agree : AgreeOn SECRET_FIELDS record other) :
    validateSecret host now secrets other = .ok result := by
  obtain ⟨object, defined, plain⟩ := validateSecret_plain valid
  have fields : ∀ name ∈ SECRET_FIELDS, other.field name = record.field name :=
    fun name member => (plain name member).eq (agree name member)
  simp only [SECRET_FIELDS, List.forall_mem_cons, List.not_mem_nil, false_imp_iff, implies_true,
    and_true] at fields
  obtain ⟨secret, origin, relays, clientPubkey, confirmed, expiresAt⟩ := fields
  have isObject := isObject_of_field "secret" (secret ▸ defined)
  rw [← valid]
  unfold validateSecret
  rw [secret, origin, relays, clientPubkey, confirmed, expiresAt, object, isObject]

theorem validateClient_agree {secrets : OrderedMap String SecretState}
    {clients : List RestoredClient} {client : RestoredClient}
    (valid : validateClient host secrets clients record = .ok client)
    (agree : AgreeOn CLIENT_FIELDS record other) :
    validateClient host secrets clients other = .ok client := by
  obtain ⟨object, defined, plain⟩ := validateClient_plain valid
  have fields : ∀ name ∈ CLIENT_FIELDS, other.field name = record.field name :=
    fun name member => (plain name member).eq (agree name member)
  simp only [CLIENT_FIELDS, List.forall_mem_cons, List.not_mem_nil, false_imp_iff, implies_true,
    and_true] at fields
  obtain ⟨clientPubkey, relays, secret, connectedAt⟩ := fields
  have isObject := isObject_of_field "clientPubkey" (clientPubkey ▸ defined)
  rw [← valid]
  unfold validateClient
  rw [clientPubkey, relays, secret, connectedAt, object, isObject]

/-- A fold over records of which each step reads only some names. -/
theorem foldlM_agree {α : Type} {names : List String} {step : α → Value → Except Fault α}
    (reads : ∀ {before after : α} {record other : Value}, step before record = .ok after →
      AgreeOn names record other → step before other = .ok after)
    {records others : List Value} (agree : List.Forall₂ (AgreeOn names) records others)
    {start result : α} (folded : records.foldlM step start = .ok result) :
    others.foldlM step start = .ok result := by
  induction agree generalizing start with
  | nil => exact folded
  | cons first _ ih =>
    rw [List.foldlM_cons] at folded ⊢
    obtain ⟨next, stepped, folded⟩ := bind_ok folded
    rw [reads stepped first]
    exact ih folded

variable {plan : OrderedMap String SecretState × List RestoredClient}

theorem validateState_same {state other : Value} (valid : validateState host state now = .ok plan)
    (same : SameState state other)
    (arrays : isArray (other.field "secrets") = true ∧ isArray (other.field "clients") = true) :
    validateState host other now = .ok plan := by
  unfold validateState at valid ⊢
  obtain ⟨-, valid⟩ := refuseIf_bind valid
  obtain ⟨secrets, checked, valid⟩ := bind_ok valid
  obtain ⟨few, valid⟩ := refuseIf_bind valid
  obtain ⟨clients, admitted, valid⟩ := bind_ok valid
  have secrets' : validateSecrets host now (other.field "secrets").itemsOf = .ok secrets := by
    refine foldlM_agree (fun {before after record other} stepped agree => ?_) same.secrets checked
    obtain ⟨result, read, rest⟩ := bind_ok stepped
    rw [validateSecret_agree read agree]
    exact rest
  have clients' : validateClients host secrets (other.field "clients").itemsOf = .ok clients := by
    refine foldlM_agree (fun {before after record other} stepped agree => ?_) same.clients admitted
    obtain ⟨result, read, rest⟩ := bind_ok stepped
    rw [validateClient_agree read agree]
    exact rest
  rw [arrays.1, arrays.2, secrets']
  change (refuseIf (decide (secrets.size > host.options.maxSecrets)) _ >>= fun _ => _) = _
  rw [few]
  change (validateClients host secrets _ >>= fun _ => _) = _
  rw [clients']
  exact valid

theorem isArray_of_valid {state : Value} (valid : validateState host state now = .ok plan) :
    isArray (state.field "secrets") = true ∧ isArray (state.field "clients") = true := by
  unfold validateState at valid
  obtain ⟨arrays, -⟩ := refuseIf_bind valid
  rw [Bool.or_eq_false_iff, Bool.not_eq_false', Bool.not_eq_false'] at arrays
  exact arrays

end Validated

section Restored

variable {host : Host} {server : Server} {state other : Value} {allowUnsigned allowed : Bool}
  {now : Rat} {plan plan' : Server.RestorePlan}

theorem isNumber_plain {value : Value} {amount : Rat}
    (held : Server.isNumber value (.finite amount) = true) : value.Plain := by
  unfold Server.isNumber at held
  split at held
  · next number =>
    rw [decide_eq_true_eq] at held
    rw [held]
    exact .number amount
  · contradiction

/-- A state of a version from before the states were signed. -/
def isUnversioned (version : Value) : Bool := !version.isDefined || Server.isNumber version 1

theorem admissibleGeneration_cases {generation : Rat}
    (read : Server.admissibleGeneration host state allowUnsigned = .ok generation) :
    (isUnversioned (state.field "version") = true ∧ generation = 0) ∨
      (isUnversioned (state.field "version") = false ∧
        Server.isNumber (state.field "version") STATE_VERSION = true ∧
        Server.generationOf (state.field "generation") = .ok generation) := by
  unfold Server.admissibleGeneration at read
  dsimp only at read
  split at read
  · contradiction
  split at read
  · next old =>
    split at read
    · contradiction
    split at read
    · contradiction
    cases read
    exact .inl ⟨old, rfl⟩
  · next current =>
    split at read
    · next version =>
      split at read
      · contradiction
      split at read
      · contradiction
      exact .inr ⟨Bool.not_eq_true _ ▸ current, version, read⟩
    · contradiction

theorem isUnversioned_plain {version : Value} (old : isUnversioned version = true) : version.Plain := by
  rw [isUnversioned, Bool.or_eq_true] at old
  rcases old with absent | one
  · have none : version = .undefined := eq_undefined (by simpa using absent)
    rw [none]
    exact .undefined
  · exact isNumber_plain one

theorem generationOf_plain {value : Value} {generation : Rat}
    (read : Server.generationOf value = .ok generation) : value.Plain := by
  unfold Server.generationOf at read
  split at read
  · exact .number _
  · contradiction

theorem admissibleGeneration_same {generation generation' : Rat}
    (read : Server.admissibleGeneration host state allowUnsigned = .ok generation)
    (read' : Server.admissibleGeneration host other allowed = .ok generation')
    (same : SameState state other) : generation' = generation := by
  have versions := same.fields "version" (by simp)
  have generations := same.fields "generation" (by simp)
  rcases admissibleGeneration_cases read with ⟨old, zero⟩ | ⟨current, version, held⟩
  · have equal := (isUnversioned_plain old).eq versions
    rcases admissibleGeneration_cases read' with ⟨_, zero'⟩ | ⟨current', -⟩
    · rw [zero, zero']
    · rw [equal, old] at current'
      contradiction
  · have equal := (isNumber_plain version).eq versions
    rcases admissibleGeneration_cases read' with ⟨old', _⟩ | ⟨_, _, held'⟩
    · rw [equal, current] at old'
      contradiction
    · rw [(generationOf_plain held).eq generations, held] at held'
      exact (Except.ok.inj held').symm

theorem planRestore_same
    (accepted : server.planRestore host state allowUnsigned now = .ok plan)
    (accepted' : server.planRestore host other allowed now = .ok plan')
    (same : SameState state other) : plan' = plan := by
  unfold Server.planRestore at accepted accepted'
  obtain ⟨generation, admissible, accepted⟩ := bind_ok accepted
  obtain ⟨generation', admissible', accepted'⟩ := bind_ok accepted'
  obtain ⟨-, accepted⟩ := refuseIf_bind accepted
  obtain ⟨-, accepted'⟩ := refuseIf_bind accepted'
  obtain ⟨-, accepted⟩ := refuseIf_bind accepted
  obtain ⟨-, accepted'⟩ := refuseIf_bind accepted'
  obtain ⟨-, accepted⟩ := refuseIf_bind accepted
  obtain ⟨-, accepted'⟩ := refuseIf_bind accepted'
  obtain ⟨valid, validated, accepted⟩ := bind_ok accepted
  obtain ⟨valid', validated', accepted'⟩ := bind_ok accepted'
  rw [validateState_same validated same (isArray_of_valid validated')] at validated'
  rw [← Except.ok.inj validated', admissibleGeneration_same admissible admissible' same] at accepted'
  rw [accepted] at accepted'
  exact (Except.ok.inj accepted').symm

end Restored

def emptyState (members : List (String × Value)) : Value :=
  .object ([("version", .number 2),
    ("connectionPubkey", .text (String.ofList (List.replicate 64 'b'))), ("generation", .number 0),
    ("secrets", .array []), ("clients", .array [])] ++ members)

end NostrWot.Bunker

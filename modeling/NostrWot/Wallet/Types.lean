import NostrWot.Data.Utf16
import NostrWot.Data.Value
import Mathlib.Data.List.Sort

namespace NostrWot.Wallet

open NostrWot.Data

/-! # The wallet connection -/

structure NostrEvent where
  id : String
  pubkey : String
  kind : Int
  created_at : Int
  tags : List (List String)
  content : String
  sig : String
  deriving DecidableEq

structure EventTemplate where
  kind : Int
  created_at : Int
  tags : List (List String)
  content : String
  deriving DecidableEq

/-- `event.tags.some((t) => t[0] === name && t[1] === value)`. -/
def NostrEvent.hasTag (event : NostrEvent) (name value : String) : Bool :=
  event.tags.any fun tag => tag[0]? = some name && tag[1]? = some value

namespace NWC_KINDS

def info : Int := 13194
def request : Int := 23194
def response : Int := 23195

end NWC_KINDS

/-! ## Errors -/

inductive NwcErrorCode where
  | invalidUri
  | unreachable
  | cannotPay
  | timeout
  | relayFailed
  | rateLimited
  | notSupported
  | insufficientBalance
  | quotaExceeded
  | restricted
  | unauthorized
  | paymentFailed
  | failed
  deriving DecidableEq, Repr

inductive NwcOutcome where
  | notPaid
  | unknown
  deriving DecidableEq, Repr

structure NwcError where
  code : NwcErrorCode
  outcome : NwcOutcome
  walletCode : Option String := none
  deriving DecidableEq, Repr

def WALLET_CODES : List (String × NwcErrorCode) := [
  ("RATE_LIMITED", .rateLimited),
  ("NOT_IMPLEMENTED", .notSupported),
  ("UNSUPPORTED_ENCRYPTION", .notSupported),
  ("INSUFFICIENT_BALANCE", .insufficientBalance),
  ("QUOTA_EXCEEDED", .quotaExceeded),
  ("RESTRICTED", .restricted),
  ("UNAUTHORIZED", .unauthorized),
  ("PAYMENT_FAILED", .paymentFailed)]

def codeForWalletError (walletCode : String) : NwcErrorCode :=
  (WALLET_CODES.lookup walletCode).getD .failed

/-! ## The info event -/

inductive NwcEncryption where
  | nip44_v2
  | nip04
  deriving DecidableEq, Repr

structure NwcInfo where
  methods : List String
  encryptions : List NwcEncryption
  deriving DecidableEq

def words (value : String) : List String :=
  ((value.toList.splitOnP fun char => isSpace char || char = ',').filter (· ≠ [])).map String.ofList

def toEncryption (word : String) : Option NwcEncryption :=
  if word = "nip44_v2" then some .nip44_v2 else if word = "nip04" then some .nip04 else none

def parseNwcInfo (event : NostrEvent) : NwcInfo where
  methods := words event.content
  encryptions :=
    match event.tags.find? fun tag => tag[0]? = some "encryption" with
    | some tag => (words (tag[1]?.getD "")).filterMap toEncryption
    | none => [.nip04]

def chooseEncryption (info : NwcInfo) : NwcEncryption :=
  if .nip44_v2 ∈ info.encryptions then .nip44_v2 else .nip04

def canPay (info : NwcInfo) : Bool := "pay_invoice" ∈ info.methods

end NostrWot.Wallet

import Mathlib.Data.List.Basic

namespace NostrWot.Dm

/-! # Direct messages -/

abbrev Pubkey : Type := String

inductive Scheme where
  | nip04
  | nip17
  deriving DecidableEq, Repr

structure DMMessage where
  id : String
  fromPubkey : Pubkey
  partnerPubkey : Pubkey
  content : String
  createdAt : Int
  scheme : Scheme
  deriving DecidableEq, Repr

structure DMConversation where
  partnerPubkey : Pubkey
  lastMessageAt : Int
  /-- In UTF-16 code units. -/
  preview : List Nat
  messageCount : Nat
  deriving DecidableEq, Repr

end NostrWot.Dm

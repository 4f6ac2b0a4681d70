import NostrWot.Permissions.Coherence
import NostrWot.Permissions.Clearing
import NostrWot.Permissions.Interruption
import NostrWot.Permissions.Consolidation
import NostrWot.Permissions.Setup
import NostrWot.Permissions.Straddling
import NostrWot.Hub.Canonical
import NostrWot.Signing.Batch
import NostrWot.Signing.Settlement
import NostrWot.Bunker.Ownership
import NostrWot.Bunker.Restore
import NostrWot.Bunker.Pairing
import NostrWot.Pq.Envelope
import NostrWot.Dm.EncryptedStorage
import NostrWot.Dm.Session
import NostrWot.Wallet.Nwc
import NostrWot.Relay.Manager
import NostrWot.Relay.Coalescer
import NostrWot.Wot.Storage
import NostrWot.Wot.Follows
import NostrWot.Relay.QueryBatcher
import NostrWot.Permissions.Globalization
import NostrWot.Permissions.Legacy
import NostrWot.Permissions.Endpoint
import NostrWot.Permissions.Destinations
import NostrWot.Permissions.Isolation
import NostrWot.Bunker.Covered
import NostrWot.Identity.Lockout
import NostrWot.Wot.Distance
import NostrWot.Wot.Crawled
import NostrWot.Signing.Requesters
import NostrWot.Signing.Measure
import NostrWot.Signing.Charges
import NostrWot.Vault.Serialization
import NostrWot.Vault.PasskeyIdentity
import NostrWot.Vault.PasskeyStore
import NostrWot.Vault.Candidates
import NostrWot.Vault.Passkey
import NostrWot.Vault.AssociatedData
import NostrWot.Signing.Routing
import NostrWot.Pq.Attestation
import NostrWot.Identity.Ncryptsec
import NostrWot.Dm.Inbox
import NostrWot.Dm.Persistence
import NostrWot.Relay.QuerySync
import NostrWot.Hub.Batch
import NostrWot.Hub.Publish
import NostrWot.Hub.Query
import NostrWot.Storage.Namespaced
import NostrWot.Relay.Url
import NostrWot.Auth.Challenge
import NostrWot.Feed.Zaps
import NostrWot.Feed.Observable
import NostrWot.Feed.Engagement
import NostrWot.Data.Newest
import NostrWot.Data.Numeral
import NostrWot.Wallet.ZapReceipt
import NostrWot.Feed.Notes
import NostrWot.Feed.Profile
import NostrWot.Data.JsonNumber
import NostrWot.Dm.GiftWrap
import NostrWot.Wot.Varint
import NostrWot.Hub.BoundedMap
import NostrWot.Identity.Derivation
import NostrWot.Feed.Subscribers
import NostrWot.Hub.ProfileCache

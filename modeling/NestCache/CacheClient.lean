import Mathlib.Data.List.AList
import NestCache.CacheErrors

/-!
# The client a service holds

Services reach Redis through the connection manager's client.  Commands that
need a plain connection are refused on a cluster client.  Where a server is
modelled, its store is a `Keyspace`.
-/

namespace NestCache

/-- The two flavors of client the connection manager mints. -/
inductive ClientKind
  | redis
  | cluster
  deriving DecidableEq

/-- Only a standalone or sentinel client has a usable `scanStream`. -/
def isScannableClient (client : ClientKind) : Bool := client = .redis

/-- The connection manager as a caller of `getClient` finds it. -/
inductive ConnectionStatus
  | connected (client : ClientKind)
  | shutDown
  deriving DecidableEq

/-- The manager's `getClient`. -/
def ConnectionStatus.getClient : ConnectionStatus → Except Thrown ClientKind
  | connected client => .ok client
  | shutDown => throwCache .CONNECTION_LOST [detail "reason" "shutdown"]

/-- The cache service's `getClient`, which refuses cluster mode. -/
def cacheServiceGetClient (connection : ConnectionStatus) : Except Thrown ClientKind := do
  let client ← connection.getClient
  if isScannableClient client then return client
  else throwCache .UNSUPPORTED_IN_CLUSTER [detail "operation" "getClient"]

/-- The keyspace of a server: every key it holds, with its value. -/
abbrev Keyspace (V : Type) := AList fun _ : Text => V

/-- A reply the client awaits: a rejection surfaces as it is. -/
def awaitReply {α : Type} : Except Reason α → Except Thrown α
  | .ok a => .ok a
  | .error reason => .error (.raw reason)

end NestCache

import ArwaAgent.Js.Value
import ArwaAgent.Lib.OnDemand

/-!
# The clients of the MCP servers

The agent talks to two MCP servers, each through one client that its module makes at the
first call.  The modules do the same with other values: `cached` holds the client once it
is connected, `initPromise` the promise of the attempt that was started, and nothing ever
clears either of them.

The promises of the attempts are kept in the order in which they were made; code between
two awaits is one step, so a step is a call, or what follows the `await` of an attempt.
-/

namespace ArwaAgent.Mcp

open Js OnDemand

/-- The configuration that the attempts read. -/
structure McpConfig where
  csprTradeMcpUrl : String
  csprCloudMcpUrl : String
  csprCloudApiKey : String

/-- A client, with what its transport sends.  Clients of different attempts are different
objects. -/
structure Client where
  attempt : ℕ
  name : String
  version : String
  url : String
  headers : List (String × String)
  deriving DecidableEq

/-- What the module of a server says about its client. -/
structure Server where
  name : String
  version : String
  url : McpConfig → String
  headers : McpConfig → List (String × String)

/-- The client of the `n`-th attempt. -/
def Server.client (server : Server) (cfg : McpConfig) (n : ℕ) : Client where
  attempt := n
  name := server.name
  version := server.version
  url := server.url cfg
  headers := server.headers cfg

/-- The server of `csprTradeMcp.ts`. -/
def csprTrade : Server where
  name := "arwa-executor"
  version := "0.8.0"
  url := McpConfig.csprTradeMcpUrl
  headers := fun _ => []

/-- The server of `casperMcp.ts`. -/
def casper : Server where
  name := "arwa-agent"
  version := "0.8.0"
  url := McpConfig.csprCloudMcpUrl
  headers := fun cfg => [("X-CSPR-Cloud-Api-Key", cfg.csprCloudApiKey)]

/-- The variables of a module, and the promises that its attempts have made. -/
structure Module where
  cached : Option Client
  initPromise : Option ℕ
  attempts : List (Attempt Client Error)

/-- The variables of a module that has been loaded. -/
def Module.initial : Module :=
  ⟨none, none, []⟩

/-- A call, where `setup` is the configuration with its URL parsed, or what one of the two
throws. -/
def getMcp (server : Server) (m : Module) (setup : Except Error McpConfig) :
    Reply Client × Module :=
  match m.cached with
  | some client => (.value client, m)
  | none =>
    match m.initPromise with
    | some n => (.attempt n, m)
    | none =>
      let n := m.attempts.length
      -- an exception before the first `await` rejects the promise as well
      (.attempt n,
        { m with
          initPromise := some n
          attempts := m.attempts ++ [.start (setup.map fun cfg => server.client cfg n)] })

/-- `getCsprTradeMcp` -/
def getCsprTradeMcp : Module → Except Error McpConfig → Reply Client × Module :=
  getMcp csprTrade

/-- `getCasperMcp` -/
def getCasperMcp : Module → Except Error McpConfig → Reply Client × Module :=
  getMcp casper

/-- What happens to a module. -/
inductive McpEvent
  | call (setup : Except Error McpConfig)
  | connected (n : ℕ)
  | failed (n : ℕ) (e : Error)

/-- One step: a call, or the end of the `await` in an attempt. -/
def Module.step (server : Server) (m : Module) : McpEvent → Module
  | .call setup => (getMcp server m setup).2
  | .connected n =>
    match m.attempts[n]? with
    | some (.pending client) =>
      { m with cached := some client, attempts := m.attempts.set n (.done client) }
    | _ => m
  | .failed n e => { m with attempts := settle m.attempts n fun _ => .failed e }

end ArwaAgent.Mcp

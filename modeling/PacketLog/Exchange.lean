import PacketLog.Network
import PacketLog.Session
import PacketLog.Stamping
import PacketLog.Supervisor

/-!
# A service and its clients, one acting at a time

Clients open connections, send, wait for what comes back, and stop sending; after
each act the workers go on as far as they can.  The appender gets to act when
somebody waits for the service, and a connection is waited for.  The service ends
when the abort signal is raised: every thread sees it, and the supervisor shuts
down.
-/

namespace PacketLog

structure ServiceConfig where
  /-- Seconds between timestamp records, if there are to be any. -/
  stampSeconds : Option Nat := some Stamper.defaultSeconds
  maxPacketBytes : Nat := Worker.defaultMaxPacketBytes
  chunkSize : Nat := Worker.defaultChunkSize
deriving DecidableEq

structure Client where
  name : Nat
  session : Session
  /-- How much of what came back the client has read. -/
  taken : Nat := 0
deriving DecidableEq

structure Exchange where
  supervisor : Supervisor
  stamping : Option Stamping := none
  clients : List Client := []
  network : Network
  config : ServiceConfig

namespace Exchange

/-- An event that cannot happen changes nothing. -/
def advance (supervisor : Supervisor) (event : SupervisorEvent) : Supervisor :=
  (supervisor.step? event).getD supervisor

def context (exchange : Exchange) : Context := exchange.supervisor.context

/-- What the end of the appender's thread means for the supervisor. -/
def reportStamper (supervisor : Supervisor) (stamping : Stamping) : Supervisor :=
  match stamping.outcome with
  | .ok stamps => advance supervisor (.stamperEnded (.returned stamps))
  | .crash => advance supervisor (.stamperEnded .broken)
  | _ => supervisor

/-- Lets the appender go on without passing of time. -/
def settleStamper (exchange : Exchange) : Exchange :=
  match exchange.stamping with
  | none => exchange
  | some stamping =>
    let (stamping, context) := stamping.begin exchange.context
    { exchange with
      stamping := some stamping
      supervisor := reportStamper { exchange.supervisor with context := context } stamping }

/-- Starts a service over `context`, of which no thread has acted yet. -/
def start (context : Context) (config : ServiceConfig) (network : Network)
    (now : Nat) (moment : Moment) : Exchange :=
  let supervisor : Supervisor := { context := context, stamped := config.stampSeconds.isSome }
  let stamping := config.stampSeconds.map fun seconds =>
    { stamper := { interval := Clock.ofSeconds seconds }, now := now, moment := moment }
  { supervisor := advance supervisor (.started (.ok ())), stamping := stamping
    network := network, config := config }

/-- Lets one worker go on as far as it can. -/
def settleClient (supervisor : Supervisor) (client : Client) : Supervisor × Client :=
  let (session, context) := client.session.settle supervisor.context
  let supervisor := { supervisor with context := context }
  (advance supervisor (.workerEnded session.worker.id session.worker.thread),
    { client with session := session })

def settleClients (supervisor : Supervisor) : List Client → Supervisor × List Client
  | [] => (supervisor, [])
  | client :: rest =>
    let (supervisor, client) := settleClient supervisor client
    let (supervisor, rest) := settleClients supervisor rest
    (supervisor, client :: rest)

def settle (exchange : Exchange) : Exchange :=
  let (supervisor, clients) := settleClients exchange.supervisor exchange.clients
  { exchange with supervisor := supervisor, clients := clients }

def client? (exchange : Exchange) (name : Nat) : Option Client :=
  exchange.clients.find? fun client => client.name = name

def setClient (exchange : Exchange) (client : Client) : Exchange :=
  { exchange with
    clients := exchange.clients.map fun other =>
      if other.name = client.name then client else other }

/-- A client connects and gets a worker; a connection that it had is given up. -/
def connect (exchange : Exchange) (name : Nat) : Except SystemFailure Exchange :=
  match exchange.network with
  | .unreachable => .error .networkUnreachable
  | .reachable =>
    let exchange := exchange.settleStamper
    let supervisor := advance exchange.supervisor (.accepted (.ok ()) (.ok ()) true)
    let worker := Worker.create supervisor.context.workers.lastId exchange.config.maxPacketBytes
      exchange.config.chunkSize
    let client : Client := { name := name, session := { worker := worker, peer := {} } }
    let others := exchange.clients.filter fun other => other.name ≠ name
    .ok { exchange with supervisor := supervisor, clients := others ++ [client] }.settle

/-- What a client has been sent and has not read. -/
def unread (client : Client) : Bytes := client.session.peer.echoed.drop client.taken

def send (exchange : Exchange) (client : Client) (data : Bytes) : Exchange :=
  let peer := client.session.peer
  let session := { client.session with peer := { peer with inbound := peer.inbound ++ data } }
  (exchange.setClient { client with session := session }).settle

/-- The client stops sending. -/
def finish (exchange : Exchange) (client : Client) : Exchange :=
  let session :=
    { client.session with peer := { client.session.peer with ended := true } }
  (exchange.setClient { client with session := session }).settle

/-- Takes `count` of the bytes that the client has been sent, or all of them.  There is no answer
if there are fewer. -/
def receive? (exchange : Exchange) (client : Client) (count? : Option Nat) :
    Option (Bytes × Exchange) :=
  let count := count?.getD (unread client).length
  if (unread client).length < count then none
  else
    let taken := client.taken + count
    some ((unread client).take count, exchange.setClient { client with taken := taken })

/-- What the clients have not read, in the order of their names. -/
def tails (exchange : Exchange) : List Bytes :=
  (exchange.clients.mergeSort fun a b => a.name ≤ b.name).map unread

/-- Each of `data` is sent over a connection of its own, which then ends; the answers are what
comes back. -/
def echoes (exchange : Exchange) : List (Nat × Bytes) → Except SystemFailure (List Bytes × Exchange)
  | [] => .ok ([], exchange)
  | (name, data) :: rest => do
    let exchange ← exchange.connect name
    match exchange.client? name with
    | none => exchange.echoes rest
    | some client =>
      let peer := { client.session.peer with inbound := data, ended := true }
      let session := { client.session with peer := peer }
      let exchange := (exchange.setClient { client with session := session }).settle
      let echo := ((exchange.client? name).map fun client => client.session.peer.echoed).getD []
      let (later, exchange) ← exchange.echoes rest
      return (echo :: later, exchange)

/-- Somebody raises the abort signal, and every thread sees it. -/
def raise (exchange : Exchange) : Exchange :=
  let exchange := { exchange with supervisor := advance exchange.supervisor .raised }
  exchange.settle.settleStamper

/-- The supervisor shuts down. -/
def shutDown (exchange : Exchange) : Outcome ShutdownReport × Exchange :=
  let exchange := exchange.raise
  let supervisor :=
    [.stopped, .workersJoined, .stamperJoined, .closed].foldl advance exchange.supervisor
  let result := match supervisor.phase with
    | .returned result => result
    | _ => .waiting
  (result, { exchange with supervisor := supervisor })

/-- How many acts of clients take long enough for the appender to have had its turn. -/
def actsPerTurn : Nat := 1000

/-- The supervisor shuts down once the clients have acted `acts` times. -/
def shutDownAfter (exchange : Exchange) (acts : Nat) : Outcome ShutdownReport × Exchange :=
  (if acts < actsPerTurn then exchange else exchange.settleStamper).shutDown

end Exchange

end PacketLog

import StakeLedger.Http.Message
import StakeLedger.Launch
import StakeLedger.Network.Conversation
import Std.Http

/-!
The program: what the library decides is carried out here on the real disk and the real network. A
session is run again from its start whenever another of its questions has been answered.
-/

namespace StakeLedger.Program

open Network Std.Async

/-! ## Disk -/

/-- What a path leads to. The codes tell a directory from a path through a file. -/
def entryAt (path : Path) : IO (Option Entry) := do
  try
    return some (.file (← IO.FS.readBinFile path.text).toList)
  catch
    | .noFileOrDirectory .. => return none
    | .inappropriateType _ code _ => return if code = 21 then some .directory else none
    | e => throw e

def survey (paths : List Path) : IO Disk := do
  let here : Path := ⟨(← IO.currentDir).toString⟩
  let place := here.names.filter (!·.isEmpty)
  let start : Disk := { entries := [], workingDirectory := place }
  let made := (start.createDirectories here).toOption.getD start
  paths.foldlM
    (fun disk path => do
      match ← entryAt path with
      | some entry => return (disk.install path entry).toOption.getD disk
      | none => return disk)
    made

def enact : Disk.Action → IO Unit
  | .createDirectories path => if path.text.isEmpty then pure () else IO.FS.createDirAll path.text
  | .write path content => IO.FS.writeBinFile path.text ⟨content.toArray⟩
  | .rename source target => IO.FS.rename source.text target.text
  | .remove path => IO.FS.removeFile path.text
  | .removeDirectory path => IO.FS.removeDir path.text

/-- Actions in order up to the first that fails, and its fault. -/
def enactAll : List Disk.Action → IO (Option Disk.Fault)
  | [] => return none
  | action :: rest => do
    try
      enact action
      enactAll rest
    catch e => return some (.system (toString e))

/-! ## Network -/

partial def within {α : Type} (limit : Nat) (action : IO α) : IO (Option α) := do
  let task ← IO.asTask action
  let start ← IO.monoMsNow
  let rec wait : IO (Option α) := do
    if ← IO.hasFinished task then return task.get.toOption
    if limit ≤ (← IO.monoMsNow) - start then return none
    IO.sleep 2
    wait
  wait

def resolve (host : String) (port : Nat) : IO (List Std.Net.SocketAddress) := do
  let socket : Std.Net.IPAddr → Std.Net.SocketAddress
    | .v4 addr => .v4 ⟨addr, .ofNat port⟩
    | .v6 addr => .v6 ⟨addr, .ofNat port⟩
  match Std.Net.IPv4Addr.ofString host, Std.Net.IPv6Addr.ofString host with
  | some addr, _ => return [socket (.v4 addr)]
  | none, some addr => return [socket (.v6 addr)]
  | none, none => return (← (DNS.getAddrInfo host (toString port)).block).toList.map socket

def connect : List Std.Net.SocketAddress → IO TCP.Socket.Client
  | [] => throw (.userError "no address takes a connection")
  | address :: rest => do
    try
      let client ← TCP.Socket.Client.mk
      (client.connect address).block
      return client
    catch e => if rest.isEmpty then throw e else connect rest

partial def receiveAll (client : TCP.Socket.Client) (received : ByteArray) : IO ByteArray := do
  match ← (client.recv? 65536).block with
  | some bytes => receiveAll client (received ++ bytes)
  | none => return received

def exchange (request : Network.Request) : IO (Option Reply) := do
  match Http.Target.ofUrl? request.url with
  | none => return none
  | some target =>
    try
      let client ← connect (← resolve target.host target.port)
      (client.send ⟨(Http.encodeRequest target request).toArray⟩).block
      return Http.decodeReply (← receiveAll client .empty).toList
    catch _ => return none

def reaches (limit : Nat) (address : String) : IO Bool := do
  let (port, host) := address.toList.reverse.span (· ≠ ':')
  let host := ((host.drop 1).reverse.filter fun c => c ≠ '[' ∧ c ≠ ']')
  match (String.ofList port.reverse).toNat? with
  | none => return false
  | some port => return (← within limit do connect (← resolve (.ofList host) port)).isSome

structure Limits where
  probe : Nat
  session : Option Nat := none

def Limits.answer (limits : Limits) : Question → IO Answer
  | .send request => return .reply (← exchange request)
  | .reach address => return .reached (← reaches limits.probe address)

/-- A session and its questions, answered one after the other. One that takes too long ends as if its
last question was never answered. -/
partial def converse {α : Type} (limits : Limits) (session : Session Conversation α) :
    IO (Option α) := do
  let start ← IO.monoMsNow
  let rec resume (known : List Answer) : IO (Option α) := do
    let (result, conversation) := session { known }
    match conversation.wanted with
    | none => return result
    | some question =>
      match limits.session with
      | none => resume (known ++ [← limits.answer question])
      | some limit =>
        let spent := (← IO.monoMsNow) - start
        match ← within (limit - spent) (limits.answer question) with
        | some answer => resume (known ++ [answer])
        | none => return result
  resume []

/-! ## The bridge -/

structure Gate where
  config : Config
  bridge : Std.Mutex (Http.Bridge Conversation)

namespace Gate

def limits (gate : Gate) (c : Option Callback) : Limits :=
  { probe := gate.config.peers.filterTimeoutMs.toNat
    session := if c = some .endBlock then some gate.config.entropy.timeoutMs.toNat else none }

/-- A commit saves to the real disk. -/
def commit (bridge : Http.Bridge Conversation) : IO (Http.Response × Http.Bridge Conversation) := do
  let next := Application.nextState bridge.app.commitState
  let failure ← match next.path with
    | none => pure (some (StateError.unbound next.name))
    | some path => pure ((← enactAll (State.saveActions path next)).map (.io path))
  let (answer, app) := bridge.app.conclude failure
  return Http.Bridge.respond { bridge with app }
    ((answer.map Engine.CommitResponse.codec.write).mapError .unsaved)

def serve (gate : Gate) (request : Http.Request) : IO Http.Response :=
  gate.bridge.atomically do
    let bridge ← get
    let call := match Http.Endpoint.ofPath? (Http.path request.target) with
      | some (.callback c) => if c.isRead ∨ request.method = "POST" then some c else none
      | _ => none
    if call = some .commit then
      let (response, bridge) ← commit bridge
      set bridge
      return response
    else
      match ← converse (gate.limits call) (Http.Bridge.handle (bridge, .empty) request) with
      | none => return .plain 504
      | some (response, bridge, _) =>
        set { bridge with app := { bridge.app with staking := bridge.app.staking.settle } }
        return response

end Gate

def responseFor (response : Http.Response) : Async (Std.Http.Response Std.Http.Body.Full) :=
  let status := (Std.Http.Status.ofCode none (.ofNat response.status)).getD .internalServerError
  let builder := Std.Http.Response.withStatus status
  match response.content with
  | .document j => builder.json j.compact
  | .other => builder.text ""

def contentType (headers : Std.Http.Headers) : Option String :=
  (headers.get? .contentType).map (·.value)

instance : Std.Http.Server.Handler Gate where
  ResponseBody := Std.Http.Body.Full
  onRequest gate request := do
    let body : ByteArray ← request.body.readAll
    let response ← gate.serve
      { method := toString request.line.method, target := toString request.line.uri
        contentType := contentType request.line.headers, body := body.toList }
    responseFor response

/-! ## The run of a node -/

def log (launch : Launch) (level : Config.Level) (text : String) : IO Unit := do
  if launch.level.shows level then
    IO.println (toString (← IO.monoMsNow) ++ "  " ++ level.name.toUpper ++ " baseledger: " ++ text)

def socketAddress (address : Address) : Option Std.Net.SocketAddress :=
  match address.host with
  | .v4 _ => (Std.Net.IPv4Addr.ofString address.host.text).map fun a => .v4 ⟨a, .ofNat address.port⟩
  | .v6 _ => (Std.Net.IPv6Addr.ofString address.host.text).map fun a => .v6 ⟨a, .ofNat address.port⟩

def fail (message : String) : IO UInt32 := do
  IO.eprintln ("Error: " ++ message)
  return Launch.failureCode

def filesRead (config : Config) : List Path :=
  config.genesisPath :: Phase.all.map (Store.path ⟨config.dataDirectory⟩)

def boot (config : Config) : IO (Except Node.BootError (Node Conversation)) := do
  match config.rpcAddress with
  | .error e => return .error (.config e)
  | .ok address =>
    match ← enactAll [.createDirectories config.dataDirectory] with
    | some fault => return .error (.io fault)
    | none =>
      let disk ← survey (filesRead config)
      let limits : Limits := { probe := config.peers.filterTimeoutMs.toNat }
      match ← converse limits (Node.start Conversation.link config address disk) with
      | some result => return result
      | none => return .error (.io (.system "the platform does not answer"))

partial def waitForEnd (gate : Gate) (interrupt : AsyncTask Int) : IO Bool := do
  if ← IO.hasFinished interrupt then return true
  if ← gate.bridge.atomically (return (← get).cancelled) then return false
  IO.sleep 20
  waitForEnd gate interrupt

def serveNode (launch : Launch) (node : Node Conversation) : IO UInt32 := do
  match socketAddress node.address with
  | none => fail Run.Error.io.message
  | some address =>
    let run := Run.ofNode node .empty
    let gate : Gate := { config := launch.config, bridge := ← Std.Mutex.new run.bridge }
    let waiter ← Signal.Waiter.mk .sigint true
    let interrupt ← waiter.wait
    let server ← (Std.Http.Server.serve address gate).block
    let stopped ← waitForEnd gate interrupt
    if stopped then gate.bridge.atomically do set { run with bridge := ← get }.stop.bridge
    server.shutdownAndWait.block
    let bridge ← gate.bridge.atomically get
    let run := { run with bridge, stopped }.close
    -- An interrupt counts until the outcome is told.
    let run := if ← IO.hasFinished interrupt then run.stop else run
    match run.outcome with
    | .ok () => log launch .info "Node shutdown complete"
    | .error e => IO.eprintln ("Error: " ++ e.message)
    return Launch.exitCode run.outcome

def runNode (arguments : CommandLine.Arguments) : IO UInt32 := do
  let directory : Path := ⟨arguments.dataDirectory⟩
  let environment ← Config.overrides.mapM fun o => return (o.name, ← IO.getEnv o.name)
  let disk ← survey [directory.join Config.fileName]
  match Launch.prepare arguments disk fun name => (environment.lookup name).join with
  | .error e => fail e.message
  | .ok launch =>
    launch.greeting.forM (log launch .info)
    match ← boot launch.config with
    | .error e => fail e.message
    | .ok node =>
      log launch .info ("RPC: " ++ node.address.text)
      serveNode launch node

end StakeLedger.Program

open StakeLedger in
def main (arguments : List String) : IO UInt32 := do
  match CommandLine.parse arguments with
  | .error e =>
    IO.eprintln ("error: " ++ e.message ++ "\n\n" ++ CommandLine.helpText)
    return Launch.usageCode
  | .ok .help =>
    IO.print CommandLine.helpText
    return 0
  | .ok .version =>
    IO.print CommandLine.versionText
    return 0
  | .ok (.run arguments) =>
    try Program.runNode arguments
    catch e => Program.fail (toString e)

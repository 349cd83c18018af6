import KubeMQ.Client.Unary
import KubeMQ.Transport.StateMachine

/-!
# Creating a client

`Client::Create` (`client.cc`) with `GrpcTransport::Connect` (`grpc_transport.cc`). A transport is
modelled by its state machine and by what has happened to it so far: the transitions it accepted
and the callbacks it invoked. `CreateEnv` holds what the environment answers on the way.
-/

namespace KubeMQ

/-- The options that only `Create` reads; `callbacks` tells which state callbacks are set. -/
structure CreateOptions extends ClientOptions where
  waitForReady : Bool := true
  checkConnection : Bool := true
  callbacks : Callback → Bool := fun _ => false

/-- The answers of the environment: the generated client id, the status of the channel
credentials, whether the channel and the stub were created, whether the channel became ready within
the connection timeout, and what `Ping` depends on. -/
structure CreateEnv where
  uuid : String
  credentials : Status
  channel : Bool
  stub : Bool
  ready : Bool
  net : Net
  draw : ℕ → Int → Int → Int

/-- A transport with its history. -/
structure Connection where
  machine : StateMachine
  accepted : List Accepted
  fired : List Callback

namespace Connection

/-- Calls of `Transition` one after the other. -/
def transitions (c : Connection) (targets : List ConnectionState) : Connection :=
  let r := c.machine.transitions targets
  ⟨r.1, c.accepted ++ r.2.1, c.fired ++ r.2.2⟩

/-- A transport before `Connect`. -/
def fresh : Connection := ⟨.init .kIdle, [], []⟩

/-- The callbacks that are set in the options are installed in the state machine. -/
def install (c : Connection) (callbacks : Callback → Bool) : Connection :=
  let set := fun (m : StateMachine) cb => if callbacks cb then m.setCallback cb else m
  { c with machine := Callback.all.foldl set c.machine }

end Connection

namespace GrpcTransport

def connectError (code : ErrorCode) (message : String) : Status :=
  makeError code message "GrpcTransport::Connect" "" ""

def connect (opts : CreateOptions) (env : CreateEnv) : StatusOr Connection :=
  if !env.credentials.ok then .error env.credentials
  else if !env.channel then .error (connectError .kTransient "failed to create gRPC channel")
  else if !env.stub then .error (connectError .kTransient "failed to create gRPC stub")
  else if opts.waitForReady && !env.ready then
    .error (connectError .kTimeout "connection timeout waiting for channel to be ready")
  else .value (Connection.fresh.transitions [.kConnecting, .kReady])

end GrpcTransport

/-- What `Create` leaves behind: an error and the transport it destroyed, or a client. -/
inductive Created where
  | failed (s : Status) (c : Connection)
  | client (opts : CreateOptions) (c : Connection)

namespace Client

def create (options : CreateOptions) (env : CreateEnv) : Created :=
  let opts := { options with clientId := firstNonEmpty options.clientId env.uuid }
  let validation := opts.validate
  if !validation.ok then .failed validation .fresh
  else
    match GrpcTransport.connect opts env with
    | .error s => .failed s .fresh
    | .value c =>
      let c := c.install opts.callbacks
      if opts.checkConnection then
        match (ping ⟨opts.toClientOptions, env.net, env.uuid, env.draw⟩ freshWorld).1 with
        -- the destructor of the client closes the transport
        | .error s => .failed s (c.transitions [.kClosed])
        | .value _ => .client opts c
      else .client opts c

/-- `Create` gets as far as a connected transport. -/
def connects (options : CreateOptions) (env : CreateEnv) : Bool :=
  options.validate.ok && env.credentials.ok && env.channel && env.stub &&
    (!options.waitForReady || env.ready)

end Client

/-- The transport of a new client: connected before a callback was installed. -/
def connected (callbacks : Callback → Bool) : Connection :=
  (Connection.fresh.transitions [.kConnecting, .kReady]).install callbacks

lemma install_state (c : Connection) (callbacks : Callback → Bool) :
    (c.install callbacks).machine.state = c.machine.state ∧
      (c.install callbacks).machine.reconnecting = c.machine.reconnecting := by
  have hset : ∀ (m : StateMachine) (cb : Callback),
      (if callbacks cb then m.setCallback cb else m).state = m.state ∧
        (if callbacks cb then m.setCallback cb else m).reconnecting = m.reconnecting := by
    intro m cb
    split <;> exact ⟨rfl, rfl⟩
  simp only [Connection.install, Callback.all, List.foldl_cons, List.foldl_nil, hset, and_self]

/-- In a machine without callbacks exactly those of the options get installed. -/
lemma install_installed {c : Connection} (h : c.machine.installed = fun _ => false)
    (callbacks : Callback → Bool) : (c.install callbacks).machine.installed = callbacks := by
  have hset : ∀ (m : StateMachine) (cb x : Callback),
      (if callbacks cb then m.setCallback cb else m).installed x =
        if x = cb then callbacks cb || m.installed cb else m.installed x := by
    intro m cb x
    by_cases hx : x = cb
    · subst hx
      cases hc : callbacks x <;> simp [StateMachine.setCallback]
    · cases hc : callbacks cb <;> simp [StateMachine.setCallback, hx]
  funext x
  simp only [Connection.install, Callback.all, List.foldl_cons, List.foldl_nil, hset, h]
  cases x <;> simp

lemma connected_state (callbacks : Callback → Bool) :
    (connected callbacks).machine.state = .kReady ∧
      (connected callbacks).machine.reconnecting = false :=
  install_state _ callbacks

lemma connected_installed (callbacks : Callback → Bool) :
    (connected callbacks).machine.installed = callbacks :=
  install_installed rfl callbacks

/-- `Connect` fails, or ends in `kReady`. -/
lemma GrpcTransport.connect_cases (opts : CreateOptions) (env : CreateEnv) :
    (∃ e, GrpcTransport.connect opts env = .error e ∧
        (env.credentials.ok && env.channel && env.stub && (!opts.waitForReady || env.ready))
          = false) ∨
      (GrpcTransport.connect opts env = .value (Connection.fresh.transitions [.kConnecting, .kReady]) ∧
        (env.credentials.ok && env.channel && env.stub && (!opts.waitForReady || env.ready))
          = true) := by
  unfold GrpcTransport.connect
  cases hc : env.credentials.ok with
  | false => exact .inl ⟨_, rfl, rfl⟩
  | true =>
    cases hch : env.channel with
    | false => exact .inl ⟨_, rfl, rfl⟩
    | true =>
      cases hs : env.stub with
      | false => exact .inl ⟨_, rfl, rfl⟩
      | true =>
        cases hw : opts.waitForReady with
        | false => exact .inr ⟨rfl, rfl⟩
        | true =>
          cases hr : env.ready with
          | false => exact .inl ⟨_, rfl, rfl⟩
          | true => exact .inr ⟨rfl, rfl⟩

/-- `Create` fails before the transport connects, fails after that, or returns a client. -/
lemma Client.create_cases (options : CreateOptions) (env : CreateEnv) :
    (∃ e, create options env = .failed e .fresh ∧ connects options env = false) ∨
      (∃ e, create options env = .failed e ((connected options.callbacks).transitions [.kClosed]) ∧
        connects options env = true) ∨
      (∃ opts, create options env = .client opts (connected options.callbacks) ∧
        connects options env = true) := by
  have hvalidate : ∀ id, ({ options with clientId := id } : CreateOptions).validate
      = options.validate := fun _ => rfl
  unfold create connects
  simp only [hvalidate]
  cases hv : options.validate.ok with
  | false => exact .inl ⟨_, rfl, rfl⟩
  | true =>
    rcases GrpcTransport.connect_cases
        { options with clientId := firstNonEmpty options.clientId env.uuid } env with
      ⟨e, hc, hb⟩ | ⟨hc, hb⟩
    · rw [hc]
      exact .inl ⟨e, rfl, by simpa using hb⟩
    · have hb' : (true && env.credentials.ok && env.channel && env.stub &&
          (!options.waitForReady || env.ready)) = true := by simpa using hb
      rw [hc, hb']
      simp only [Bool.not_true, Bool.false_eq_true, if_false]
      apply Or.inr
      split
      · split
        · exact .inl ⟨_, rfl, trivial⟩
        · exact .inr ⟨_, rfl, trivial⟩
      · exact .inr ⟨_, rfl, trivial⟩

/-- The default options with every state callback set. -/
def observingOptions : CreateOptions := { callbacks := fun _ => true }

/-- A server that is up. -/
def serverUp : CreateEnv :=
  ⟨"u", .okStatus, true, true, true,
    Client.answering ⟨"", "", "", "", [], false, 0, true, "", ∅⟩, fun _ lo _ => lo⟩

lemma create_serverUp :
    ∃ opts, Client.create observingOptions serverUp = .client opts (connected fun _ => true) :=
  ⟨_, rfl⟩

end KubeMQ

import OpenGauss.Lib.Execution
import OpenGauss.Mcp.Server

/-! Why a connected client leaves the connections of the server, over every
interleaving of the calls. -/

set_option autoImplicit false

namespace OpenGauss.Mcp.Server

open Driver Gaussdb Lib.Execution

/-- The client that is connected under a name. -/
def client? (server : Server) (name : Text) : Option Client :=
  match server.connections name with
  | some (.connected client _ _ _) => some client
  | _ => none

/-- Whether the client under a name has exceeded its lifetime. -/
def expired (server : Server) (name : Text) : Bool :=
  match server.connections name with
  | some (.connected _ _ timeoutConfig connectedAt) =>
      timeoutConfig.connectionMaxLifetime.any fun maxLifetime =>
        maxLifetime ≤ server.now - connectedAt
  | _ => false

/-- The error of a query that a step reports: under which name, and of which client. -/
def reports (server : Server) (event : Event) : Option (Text × Client × QueryError) :=
  match event with
  | .locked id =>
      match server.calls id with
      | some { name, phase := .failed client error, .. } => some (name, client, error)
      | _ => none
  | _ => none

/-- The call whose connect attempt's result a step stores, and the name. -/
def stores (server : Server) (event : Event) : Option (Nat × Text) :=
  match event with
  | .locked id =>
      match server.calls id with
      | some { name, phase := .opened _ _ _, .. } => some (id, name)
      | _ => none
  | _ => none

/-- Between reading an entry and storing the result of a connect attempt there. -/
def underWay : Phase → Bool
  | .resolving | .connecting _ _ | .opened _ _ _ => true
  | _ => false

def UnderWay (id : Nat) (name : Text) (server : Server) : Prop :=
  ∃ call, server.calls id = some call ∧ call.name = name ∧ underWay call.phase = true

/-! ### One step -/

@[simp] theorem client?_setCall (server : Server) (id : Nat) (call : Call) (name : Text) :
    (server.setCall id call).client? name = server.client? name := rfl

theorem setCall_calls (server : Server) (id other : Nat) (call : Call) :
    (server.setCall id call).calls other =
      if other = id then some call else server.calls other :=
  Function.update_apply _ _ _ _

theorem client?_congr {server next : Server} (same : next.connections = server.connections)
    (name : Text) : next.client? name = server.client? name := by
  rw [client?, client?, same]

theorem client?_insert_same (server : Server) (name : Text) (state : ConnectionState) :
    (server.insert name state).client? name =
      match state with
      | .connected client _ _ _ => some client
      | _ => none := by
  rw [client?, insert]
  simp only [Function.update_self]
  cases state <;> rfl

theorem client?_insert_other (server : Server) {name other : Text} (apart : other ≠ name)
    (state : ConnectionState) : (server.insert name state).client? other = server.client? other := by
  rw [client?, insert]
  simp only [Function.update_of_ne apart]
  rfl

section Settings

variable {settings : Settings} {server next : Server}

/-- What a step does to a call that waits for something other than the lock. -/
structure Waits (settings : Settings) (server after : Server) (call : Call) (phase : Phase) : Prop where
  connections : after.connections = server.connections
  calls : after.calls = server.calls
  underWay : underWay phase = true → underWay call.phase = true
  fails : ∀ client error, phase = .failed client error → downgrades settings call.name error = true

theorem resume_cases {event : Event} {call : Call} {after : Server} {phase : Phase}
    (resumed : server.resume settings call event = some (after, phase)) :
    (∃ id, event = .locked id ∧ server.locked settings call = some (after, phase)) ∨
      Waits settings server after call phase := by
  obtain ⟨name, probe, waits⟩ := call
  cases event with
  | locked id => exact .inl ⟨id, rfl, resumed⟩
  | resolved id result =>
      refine .inr ?_
      cases waits with
      | resolving =>
          cases result <;> cases resumed <;> exact ⟨rfl, rfl, fun _ => rfl, nofun⟩
      | _ => cases resumed
  | connected id result =>
      refine .inr ?_
      cases waits with
      | connecting url timeoutConfig =>
          cases result <;> cases resumed <;> exact ⟨rfl, rfl, fun _ => rfl, nofun⟩
      | _ => cases resumed
  | queried id result =>
      refine .inr ?_
      cases waits with
      | querying client =>
          cases result with
          | ok => cases resumed; exact ⟨rfl, rfl, nofun, nofun⟩
          | error error =>
              cases downgraded : downgrades settings name error with
              | true =>
                  simp only [resume, downgraded, if_true] at resumed
                  cases resumed
                  refine ⟨rfl, rfl, nofun, fun other found same => ?_⟩
                  cases same
                  exact downgraded
              | false =>
                  simp only [resume, downgraded] at resumed
                  cases resumed
                  exact ⟨rfl, rfl, nofun, nofun⟩
      | _ => cases resumed
  | answered id =>
      refine .inr ?_
      cases waits with
      | querying client => cases resumed; exact ⟨rfl, rfl, nofun, nofun⟩
      | _ => cases resumed
  | _ => cases resumed

/-- The call that a step takes on. -/
def callOf : Event → Option Nat
  | .locked id | .resolved id _ | .connected id _ | .queried id _ | .answered id => some id
  | _ => none

/-- A step starts a call, is none of a call, or takes one on from where it waits. -/
theorem step_resumes {event : Event} (stepped : server.step settings event = some next) :
    callOf event = none ∧
        ((∃ id call, server.calls id = none ∧ call.phase = .starting ∧
            next = server.setCall id call) ∨
          (next.connections = server.connections ∧ next.calls = server.calls)) ∨
      ∃ id call after phase, callOf event = some id ∧ server.calls id = some call ∧
        server.resume settings call event = some (after, phase) ∧
        next = after.setCall id { call with phase } := by
  have begins {id : Nat} {name : Text} {probe : Bool}
      (begun : server.begin id name probe = some next) :
      ∃ id call, server.calls id = none ∧ call.phase = .starting ∧ next = server.setCall id call := by
    rw [Server.begin] at begun
    split at begun
    · cases begun
    · next fresh =>
        cases begun
        exact ⟨id, _, Option.not_isSome_iff_eq_none.mp fresh, rfl, rfl⟩
  cases event with
  | called id connectionName => exact .inl ⟨rfl, .inl (begins stepped)⟩
  | probed id => exact .inl ⟨rfl, .inl (begins stepped)⟩
  | closed client => cases stepped; exact .inl ⟨rfl, .inr ⟨rfl, rfl⟩⟩
  | passed time => cases stepped; exact .inl ⟨rfl, .inr ⟨rfl, rfl⟩⟩
  | locked id | resolved id _ | connected id _ | queried id _ | answered id =>
      rw [Server.step] at stepped
      split at stepped
      · cases stepped
      · next call present =>
          split at stepped
          · cases stepped
          · next after phase resumed =>
              cases stepped
              exact .inr ⟨id, call, after, phase, rfl, present, resumed, rfl⟩

/-- What a step does to the calls, where those that wait for the lock are told
from the others. -/
theorem step_cases {event : Event} (stepped : server.step settings event = some next) :
    (∃ id call, server.calls id = none ∧ call.phase = .starting ∧ next = server.setCall id call) ∨
      (next.connections = server.connections ∧ next.calls = server.calls) ∨
      ∃ id call after phase, server.calls id = some call ∧
        (event = .locked id ∧ server.locked settings call = some (after, phase) ∨
          Waits settings server after call phase) ∧
        next = after.setCall id { call with phase } := by
  rcases step_resumes stepped with ⟨-, starts | quiet⟩ | ⟨id, call, after, phase, own, present,
    resumed, same⟩
  · exact .inl starts
  · exact .inr (.inl quiet)
  · refine .inr (.inr ⟨id, call, after, phase, present, ?_, same⟩)
    rcases resume_cases resumed with ⟨other, rfl, done⟩ | waits
    · obtain rfl := Option.some.inj own
      exact .inl ⟨rfl, done⟩
    · exact .inr waits

/-! ### With the lock -/

/-- Reading the entry of a name leaves the client there alone, unless it is
closed or has exceeded its lifetime. -/
theorem getClientFor_client? {name other : Text} {client : Client}
    (live : server.client? other = some client)
    (evicted : (server.getClientFor settings name).1.client? other ≠ some client) :
    client ∈ server.closed ∨ server.expired other = true := by
  by_cases apart : other = name
  · subst apart
    rw [client?] at live
    split at live
    · next url timeoutConfig connectedAt found =>
        cases live
        by_cases open_ : client ∉ server.closed
        · refine .inr ?_
          simp only [getClientFor, found, if_pos open_] at evicted
          rw [expired]
          simp only [found]
          split at evicted
          · next maxLifetime limited =>
              rw [limited, Option.any_some, decide_eq_true_eq]
              by_contra young
              rw [if_neg young] at evicted
              exact evicted (by rw [client?, found])
          · exact absurd (by rw [client?, found]) evicted
        · exact .inl (not_not.mp open_)
    · cases live
  · refine absurd live fun live => evicted ?_
    rw [getClientFor]
    split
    · split
      · split
        · split
          · exact (client?_insert_other server apart _).trans live
          · exact live
        · exact live
      · exact (client?_insert_other server apart _).trans live
    all_goals exact live

/-- A call that goes on to a connect attempt leaves no client under its name. -/
theorem getClientFor_underWay {name : Text}
    (starts : underWay (server.getClientFor settings name).2 = true) :
    (server.getClientFor settings name).1.client? name = none := by
  cases found : server.connections name with
  | none =>
      simp only [getClientFor, found] at starts
      cases starts
  | some state =>
      cases state with
      | connected client url timeoutConfig connectedAt =>
          simp only [getClientFor, found] at starts ⊢
          by_cases open_ : client ∉ server.closed
          · cases limited : timeoutConfig.connectionMaxLifetime with
            | none =>
                simp only [if_pos open_, limited] at starts
                cases starts
            | some maxLifetime =>
                by_cases old : maxLifetime ≤ server.now - connectedAt
                · simp only [if_pos open_, if_pos old]
                  exact client?_insert_same server name _
                · simp only [if_pos open_, limited, if_neg old] at starts
                  cases starts
          · simp only [if_neg open_]
            exact client?_insert_same server name _
      | _ => simp only [getClientFor, found, client?]

theorem tryConnect_underWay {name : Text} (starts : underWay (server.tryConnect name).2 = true) :
    (server.tryConnect name).1.client? name = none := by
  rw [tryConnect] at starts ⊢
  split at starts
  · next url timeoutConfig found => rw [client?, found]
  · cases starts

theorem downgradeOnError_client? {name other : Text} {client : Client}
    (live : server.client? other = some client)
    (evicted : (server.downgradeOnError name).client? other ≠ some client) : other = name := by
  by_contra apart
  refine evicted ?_
  rw [downgradeOnError]
  split
  · exact (client?_insert_other server apart _).trans live
  · exact live

theorem storeResult_client? {call : Call} {other : Text} {client : Client} {url : Text}
    {timeoutConfig : TimeoutConfig} {result : Except Text Client}
    (live : server.client? other = some client)
    (evicted : (server.storeResult call url timeoutConfig result).1.client? other ≠ some client) :
    other = call.name := by
  by_contra apart
  refine evicted ?_
  cases result with
  | ok opened => exact (client?_insert_other server apart _).trans live
  | error message => exact (client?_insert_other server apart _).trans live

/-- The three points where a call takes the lock. -/
theorem locked_cases {call : Call} {after : Server} {phase : Phase}
    (locks : server.locked settings call = some (after, phase)) :
    (call.phase = .starting ∧ (after, phase) =
      if call.probe then server.tryConnect call.name
      else server.getClientFor settings call.name) ∨
      (∃ url timeoutConfig result, call.phase = .opened url timeoutConfig result ∧
        (after, phase) = server.storeResult call url timeoutConfig result) ∨
      ∃ client error, call.phase = .failed client error ∧
        (after, phase) = (server.downgradeOnError call.name, .finished (.error (.query error))) := by
  rw [Server.locked] at locks
  split at locks
  · next starts => exact .inl ⟨starts, (Option.some.inj locks).symm⟩
  · next url timeoutConfig result opened =>
      exact .inr (.inl ⟨url, timeoutConfig, result, opened, (Option.some.inj locks).symm⟩)
  · next client error fails =>
      exact .inr (.inr ⟨client, error, fails, (Option.some.inj locks).symm⟩)
  · cases locks

theorem tryConnect_fst (name : Text) : (server.tryConnect name).1 = server := by
  rw [tryConnect]
  split <;> rfl

theorem getClientFor_calls (name : Text) :
    (server.getClientFor settings name).1.calls = server.calls := by
  rw [getClientFor]
  split
  · split
    · split
      · split <;> rfl
      · rfl
    · rfl
  all_goals rfl

theorem locked_calls {call : Call} {after : Server} {phase : Phase}
    (locks : server.locked settings call = some (after, phase)) : after.calls = server.calls := by
  obtain ⟨-, same⟩ | ⟨url, timeoutConfig, result, -, same⟩ | ⟨client, error, -, same⟩ :=
    locked_cases locks
  · rw [show after = (after, phase).1 from rfl, same]
    split
    · rw [tryConnect_fst]
    · exact getClientFor_calls call.name
  · rw [show after = (after, phase).1 from rfl, same]
    cases result <;> rfl
  · rw [show after = (after, phase).1 from rfl, same]
    change (server.downgradeOnError call.name).calls = server.calls
    rw [downgradeOnError]
    split <;> rfl

theorem locked_underWay {call : Call} {after : Server} {phase : Phase}
    (locks : server.locked settings call = some (after, phase)) (starts : underWay phase = true) :
    after.client? call.name = none := by
  obtain ⟨-, same⟩ | ⟨url, timeoutConfig, result, -, same⟩ | ⟨client, error, -, same⟩ :=
    locked_cases locks
  · rw [show phase = (after, phase).2 from rfl, same] at starts
    rw [show after = (after, phase).1 from rfl, same]
    split
    · next probe => exact tryConnect_underWay (by rwa [if_pos probe] at starts)
    · next tool => exact getClientFor_underWay (by rwa [if_neg tool] at starts)
  · rw [show phase = (after, phase).2 from rfl, same] at starts
    cases result <;> cases probe : call.probe <;> simp [storeResult, probe, underWay] at starts
  · rw [show phase = (after, phase).2 from rfl, same] at starts
    cases starts

theorem getClientFor_unfailed (name : Text) (client : Client) (error : QueryError) :
    (server.getClientFor settings name).2 ≠ .failed client error := by
  rw [getClientFor]
  split
  · split
    · split
      · split <;> nofun
      · nofun
    · nofun
  all_goals nofun

theorem locked_unfailed {call : Call} {after : Server} {phase : Phase}
    (locks : server.locked settings call = some (after, phase)) (client : Client)
    (error : QueryError) : phase ≠ .failed client error := by
  obtain ⟨-, same⟩ | ⟨url, timeoutConfig, result, -, same⟩ | ⟨other, found, -, same⟩ :=
    locked_cases locks
  · rw [show phase = (after, phase).2 from rfl, same]
    split
    · rw [tryConnect]
      split <;> nofun
    · exact getClientFor_unfailed call.name client error
  · rw [show phase = (after, phase).2 from rfl, same]
    cases result <;> cases probe : call.probe <;> simp [storeResult, probe]
  · rw [show phase = (after, phase).2 from rfl, same]
    nofun

/-! ### A run -/

/-- A call that is under way after a step was so before, or has just found its
name without a client. -/
theorem underWay_comes (id : Nat) (name : Text) (server : Server) (event : Event) (next : Server)
    (stepped : server.step settings event = some next) (now : UnderWay id name next) :
    UnderWay id name server ∨ UnderWay id name next ∧ next.client? name = none := by
  have copied {other : Nat} {call : Call} {after : Server} (apart : id ≠ other)
      (calls : after.calls = server.calls) (same : next = after.setCall other call) :
      UnderWay id name server := by
    obtain ⟨own, present, rest⟩ := now
    rw [same, setCall_calls, if_neg apart, calls] at present
    exact ⟨own, present, rest⟩
  obtain ⟨other, call, -, starts, same⟩ | ⟨-, calls⟩ |
    ⟨other, call, after, phase, present, taken, same⟩ := step_cases stepped
  · by_cases own : id = other
    · subst own
      obtain ⟨call', present, -, under⟩ := now
      rw [same, setCall_calls, if_pos rfl] at present
      cases present
      rw [starts] at under
      cases under
    · exact .inl (copied own rfl same)
  · obtain ⟨call, present, rest⟩ := now
    exact .inl ⟨call, calls ▸ present, rest⟩
  · obtain ⟨-, locks⟩ | waits := taken
    · by_cases own : id = other
      · subst own
        refine .inr ⟨now, ?_⟩
        obtain ⟨call', here, rfl, under⟩ := now
        rw [same, setCall_calls, if_pos rfl] at here
        cases here
        have left := locked_underWay locks under
        rw [same, client?_setCall]
        exact left
      · exact .inl (copied own (locked_calls locks) same)
    · by_cases own : id = other
      · subst own
        obtain ⟨call', here, named, under⟩ := now
        rw [same, setCall_calls, if_pos rfl] at here
        cases here
        exact .inl ⟨call, present, named, waits.underWay under⟩
      · exact .inl (copied own waits.calls same)

/-- A call reports only the errors that downgrade its connection. -/
def FailsRight (settings : Settings) (server : Server) : Prop :=
  ∀ id call client error, server.calls id = some call → call.phase = .failed client error →
    downgrades settings call.name error = true

theorem failsRight_step (server : Server) (event : Event) (next : Server)
    (before : FailsRight settings server) (stepped : server.step settings event = some next) :
    FailsRight settings next := by
  intro id call client error present fails
  obtain ⟨other, started, -, starts, same⟩ | ⟨-, calls⟩ |
    ⟨other, taken, after, phase, here, takes, same⟩ := step_cases stepped
  · rw [same, setCall_calls] at present
    split at present
    · cases present
      rw [starts] at fails
      cases fails
    · exact before id call client error present fails
  · exact before id call client error (calls ▸ present) fails
  · have calls : after.calls = server.calls := by
      obtain ⟨-, locks⟩ | waits := takes
      · exact locked_calls locks
      · exact waits.calls
    rw [same, setCall_calls, calls] at present
    split at present
    · cases present
      obtain ⟨-, locks⟩ | waits := takes
      · exact absurd fails (locked_unfailed locks client error)
      · exact waits.fails client error fails
    · exact before id call client error present fails

/-- What evicts a client, by design: it is closed, it has exceeded its lifetime,
or a query on it failed with an error of the connection, or was cancelled where
that is to end the connection. -/
def Reason (settings : Settings) (server : Server) (event : Event) (name : Text)
    (client : Client) : Prop :=
  client ∈ server.closed ∨ server.expired name = true ∨
    server.reports event = some (name, client, .connection) ∨
    server.reports event = some (name, client, .queryCanceled) ∧
      settings.timeoutAction name = .disconnect

/-- A step of a call that does not know the client: it reports an error of
another client, or it stores the result of a connect attempt that was under way
before the client was there. -/
def Overtaken (past : List Server) (server : Server) (event : Event) (name : Text)
    (client : Client) : Prop :=
  (∃ other error, other ≠ client ∧ server.reports event = some (name, other, error)) ∨
    ∃ id, server.stores event = some (id, name) ∧
      ∃ earlier ∈ past, UnderWay id name earlier ∧ earlier.client? name = none

theorem reports_of_failed {id : Nat} {call : Call} {client : Client} {error : QueryError}
    (present : server.calls id = some call) (fails : call.phase = .failed client error) :
    server.reports (.locked id) = some (call.name, client, error) := by
  obtain ⟨name, probe, phase⟩ := call
  cases fails
  simp only [reports, present]

theorem stores_of_opened {id : Nat} {call : Call} {url : Text} {timeoutConfig : TimeoutConfig}
    {result : Except Text Client} (present : server.calls id = some call)
    (opened : call.phase = .opened url timeoutConfig result) :
    server.stores (.locked id) = some (id, call.name) := by
  obtain ⟨name, probe, phase⟩ := call
  cases opened
  simp only [stores, present]

end Settings

/-- A server with one connection, before its first call. -/
def oneConnection : Server where
  connections := Function.update (fun _ => none) "main".toList
    (some (.connecting "host=db".toList TimeoutConfig.default))
  calls _ := none
  closed := []
  clients := 0
  now := 0

/-- Settings with an action for cancelled queries. -/
def onTimeout (timeoutAction : TimeoutAction) : Settings where
  defaultName := "main".toList
  timeoutConfigs _ := some { TimeoutConfig.default with timeoutAction }

/-- A tool call that opens a client. -/
def opens (id : Nat) : List Event := [.called id none, .locked id, .connected id (.ok ()), .locked id]

/-- After a run, a step evicts a client that is neither closed nor has exceeded
its lifetime, and reports no error of the connection on it. -/
def evictsLive (settings : Settings) (events : List Event) (event : Event) (client : Client) : Bool :=
  match execute (step settings) oneConnection events with
  | none => false
  | some server =>
      match step settings server event with
      | none => false
      | some next =>
          server.client? "main".toList = some client && next.client? "main".toList ≠ some client &&
            client ∉ server.closed && !server.expired "main".toList &&
            server.reports event ≠ some ("main".toList, client, .connection)

end OpenGauss.Mcp.Server

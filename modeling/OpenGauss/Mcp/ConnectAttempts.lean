import OpenGauss.Mcp.ServerProperties

/-! The connect attempts that are in flight at the same time, over every
interleaving of the calls. -/

set_option autoImplicit false

namespace OpenGauss.Mcp.Server

open Driver Gaussdb Lib.Execution

/-- Before the connect attempt of a call, while it is in flight, and after it.
It is in flight until its result is stored. -/
def stage : Phase → Nat
  | .starting | .resolving => 0
  | .connecting _ _ | .opened _ _ _ => 1
  | .querying _ | .failed _ _ | .finished _ => 2

def InFlight (id : Nat) (name : Text) (server : Server) : Prop :=
  ∃ call, server.calls id = some call ∧ call.name = name ∧ stage call.phase = 1

/-- The name that a step begins a connect attempt for: a call finds an entry to
connect to, or its resolver has answered. -/
def begins (server : Server) (event : Event) : Option Text :=
  match event with
  | .locked id =>
      match server.calls id with
      | some { name, probe, phase := .starting } =>
          match server.connections name with
          | some (.connecting _ _) => some name
          | some (.unavailable _) => if probe then none else some name
          | some (.connected client _ _ _) =>
              if !probe && (client ∈ server.closed || server.expired name) then some name else none
          | _ => none
      | _ => none
  | .resolved id (.ok _) =>
      match server.calls id with
      | some { name, phase := .resolving, .. } => some name
      | _ => none
  | _ => none

/-- A step begins no connect attempt for a name that has one in flight. -/
def BeginsAlone (server : Server) (event : Event) : Prop :=
  ∀ name id, server.begins event = some name → ¬InFlight id name server

/-- No name has two connect attempts in flight. -/
def Alone (server : Server) : Prop :=
  ∀ name id other, InFlight id name server → InFlight other name server → id = other

/-- The call whose new client a step stores, with the name and the client. -/
def storesClient (server : Server) (event : Event) : Option (Nat × Text × Client) :=
  match event with
  | .locked id =>
      match server.calls id with
      | some { name, phase := .opened _ _ (.ok client), .. } => some (id, name, client)
      | _ => none
  | _ => none

/-! ### One step -/

theorem stage_starting : stage .starting = 0 := rfl

section Settings

variable {settings : Settings} {server next : Server}

theorem getClientFor_stage (id : Nat) (name : Text)
    (present : server.calls id = some ⟨name, false, .starting⟩) :
    server.begins (.locked id) =
      if stage (server.getClientFor settings name).2 = 1 then some name else none := by
  simp only [begins, present]
  cases found : server.connections name with
  | none => simp [getClientFor, found, stage]
  | some state =>
      cases state with
      | connected client url timeoutConfig connectedAt =>
          by_cases open_ : client ∉ server.closed
          · cases limited : timeoutConfig.connectionMaxLifetime with
            | none => simp [getClientFor, found, open_, limited, expired, stage]
            | some maxLifetime =>
                by_cases old : maxLifetime ≤ server.now - connectedAt
                · simp [getClientFor, found, open_, limited, expired, old, stage]
                · simp [getClientFor, found, open_, limited, expired, old, stage]
          · simp [getClientFor, found, not_not.mp open_, stage]
      | _ => simp [getClientFor, found, stage]

theorem tryConnect_stage (id : Nat) (name : Text)
    (present : server.calls id = some ⟨name, true, .starting⟩) :
    server.begins (.locked id) =
      if stage (server.tryConnect name).2 = 1 then some name else none := by
  simp only [begins, present]
  cases found : server.connections name with
  | none => simp [tryConnect, found, stage]
  | some state =>
      cases state with
      | _ => simp [tryConnect, found, stage]

theorem storeResult_stage (call : Call) (url : Text) (timeoutConfig : TimeoutConfig)
    (result : Except Text Client) :
    stage (server.storeResult call url timeoutConfig result).2 = 2 := by
  cases result with
  | ok client =>
      cases probe : call.probe with
      | _ => simp [storeResult, probe, stage]
  | error message => rfl

/-- A call goes on from stage to stage, and a step begins a connect attempt
exactly when the call comes to it. -/
theorem resume_stage {event : Event} {id : Nat} {call : Call} {after : Server} {phase : Phase}
    (own : callOf event = some id) (present : server.calls id = some call)
    (resumed : server.resume settings call event = some (after, phase)) :
    stage call.phase ≤ stage phase ∧
      server.begins event =
        if stage call.phase = 0 ∧ stage phase = 1 then some call.name else none := by
  obtain ⟨name, probe, waits⟩ := call
  cases event with
  | locked other =>
      obtain rfl := Option.some.inj own
      cases waits with
      | starting =>
          refine ⟨Nat.zero_le _, ?_⟩
          cases probe with
          | true =>
              have same : (server.tryConnect name).2 = phase :=
                congrArg Prod.snd (Option.some.inj resumed)
              rw [tryConnect_stage other name present, same, stage_starting]
              simp only [true_and]
          | false =>
              have same : (server.getClientFor settings name).2 = phase :=
                congrArg Prod.snd (Option.some.inj resumed)
              rw [@getClientFor_stage settings server other name present, same,
                stage_starting]
              simp only [true_and]
      | opened url timeoutConfig result =>
          have last := @storeResult_stage server
            ⟨name, probe, .opened url timeoutConfig result⟩ url timeoutConfig result
          have same : (server.storeResult _ url timeoutConfig result).2 = phase :=
            congrArg Prod.snd (Option.some.inj resumed)
          rw [same] at last
          rw [last]
          simp [begins, present, stage]
      | failed client error =>
          cases resumed
          simp [begins, present, stage]
      | _ => cases resumed
  | resolved other result =>
      obtain rfl := Option.some.inj own
      cases waits with
      | resolving =>
          cases result with
          | ok url =>
              cases resumed
              simp [begins, present, stage]
          | error message =>
              cases resumed
              simp [begins, stage]
      | _ => cases resumed
  | connected other result =>
      cases waits with
      | connecting url timeoutConfig =>
          cases result <;> cases resumed <;> simp [begins, stage]
      | _ => cases resumed
  | queried other result =>
      cases waits with
      | querying client =>
          cases result with
          | ok => cases resumed; simp [begins, stage]
          | error error =>
              cases downgraded : downgrades settings name error with
              | _ =>
                  simp only [resume, downgraded] at resumed
                  cases resumed
                  simp [begins, stage]
      | _ => cases resumed
  | answered other =>
      cases waits with
      | querying client => cases resumed; simp [begins, stage]
      | _ => cases resumed
  | _ => cases own

theorem begins_none {event : Event} (other : callOf event = none) : server.begins event = none := by
  cases event with
  | called | probed | closed | passed => rfl
  | _ => cases other

theorem resume_calls {event : Event} {call : Call} {after : Server} {phase : Phase}
    (resumed : server.resume settings call event = some (after, phase)) :
    after.calls = server.calls := by
  rcases resume_cases resumed with ⟨id, rfl, locks⟩ | waits
  · exact locked_calls locks
  · exact waits.calls

/-- A step starts calls only. -/
structure Rests (server next : Server) : Prop where
  kept : ∀ id call, server.calls id = some call → next.calls id = some call
  came : ∀ id call, next.calls id = some call →
    server.calls id = some call ∨ stage call.phase = 0

/-- A step takes a call on, and begins a connect attempt if the call comes to it. -/
structure Moves (server next : Server) (event : Event) (id : Nat) (call : Call) (phase : Phase) :
    Prop where
  present : server.calls id = some call
  own : next.calls id = some { call with phase }
  others : ∀ other, other ≠ id → next.calls other = server.calls other
  onward : stage call.phase ≤ stage phase
  begun : server.begins event =
    if stage call.phase = 0 ∧ stage phase = 1 then some call.name else none

theorem step_moves {event : Event} (stepped : server.step settings event = some next) :
    server.begins event = none ∧ Rests server next ∨
      ∃ id call phase, Moves server next event id call phase := by
  rcases step_resumes stepped with ⟨other, ⟨id, call, fresh, starts, rfl⟩ | ⟨-, same⟩⟩ |
    ⟨id, call, after, phase, own, present, resumed, rfl⟩
  · refine .inl ⟨begins_none other, ?_, ?_⟩
    · intro taken given found
      rw [setCall_calls]
      by_cases same : taken = id
      · subst same
        rw [fresh] at found
        cases found
      · rw [if_neg same, found]
    · intro taken given found
      rw [setCall_calls] at found
      by_cases same : taken = id
      · rw [if_pos same] at found
        obtain rfl := Option.some.inj found
        exact .inr (starts ▸ stage_starting)
      · rw [if_neg same] at found
        exact .inl found
  · refine .inl ⟨begins_none other, ?_, ?_⟩
    · intro taken given found
      rw [same, found]
    · intro taken given found
      rw [same] at found
      exact .inl found
  · obtain ⟨onward, begun⟩ := resume_stage own present resumed
    refine .inr ⟨id, call, phase, present, ?_, ?_, onward, begun⟩
    · rw [setCall_calls, if_pos rfl]
    · intro taken apart
      rw [setCall_calls, if_neg apart, resume_calls resumed]

/-- What is in flight after a step was so before, or the step has begun it. -/
theorem inFlight_comes {event : Event} {id : Nat} {name : Text}
    (stepped : server.step settings event = some next) (flies : InFlight id name next) :
    InFlight id name server ∨ server.begins event = some name ∧
      ∀ other, other ≠ id → InFlight other name next → InFlight other name server := by
  obtain ⟨call, found, named, flying⟩ := flies
  rcases step_moves stepped with ⟨-, rests⟩ | ⟨own, before, phase, moves⟩
  · rcases rests.came id call found with present | early
    · exact .inl ⟨call, present, named, flying⟩
    · rw [early] at flying
      cases flying
  · by_cases same : id = own
    · subst same
      rw [moves.own] at found
      obtain rfl := Option.some.inj found
      by_cases early : stage before.phase = 0
      · refine .inr ⟨?_, ?_⟩
        · rw [moves.begun, if_pos ⟨early, flying⟩]
          exact congrArg some named
        · intro other apart others
          obtain ⟨given, present, rest⟩ := others
          rw [moves.others other apart] at present
          exact ⟨given, present, rest⟩
      · have onward := moves.onward
        have flying : stage phase = 1 := flying
        exact .inl ⟨before, moves.present, named, by omega⟩
    · rw [moves.others id same] at found
      exact .inl ⟨call, found, named, flying⟩

/-- A step that begins a connect attempt leaves those of the other calls in flight. -/
theorem begins_inFlight {event : Event} {name : Text}
    (stepped : server.step settings event = some next) (begun : server.begins event = some name) :
    ∃ id, InFlight id name next ∧
      ∀ other given, InFlight other given server → other ≠ id ∧ InFlight other given next := by
  rcases step_moves stepped with ⟨quiet, -⟩ | ⟨own, before, phase, moves⟩
  · rw [quiet] at begun
    cases begun
  · rw [moves.begun] at begun
    split at begun
    · next comes =>
        obtain rfl := Option.some.inj begun
        refine ⟨own, ⟨_, moves.own, rfl, comes.2⟩, ?_⟩
        intro other given flies
        obtain ⟨call, found, named, flying⟩ := flies
        have apart : other ≠ own := by
          intro same
          subst same
          rw [moves.present] at found
          obtain rfl := Option.some.inj found
          omega
        rw [← moves.others other apart] at found
        exact ⟨apart, call, found, named, flying⟩
    · cases begun

/-- A call never goes back. -/
theorem step_onward {event : Event} {id : Nat} {call : Call}
    (stepped : server.step settings event = some next) (present : server.calls id = some call) :
    ∃ phase, next.calls id = some { call with phase } ∧ stage call.phase ≤ stage phase := by
  rcases step_moves stepped with ⟨-, rests⟩ | ⟨own, before, phase, moves⟩
  · exact ⟨call.phase, rests.kept id call present, Nat.le_refl _⟩
  · by_cases same : id = own
    · subst same
      rw [moves.present] at present
      obtain rfl := Option.some.inj present
      exact ⟨phase, moves.own, moves.onward⟩
    · exact ⟨call.phase, (moves.others id same).trans present, Nat.le_refl _⟩

/-! ### Stored clients -/

/-- An entry without a client adds none. -/
theorem insert_client? {name other : Text} {state : ConnectionState} {client : Client}
    (empty : ∀ client url timeoutConfig connectedAt,
      state ≠ .connected client url timeoutConfig connectedAt)
    (live : (server.insert name state).client? other = some client) :
    server.client? other = some client := by
  by_cases same : other = name
  · subst same
    rw [client?_insert_same] at live
    cases state with
    | connected client url timeoutConfig connectedAt => exact absurd rfl (empty _ _ _ _)
    | _ => cases live
  · rw [client?_insert_other server same] at live
    exact live

theorem getClientFor_adds {name other : Text} {client : Client}
    (live : (server.getClientFor settings name).1.client? other = some client) :
    server.client? other = some client := by
  rw [getClientFor] at live
  split at live
  · split at live
    · split at live
      · split at live
        · exact insert_client? (fun _ _ _ _ same => by cases same) live
        · exact live
      · exact live
    · exact insert_client? (fun _ _ _ _ same => by cases same) live
  all_goals exact live

theorem downgradeOnError_adds {name other : Text} {client : Client}
    (live : (server.downgradeOnError name).client? other = some client) :
    server.client? other = some client := by
  rw [downgradeOnError] at live
  split at live
  · exact insert_client? (fun _ _ _ _ same => by cases same) live
  · exact live

theorem storeResult_adds {call : Call} {url : Text} {timeoutConfig : TimeoutConfig}
    {result : Except Text Client} {other : Text} {client : Client}
    (live : (server.storeResult call url timeoutConfig result).1.client? other = some client) :
    server.client? other = some client ∨ call.name = other := by
  by_cases same : other = call.name
  · exact .inr same.symm
  · refine .inl ?_
    cases result with
    | ok opened => exact (client?_insert_other server same _).symm.trans live
    | error message => exact (client?_insert_other server same _).symm.trans live

/-- A client that a name has after a step was there before, or is the one that
a call in flight for that name has opened, and the call is then done. -/
theorem client?_comes {event : Event} {name : Text} {client : Client}
    (stepped : server.step settings event = some next) (live : next.client? name = some client) :
    server.client? name = some client ∨
      ∃ id, InFlight id name server ∧ ¬InFlight id name next := by
  rcases step_resumes stepped with ⟨-, ⟨id, call, -, -, rfl⟩ | ⟨same, -⟩⟩ |
    ⟨id, call, after, phase, own, present, resumed, rfl⟩
  · exact .inl live
  · exact .inl ((client?_congr same name).symm.trans live)
  · rw [client?_setCall] at live
    rcases resume_cases resumed with ⟨other, rfl, locks⟩ | waits
    · rcases locked_cases locks with ⟨-, result⟩ | ⟨url, timeoutConfig, answer, opened, result⟩ |
        ⟨failed, error, -, result⟩
      · rw [show after = (after, phase).1 from rfl, result] at live
        split at live
        · rw [tryConnect_fst] at live
          exact .inl live
        · exact .inl (getClientFor_adds live)
      · rw [show after = (after, phase).1 from rfl, result] at live
        rcases storeResult_adds live with before | named
        · exact .inl before
        · refine .inr ⟨id, ⟨call, present, named, by rw [opened]; rfl⟩, ?_⟩
          intro flies
          obtain ⟨given, found, -, flying⟩ := flies
          rw [setCall_calls, if_pos rfl] at found
          obtain rfl := Option.some.inj found
          have last : stage phase = 2 := by
            rw [show phase = (after, phase).2 from rfl, result]
            exact storeResult_stage call url timeoutConfig answer
          rw [last] at flying
          cases flying
      · rw [show after = (after, phase).1 from rfl, result] at live
        exact .inl (downgradeOnError_adds live)
    · exact .inl ((client?_congr waits.connections name).symm.trans live)

/-! ### Runs -/

/-- The step that begins a connect attempt next to another one leaves both in flight. -/
theorem beginsAlone_of_alone {event : Event} (stepped : server.step settings event = some next)
    (alone : next.Alone) : server.BeginsAlone event := by
  intro name other begun flies
  obtain ⟨id, own, others⟩ := begins_inFlight stepped begun
  obtain ⟨apart, still⟩ := others other name flies
  exact apart (alone name other id still own)

theorem alone_step {event : Event} (stepped : server.step settings event = some next)
    (alone : server.Alone) (guarded : server.BeginsAlone event) : next.Alone := by
  intro name id other flies others
  by_contra apart
  rcases inFlight_comes stepped flies with first | ⟨begun, still⟩
  · rcases inFlight_comes stepped others with second | ⟨begun, still⟩
    · exact apart (alone name id other first second)
    · exact guarded name id begun first
  · exact guarded name other begun (still other (Ne.symm apart) others)

variable {start : Server} {past : List (Server × Event)}

theorem run_onward (run : Run (step settings) start past server) {moment : Server × Event}
    (member : moment ∈ past) {id : Nat} {call : Call} (present : moment.1.calls id = some call) :
    ∃ phase, server.calls id = some { call with phase } ∧ stage call.phase ≤ stage phase := by
  induction run with
  | start => cases member
  | @step past state next event before stepped ih =>
      rcases List.mem_cons.mp member with rfl | earlier
      · exact step_onward stepped present
      · obtain ⟨phase, found, onward⟩ := ih earlier
        obtain ⟨later, last, further⟩ := step_onward stepped found
        exact ⟨later, last, Nat.le_trans onward further⟩

/-- While a connect attempt is in flight, no other client comes under its name. -/
theorem client?_kept (run : Run (step settings) start past server)
    (alone : ∀ moment ∈ past, moment.1.Alone) {id : Nat} {name : Text} {client : Client}
    (flies : InFlight id name server) (live : server.client? name = some client)
    {moment : Server × Event} (member : moment ∈ past) (flew : InFlight id name moment.1) :
    moment.1.client? name = some client := by
  induction run with
  | start => cases member
  | @step past state next event before stepped ih =>
      have between : InFlight id name state := by
        rcases List.mem_cons.mp member with rfl | earlier
        · exact flew
        · obtain ⟨call, present, named, flying⟩ := flew
          obtain ⟨phase, found, onward⟩ := run_onward before earlier present
          obtain ⟨later, last, further⟩ := step_onward stepped found
          obtain ⟨given, own, -, still⟩ := flies
          rw [last] at own
          obtain rfl := Option.some.inj own
          have still : stage later = 1 := still
          have further : stage phase ≤ stage later := further
          exact ⟨_, found, named, show stage phase = 1 by omega⟩
      have kept : state.client? name = some client := by
        rcases client?_comes stepped live with already | ⟨other, opened, done⟩
        · exact already
        · obtain rfl := alone _ List.mem_cons_self name id other between opened
          exact absurd flies done
      rcases List.mem_cons.mp member with rfl | earlier
      · exact kept
      · exact ih (fun moment inside => alone moment (List.mem_cons_of_mem _ inside)) between kept
          earlier

/-- A client that is stored over another one has been opened after that one was
stored: the other client was there as long as the connect attempt was in flight. -/
def OverwritesOlder (past : List (Server × Event)) : Prop :=
  ∀ later server event earlier, past = later ++ (server, event) :: earlier →
    ∀ id name client old, server.storesClient event = some (id, name, client) →
      server.client? name = some old →
        ∀ moment ∈ earlier, InFlight id name moment.1 → moment.1.client? name = some old

theorem inFlight_of_storesClient {event : Event} {id : Nat} {name : Text} {client : Client}
    (stores : server.storesClient event = some (id, name, client)) : InFlight id name server := by
  cases event with
  | locked own =>
      simp only [storesClient] at stores
      split at stores
      · next present =>
          cases stores
          exact ⟨_, present, rfl, rfl⟩
      · cases stores
  | _ => cases stores

theorem alone_of_beginsAlone (fresh : ∀ id, start.calls id = none)
    (run : Run (step settings) start past server)
    (guarded : ∀ moment ∈ past, moment.1.BeginsAlone moment.2) :
    (∀ moment ∈ past, moment.1.Alone) ∧ server.Alone := by
  induction run with
  | start =>
      refine ⟨fun _ member => absurd member List.not_mem_nil, ?_⟩
      intro name id other flies
      obtain ⟨call, present, -⟩ := flies
      rw [fresh id] at present
      cases present
  | @step past state next event before stepped ih =>
      obtain ⟨earlier, alone⟩ := ih fun moment inside => guarded moment (List.mem_cons_of_mem _ inside)
      exact ⟨List.forall_mem_cons.mpr ⟨alone, earlier⟩,
        alone_step stepped alone (guarded _ List.mem_cons_self)⟩

theorem overwritesOlder_of_alone (run : Run (step settings) start past server)
    (alone : ∀ moment ∈ past, moment.1.Alone) : OverwritesOlder past := by
  intro later state event earlier split id name client old stores live moment member flew
  subst split
  have inside : ∀ other ∈ earlier, other.1.Alone := fun other found =>
    alone other (List.mem_append_right later (List.mem_cons_of_mem _ found))
  exact client?_kept run.upTo inside (inFlight_of_storesClient stores) live member flew

end Settings

/-- Two calls find a connection closed, one after the other. -/
def bothReconnect : List Event :=
  opens 0 ++ [.closed 0, .called 1 none, .called 2 none, .locked 1, .locked 2]

end OpenGauss.Mcp.Server

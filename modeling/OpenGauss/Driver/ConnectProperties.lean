import OpenGauss.Driver.Connect

/-! Every host of a configuration is tried in turn, each with its own name, address and port. -/

set_option autoImplicit false

namespace OpenGauss.Driver

open Lib Lib.Attempts Protocol

namespace Config

structure Passes (config : Config) (numHosts : Nat) : Prop where
  count : max config.host.length config.hostaddr.length = numHosts
  positive : 0 < numHosts
  hosts : config.host = [] ∨ config.host.length = numHosts
  hostaddrs : config.hostaddr = [] ∨ config.hostaddr.length = numHosts
  ports : config.port.length ≤ 1 ∨ config.port.length = numHosts

theorem numHosts_ok_iff {config : Config} {numHosts : Nat} :
    config.numHosts = .ok numHosts ↔ config.Passes numHosts := by
  have host := List.length_eq_zero_iff (l := config.host)
  have hostaddr := List.length_eq_zero_iff (l := config.hostaddr)
  simp only [Config.numHosts, Bool.and_eq_true, List.isEmpty_iff, Bool.not_eq_true',
    List.isEmpty_eq_false_iff, bne_iff_ne, decide_eq_true_eq, ne_eq]
  constructor
  · intro accepted
    split at accepted
    · cases accepted
    · next present =>
        split at accepted
        · cases accepted
        · next paired =>
            split at accepted
            · cases accepted
            · next ports =>
                obtain rfl := Except.ok.inj accepted
                constructor
                all_goals grind
  · intro passes
    obtain ⟨rfl, positive, hosts, hostaddrs, ports⟩ := passes
    rw [if_neg (by grind), if_neg (by grind), if_neg (by grind)]

/-- What attempt number `i` uses: host `i`, if there is one, address `i` or else host `i`, and
port `i`, the only port, or the default one. -/
structure TargetOf (config : Config) (i : Nat) (target : Target) : Prop where
  hostname : ∀ name, target.hostname = some name ↔ config.host[i]? = some (.tcp name)
  addr : (∃ ipaddr, config.hostaddr[i]? = some ipaddr ∧ target.addr = .tcp ipaddr.display) ∨
    config.hostaddr = [] ∧ config.host[i]? = some target.addr
  port : config.port[i]? = some target.port ∨ config.port = [target.port] ∨
    config.port = [] ∧ target.port = 5432

theorem hostname_eq_some_iff (host : Option Host) (name : Text) :
    (match host with
      | some (.tcp host) => some host
      | some (.unix _) => none
      | none => none) = some name ↔ host = some (.tcp name) := by
  cases host with
  | none => simp
  | some host => cases host <;> simp

/-- Neither the indexing nor the `unwrap` of an address fails. -/
theorem Passes.target {config : Config} {numHosts i : Nat} (passes : config.Passes numHosts)
    (inside : i < numHosts) : ∃ target, config.target i = some target ∧ config.TargetOf i target := by
  have port : config.port[i]? = some ((config.port[i]?.or config.port.head?).getD 5432) ∨
      config.port = [(config.port[i]?.or config.port.head?).getD 5432] ∨
      config.port = [] ∧ (config.port[i]?.or config.port.head?).getD 5432 = 5432 := by
    rcases passes.ports with few | full
    · match config.port, few with
      | [], _ => exact .inr (.inr ⟨rfl, rfl⟩)
      | [port], _ => cases i <;> exact .inr (.inl rfl)
    · rw [List.getElem?_eq_getElem (full ▸ inside)]
      exact .inl rfl
  cases listed : config.hostaddr[i]? with
  | some ipaddr =>
      refine ⟨_, by rw [Config.target, listed]; rfl, ?_, .inl ⟨ipaddr, listed, rfl⟩, port⟩
      exact hostname_eq_some_iff _
  | none =>
      have absent : config.hostaddr = [] := by
        refine passes.hostaddrs.resolve_right fun full => ?_
        have beyond := List.getElem?_eq_none_iff.mp listed
        omega
      have full : config.host.length = numHosts := by
        rw [← passes.count, absent]
        exact (Nat.max_zero _).symm
      have found := List.getElem?_eq_getElem (l := config.host) (full ▸ inside)
      refine ⟨_, by rw [Config.target, listed, found]; rfl, ?_, .inr ⟨absent, found⟩, port⟩
      rw [found]
      exact hostname_eq_some_iff _

end Config

section

variable {World Connected : Type} {network : Network World Connected} {config : Config}
  {numHosts : Nat}

theorem visitingOrder_run {Item : Type} (network : Network World Connected) (config : Config)
    (items : List Item) (world : World) :
    ∃ order after, (visitingOrder network config items).run world = some (order, after) ∧
      order.Perm items ∧
      (config.loadBalanceHosts = .disable → order = items ∧ after = world) := by
  rw [visitingOrder]
  cases balance : config.loadBalanceHosts with
  | disable => exact ⟨items, world, rfl, .refl items, fun _ => ⟨rfl, rfl⟩⟩
  | random =>
      exact ⟨_, _, rfl, network.shuffle_perm items world, fun never => by cases never⟩

theorem visitingOrder_returns {Item : Type} (items : List Item) :
    Returns (visitingOrder network config items) := by
  intro world
  obtain ⟨order, after, ran, _⟩ := visitingOrder_run network config items world
  rw [ran]
  exact Option.some_ne_none _

theorem call_returns {Value : Type} (answer : World → Value × World) : Returns (call answer) :=
  fun _ => Option.some_ne_none _

/-- An attempt on one host returns, whatever the network answers. -/
theorem connectHost_returns (target : Target) : Returns (connectHost network config target) := by
  rw [connectHost]
  cases target.addr with
  | unix path => exact call_returns _
  | tcp host =>
      refine (call_returns _).bind fun answer => ?_
      cases answer with
      | error cause => exact returns_pure _
      | ok addrs =>
          refine (visitingOrder_returns addrs).bind fun addrs => ?_
          have tried := tryEach_returns none fun addr (_ : addr ∈ addrs) =>
            call_returns (network.connectOnce (.tcp addr) target.hostname target.port config)
          refine tried.bind fun answer => ?_
          cases answer <;> exact returns_pure _

theorem attemptHost_eq {i : Nat} {target : Target} (found : config.target i = some target) :
    attemptHost network config i = connectHost network config target := by
  rw [attemptHost, found]
  rfl

end

/-- How a visit of the hosts ends: at the first success, or with the error of the last attempt
once every host is tried. -/
structure Visits {Connected : Type} (order : List Nat)
    (calls : List (Nat × Except ConnectError Connected))
    (result : Except ConnectError Connected) : Prop where
  tried : calls.map Prod.fst <+: order
  once : (calls.map Prod.fst).Nodup
  success : ∀ connected, result = .ok connected →
    ∃ front i, calls = front ++ [(i, .ok connected)] ∧ ∀ call ∈ front, Failed call
  failure : ∀ error, result = .error error →
    calls.map Prod.fst = order ∧ (∀ call ∈ calls, Failed call) ∧
      ∃ front i, calls = front ++ [(i, .error error)]

section

variable {World Connected : Type} {network : Network World Connected} {config : Config}
  {numHosts : Nat}

theorem visit_ok {order : List Nat} {world after : World} {connected : Connected}
    (ran : (tryEach (attemptHost network config) none order).run world =
      some (.ok connected, after)) :
    (visit network config order).run world = some (.ok connected, after) := by
  rw [visit, StateT.run_bind, ran]
  rfl

theorem visit_error {order : List Nat} {world after : World} {error : ConnectError}
    (ran : (tryEach (attemptHost network config) none order).run world =
      some (.error (some error), after)) :
    (visit network config order).run world = some (.error error, after) := by
  rw [visit, StateT.run_bind, ran]
  rfl

/-- Once the checks have passed, a visit in any order returns. -/
theorem visit_visits (passes : config.Passes numHosts) {order : List Nat}
    (permuted : order.Perm (List.range numHosts)) (world : World) :
    ∃ calls result after, (visit network config order).run world = some (result, after) ∧
      InTurn (attemptHost network config) world order calls after ∧
      Visits order calls result := by
  have inside : ∀ i ∈ order, Returns (attemptHost network config i) := by
    intro i member
    obtain ⟨target, found, _⟩ := passes.target (List.mem_range.mp (permuted.mem_iff.mp member))
    rw [attemptHost_eq found]
    exact connectHost_returns target
  have once : order.Nodup := permuted.nodup_iff.mpr List.nodup_range
  obtain ⟨⟨answer, after⟩, ran⟩ :=
    Option.ne_none_iff_exists'.mp (tryEach_returns none inside world)
  obtain ⟨calls, made, ends⟩ := tryEach_run_iff.mp ran
  have tried := made.isPrefix
  have distinct := once.sublist tried.sublist
  cases answer with
  | ok connected =>
      refine ⟨calls, .ok connected, after, visit_ok ran, made, tried, distinct, ?_, ?_⟩
      · intro value same
        obtain rfl := Except.ok.inj same
        exact made.of_ok ends.symm
      · intro error same
        cases same
  | error last =>
      obtain ⟨all, failed, cause⟩ := made.of_error ends.symm
      rcases cause with ⟨rfl, _⟩ | ⟨front, i, cause, split, rfl⟩
      · -- there is a host, so the loop has made an attempt
        have none := (all ▸ permuted).length_eq
        rw [List.map_nil, List.length_nil, List.length_range] at none
        exact absurd none passes.positive.ne
      · refine ⟨calls, .error cause, after, visit_error ran, made, tried, distinct, ?_, ?_⟩
        · intro value same
          cases same
        · intro error same
          obtain rfl := Except.error.inj same
          exact ⟨all, failed, front, i, split⟩

/-- What `connect` does once its checks have passed: it visits the hosts in some order, the given
one without load balancing. -/
theorem connect_run (passes : config.Passes numHosts) (world : World) :
    ∃ order before, order.Perm (List.range numHosts) ∧
      (config.loadBalanceHosts = .disable → order = List.range numHosts ∧ before = world) ∧
      (connect network config).run world = (visit network config order).run before := by
  obtain ⟨order, before, ran, permuted, kept⟩ :=
    visitingOrder_run network config (List.range numHosts) world
  refine ⟨order, before, permuted, kept, ?_⟩
  rw [connect, Config.numHosts_ok_iff.mpr passes]
  dsimp only
  rw [StateT.run_bind, ran]
  rfl

end

/-- A configuration that passes the checks of `connect` has the right name, address and port for
each attempt, and its hosts are visited in any order, each at most once, up to the first success
or until all have failed. -/
theorem connect_visits {World Connected : Type} (network : Network World Connected)
    {config : Config} {numHosts : Nat} (checked : config.numHosts = .ok numHosts) :
    (∀ i < numHosts, ∃ target, config.TargetOf i target ∧
      attemptHost network config i = connectHost network config target) ∧
    (∀ order, order.Perm (List.range numHosts) → ∀ world, ∃ calls result after,
      (visit network config order).run world = some (result, after) ∧
      InTurn (attemptHost network config) world order calls after ∧
      Visits order calls result) ∧
    ∀ world, ∃ order before, order.Perm (List.range numHosts) ∧
      (config.loadBalanceHosts = .disable → order = List.range numHosts ∧ before = world) ∧
      (connect network config).run world = (visit network config order).run before := by
  have passes := Config.numHosts_ok_iff.mp checked
  refine ⟨?_, fun order permuted => visit_visits passes permuted, connect_run passes⟩
  intro i inside
  obtain ⟨target, found, uses⟩ := passes.target inside
  exact ⟨target, uses, attemptHost_eq found⟩

/-- A network where nothing answers. -/
def unreachableNetwork : Network Unit Unit where
  lookupHost _ _ world := (.ok [.v4 [127, 0, 0, 1]], world)
  shuffle items world := (items, world)
  shuffle_perm items _ := .refl items
  connectOnce _ _ _ _ world := (.error (.connect ⟨.other, "connection refused"⟩), world)

def twoHosts : Config where
  host := [.tcp "a".toList, .unix [47]]
  port := [5433]

/-- Both hosts of a configuration are visited, the second one first. -/
theorem connect_visits_twoHosts :
    ∃ calls result after,
      (visit unreachableNetwork twoHosts [1, 0]).run () = some (result, after) ∧
      InTurn (attemptHost unreachableNetwork twoHosts) () [1, 0] calls after ∧
      Visits [1, 0] calls result :=
  (@connect_visits Unit Unit unreachableNetwork twoHosts 2 rfl).2.1 [1, 0] (by decide) ()

end OpenGauss.Driver

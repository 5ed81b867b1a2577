import Mathlib.Data.List.Basic
import Mathlib.Logic.Function.Basic

/-! The life of one resource that is created, used and closed by requests in a queue. Its handles
count its owners; the last one that goes sends the request that closes it. Threads prepare their
requests before they send them. -/

set_option autoImplicit false

namespace OpenGauss.Lib

/-- What a request does with the resource. -/
inductive Act where
  | create
  | use
  | close
  deriving DecidableEq

/-- A thread between preparing a use and sending it, or another owner. -/
inductive Owner (Label : Type) where
  | thread (number : Nat)
  | other (label : Label)
  deriving DecidableEq

@[ext] structure Resource (Label : Type) where
  /-- The requests that are in the queue. -/
  history : List Act
  /-- The requests that threads are about to send. -/
  unsent : Nat → Option Act
  named : Bool
  /-- The request to create it is in the queue and has no answer yet. -/
  awaiting : Bool
  created : Bool
  owners : List (Owner Label)
  /-- Requests may be lost from now on. -/
  severed : Bool

namespace Resource

variable {Label : Type}

section

variable [DecidableEq Label] (r : Resource Label)

def pend (thread : Nat) (act : Act) : Resource Label :=
  { r with unsent := Function.update r.unsent thread (some act) }

/-- The thread has sent its request, which is in the queue then or lost. -/
def sent (thread : Nat) (act : Act) (delivered : Bool) : Resource Label :=
  { r with
    history := if delivered then r.history ++ [act] else r.history
    unsent := Function.update r.unsent thread none }

/-- An owner in the place of another. -/
def pass (before after : Owner Label) : Resource Label :=
  { r with owners := after :: r.owners.erase before }

/-- One move. -/
inductive Moves : Resource Label → Resource Label → Prop where
  | name {r : Resource Label} (fresh : r.named = false) : Moves r { r with named := true }
  | nameAndPend {r : Resource Label} (thread : Nat) (fresh : r.named = false) :
      Moves r ({ r with named := true }.pend thread .create)
  | sendCreate {r : Resource Label} {thread : Nat} (pending : r.unsent thread = some .create) :
      Moves r { r.sent thread .create true with awaiting := true }
  | created {r : Resource Label} (label : Label) (awaiting : r.awaiting = true) :
      Moves r { r with awaiting := false, created := true, owners := [.other label] }
  | refused {r : Resource Label} (awaiting : r.awaiting = true) :
      Moves r { r with awaiting := false }
  | use {r : Resource Label} {thread : Nat} (owned : r.owners ≠ []) (idle : r.unsent thread = none) :
      Moves r ({ r with owners := .thread thread :: r.owners }.pend thread .use)
  | sendUse {r : Resource Label} {thread : Nat} (label : Label) (delivered : Bool)
      (pending : r.unsent thread = some .use) (lost : delivered = false → r.severed = true) :
      Moves r ((r.sent thread .use delivered).pass (.thread thread) (.other label))
  | share {r : Resource Label} (label : Label) (owned : r.owners ≠ []) :
      Moves r { r with owners := .other label :: r.owners }
  | pass {r : Resource Label} {before : Label} (after : Label)
      (owned : .other before ∈ r.owners) : Moves r (r.pass (.other before) (.other after))
  | release {r : Resource Label} {label : Label} (owned : .other label ∈ r.owners)
      (more : r.owners.erase (.other label) ≠ []) :
      Moves r { r with owners := r.owners.erase (.other label) }
  | drop {r : Resource Label} {label : Label} {thread : Nat} (last : r.owners = [.other label])
      (idle : r.unsent thread = none) : Moves r ({ r with owners := [] }.pend thread .close)
  | forget {r : Resource Label} {label : Label} (last : r.owners = [.other label])
      (severed : r.severed = true) : Moves r { r with owners := [] }
  | sendClose {r : Resource Label} {thread : Nat} (delivered : Bool)
      (pending : r.unsent thread = some .close) (lost : delivered = false → r.severed = true) :
      Moves r (r.sent thread .close delivered)
  | loseCreate {r : Resource Label} {thread : Nat} (pending : r.unsent thread = some .create) :
      Moves r (r.sent thread .create false)
  | sever {r : Resource Label} : Moves r { r with severed := true }

end

/-- Created, then used, and closed at the end, as far as it has come. -/
def Orderly (history : List Act) : Prop :=
  ∃ uses, history <+: .create :: List.replicate uses .use ++ [.close]

/-- No thread is about to send anything. -/
def Idle (unsent : Nat → Option Act) : Prop := ∀ thread, unsent thread = none

/-- Exactly this thread is. -/
def Only (unsent : Nat → Option Act) (thread : Nat) (act : Act) : Prop :=
  ∀ other, unsent other = if other = thread then some act else none

/-- Where a resource is in its life. -/
inductive Phase (r : Resource Label) : Prop where
  | fresh (named : r.named = false) (history : r.history = []) (unsent : Idle r.unsent)
      (awaiting : r.awaiting = false) (created : r.created = false) (owners : r.owners = [])
  | named (named : r.named = true) (history : r.history = [])
      (unsent : Idle r.unsent ∨ ∃ thread, Only r.unsent thread .create)
      (awaiting : r.awaiting = false) (created : r.created = false) (owners : r.owners = [])
  | asked (named : r.named = true) (history : r.history = [.create]) (unsent : Idle r.unsent)
      (created : r.created = false) (owners : r.owners = [])
  | live (uses : Nat) (named : r.named = true)
      (history : r.history = .create :: List.replicate uses .use)
      (unsent : ∀ thread act, r.unsent thread = some act →
        act = .use ∧ .thread thread ∈ r.owners)
      (awaiting : r.awaiting = false) (owners : r.owners ≠ [])
  | dropping (uses : Nat) (thread : Nat) (named : r.named = true)
      (history : r.history = .create :: List.replicate uses .use)
      (unsent : Only r.unsent thread .close) (awaiting : r.awaiting = false) (owners : r.owners = [])
  | gone (uses : Nat) (named : r.named = true)
      (history : r.history = .create :: List.replicate uses .use ++ [.close] ∨
        r.history = .create :: List.replicate uses .use ∧ r.severed = true)
      (unsent : Idle r.unsent) (awaiting : r.awaiting = false) (owners : r.owners = [])

variable {r next : Resource Label}

/-! ### What threads are about to send -/

section

variable {unsent : Nat → Option Act} {thread : Nat} {act : Act}

theorem Idle.only (idle : Idle unsent) (thread : Nat) (act : Act) :
    Only (Function.update unsent thread (some act)) thread act := by
  intro other
  by_cases same : other = thread
  · simp [same]
  · simp [same, idle other]

theorem Only.idle (only : Only unsent thread act) : Idle (Function.update unsent thread none) := by
  intro other
  by_cases same : other = thread
  · simp [same]
  · simp [same, only other]

theorem Only.pending (only : Only unsent thread act) {other : Nat} {found : Act}
    (pending : unsent other = some found) : other = thread ∧ found = act := by
  rw [only other] at pending
  split at pending
  · next same => exact ⟨same, (Option.some.inj pending).symm⟩
  · cases pending

theorem Idle.not_pending (idle : Idle unsent) (pending : unsent thread = some act) : False := by
  rw [idle thread] at pending
  cases pending

end

/-! ### What is known in a phase -/

theorem Phase.nothing_created (phase : Phase r) (awaiting : r.awaiting = true) :
    r.named = true ∧ r.history = [.create] ∧ Idle r.unsent ∧ r.owners = [] := by
  cases phase with
  | asked named history unsent created owners => exact ⟨named, history, unsent, owners⟩
  | fresh _ _ _ other => simp [awaiting] at other
  | named _ _ _ other => simp [awaiting] at other
  | live _ _ _ _ other => simp [awaiting] at other
  | dropping _ _ _ _ _ other => simp [awaiting] at other
  | gone _ _ _ _ other => simp [awaiting] at other

/-- The phase of a resource that has an owner. -/
theorem Phase.owned (phase : Phase r) (owned : r.owners ≠ []) :
    r.named = true ∧ (∃ uses, r.history = .create :: List.replicate uses .use) ∧
      (∀ thread act, r.unsent thread = some act → act = .use ∧ .thread thread ∈ r.owners) ∧
      r.awaiting = false := by
  cases phase with
  | live uses named history unsent awaiting => exact ⟨named, ⟨uses, history⟩, unsent, awaiting⟩
  | fresh _ _ _ _ _ none => exact absurd none owned
  | named _ _ _ _ _ none => exact absurd none owned
  | asked _ _ _ _ none => exact absurd none owned
  | dropping _ _ _ _ _ _ none => exact absurd none owned
  | gone _ _ _ _ _ none => exact absurd none owned

/-- The phase of a resource that a thread is about to do something with. -/
theorem Phase.pending (phase : Phase r) {thread : Nat} {act : Act}
    (pending : r.unsent thread = some act) :
    r.named = true ∧ r.awaiting = false ∧
      (act = .create ∧ r.history = [] ∧ r.created = false ∧ r.owners = [] ∧
          Only r.unsent thread .create ∨
        act = .use ∧ .thread thread ∈ r.owners ∨
        act = .close ∧ (∃ uses, r.history = .create :: List.replicate uses .use) ∧
          r.owners = [] ∧ Only r.unsent thread .close) := by
  cases phase with
  | fresh _ _ idle => exact (idle.not_pending pending).elim
  | named named history unsent awaiting created owners =>
      rcases unsent with idle | ⟨other, only⟩
      · exact (idle.not_pending pending).elim
      · obtain ⟨rfl, rfl⟩ := only.pending pending
        exact ⟨named, awaiting, .inl ⟨rfl, history, created, owners, only⟩⟩
  | asked _ _ idle => exact (idle.not_pending pending).elim
  | live uses named history unsent awaiting owners =>
      exact ⟨named, awaiting, .inr (.inl (unsent thread act pending))⟩
  | dropping uses other named history only awaiting owners =>
      obtain ⟨rfl, rfl⟩ := only.pending pending
      exact ⟨named, awaiting, .inr (.inr ⟨rfl, ⟨uses, history⟩, owners, only⟩)⟩
  | gone _ _ _ idle => exact (idle.not_pending pending).elim

/-- Without a thread among the owners, no thread is about to use the resource. -/
theorem Phase.last (phase : Phase r) {label : Label} (last : r.owners = [.other label]) :
    r.named = true ∧ (∃ uses, r.history = .create :: List.replicate uses .use) ∧
      Idle r.unsent ∧ r.awaiting = false := by
  obtain ⟨named, history, unsent, awaiting⟩ := phase.owned (by simp [last])
  refine ⟨named, history, fun thread => ?_, awaiting⟩
  cases pending : r.unsent thread with
  | none => rfl
  | some act =>
      have owner := (unsent thread act pending).2
      simp [last] at owner

theorem replicate_use (uses : Nat) :
    .create :: List.replicate uses Act.use ++ [.use] = .create :: List.replicate (uses + 1) .use := by
  rw [List.cons_append, ← List.replicate_succ']

/-! ### What holds in every phase -/

theorem Phase.orderly (phase : Phase r) : Orderly r.history := by
  cases phase with
  | fresh _ history | named _ history => exact ⟨0, by simp [history]⟩
  | asked _ history => exact ⟨0, by simp [history]⟩
  | live uses _ history | dropping uses _ _ history =>
      exact ⟨uses, by rw [history]; exact List.prefix_append ..⟩
  | gone uses _ history =>
      rcases history with history | ⟨history, _⟩
      · exact ⟨uses, by simp [history]⟩
      · exact ⟨uses, by rw [history]; exact List.prefix_append ..⟩

/-- A resource that nobody owns any more has been closed, unless requests may have been lost. -/
theorem Phase.closed (phase : Phase r) (created : r.created = true) (owners : r.owners = [])
    (closing : ∀ thread, r.unsent thread ≠ some .close) (whole : r.severed = false) :
    ∃ uses, r.history = .create :: List.replicate uses .use ++ [.close] := by
  cases phase with
  | fresh _ _ _ _ other => simp [created] at other
  | named _ _ _ _ other => simp [created] at other
  | asked _ _ _ other => simp [created] at other
  | live _ _ _ _ _ some => exact absurd owners some
  | dropping _ thread _ _ only => exact absurd ((only thread).trans (if_pos rfl)) (closing thread)
  | gone uses _ history =>
      rcases history with history | ⟨_, severed⟩
      · exact ⟨uses, history⟩
      · simp [whole] at severed

theorem Phase.open_ (phase : Phase r) (owned : r.owners ≠ []) : .close ∉ r.history := by
  obtain ⟨_, ⟨uses, history⟩, _⟩ := phase.owned owned
  simp [history]

/-! ### Every move keeps to a phase -/

variable [DecidableEq Label]

theorem Moves.phase (moves : Moves r next) (phase : Phase r) : Phase next := by
  cases moves with
  | name fresh =>
      cases phase with
      | fresh _ history unsent awaiting created owners =>
          exact .named rfl history (.inl unsent) awaiting created owners
      | named named | asked named | live _ named | dropping _ _ named | gone _ named =>
          simp [fresh] at named
  | nameAndPend thread fresh =>
      cases phase with
      | fresh _ history unsent awaiting created owners =>
          exact .named rfl history (.inr ⟨thread, unsent.only thread .create⟩) awaiting created owners
      | named named | asked named | live _ named | dropping _ _ named | gone _ named =>
          simp [fresh] at named
  | sendCreate pending =>
      obtain ⟨named, _, ⟨_, history, created, owners, only⟩ | ⟨impossible, _⟩ | ⟨impossible, _⟩⟩ :=
        phase.pending pending
      · exact .asked named (by simp [sent, history]) only.idle created owners
      · cases impossible
      · cases impossible
  | created label awaiting =>
      obtain ⟨named, history, idle, _⟩ := phase.nothing_created awaiting
      exact .live 0 named history (fun _ _ pending => (idle.not_pending pending).elim) rfl (by simp)
  | refused awaiting =>
      cases phase with
      | asked named history unsent created owners => exact .asked named history unsent created owners
      | fresh _ _ _ other => simp [awaiting] at other
      | named _ _ _ other => simp [awaiting] at other
      | live _ _ _ _ other => simp [awaiting] at other
      | dropping _ _ _ _ _ other => simp [awaiting] at other
      | gone _ _ _ _ other => simp [awaiting] at other
  | @use thread owned idle =>
      obtain ⟨named, ⟨uses, history⟩, unsent, awaiting⟩ := phase.owned owned
      refine .live uses named history ?_ awaiting (by simp [pend])
      intro other act pending
      by_cases same : other = thread
      · have found : act = .use := by simpa [pend, same, eq_comm] using pending
        exact ⟨found, by simp [pend, same]⟩
      · obtain ⟨found, owner⟩ := unsent other act (by simpa [pend, same] using pending)
        exact ⟨found, List.mem_cons_of_mem _ owner⟩
  | @sendUse thread label delivered pending lost =>
      obtain ⟨_, _, ⟨impossible, _⟩ | ⟨_, owner⟩ | ⟨impossible, _⟩⟩ := phase.pending pending
      · cases impossible
      · obtain ⟨named, ⟨uses, history⟩, unsent, awaiting⟩ := phase.owned (List.ne_nil_of_mem owner)
        have later : ∃ uses, ((r.sent thread .use delivered).pass (.thread thread)
            (.other label)).history = .create :: List.replicate uses .use := by
          cases delivered with
          | true => exact ⟨uses + 1, by rw [← replicate_use uses, ← history]; rfl⟩
          | false => exact ⟨uses, history⟩
        obtain ⟨uses, history⟩ := later
        refine .live uses named history ?_ awaiting (by simp [Resource.pass])
        intro other act pending
        by_cases same : other = thread
        · simp [Resource.pass, sent, same] at pending
        · obtain ⟨found, owner⟩ := unsent other act (by simpa [Resource.pass, sent, same] using pending)
          have apart : Owner.thread other ≠ (.thread thread : Owner Label) := by simpa using same
          exact ⟨found, List.mem_cons_of_mem _ ((List.mem_erase_of_ne apart).mpr owner)⟩
      · cases impossible
  | share label owned =>
      obtain ⟨named, ⟨uses, history⟩, unsent, awaiting⟩ := phase.owned owned
      refine .live uses named history (fun thread act pending => ?_) awaiting (by simp)
      obtain ⟨found, owner⟩ := unsent thread act pending
      exact ⟨found, List.mem_cons_of_mem _ owner⟩
  | pass after owned =>
      obtain ⟨named, ⟨uses, history⟩, unsent, awaiting⟩ := phase.owned (List.ne_nil_of_mem owned)
      refine .live uses named history (fun thread act pending => ?_) awaiting (by simp [Resource.pass])
      obtain ⟨found, owner⟩ := unsent thread act pending
      exact ⟨found, List.mem_cons_of_mem _ ((List.mem_erase_of_ne (by simp)).mpr owner)⟩
  | release owned more =>
      obtain ⟨named, ⟨uses, history⟩, unsent, awaiting⟩ := phase.owned (List.ne_nil_of_mem owned)
      refine .live uses named history (fun thread act pending => ?_) awaiting more
      obtain ⟨found, owner⟩ := unsent thread act pending
      exact ⟨found, (List.mem_erase_of_ne (by simp)).mpr owner⟩
  | @drop label thread last idle =>
      obtain ⟨named, ⟨uses, history⟩, nobody, awaiting⟩ := phase.last last
      exact .dropping uses thread named history (nobody.only thread .close) awaiting rfl
  | forget last severed =>
      obtain ⟨named, ⟨uses, history⟩, nobody, awaiting⟩ := phase.last last
      exact .gone uses named (.inr ⟨history, severed⟩) nobody awaiting rfl
  | @sendClose thread delivered pending lost =>
      obtain ⟨named, awaiting, ⟨impossible, _⟩ | ⟨impossible, _⟩ | ⟨_, ⟨uses, history⟩, owners, only⟩⟩ :=
        phase.pending pending
      · cases impossible
      · cases impossible
      · cases delivered with
        | true =>
            refine .gone uses named (.inl ?_) only.idle awaiting owners
            show r.history ++ [.close] = _
            rw [history]
        | false => exact .gone uses named (.inr ⟨history, lost rfl⟩) only.idle awaiting owners
  | loseCreate pending =>
      obtain ⟨named, awaiting, ⟨_, history, created, owners, only⟩ | ⟨impossible, _⟩ |
        ⟨impossible, _⟩⟩ := phase.pending pending
      · exact .named named history (.inl only.idle) awaiting created owners
      · cases impossible
      · cases impossible
  | sever =>
      cases phase with
      | fresh named history unsent awaiting created owners =>
          exact .fresh named history unsent awaiting created owners
      | named named history unsent awaiting created owners =>
          exact .named named history unsent awaiting created owners
      | asked named history unsent created owners => exact .asked named history unsent created owners
      | live uses named history unsent awaiting owners =>
          exact .live uses named history unsent awaiting owners
      | dropping uses thread named history unsent awaiting owners =>
          exact .dropping uses thread named history unsent awaiting owners
      | gone uses named history unsent awaiting owners =>
          exact .gone uses named (history.imp id fun open_ => ⟨open_.1, rfl⟩) unsent awaiting owners

end Resource

end OpenGauss.Lib

import OpenGauss.Driver.Transaction
import OpenGauss.Lib.Execution

/-! Cancellation safety: wherever the futures of a transaction are dropped, the
session is left outside a transaction block. -/

set_option autoImplicit false

namespace OpenGauss.Driver.Cancellation

open Lib.Execution

/-! ### The queries as the server reads them -/

@[simp] theorem command_query (builder : TransactionBuilder) :
    Command.of builder.query = .start := by
  have started : "START TRANSACTION".toList.isPrefixOf builder.query = true := by
    rw [List.isPrefixOf_iff_prefix]
    exact List.prefix_append ..
  simp only [Command.of, started, if_true]

@[simp] theorem command_commit : Command.of (Finish.query .commit) = .commit := by decide

@[simp] theorem command_rollback : Command.of (Transaction.rollbackQuery none) = .rollback := by
  decide

@[simp] theorem command_finishRollback : Command.of (Finish.query .rollback) = .rollback := by
  decide

theorem after_concat (log : List Request) (request : Request) :
    Session.after (log ++ [request]) = (Session.after log).process request := by
  rw [Session.after, List.foldl_append]
  rfl

/-! ### The invariant -/

/-- The blocks a session can be in while a value borrows the client. -/
def Fits (handle : Handle) (block : Option Nat) : Prop :=
  match handle with
  | .free | .startCreated _ | .finishing _ _ => block = none
  | .starting id succeeds => block = if succeeds then some id else none
  | .transaction id | .finishCreated _ id => block = some id

structure Invariant (system : System) : Prop where
  fits : system.closed = false → Fits system.handle (Session.after system.log).block
  committed : ∀ id ∈ (Session.after system.log).committed, id ∈ system.commitsPolled
  rolledBack : ∀ pair ∈ (Session.after system.log).rolledBack, pair.1 = some pair.2

theorem process_committed {session : Session} {request : Request} {id : Nat}
    (member : id ∈ (session.process request).committed) :
    id ∈ session.committed ∨ Command.of request.text = .commit ∧ session.block = some id := by
  rw [Session.process] at member
  split at member
  · split at member <;> exact .inl member
  · exact .inl member
  · exact .inl member
  · rename_i commits inside
    dsimp only at member
    split at member
    · exact .inl member
    · rcases List.mem_append.mp member with old | new
      · exact .inl old
      · exact .inr ⟨commits, (List.mem_singleton.mp new) ▸ inside⟩
  · exact .inl member
  · exact .inl member
  · exact .inl member
  · exact .inl member

theorem process_rolledBack {session : Session} {request : Request} {pair : Option Nat × Nat}
    (member : pair ∈ (session.process request).rolledBack) :
    pair ∈ session.rolledBack ∨
      Command.of request.text = .rollback ∧ pair.1 = request.owner ∧
        session.block = some pair.2 := by
  rw [Session.process] at member
  split at member
  · split at member <;> exact .inl member
  · exact .inl member
  · exact .inl member
  · exact .inl member
  · exact .inl member
  · rename_i rolls inside
    rcases List.mem_append.mp member with old | new
    · exact .inl old
    · obtain rfl := List.mem_singleton.mp new
      exact .inr ⟨rolls, rfl, inside⟩
  · exact .inl member
  · exact .inl member

theorem process_start {session : Session} {request : Request}
    (starts : Command.of request.text = .start) (outside : session.block = none) :
    (session.process request).block = if request.succeeds then request.owner else none := by
  simp only [Session.process, starts, outside]
  split
  · rfl
  · exact outside

theorem process_ends {session : Session} {request : Request}
    (ends : Command.of request.text = .commit ∨ Command.of request.text = .rollback) :
    (session.process request).block = none := by
  cases inside : session.block with
  | none => rcases ends with ends | ends <;> simp only [Session.process, ends, inside]
  | some id => rcases ends with ends | ends <;> simp only [Session.process, ends, inside]

theorem process_other {session : Session} {request : Request}
    (other : Command.of request.text = .other) :
    (session.process request).block = session.block := by
  cases inside : session.block with
  | none => simp only [Session.process, other, inside]
  | some id => simp only [Session.process, other, inside]

@[simp] theorem send_handle (system : System) (request : Request) :
    (system.send request).handle = system.handle := by
  rw [System.send]
  split <;> rfl

@[simp] theorem send_closed (system : System) (request : Request) :
    (system.send request).closed = system.closed := by
  rw [System.send]
  split <;> rfl

@[simp] theorem send_commitsPolled (system : System) (request : Request) :
    (system.send request).commitsPolled = system.commitsPolled := by
  rw [System.send]
  split <;> rfl

/-- A query keeps what has been committed and rolled back in order when it ends
no block, or the block of the transaction it is sent for. -/
theorem Invariant.send {system next : System} {request : Request} (holds : Invariant system)
    (log : next.log = (system.send request).log) (closed : next.closed = system.closed)
    (fits : system.closed = false →
      Fits next.handle ((Session.after system.log).process request).block)
    (polled : ∀ id ∈ system.commitsPolled, id ∈ next.commitsPolled)
    (commits : ∀ id, Command.of request.text = .commit →
      system.closed = false → (Session.after system.log).block = some id →
        id ∈ next.commitsPolled)
    (rolls : ∀ id, Command.of request.text = .rollback →
      system.closed = false → (Session.after system.log).block = some id →
        request.owner = some id) :
    Invariant next := by
  cases isOpen : system.closed with
  | true =>
      rw [System.send, isOpen, if_pos rfl] at log
      refine { fits := ?_, committed := ?_, rolledBack := ?_ }
      · intro isOpen'
        simp [closed, isOpen] at isOpen'
      · rw [log]
        exact fun id member => polled id (holds.committed id member)
      · rw [log]
        exact holds.rolledBack
  | false =>
      rw [System.send, isOpen, if_neg (by decide)] at log
      refine { fits := ?_, committed := ?_, rolledBack := ?_ }
      · intro _
        rw [log, after_concat]
        exact fits isOpen
      · intro id member
        rw [log, after_concat] at member
        rcases process_committed member with old | ⟨isCommit, inside⟩
        · exact polled id (holds.committed id old)
        · exact commits id isCommit isOpen inside
      · intro pair member
        rw [log, after_concat] at member
        rcases process_rolledBack member with old | ⟨isRollback, owner, inside⟩
        · exact holds.rolledBack pair old
        · rw [owner]
          exact rolls pair.2 isRollback isOpen inside

/-- A value that has sent the start of its transaction, and that no other one
can have followed. -/
def Owns (handle : Handle) (id : Nat) : Prop :=
  match handle with
  | .starting own _ | .transaction own | .finishCreated _ own => own = id
  | _ => False

theorem Fits.owns {handle : Handle} {id other : Nat} (owns : Owns handle id)
    (fits : Fits handle (some other)) : id = other := by
  cases handle with
  | starting own succeeds =>
      rw [← show own = id from owns]
      cases succeeds with
      | true => exact (Option.some.inj fits).symm
      | false => cases fits
  | transaction own | finishCreated _ own =>
      rw [← show own = id from owns]
      exact (Option.some.inj fits).symm
  | free | startCreated _ | finishing _ _ => exact owns.elim

/-- The rollback that a drop sends ends the block of its own transaction. -/
theorem sendRollback_invariant {system : System} {id : Nat} (succeeds : Bool)
    (holds : Invariant system) (owns : Owns system.handle id) :
    Invariant { system.sendRollback id succeeds with handle := .free } := by
  refine holds.send rfl (send_closed ..) ?_ ?_ ?_ ?_
  · intro _
    exact process_ends (.inr command_rollback)
  · intro _ polled
    exact (send_commitsPolled ..).symm ▸ polled
  · intro _ isCommit
    simp at isCommit
  · intro other _ isOpen inside
    have fits := holds.fits isOpen
    rw [inside] at fits
    exact congrArg some (fits.owns owns)

theorem dropHandle_invariant {system : System} (holds : Invariant system) :
    Invariant (dropHandle system) := by
  rw [dropHandle]
  cases at_ : system.handle with
  | starting id succeeds | transaction id | finishCreated finish id =>
      exact sendRollback_invariant true holds (by rw [at_]; rfl)
  | free | startCreated builder | finishing finish id =>
      have fits := holds.fits
      rw [at_] at fits
      exact { holds with fits := fits }

theorem pollStart_invariant {system : System} {builder : TransactionBuilder} {succeeds : Bool}
    (holds : Invariant system) (created : system.handle = .startCreated builder) :
    Invariant (pollStart system builder succeeds) := by
  have fits := holds.fits
  rw [created] at fits
  rw [pollStart]
  split
  · exact { holds with fits := fits }
  · refine holds.send rfl (send_closed ..) ?_ ?_ ?_ ?_
    · intro isOpen
      exact process_start (command_query builder) (fits isOpen)
    · intro _ polled
      exact (send_commitsPolled ..).symm ▸ polled
    · intro _ isCommit
      simp at isCommit
    · intro _ isRollback
      simp at isRollback

theorem pollFinish_invariant {system : System} {finish : Finish} {id : Nat} {succeeds : Bool}
    (holds : Invariant system) (created : system.handle = .finishCreated finish id) :
    Invariant (pollFinish system finish id succeeds) := by
  have owns : Owns system.handle id := by rw [created]; rfl
  have inside (other : Nat) (isOpen : system.closed = false)
      (at_ : (Session.after system.log).block = some other) : id = other := by
    have fits := holds.fits isOpen
    rw [at_] at fits
    exact fits.owns owns
  have ended : ((Session.after system.log).process ⟨finish.query, some id, succeeds⟩).block = none := by
    cases finish with
    | commit => exact process_ends (.inl command_commit)
    | rollback => exact process_ends (.inr command_finishRollback)
  refine holds.send rfl (send_closed ..) ?_ ?_ ?_ ?_
  · intro isOpen
    simp only [pollFinish, isOpen, Bool.false_eq_true, if_false]
    exact ended
  · intro other polled
    rw [pollFinish]
    dsimp only
    split
    · exact List.mem_append_left _ polled
    · exact polled
  · intro other isCommit isOpen at_
    cases finish with
    | commit =>
        rw [← inside other isOpen at_]
        exact List.mem_append_right _ (List.mem_singleton_self _)
    | rollback => simp at isCommit
  · intro other _ isOpen at_
    exact congrArg some (inside other isOpen at_)

theorem execute_invariant {system : System} {text : Text} {owner : Option Nat} {succeeds : Bool}
    (holds : Invariant system) (other : Command.of text = .other) :
    Invariant (system.send ⟨text, owner, succeeds⟩) := by
  refine holds.send rfl (send_closed ..) ?_ ?_ ?_ ?_
  · intro isOpen
    rw [process_other other, send_handle]
    exact holds.fits isOpen
  · intro _ polled
    exact (send_commitsPolled ..).symm ▸ polled
  · intro _ isCommit
    simp [other] at isCommit
  · intro _ isRollback
    simp [other] at isRollback

/-- A step that sends nothing, between two values of one transaction. -/
theorem Invariant.rehandle {system : System} {handle : Handle} (holds : Invariant system)
    (fits : ∀ block, Fits system.handle block → Fits handle block) :
    Invariant { system with handle } :=
  { holds with fits := fun isOpen => fits _ (holds.fits isOpen) }

theorem step_invariant (system : System) (event : Event) (next : System)
    (holds : Invariant system) (stepped : step system event = some next) : Invariant next := by
  cases event with
  | start builder =>
      cases at_ : system.handle with
      | free =>
          simp only [step, at_, Option.some.injEq] at stepped
          exact stepped ▸ holds.rehandle fun block fits => by rwa [at_] at fits
      | _ => simp [step, at_] at stepped
  | finish finish =>
      cases at_ : system.handle with
      | transaction id =>
          simp only [step, at_, Option.some.injEq] at stepped
          exact stepped ▸ holds.rehandle fun block fits => by rwa [at_] at fits
      | _ => simp [step, at_] at stepped
  | poll succeeds =>
      cases at_ : system.handle with
      | startCreated builder =>
          simp only [step, at_, Option.some.injEq] at stepped
          exact stepped ▸ pollStart_invariant holds at_
      | finishCreated finish id =>
          simp only [step, at_, Option.some.injEq] at stepped
          exact stepped ▸ pollFinish_invariant holds at_
      | _ => simp [step, at_] at stepped
  | complete ok =>
      cases at_ : system.handle with
      | starting id succeeds =>
          simp only [step, at_] at stepped
          cases ok with
          | true =>
              cases succeeds with
              | true =>
                  simp only [Bool.and_self, if_true, Option.some.injEq] at stepped
                  exact stepped ▸ holds.rehandle fun block fits => by rwa [at_] at fits
              | false => simp at stepped
          | false =>
              simp only [Bool.false_and, Bool.false_eq_true, if_false, Option.some.injEq] at stepped
              exact stepped ▸ dropHandle_invariant holds
      | finishing finish id =>
          simp only [step, at_, Option.some.injEq] at stepped
          exact stepped ▸ holds.rehandle fun block fits => by rwa [at_] at fits
      | _ => simp [step, at_] at stepped
  | drop =>
      cases at_ : system.handle with
      | free => simp [step, at_] at stepped
      | _ =>
          simp only [step, at_, Option.some.injEq] at stepped
          exact stepped ▸ dropHandle_invariant holds
  | execute text succeeds =>
      cases at_ : system.handle with
      | free | transaction id =>
          simp only [step, at_] at stepped
          split at stepped
          · rename_i other
            exact Option.some.inj stepped ▸ execute_invariant holds other
          · cases stepped
      | _ => simp [step, at_] at stepped
  | close =>
      simp only [step, Option.some.injEq] at stepped
      exact stepped ▸ { holds with fits := fun isOpen => by cases isOpen }

theorem start_invariant : Invariant {} where
  fits _ := rfl
  committed _ member := by cases member
  rolledBack _ member := by cases member

/-- In every run: when no value borrows the client, the session is in no
transaction block; only transactions whose commit future has been polled are
committed; and a rollback only ever ends the block of the transaction it is
sent for. -/
theorem execute_cancellation_safe {events : List Event} {final : System}
    (run : execute step {} events = some final) :
    (final.handle = .free → final.block = none) ∧
      (∀ id ∈ (Session.after final.log).committed, id ∈ final.commitsPolled) ∧
      (∀ pair ∈ (Session.after final.log).rolledBack, pair.1 = some pair.2) := by
  have holds := invariant step step_invariant run start_invariant
  refine ⟨?_, holds.committed, holds.rolledBack⟩
  intro free
  rw [System.block]
  split
  · rfl
  · rename_i isOpen
    have fits := holds.fits (by simpa using isOpen)
    rw [free] at fits
    exact fits

/-- A start dropped at its await point, a transaction committed, and a commit
dropped before its first poll. -/
theorem execute_cancellation_safe_dropped :
    ∃ final, execute step {} [.start {}, .poll true, .drop, .start { readOnly := some false },
        .poll true, .complete true, .execute "INSERT".toList true, .finish .commit, .poll true,
        .complete true, .start {}, .poll true, .complete true, .finish .commit, .drop] =
          some final ∧
      final.handle = .free ∧ final.block = none ∧
      (Session.after final.log).rolledBack = [(some 0, 0), (some 2, 2)] := by
  have evaluated : ((execute step {} [.start {}, .poll true, .drop,
      .start { readOnly := some false }, .poll true, .complete true,
      .execute "INSERT".toList true, .finish .commit, .poll true, .complete true, .start {},
      .poll true, .complete true, .finish .commit, .drop]).any fun final =>
        decide (final.handle = .free) &&
          decide ((Session.after final.log).rolledBack = [(some 0, 0), (some 2, 2)])) = true := by
    decide +kernel
  obtain ⟨final, run, facts⟩ := (Option.any_eq_true ..).mp evaluated
  rw [Bool.and_eq_true, decide_eq_true_eq, decide_eq_true_eq] at facts
  exact ⟨final, run, facts.1, (execute_cancellation_safe run).1 facts.1, facts.2⟩

end OpenGauss.Driver.Cancellation

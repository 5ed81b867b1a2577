import OpenGauss.Driver.Savepoints
import OpenGauss.Lib.Execution

/-! What the end of a nested transaction restores. -/

set_option autoImplicit false

namespace OpenGauss.Driver.Nesting

open Lib.Execution Lib.Text

/-! ### The queries of a `Transaction` -/

section Queries

variable (nameOf : Text → Text)

@[simp] theorem command_start : Command.of nameOf (TransactionBuilder.query {}) = .start := by
  have started : Cancellation.Command.of (TransactionBuilder.query {}) = .start := by decide
  rw [Command.of, started]

/-- No command of a block starts with the words of a savepoint's command. -/
private theorem command_other {words name : Text}
    (start : "START TRANSACTION".toList.isPrefixOf (words ++ name) = false)
    (commit : ¬ words <+: "COMMIT".toList) (rollback : ¬ words <+: "ROLLBACK".toList) :
    Cancellation.Command.of (words ++ name) = .other := by
  have notCommit : words ++ name ≠ "COMMIT".toList := fun same => commit (same ▸ List.prefix_append ..)
  have notRollback : words ++ name ≠ "ROLLBACK".toList :=
    fun same => rollback (same ▸ List.prefix_append ..)
  rw [Cancellation.Command.of, start, if_neg Bool.false_ne_true, if_neg notCommit,
    if_neg notRollback]

@[simp] theorem command_savepoint (savepoint : Savepoint) :
    Command.of nameOf (Transaction.savepointQuery savepoint) =
      .savepoint (nameOf savepoint.name) := by
  have other : Cancellation.Command.of ("SAVEPOINT ".toList ++ savepoint.name) = .other :=
    command_other rfl (by decide) (by decide)
  unfold Transaction.savepointQuery Command.of
  rw [other, stripPrefix?_append]

@[simp] theorem command_release (savepoint : Savepoint) :
    Command.of nameOf (Transaction.commitQuery (some savepoint)) =
      .release (nameOf savepoint.name) := by
  have other : Cancellation.Command.of ("RELEASE ".toList ++ savepoint.name) = .other :=
    command_other rfl (by decide) (by decide)
  have noSavepoint : stripPrefix? "SAVEPOINT ".toList ("RELEASE ".toList ++ savepoint.name) = none :=
    stripPrefix?_none rfl
  unfold Transaction.commitQuery Command.of
  rw [other, noSavepoint, stripPrefix?_append]

@[simp] theorem command_rollbackTo (savepoint : Savepoint) :
    Command.of nameOf (Transaction.rollbackQuery (some savepoint)) =
      .rollbackTo (nameOf savepoint.name) := by
  have other : Cancellation.Command.of ("ROLLBACK TO ".toList ++ savepoint.name) = .other :=
    command_other rfl (by decide) (by decide)
  have noSavepoint :
      stripPrefix? "SAVEPOINT ".toList ("ROLLBACK TO ".toList ++ savepoint.name) = none :=
    stripPrefix?_none rfl
  have noRelease : stripPrefix? "RELEASE ".toList ("ROLLBACK TO ".toList ++ savepoint.name) = none :=
    stripPrefix?_none rfl
  unfold Transaction.rollbackQuery Command.of
  rw [other, noSavepoint, noRelease, stripPrefix?_append]

@[simp] theorem command_commit :
    Command.of nameOf (Transaction.commitQuery none) = .commit := by
  have committed : Cancellation.Command.of (Transaction.commitQuery none) = .commit := by decide
  rw [Command.of, committed]

@[simp] theorem command_rollback :
    Command.of nameOf (Transaction.rollbackQuery none) = .rollback := by
  have rolledBack : Cancellation.Command.of (Transaction.rollbackQuery none) = .rollback := by
    decide
  rw [Command.of, rolledBack]

end Queries

/-! ### The transactions of the client in the session -/

variable {Db : Type} {nameOf : Text → Text}

/-- The savepoint of every nested transaction stands on those of the ones
around it; what its nested transactions have left is above. -/
inductive Stacked (nameOf : Text → Text) (start : Db) :
    List (Transaction Db) → List (Text × Db) → Prop where
  | top (savepoints : List (Text × Db)) : Stacked nameOf start [⟨none, start, 0⟩] savepoints
  | nested {outer : List (Transaction Db)} {older : List (Text × Db)} (savepoint : Savepoint)
      (started : Db) (later : List (Text × Db)) (around : Stacked nameOf start outer older) :
      Stacked nameOf start (⟨some savepoint, started, older.length⟩ :: outer)
        (later ++ (nameOf savepoint.name, started) :: older)

def Fits (nameOf : Text → Text) (session : Session Db) (transactions : List (Transaction Db)) :
    Prop :=
  match session.block with
  | none => transactions = []
  | some block => Stacked nameOf block.start transactions block.savepoints

theorem Stacked.above {start : Db} {transactions : List (Transaction Db)}
    {savepoints : List (Text × Db)} (stacked : Stacked nameOf start transactions savepoints)
    (more : List (Text × Db)) : Stacked nameOf start transactions (more ++ savepoints) := by
  cases stacked with
  | top => exact .top _
  | nested savepoint started later around =>
      rw [← List.append_assoc]
      exact .nested savepoint started (more ++ later) around

theorem Stacked.front {start : Db} {transaction : Transaction Db} {outer : List (Transaction Db)}
    {savepoints : List (Text × Db)}
    (stacked : Stacked nameOf start (transaction :: outer) savepoints) :
    (transaction = ⟨none, start, 0⟩ ∧ outer = []) ∨
      ∃ savepoint started later older, transaction = ⟨some savepoint, started, older.length⟩ ∧
        savepoints = later ++ (nameOf savepoint.name, started) :: older ∧
        Stacked nameOf start outer older := by
  cases stacked with
  | top => exact .inl ⟨rfl, rfl⟩
  | nested savepoint started later around =>
      exact .inr ⟨savepoint, started, later, _, rfl, rfl, around⟩

/-- A name leads to a transaction's own savepoint, or to a newer one. -/
theorem downTo_own {block : Block Db} {name : Text} {started : Db}
    {later older : List (Text × Db)} (stack : block.savepoints = later ++ (name, started) :: older) :
    ∃ saved more, block.downTo name = saved :: (more ++ older) ∧
      ((∀ saved ∈ later, saved.1 ≠ name) → saved = (name, started)) := by
  rw [Block.downTo, stack]
  clear stack
  induction later with
  | nil => exact ⟨(name, started), [], by simp, fun _ => rfl⟩
  | cons saved later ih =>
      by_cases same : saved.1 = name
      · exact ⟨saved, later ++ [(name, started)], by simp [same],
          fun apart => absurd same (apart saved (List.mem_cons_self ..))⟩
      · obtain ⟨found, more, down, own⟩ := ih
        exact ⟨found, more, by simpa [same] using down,
          fun apart => own fun other member => apart other (List.mem_cons_of_mem _ member)⟩

theorem fits_block {session : Session Db} {transaction : Transaction Db}
    {outer : List (Transaction Db)} (fits : Fits nameOf session (transaction :: outer)) :
    ∃ block, session.block = some block ∧
      Stacked nameOf block.start (transaction :: outer) block.savepoints := by
  rw [Fits] at fits
  cases opened : session.block with
  | none => simp [opened] at fits
  | some block => exact ⟨block, rfl, by simpa [opened] using fits⟩

theorem execute_fits {session : Session Db} {transactions : List (Transaction Db)}
    (effect : Db → Option Db) (fits : Fits nameOf session transactions) :
    Fits nameOf (session.execute effect) transactions := by
  rw [Fits] at fits
  rw [Session.execute]
  cases opened : session.block with
  | none => simpa [Fits, opened] using fits
  | some block =>
      rw [opened] at fits
      dsimp only
      split
      · rwa [Fits, opened]
      · split <;> exact fits

/-! ### The end of a transaction -/

/-- The savepoints that are newer than the own one of a transaction. -/
def Transaction.newer (transaction : Transaction Db) (savepoints : List (Text × Db)) :
    List (Text × Db) :=
  savepoints.take (savepoints.length - transaction.below - 1)

/-- No savepoint that is newer than its own one has the name of a transaction. -/
def Transaction.OnTop (nameOf : Text → Text) (transaction : Transaction Db)
    (session : Session Db) : Prop :=
  ∀ savepoint ∈ transaction.savepoint, ∀ saved ∈ transaction.newer session.savepoints,
    saved.1 ≠ nameOf savepoint.name

/-- What a transaction leaves when it ends: the state it was started in, or all
that was done since. A failed transaction cannot be committed. -/
def Ended.Restores (ended : Ended Db) : Prop :=
  match ended.finish with
  | .commit =>
      ended.final =
        if ended.aborted = true ∧ ended.savepoint = none then ended.started else ended.last
  | .rollback | .drop => ended.final = ended.started

theorem newer_own {savepoint : Savepoint} {started : Db} {later older : List (Text × Db)} :
    (Transaction.newer ⟨some savepoint, started, older.length⟩
      (later ++ (nameOf savepoint.name, started) :: older)) = later := by
  have size : (later ++ (nameOf savepoint.name, started) :: older).length - older.length - 1 =
      later.length := by
    simp only [List.length_append, List.length_cons]
    omega
  rw [Transaction.newer, size, List.take_left]

/-- The session after the query that ends a transaction. -/
def ending (nameOf : Text → Text) (session : Session Db) (finish : Finish)
    (savepoint : Option Savepoint) : Session Db :=
  (session.process (.of nameOf (finish.query savepoint))).1

theorem ending_top {session : Session Db} {block : Block Db} (finish : Finish)
    (opened : session.block = some block) :
    Fits nameOf (ending nameOf session finish none) [] ∧
      Ended.Restores ⟨finish, none, block.start, session.db, session.aborted,
        (ending nameOf session finish none).db⟩ := by
  have aborted : session.aborted = block.aborted := by rw [Session.aborted, opened]
  cases finish with
  | commit =>
      simp [ending, Finish.query, Session.process, opened, Fits, Ended.Restores, aborted]
  | rollback | drop =>
      simp [ending, Finish.query, Session.process, opened, Fits, Ended.Restores]

theorem ending_commit {session : Session Db} {block : Block Db} {outer : List (Transaction Db)}
    {savepoint : Savepoint} {started : Db} {later older : List (Text × Db)}
    (opened : session.block = some block)
    (stack : block.savepoints = later ++ (nameOf savepoint.name, started) :: older)
    (around : Stacked nameOf block.start outer older) :
    Fits nameOf (ending nameOf session .commit (some savepoint)) outer ∧
      (ending nameOf session .commit (some savepoint)).db = session.db := by
  obtain ⟨saved, more, down, -⟩ := downTo_own stack
  rw [ending, Finish.query, command_release, Session.process, opened]
  dsimp only
  split
  · refine ⟨?_, rfl⟩
    rw [Fits, opened]
    dsimp only
    rw [stack, List.append_cons]
    exact around.above _
  · rw [down]
    exact ⟨around.above more, rfl⟩

theorem ending_rollback {session : Session Db} {block : Block Db} {outer : List (Transaction Db)}
    {savepoint : Savepoint} {started : Db} {later older : List (Text × Db)}
    (opened : session.block = some block)
    (stack : block.savepoints = later ++ (nameOf savepoint.name, started) :: older)
    (around : Stacked nameOf block.start outer older)
    (apart : ∀ saved ∈ later, saved.1 ≠ nameOf savepoint.name) :
    let final := (session.process (.rollbackTo (nameOf savepoint.name))).1
    Fits nameOf final outer ∧ final.db = started := by
  obtain ⟨saved, more, down, own⟩ := downTo_own stack
  obtain rfl := own apart
  rw [Session.process, opened]
  dsimp only
  rw [down]
  exact ⟨around.above (_ :: more), rfl⟩

/-- The end of the transaction in front. -/
theorem ending_restores {session : Session Db} {transaction : Transaction Db}
    {outer : List (Transaction Db)} {finish : Finish}
    (fits : Fits nameOf session (transaction :: outer))
    (onTop : finish ≠ .commit → transaction.OnTop nameOf session) :
    Fits nameOf (ending nameOf session finish transaction.savepoint) outer ∧
      Ended.Restores ⟨finish, transaction.savepoint, transaction.started, session.db,
        session.aborted, (ending nameOf session finish transaction.savepoint).db⟩ := by
  obtain ⟨block, opened, stacked⟩ := fits_block fits
  obtain ⟨rfl, rfl⟩ | ⟨savepoint, started, later, older, rfl, stack, around⟩ := stacked.front
  · exact ending_top finish opened
  · have apart (given : Transaction.OnTop nameOf ⟨some savepoint, started, older.length⟩ session) :
        ∀ saved ∈ later, saved.1 ≠ nameOf savepoint.name := by
      intro saved member
      refine given savepoint rfl saved ?_
      rw [Session.savepoints, opened]
      dsimp only
      rwa [stack, newer_own]
    cases finish with
    | commit =>
        obtain ⟨fits, kept⟩ := ending_commit opened stack around
        exact ⟨fits, by simpa [Ended.Restores] using kept⟩
    | rollback | drop =>
        have restored := ending_rollback opened stack around (apart (onTop (by decide)))
        simpa [ending, Finish.query, Ended.Restores] using restored

/-! ### Runs -/

structure Invariant (nameOf : Text → Text) (system : System Db) : Prop where
  fits : Fits nameOf system.session system.transactions
  restores : ∀ ended ∈ system.ended, ended.Restores

/-- The condition on a step: what is rolled back to is the own savepoint. -/
def Guard (nameOf : Text → Text) (system : System Db) : Event Db → Prop
  | .finish .rollback | .finish .drop =>
      ∀ transaction ∈ system.transactions.head?, transaction.OnTop nameOf system.session
  | .finish .commit | .start | .savepoint _ | .execute _ => True

theorem begin_top {system : System Db} (holds : Invariant nameOf system)
    (free : system.transactions = []) :
    Invariant nameOf (system.begin nameOf none (TransactionBuilder.query {})) := by
  have fits := holds.fits
  rw [free, Fits] at fits
  cases opened : system.session.block with
  | some block =>
      rw [opened] at fits
      cases fits
  | none =>
      refine ⟨?_, ?_⟩
      · simp only [System.begin, command_start, Session.process, opened, Session.savepoints, free]
        exact .top _
      · simpa [System.begin, Session.process, opened] using holds.restores

theorem begin_nested {system : System Db} {outer : Transaction Db} {around : List (Transaction Db)}
    (holds : Invariant nameOf system) (inside : system.transactions = outer :: around)
    (savepoint : Savepoint) :
    Invariant nameOf
      (system.begin nameOf (some savepoint) (Transaction.savepointQuery savepoint)) := by
  have fits := holds.fits
  rw [inside] at fits
  obtain ⟨block, opened, stacked⟩ := fits_block fits
  have saved : system.session.savepoints = block.savepoints := by rw [Session.savepoints, opened]
  rw [System.begin, command_savepoint]
  cases aborted : block.aborted with
  | true =>
      have refused : system.session.process (.savepoint (nameOf savepoint.name)) =
          (system.session, false) := by
        rw [Session.process, opened]
        exact if_pos aborted
      rw [refused]
      exact ⟨inside ▸ holds.fits, holds.restores⟩
  | false =>
      have accepted : system.session.process (.savepoint (nameOf savepoint.name)) =
          (⟨system.session.db, some ⟨block.start,
            (nameOf savepoint.name, system.session.db) :: block.savepoints, block.aborted⟩⟩,
            true) := by
        rw [Session.process, opened]
        exact if_neg (Bool.eq_false_iff.mp aborted)
      rw [accepted]
      refine ⟨?_, holds.restores⟩
      rw [saved, inside]
      exact .nested savepoint system.session.db [] stacked

theorem step_invariant (system : System Db) (event : Event Db) (next : System Db)
    (holds : Invariant nameOf system) (guard : Guard nameOf system event)
    (stepped : step nameOf system event = some next) : Invariant nameOf next := by
  cases event with
  | start =>
      cases inside : system.transactions with
      | cons outer around => simp [step, inside] at stepped
      | nil =>
          simp only [step, inside, Option.some.injEq] at stepped
          exact stepped ▸ begin_top holds inside
  | savepoint name =>
      cases inside : system.transactions with
      | nil => simp [step, inside] at stepped
      | cons outer around =>
          simp only [step, inside, Option.some.injEq] at stepped
          exact stepped ▸ begin_nested holds inside _
  | execute effect =>
      obtain rfl := Option.some.inj stepped
      exact ⟨execute_fits effect holds.fits, holds.restores⟩
  | finish finish =>
      cases inside : system.transactions with
      | nil => simp [step, inside] at stepped
      | cons transaction outer =>
          simp only [step, inside, Option.some.injEq] at stepped
          subst stepped
          have onTop : finish ≠ .commit → transaction.OnTop nameOf system.session := by
            intro notCommit
            cases finish with
            | commit => exact absurd rfl notCommit
            | rollback | drop => exact guard transaction (by rw [inside]; rfl)
          have fits := holds.fits
          rw [inside] at fits
          obtain ⟨fits, restores⟩ := ending_restores fits onTop
          refine ⟨fits, fun ended member => ?_⟩
          rcases List.mem_append.mp member with old | new
          · exact holds.restores ended old
          · exact List.mem_singleton.mp new ▸ restores

/-- When no `Transaction` is rolled back or dropped while a newer savepoint has
its name, each one that ends leaves what it should. -/
theorem execute_restores {db : Db} {events : List (Event Db)} {final : System Db}
    (run : execute (step nameOf) ⟨⟨db, none⟩, [], []⟩ events = some final)
    (guarded : Along (step nameOf) (Guard nameOf) ⟨⟨db, none⟩, [], []⟩ events) :
    ∀ ended ∈ final.ended, ended.Restores := by
  have started : Invariant nameOf (⟨⟨db, none⟩, [], []⟩ : System Db) :=
    ⟨rfl, fun ended member => by cases member⟩
  exact (invariant_along (step nameOf) step_invariant run guarded started).restores

instance (transaction : Transaction Db) (session : Session Db) :
    Decidable (transaction.OnTop nameOf session) :=
  inferInstanceAs (Decidable (∀ savepoint ∈ transaction.savepoint, ∀ saved ∈ _, _))

instance (system : System Db) : (event : Event Db) → Decidable (Guard nameOf system event)
  | .finish .rollback | .finish .drop =>
      inferInstanceAs (Decidable (∀ transaction ∈ system.transactions.head?,
        transaction.OnTop nameOf system.session))
  | .finish .commit | .start | .savepoint _ | .execute _ => .isTrue trivial

/-- Rows that statements append. -/
private def insert (row : Nat) (rows : List Nat) : Option (List Nat) := some (rows ++ [row])

private def failing (_ : List Nat) : Option (List Nat) := none

/-- Equal names side by side and in a committed transaction, driver's names, a
failed statement, and a rollback at every level. -/
private def nested : List (Event (List Nat)) :=
  [.start, .execute (insert 1), .savepoint (some "a".toList), .execute (insert 2),
    .savepoint none, .execute (insert 3), .execute failing, .finish .rollback,
    .savepoint (some "b".toList), .execute (insert 4), .finish .commit, .finish .drop,
    .savepoint (some "a".toList), .execute (insert 5), .savepoint (some "a".toList),
    .execute (insert 6), .finish .commit, .finish .commit, .finish .commit]

theorem execute_restores_nested :
    ∃ final, execute (step id) ⟨⟨[], none⟩, [], []⟩ nested = some final ∧
      final.session.db = [1, 5, 6] ∧ ∀ ended ∈ final.ended, ended.Restores := by
  have ran : (execute (step id) ⟨⟨[], none⟩, [], []⟩ nested).any fun final =>
      final.session.db = [1, 5, 6] := by decide +kernel
  obtain ⟨final, run, rows⟩ := (Option.any_eq_true ..).mp ran
  have guarded : Along (step id) (Guard id) ⟨⟨[], none⟩, [], []⟩ nested := by decide +kernel
  exact ⟨final, run, of_decide_eq_true rows, execute_restores run guarded⟩

/-- The inner savepoint survives its rollback, and so the outer rollback keeps
what was done before the inner transaction. -/
private def sameName : List (Event (List Nat)) :=
  [.start, .savepoint (some "a".toList), .execute (insert 1), .savepoint (some "a".toList),
    .finish .rollback, .finish .rollback]

theorem not_restores_sameName :
    ¬ ∀ (nameOf : Text → Text) (events : List (Event (List Nat))) (final : System (List Nat)),
      execute (step nameOf) ⟨⟨[], none⟩, [], []⟩ events = some final →
        ∀ ended ∈ final.ended, ended.Restores := by
  intro restores
  have ran : (execute (step id) ⟨⟨[], none⟩, [], []⟩ sameName).any fun final =>
      (⟨.rollback, some ⟨"a".toList, 1⟩, [], [1], false, [1]⟩ : Ended (List Nat)) ∈ final.ended := by
    decide +kernel
  obtain ⟨final, run, wrong⟩ := (Option.any_eq_true ..).mp ran
  have same := restores id sameName final run _ (of_decide_eq_true wrong)
  simp [Ended.Restores] at same

end OpenGauss.Driver.Nesting

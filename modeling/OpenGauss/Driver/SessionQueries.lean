import OpenGauss.Driver.QueryProperties
import OpenGauss.Driver.SessionAnswers

/-! From the messages of a server to the results of the client's functions, through the whole
connection. -/

set_option autoImplicit false

namespace OpenGauss.Driver.Session

open Lib Lib.Framing Lib.Execution Lib.Routine Protocol Protocol.Backend Connection Query

variable {mode : AuthMode}

/-- What the `Responses` of a request read: nothing so far, and the batches of its channel. -/
def System.responsesOf (system : System mode) (request : Nat) : Responses where
  cur := .empty
  receiver := (system.responses request).received

/-- `Responses` with these messages ahead, also when nothing has been read yet. -/
def Reads (mode : AuthMode) (responses : Responses) (list : List Message) : Prop :=
  responses.Ahead mode list ∨
    responses.cur = .empty ∧ Responses.Ahead mode ⟨⟨[], mode⟩, responses.receiver⟩ list

theorem next_empty (mode : AuthMode) (receiver : List BackendMessages) :
    Responses.next .empty receiver = Responses.next ⟨[], mode⟩ receiver ∨
      receiver = [] ∧ Responses.next .empty receiver = (.error .closed, ⟨.empty, []⟩) := by
  cases receiver with
  | nil => exact .inr ⟨rfl, rfl⟩
  | cons batch receiver => exact .inl rfl

theorem follows_reads : answers.Follows messages (Reads mode) := by
  intro responses list reads
  rcases reads with ahead | ⟨empty, ahead⟩
  · obtain ⟨same, later⟩ := follows_messages responses list ahead
    exact ⟨same, .inl later⟩
  · obtain ⟨cur, receiver⟩ := responses
    obtain rfl : cur = .empty := empty
    obtain ⟨same, later⟩ := follows_messages _ list ahead
    rcases next_empty mode receiver with next | ⟨rfl, next⟩
    · have polled : answers.poll ⟨.empty, receiver⟩ = answers.poll ⟨⟨[], mode⟩, receiver⟩ := by
        simp only [answers, Responses.pollNext, next]
      rw [polled]
      exact ⟨same, .inl later⟩
    · have polled : answers.poll ⟨.empty, []⟩ = (.error (.driver .closed), ⟨.empty, []⟩) := rfl
      have closed : answers.poll ⟨⟨[], mode⟩, []⟩ = (.error (.driver .closed), ⟨⟨[], mode⟩, []⟩) := rfl
      rw [polled]
      rw [closed] at same later
      exact ⟨same, .inr ⟨rfl, later⟩⟩

/-- All that has been answered to a request is ahead of its `Responses`. -/
theorem Invariant.readsAnswers {system : System mode} (holds : Invariant system)
    (drained : Drained system) {request : Nat} (alive : (system.responses request).alive = true) :
    Reads mode (system.responsesOf request) ((system.server.answers request).map (·.message)) := by
  obtain ⟨batches, received, -, whole⟩ := holds.received request
  exact .inr ⟨rfl, [], batches, ⟨rfl, received⟩, by rw [List.nil_append, whole drained alive]⟩

/-! ### A query -/

theorem nothing_fits : ([] : Bytes).length + 4 < 2 ^ 31 := by decide

def bindFrame : Frame .standard := ⟨50, [], .bindComplete, nothing_fits, rfl⟩

def oneRow : CountedBody := ⟨[0, 0, 0, 1, 65], 1⟩

def rowFrame : Frame .standard := ⟨68, [0, 1, 0, 0, 0, 1, 65], .dataRow oneRow, by decide, rfl⟩

/-- `SELECT 1`. -/
def selectTag : Bytes := [83, 69, 76, 69, 67, 84, 32, 49]

def selectFrame : Frame .standard := ⟨67, selectTag ++ [0], .commandComplete selectTag, by decide, rfl⟩

def queriedEvents : List (Event .standard) :=
  [.own (.send syncRequest)] ++ taskTurn ++
    [.reply bindFrame, .reply rowFrame, .arrive 10, .pollRead .pending .ready, .reply selectFrame,
      .reply (readyFrame 73), .arrive 50, .pollRead .pending .ready]

theorem queriedEvents_run :
    ∃ final, execute step (System.start .standard [] []) queriedEvents = some final ∧
      Drained final ∧ (final.responses 0).alive = true ∧
      (final.server.answers 0).map (·.message) =
        .bindComplete :: ([.dataRow oneRow, .commandComplete selectTag] ++
          [.readyForQuery 73]) := by
  have evaluated : (execute step (System.start .standard [] []) queriedEvents).any (fun final =>
      decide (Drained final) && (final.responses 0).alive &&
        decide ((final.server.answers 0).map (·.message) =
          .bindComplete :: ([.dataRow oneRow, .commandComplete selectTag] ++
            [.readyForQuery 73]))) = true := by
    decide +kernel
  obtain ⟨final, run, facts⟩ := (Option.any_eq_true ..).mp evaluated
  simp only [Bool.and_eq_true, decide_eq_true_eq] at facts
  obtain ⟨⟨drained, alive⟩, answers⟩ := facts
  exact ⟨final, run, drained, alive, answers⟩

end OpenGauss.Driver.Session

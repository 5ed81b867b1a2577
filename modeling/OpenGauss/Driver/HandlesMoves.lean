import OpenGauss.Driver.Handles
import OpenGauss.Driver.ClientRequestsProperties
import OpenGauss.Lib.NumeralText

/-! Every step of the handles is a move of each statement and of each portal, or leaves it alone. -/

set_option autoImplicit false

namespace OpenGauss.Driver.Handles

open Lib Protocol FrontendBuffer Resource

variable {Ty : Type}

/-- What a request does with the statement of a name. -/
def statementAct (name : Str) : ClientRequest Ty → Option Act
  | .prepare id _ _ => if numberedName 's' id = name then some .create else none
  | .query statement _ | .execute statement _ | .bind _ statement _ =>
      if statement.name = name then some .use else none
  | .closeStatement id => if numberedName 's' id = name then some .close else none
  | .queryTyped _ _ | .executeTyped _ _ | .queryPortal _ _ | .simpleQuery _ | .batchExecute _
  | .closePortal _ => none

/-- What a request does with the portal of a name. -/
def portalAct (name : Str) : ClientRequest Ty → Option Act
  | .bind id _ _ => if numberedName 'p' id = name then some .create else none
  | .queryPortal portal _ => if portal.name = name then some .use else none
  | .closePortal portal => if portal.name = name then some .close else none
  | .query _ _ | .execute _ _ | .queryTyped _ _ | .executeTyped _ _ | .prepare _ _ _
  | .simpleQuery _ | .batchExecute _ | .closeStatement _ => none

/-! ### By the numbers of the names -/

/-- What a request does with the statement of a number. -/
def onStatement (id : UInt64) : ClientRequest Ty → Option Act
  | .prepare other _ _ => if other = id then some .create else none
  | .query statement _ | .execute statement _ | .bind _ statement _ =>
      if statement.id = some id then some .use else none
  | .closeStatement other => if other = id then some .close else none
  | .queryTyped _ _ | .executeTyped _ _ | .queryPortal _ _ | .simpleQuery _ | .batchExecute _
  | .closePortal _ => none

/-- What a request does with the portal of a number. -/
def onPortal (id : UInt64) : ClientRequest Ty → Option Act
  | .bind other _ _ => if other = id then some .create else none
  | .queryPortal portal _ => if portal.id = id then some .use else none
  | .closePortal portal => if portal.id = id then some .close else none
  | .query _ _ | .execute _ _ | .queryTyped _ _ | .executeTyped _ _ | .prepare _ _ _
  | .simpleQuery _ | .batchExecute _ | .closeStatement _ => none

theorem numberedName_inj {start : Char} {id other : UInt64} :
    numberedName start id = numberedName start other ↔ id = other := by
  constructor
  · intro same
    exact UInt64.toNat_inj.mp (Numeral.toDigits_inj ((List.cons_inj_right start).mp same))
  · rintro rfl
    rfl

theorem name_eq_iff {statement : Statement Ty} {id : UInt64} :
    statement.name = numberedName 's' id ↔ statement.id = some id := by
  cases named : statement.id with
  | none => simp [Statement.name, named, numberedName]
  | some other => simp [Statement.name, named, numberedName_inj]

theorem statementAct_eq (id : UInt64) (request : ClientRequest Ty) :
    statementAct (numberedName 's' id) request = onStatement id request := by
  cases request with
  | prepare _ _ _ | closeStatement _ => simp only [statementAct, onStatement, numberedName_inj]
  | query _ _ | execute _ _ | bind _ _ _ => simp only [statementAct, onStatement, name_eq_iff]
  | queryTyped _ _ | executeTyped _ _ | queryPortal _ _ | simpleQuery _ | batchExecute _
  | closePortal _ => rfl

theorem portalAct_eq (id : UInt64) (request : ClientRequest Ty) :
    portalAct (numberedName 'p' id) request = onPortal id request := by
  cases request with
  | bind _ _ _ | queryPortal _ _ | closePortal _ =>
      simp only [portalAct, onPortal, Portal.name, numberedName_inj]
  | query _ _ | execute _ _ | queryTyped _ _ | executeTyped _ _ | prepare _ _ _ | simpleQuery _
  | batchExecute _ | closeStatement _ => rfl

theorem onStatement_close {id : UInt64} {request : ClientRequest Ty}
    (close : onStatement id request = some .close) : request = .closeStatement id := by
  cases request with
  | closeStatement other =>
      simp only [onStatement, Option.ite_none_right_eq_some] at close
      rw [close.1]
  | prepare other _ _ =>
      simp [onStatement] at close
  | query statement _ | execute statement _ | bind _ statement _ => simp [onStatement] at close
  | queryTyped _ _ | executeTyped _ _ | queryPortal _ _ | simpleQuery _ | batchExecute _
  | closePortal _ => cases close

theorem onPortal_close {id : UInt64} {request : ClientRequest Ty}
    (close : onPortal id request = some .close) : request = .closePortal ⟨id⟩ := by
  cases request with
  | closePortal portal =>
      simp only [onPortal, Option.ite_none_right_eq_some] at close
      rw [← close.1]
  | bind other _ _ | queryPortal portal _ => simp [onPortal] at close
  | query _ _ | execute _ _ | queryTyped _ _ | executeTyped _ _ | prepare _ _ _ | simpleQuery _
  | batchExecute _ | closeStatement _ => cases close

/-! ### The system as one resource sees it -/

/-- A resource of the system, by what the requests do with it. -/
def System.view {Label : Type} (system : System Ty) (on : ClientRequest Ty → Option Act)
    (named : Bool) (handle : Handle Label) : Resource Label where
  history := system.sent.filterMap on
  unsent thread := (system.unsent thread).bind on
  named
  awaiting := handle.awaiting
  created := handle.created
  owners := handle.owners
  severed := system.clientGone || system.connectionGone

def System.statement (system : System Ty) (id : UInt64) : Resource Holder :=
  system.view (onStatement id) (decide (id.toNat < system.statementIds)) (system.statements id)

def System.portal (system : System Ty) (id : UInt64) : Resource Unit :=
  system.view (onPortal id) (decide (id.toNat < system.portalIds)) (system.portals id)

section

variable {Label : Type} {system : System Ty}
  {on : ClientRequest Ty → Option Act} {named : Bool} {handle : Handle Label} {thread : Nat}
  {request : ClientRequest Ty}

theorem view_pend_some {act : Act} (does : on request = some act) :
    (system.pend thread request).view on named handle =
      (system.view on named handle).pend thread act := by
  ext : 1
  case unsent =>
    funext other
    by_cases same : other = thread
    · simp [System.view, System.pend, Resource.pend, same, does]
    · simp [System.view, System.pend, Resource.pend, same]
  all_goals rfl

theorem view_pend_none (does : on request = none) (idle : system.unsent thread = none) :
    (system.pend thread request).view on named handle = system.view on named handle := by
  ext : 1
  case unsent =>
    funext other
    by_cases same : other = thread
    · simp [System.view, System.pend, same, does, idle]
    · simp [System.view, System.pend, same]
  all_goals rfl

theorem view_sentOff_some {act : Act} (does : on request = some act) :
    (system.sentOff thread request).view on named handle =
      (system.view on named handle).sent thread act (!system.connectionGone) := by
  ext : 1
  case unsent =>
    funext other
    by_cases same : other = thread
    · simp [System.view, System.sentOff, Resource.sent, same]
    · simp [System.view, System.sentOff, Resource.sent, same]
  case history =>
    cases gone : system.connectionGone with
    | true => simp [System.view, System.sentOff, Resource.sent, gone]
    | false => simp [System.view, System.sentOff, Resource.sent, gone, does]
  all_goals rfl

theorem view_sentOff_none (does : on request = none) (pending : system.unsent thread = some request) :
    (system.sentOff thread request).view on named handle = system.view on named handle := by
  ext : 1
  case unsent =>
    funext other
    by_cases same : other = thread
    · simp [System.view, System.sentOff, same, pending, does]
    · simp [System.view, System.sentOff, same]
  case history =>
    cases gone : system.connectionGone with
    | true => simp [System.view, System.sentOff, gone]
    | false => simp [System.view, System.sentOff, gone, does]
  all_goals rfl

end

section

variable {system : System Ty} {id other : UInt64} {thread : Nat} {request : ClientRequest Ty}
  {act : Act}

theorem statement_pend_some (does : onStatement id request = some act) :
    (system.pend thread request).statement id = (system.statement id).pend thread act :=
  view_pend_some does

theorem statement_pend_none (does : onStatement id request = none)
    (idle : system.unsent thread = none) :
    (system.pend thread request).statement id = system.statement id :=
  view_pend_none does idle

theorem statement_sentOff_some (does : onStatement id request = some act) :
    (system.sentOff thread request).statement id =
      (system.statement id).sent thread act (!system.connectionGone) :=
  view_sentOff_some does

theorem statement_sentOff_none (does : onStatement id request = none)
    (pending : system.unsent thread = some request) :
    (system.sentOff thread request).statement id = system.statement id :=
  view_sentOff_none does pending

theorem portal_pend_some (does : onPortal id request = some act) :
    (system.pend thread request).portal id = (system.portal id).pend thread act :=
  view_pend_some does

theorem portal_pend_none (does : onPortal id request = none)
    (idle : system.unsent thread = none) :
    (system.pend thread request).portal id = system.portal id :=
  view_pend_none does idle

theorem portal_sentOff_some (does : onPortal id request = some act) :
    (system.sentOff thread request).portal id =
      (system.portal id).sent thread act (!system.connectionGone) :=
  view_sentOff_some does

theorem portal_sentOff_none (does : onPortal id request = none)
    (pending : system.unsent thread = some request) :
    (system.sentOff thread request).portal id = system.portal id :=
  view_sentOff_none does pending

@[simp] theorem setPortal_statement (handle : Handle Unit) :
    (system.setPortal other handle).statement id = system.statement id := rfl

@[simp] theorem setStatement_portal (handle : Handle Holder) :
    (system.setStatement other handle).portal id = system.portal id := rfl

theorem setStatement_statement_ne (apart : id ≠ other) (handle : Handle Holder) :
    (system.setStatement other handle).statement id = system.statement id := by
  have kept : (system.setStatement other handle).statements id = system.statements id :=
    Function.update_of_ne apart ..
  rw [System.statement, kept]
  rfl

theorem setStatement_statement (handle : Handle Holder) :
    (system.setStatement id handle).statement id = { system.statement id with
      awaiting := handle.awaiting, created := handle.created, owners := handle.owners } := by
  have set : (system.setStatement id handle).statements id = handle := Function.update_self ..
  rw [System.statement, set]
  rfl

theorem setPortal_portal_ne (apart : id ≠ other) (handle : Handle Unit) :
    (system.setPortal other handle).portal id = system.portal id := by
  have kept : (system.setPortal other handle).portals id = system.portals id :=
    Function.update_of_ne apart ..
  rw [System.portal, kept]
  rfl

theorem setPortal_portal (handle : Handle Unit) :
    (system.setPortal id handle).portal id = { system.portal id with
      awaiting := handle.awaiting, created := handle.created, owners := handle.owners } := by
  have set : (system.setPortal id handle).portals id = handle := Function.update_self ..
  rw [System.portal, set]
  rfl

theorem passStatement_ne (apart : id ≠ other) (before after : Owner Holder) :
    (system.passStatement other before after).statement id = system.statement id :=
  setStatement_statement_ne apart _

theorem passStatement_self (before after : Owner Holder) :
    (system.passStatement id before after).statement id =
      (system.statement id).pass before after := by
  rw [System.passStatement, setStatement_statement]
  rfl

theorem passPortal_ne (apart : id ≠ other) (before after : Owner Unit) :
    (system.passPortal other before after).portal id = system.portal id :=
  setPortal_portal_ne apart _

theorem passPortal_self (before after : Owner Unit) :
    (system.passPortal id before after).portal id = (system.portal id).pass before after := by
  rw [System.passPortal, setPortal_portal]
  rfl

@[simp] theorem letGo_portal : (system.letGo other).portal id = system.portal id := by
  rw [System.letGo]
  split <;> rfl

@[simp] theorem used_portal (statement : Statement Ty) (after : Holder) :
    (system.used thread statement after).portal id = system.portal id := by
  rw [System.used]
  split <;> rfl

theorem asked_portal_ne (apart : id ≠ other) (statement : Statement Ty) :
    (system.asked other statement).portal id = system.portal id := by
  show (system.setPortal other { system.portals other with awaiting := true }).portal id = _
  rw [setPortal_portal_ne apart]

theorem asked_portal (statement : Statement Ty) :
    (system.asked id statement).portal id = { system.portal id with awaiting := true } := by
  show (system.setPortal id { system.portals id with awaiting := true }).portal id = _
  rw [setPortal_portal]
  rfl

end

/-! ### A step is a move of every resource, or none -/

/-- A resource after a step. -/
def Follows {Label : Type} [DecidableEq Label] (r next : Resource Label) : Prop :=
  next = r ∨ Moves r next

theorem Follows.phase {Label : Type} [DecidableEq Label] {r next : Resource Label}
    (follows : Follows r next) (phase : Phase r) : Phase next := by
  rcases follows with rfl | moves
  · exact phase
  · exact moves.phase phase

/-- A portal that has been asked for and whose close has not been sent. -/
def System.Busy (system : System Ty) (id : UInt64) : Prop :=
  (system.portals id).awaiting = true ∨ (system.portals id).owners ≠ [] ∨
    ∃ thread, system.unsent thread = some (.closePortal ⟨id⟩)

/-- Where the resources are in their lives, and that a portal in use owns its statement. -/
structure Sound (system : System Ty) : Prop where
  statements : ∀ id, Phase (system.statement id)
  portals : ∀ id, Phase (system.portal id)
  held : ∀ id statement, system.statementOf id = some statement → system.Busy id →
    .other (.portal id) ∈ (system.statements statement).owners

section

variable {system next : System Ty} {id other : UInt64} {thread : Nat} {request : ClientRequest Ty}

/-- Naming the next one is a move of that one. -/
theorem named_succ {count : Nat} (room : count < 2 ^ 64) (id : UInt64) :
    id = UInt64.ofNat count ∧ decide (id.toNat < count) = false ∧
        decide (id.toNat < count + 1) = true ∨
      id ≠ UInt64.ofNat count ∧
        decide (id.toNat < count + 1) = decide (id.toNat < count) := by
  have number : (UInt64.ofNat count).toNat = count := UInt64.toNat_ofNat_of_lt' room
  by_cases same : id = UInt64.ofNat count
  · left
    simp [same, number]
  · right
    have apart : id.toNat ≠ count := fun equal => same (UInt64.toNat_inj.mp (equal.trans number.symm))
    refine ⟨same, decide_eq_decide.mpr ?_⟩
    omega

theorem nextStatement_statement (room : system.statementIds < 2 ^ 64) (id : UInt64) :
    id = UInt64.ofNat system.statementIds ∧ (system.statement id).named = false ∧
        system.nextStatement.statement id = { system.statement id with named := true } ∨
      id ≠ UInt64.ofNat system.statementIds ∧
        system.nextStatement.statement id = system.statement id := by
  rcases named_succ room id with ⟨same, fresh, named⟩ | ⟨apart, kept⟩
  · refine .inl ⟨same, fresh, ?_⟩
    show system.view _ (decide (id.toNat < system.statementIds + 1)) _ = _
    rw [named]
    rfl
  · refine .inr ⟨apart, ?_⟩
    show system.view _ (decide (id.toNat < system.statementIds + 1)) _ = _
    rw [kept]
    rfl

theorem nextPortal_portal (room : system.portalIds < 2 ^ 64) (id : UInt64) :
    id = UInt64.ofNat system.portalIds ∧ (system.portal id).named = false ∧
        system.nextPortal.portal id = { system.portal id with named := true } ∨
      id ≠ UInt64.ofNat system.portalIds ∧ system.nextPortal.portal id = system.portal id := by
  rcases named_succ room id with ⟨same, fresh, named⟩ | ⟨apart, kept⟩
  · refine .inl ⟨same, fresh, ?_⟩
    show system.view _ (decide (id.toNat < system.portalIds + 1)) _ = _
    rw [named]
    rfl
  · refine .inr ⟨apart, ?_⟩
    show system.view _ (decide (id.toNat < system.portalIds + 1)) _ = _
    rw [kept]
    rfl

theorem nextStatement_follows (room : system.statementIds < 2 ^ 64) :
    Follows (system.statement id) (system.nextStatement.statement id) := by
  rcases nextStatement_statement room id with ⟨_, fresh, moved⟩ | ⟨_, kept⟩
  · right
    rw [moved]
    exact .name fresh
  · exact .inl kept

theorem nextPortal_follows (room : system.portalIds < 2 ^ 64) :
    Follows (system.portal id) (system.nextPortal.portal id) := by
  rcases nextPortal_portal room id with ⟨_, fresh, moved⟩ | ⟨_, kept⟩
  · right
    rw [moved]
    exact .name fresh
  · exact .inl kept

@[simp] theorem nextPortal_statement :
    system.nextPortal.statement id = system.statement id := rfl

@[simp] theorem nextStatement_portal :
    system.nextStatement.portal id = system.portal id := rfl

theorem prepare_follows (room : system.statementIds < 2 ^ 64) (idle : system.unsent thread = none)
    (query : Str) (types : List Ty) :
    Follows (system.statement id) ((system.nextStatement.pend thread
      (.prepare (UInt64.ofNat system.statementIds) query types)).statement id) := by
  rcases nextStatement_statement room id with ⟨same, fresh, moved⟩ | ⟨apart, kept⟩
  · right
    have does : onStatement id (.prepare (UInt64.ofNat system.statementIds) query types) =
      some .create := if_pos same.symm
    rw [statement_pend_some does, moved]
    exact .nameAndPend thread fresh
  · left
    have does : onStatement id (.prepare (UInt64.ofNat system.statementIds) query types) = none :=
      if_neg (Ne.symm apart)
    exact Eq.trans (statement_pend_none does idle) kept

theorem useStatement_follows (idle : system.unsent thread = none)
    (owned : (system.statements other).owners ≠ [])
    (does : ∀ id, onStatement id request = if some other = some id then some .use else none) :
    Follows (system.statement id) ((system.useStatement thread other request).statement id) := by
  rw [System.useStatement]
  by_cases same : id = other
  · subst same
    right
    rw [statement_pend_some ((does id).trans (if_pos rfl)), setStatement_statement]
    refine .use owned ?_
    show (system.unsent thread).bind _ = none
    rw [idle]
    rfl
  · left
    have nothing : onStatement id request = none :=
      (does id).trans (if_neg (by simpa using Ne.symm same))
    exact Eq.trans (statement_pend_none nothing idle) (setStatement_statement_ne same _)

theorem usePortal_follows (idle : system.unsent thread = none)
    (owned : (system.portals other).owners ≠ [])
    (does : ∀ id, onPortal id request = if other = id then some .use else none) :
    Follows (system.portal id) ((system.usePortal thread other request).portal id) := by
  rw [System.usePortal]
  by_cases same : id = other
  · subst same
    right
    rw [portal_pend_some ((does id).trans (if_pos rfl)), setPortal_portal]
    refine .use owned ?_
    show (system.unsent thread).bind _ = none
    rw [idle]
    rfl
  · left
    have nothing : onPortal id request = none := (does id).trans (if_neg (Ne.symm same))
    exact Eq.trans (portal_pend_none nothing idle) (setPortal_portal_ne same _)

/-! ### Sending -/

theorem statement_unsent {act : Act} (pending : system.unsent thread = some request)
    (does : onStatement id request = some act) : (system.statement id).unsent thread = some act := by
  show (system.unsent thread).bind (onStatement id) = some act
  rw [pending]
  exact does

theorem portal_unsent {act : Act} (pending : system.unsent thread = some request)
    (does : onPortal id request = some act) : (system.portal id).unsent thread = some act := by
  show (system.unsent thread).bind (onPortal id) = some act
  rw [pending]
  exact does

/-- What is lost has been sent on a connection that is gone. -/
theorem severed_of_lost (lost : (!system.connectionGone) = false) :
    (system.clientGone || system.connectionGone) = true := by
  simp_all

theorem used_statement {statement : Statement Ty} (pending : system.unsent thread = some request)
    (does : ∀ id, onStatement id request = if statement.id = some id then some .use else none)
    (after : Holder) : Follows (system.statement id)
      (((system.sentOff thread request).used thread statement after).statement id) := by
  rw [System.used]
  cases named : statement.id with
  | none =>
      have nothing : onStatement id request = none := (does id).trans (if_neg (by simp [named]))
      exact .inl (statement_sentOff_none nothing pending)
  | some other =>
      by_cases same : id = other
      · subst same
        right
        have use : onStatement id request = some .use := (does id).trans (if_pos named)
        rw [passStatement_self, statement_sentOff_some use]
        exact .sendUse after _ (statement_unsent pending use) severed_of_lost
      · left
        have nothing : onStatement id request = none :=
          (does id).trans (if_neg (by simpa [named] using Ne.symm same))
        rw [passStatement_ne same, statement_sentOff_none nothing pending]

theorem sendUse_portal (pending : system.unsent thread = some request)
    (does : ∀ id, onPortal id request = if other = id then some .use else none) :
    Follows (system.portal id)
      (((system.sentOff thread request).passPortal other (.thread thread)
        (.other ())).portal id) := by
  by_cases same : id = other
  · subst same
    right
    have use : onPortal id request = some .use := (does id).trans (if_pos rfl)
    rw [passPortal_self, portal_sentOff_some use]
    exact .sendUse () _ (portal_unsent pending use) severed_of_lost
  · left
    have nothing : onPortal id request = none := (does id).trans (if_neg (Ne.symm same))
    rw [passPortal_ne same, portal_sentOff_none nothing pending]

theorem sendClose_statement (pending : system.unsent thread = some (.closeStatement other)) :
    Follows (system.statement id)
      ((system.sentOff thread (.closeStatement other)).statement id) := by
  by_cases same : other = id
  · right
    have close : onStatement id (.closeStatement other : ClientRequest Ty) = some .close :=
      if_pos same
    rw [statement_sentOff_some close]
    exact .sendClose _ (statement_unsent pending close) severed_of_lost
  · exact .inl (statement_sentOff_none (if_neg same) pending)

theorem sendClose_portal {portal : Portal}
    (pending : system.unsent thread = some (.closePortal portal)) :
    Follows (system.portal id) ((system.sentOff thread (.closePortal portal)).portal id) := by
  by_cases same : portal.id = id
  · right
    have close : onPortal id (.closePortal portal : ClientRequest Ty) = some .close := if_pos same
    rw [portal_sentOff_some close]
    exact .sendClose _ (portal_unsent pending close) severed_of_lost
  · exact .inl (portal_sentOff_none (if_neg same) pending)

/-- A portal that has its statement lets it go. -/
theorem letGo_statement (owned : ∀ statement, system.statementOf other = some statement →
      .other (.portal other) ∈ (system.statements statement).owners) :
    Follows (system.statement id) ((system.letGo other).statement id) := by
  rw [System.letGo]
  cases found : system.statementOf other with
  | none => exact .inl rfl
  | some statement =>
      by_cases same : id = statement
      · subst same
        right
        rw [passStatement_self]
        exact .pass Holder.handle (owned id found)
      · exact .inl (passStatement_ne same _ _)

theorem send_statement (sound : Sound system) (pending : system.unsent thread = some request) :
    Follows (system.statement id)
      (((system.sentOff thread request).afterSend thread request).statement id) := by
  cases request with
  | prepare number query types =>
      rw [System.afterSend]
      split
      · next gone =>
        have lost : system.connectionGone = true := gone
        by_cases same : number = id
        · right
          have create : onStatement id (.prepare number query types) = some .create := if_pos same
          rw [statement_sentOff_some create, lost]
          exact .loseCreate (statement_unsent pending create)
        · exact .inl (statement_sentOff_none (if_neg same) pending)
      · next open_ =>
        have kept : system.connectionGone = false := Bool.of_not_eq_true open_
        by_cases same : id = number
        · subst same
          right
          have create : onStatement id (.prepare id query types) = some .create := if_pos rfl
          rw [setStatement_statement, statement_sentOff_some create, kept]
          exact .sendCreate (statement_unsent pending create)
        · left
          have nothing : onStatement id (.prepare number query types) = none :=
            if_neg (Ne.symm same)
          rw [setStatement_statement_ne same, statement_sentOff_none nothing pending]
  | query statement params | execute statement params =>
      exact used_statement pending (fun _ => rfl) .handle
  | bind number statement params =>
      rw [System.afterSend]
      split
      · exact used_statement pending (fun _ => rfl) .handle
      · exact used_statement pending (fun _ => rfl) (.portal number)
  | closePortal portal =>
      have sent : (system.sentOff thread (.closePortal portal)).statement id = system.statement id :=
        statement_sentOff_none rfl pending
      rw [System.afterSend, ← sent]
      exact letGo_statement fun statement found =>
        sound.held portal.id statement found (.inr (.inr ⟨thread, pending⟩))
  | closeStatement other => exact sendClose_statement pending
  | queryPortal _ _ | queryTyped _ _ | executeTyped _ _ | simpleQuery _ | batchExecute _ =>
      exact .inl (statement_sentOff_none rfl pending)

theorem send_portal (pending : system.unsent thread = some request) :
    Follows (system.portal id)
      (((system.sentOff thread request).afterSend thread request).portal id) := by
  cases request with
  | bind number statement params =>
      rw [System.afterSend]
      split
      · next gone =>
        have lost : system.connectionGone = true := gone
        rw [used_portal]
        by_cases same : number = id
        · right
          have create : onPortal id (.bind number statement params) = some .create := if_pos same
          rw [portal_sentOff_some create, lost]
          exact .loseCreate (portal_unsent pending create)
        · exact .inl (portal_sentOff_none (if_neg same) pending)
      · next open_ =>
        have kept : system.connectionGone = false := Bool.of_not_eq_true open_
        by_cases same : id = number
        · subst same
          right
          have create : onPortal id (.bind id statement params) = some .create := if_pos rfl
          rw [asked_portal, used_portal, portal_sentOff_some create, kept]
          exact .sendCreate (portal_unsent pending create)
        · left
          have nothing : onPortal id (.bind number statement params) = none :=
            if_neg (Ne.symm same)
          rw [asked_portal_ne same, used_portal, portal_sentOff_none nothing pending]
  | queryPortal portal maxRows => exact sendUse_portal pending fun id => rfl
  | closePortal portal =>
      rw [System.afterSend, letGo_portal]
      exact sendClose_portal pending
  | prepare number query types =>
      rw [System.afterSend]
      split
      · exact .inl (portal_sentOff_none rfl pending)
      · rw [setStatement_portal]
        exact .inl (portal_sentOff_none rfl pending)
  | query statement params | execute statement params =>
      rw [System.afterSend, used_portal]
      exact .inl (portal_sentOff_none rfl pending)
  | closeStatement _ | queryTyped _ _ | executeTyped _ _ | simpleQuery _ | batchExecute _ =>
      exact .inl (portal_sentOff_none rfl pending)

end

/-! ### One step -/

/-- What a step can do. -/
inductive Steps (system : System Ty) : System Ty → Prop where
  | stay : Steps system system
  | nextStatement : Steps system system.nextStatement
  | nextPortal : Steps system system.nextPortal
  | plain {thread : Nat} {request : ClientRequest Ty} (idle : system.unsent thread = none)
      (onStatement : ∀ id, onStatement id request = none)
      (onPortal : ∀ id, onPortal id request = none) : Steps system (system.pend thread request)
  | prepare {thread : Nat} (query : Str) (types : List Ty) (idle : system.unsent thread = none) :
      Steps system (system.nextStatement.pend thread
        (.prepare (UInt64.ofNat system.statementIds) query types))
  | prepared {id : UInt64} (awaiting : (system.statements id).awaiting = true) :
      Steps system (system.setStatement id ⟨false, true, [.other .handle]⟩)
  | notPrepared {id : UInt64} (awaiting : (system.statements id).awaiting = true) :
      Steps system (system.setStatement id { system.statements id with awaiting := false })
  | use {thread : Nat} {id : UInt64} {request : ClientRequest Ty}
      (idle : system.unsent thread = none) (owned : (system.statements id).owners ≠ [])
      (onStatement : ∀ other, onStatement other request =
        if some id = some other then some .use else none)
      (onPortal : ∀ other, onPortal other request = none) :
      Steps system (system.useStatement thread id request)
  | bind {thread : Nat} {id : UInt64} (types : List Ty) (params : List (ToSql Ty))
      (idle : system.unsent thread = none) (owned : (system.statements id).owners ≠ []) :
      Steps system (system.nextPortal.useStatement thread id
        (.bind (UInt64.ofNat system.portalIds) ⟨some id, types⟩ params))
  | bound {id : UInt64} (awaiting : (system.portals id).awaiting = true) :
      Steps system (system.setPortal id ⟨false, true, [.other ()]⟩)
  | notBound {id : UInt64} (awaiting : (system.portals id).awaiting = true) :
      Steps system ((system.setPortal id { system.portals id with awaiting := false }).letGo id)
  | queryPortal {thread : Nat} {portal : Portal} (maxRows : Int32)
      (idle : system.unsent thread = none) (owned : (system.portals portal.id).owners ≠ []) :
      Steps system (system.usePortal thread portal.id (.queryPortal portal maxRows))
  | send {thread : Nat} {request : ClientRequest Ty}
      (pending : system.unsent thread = some request) :
      Steps system ((system.sentOff thread request).afterSend thread request)
  | cloneStatement {id : UInt64} (owned : (system.statements id).owners ≠ []) :
      Steps system (system.setStatement id
        ((system.statements id).own (.other .handle :: (system.statements id).owners)))
  | clonePortal {id : UInt64} (owned : (system.portals id).owners ≠ []) :
      Steps system (system.setPortal id
        ((system.portals id).own (.other () :: (system.portals id).owners)))
  | releaseStatement {id : UInt64} (owned : .other .handle ∈ (system.statements id).owners)
      (others : (system.statements id).owners.erase (.other .handle) ≠ [] ∨
        system.clientGone = true) :
      Steps system (system.setStatement id
        ((system.statements id).own ((system.statements id).owners.erase (.other .handle))))
  | dropStatement {thread : Nat} {id : UInt64} (idle : system.unsent thread = none)
      (last : (system.statements id).owners = [.other .handle]) :
      Steps system ((system.setStatement id ((system.statements id).own [])).pend thread
        (.closeStatement id))
  | releasePortal {id : UInt64} (owned : .other () ∈ (system.portals id).owners)
      (others : (system.portals id).owners.erase (.other ()) ≠ []) :
      Steps system (system.setPortal id
        ((system.portals id).own ((system.portals id).owners.erase (.other ()))))
  | forgetPortal {id : UInt64} (last : (system.portals id).owners = [.other ()])
      (gone : system.clientGone = true) :
      Steps system ((system.setPortal id ((system.portals id).own [])).letGo id)
  | dropPortal {thread : Nat} {id : UInt64} (idle : system.unsent thread = none)
      (last : (system.portals id).owners = [.other ()]) :
      Steps system ((system.setPortal id ((system.portals id).own [])).pend thread
        (.closePortal ⟨id⟩))
  | clientGone : Steps system { system with clientGone := true }
  | connectionGone : Steps system { system with connectionGone := true }

section

theorem eq_singleton_of_erase {Label : Type} [DecidableEq Label] {owner : Label}
    {owners : List Label} (owned : owner ∈ owners) (none : owners.erase owner = []) :
    owners = [owner] :=
  (List.erase_eq_nil_iff.mp none).resolve_left (List.ne_nil_of_mem owned)

variable {system next : System Ty} {thread : Nat} {request : ClientRequest Ty} {event : Event Ty}

theorem free_idle (free : system.free thread = true) : system.unsent thread = none := by
  simp only [System.free, Bool.and_eq_true, Option.isNone_iff_eq_none] at free
  exact free.2

variable [HasOid Ty]

theorem plain_steps (stepped : system.plain thread request = some next)
    (statement : ∀ id, onStatement id request = none) (portal : ∀ id, onPortal id request = none) :
    Steps system next := by
  simp only [System.plain, Option.ite_none_right_eq_some, Option.some.injEq] at stepped
  obtain ⟨free, rfl⟩ := stepped
  split
  · exact .plain (free_idle free) statement portal
  · exact .stay

theorem step_steps (stepped : step system event = some next) : Steps system next := by
  cases event with
  | prepare thread query types =>
      simp only [step, Option.ite_none_right_eq_some, Option.some.injEq] at stepped
      obtain ⟨free, rfl⟩ := stepped
      split
      · exact .prepare query types (free_idle free)
      · exact .nextStatement
  | prepared id ok =>
      simp only [step, Option.ite_none_right_eq_some, Option.some.injEq] at stepped
      obtain ⟨awaiting, rfl⟩ := stepped
      cases ok with
      | true => exact .prepared awaiting
      | false => exact .notPrepared awaiting
  | query thread id types params | execute thread id types params =>
      simp only [step, Option.ite_none_right_eq_some, Option.some.injEq, Bool.and_eq_true,
        Bool.not_eq_true', List.isEmpty_eq_false_iff] at stepped
      obtain ⟨⟨free, owned⟩, rfl⟩ := stepped
      split
      · exact .use (free_idle free) owned (fun _ => rfl) (fun _ => rfl)
      · exact .stay
  | bind thread id types params =>
      simp only [step, Option.ite_none_right_eq_some, Option.some.injEq, Bool.and_eq_true,
        Bool.not_eq_true', List.isEmpty_eq_false_iff] at stepped
      obtain ⟨⟨free, owned⟩, rfl⟩ := stepped
      split
      · exact .bind types params (free_idle free) owned
      · exact .nextPortal
  | bound id ok =>
      simp only [step, Option.ite_none_right_eq_some, Option.some.injEq] at stepped
      obtain ⟨awaiting, rfl⟩ := stepped
      cases ok with
      | true => exact .bound awaiting
      | false => exact .notBound awaiting
  | queryPortal thread portal maxRows =>
      simp only [step, Option.ite_none_right_eq_some, Option.some.injEq, Bool.and_eq_true,
        Bool.not_eq_true', List.isEmpty_eq_false_iff] at stepped
      obtain ⟨⟨free, owned⟩, rfl⟩ := stepped
      split
      · exact .queryPortal maxRows (free_idle free) owned
      · exact .stay
  | simpleQuery thread query | batchExecute thread query | queryTyped thread query params
  | executeTyped thread query params =>
      exact plain_steps stepped (fun _ => rfl) (fun _ => rfl)
  | send thread =>
      simp only [step] at stepped
      cases pending : system.unsent thread with
      | none => simp [pending] at stepped
      | some request =>
          simp only [pending, Option.some.injEq] at stepped
          exact stepped ▸ .send pending
  | cloneStatement id =>
      simp only [step, Option.ite_none_left_eq_some, Option.some.injEq,
        List.isEmpty_iff] at stepped
      obtain ⟨owned, rfl⟩ := stepped
      exact .cloneStatement owned
  | clonePortal id =>
      simp only [step, Option.ite_none_left_eq_some, Option.some.injEq,
        List.isEmpty_iff] at stepped
      obtain ⟨owned, rfl⟩ := stepped
      exact .clonePortal owned
  | dropStatement thread id =>
      simp only [step, Option.ite_none_left_eq_some, Option.some.injEq] at stepped
      obtain ⟨possible, rfl⟩ := stepped
      simp only [Bool.or_eq_true, Bool.not_eq_true', not_or, Bool.not_eq_false,
        List.contains_iff_mem, Bool.not_eq_true, Option.isSome_eq_false_iff,
        Option.isNone_iff_eq_none] at possible
      obtain ⟨owned, idle⟩ := possible
      split
      · next others =>
        exact .releaseStatement owned (by simpa using others)
      · next last =>
        simp only [Bool.or_eq_true, Bool.not_eq_true', not_or, Bool.not_eq_false,
          List.isEmpty_iff, Bool.not_eq_true] at last
        rw [last.1]
        exact .dropStatement idle (eq_singleton_of_erase owned last.1)
  | dropPortal thread id =>
      simp only [step, Option.ite_none_left_eq_some, Option.some.injEq] at stepped
      obtain ⟨possible, rfl⟩ := stepped
      simp only [Bool.or_eq_true, Bool.not_eq_true', not_or, Bool.not_eq_false,
        List.contains_iff_mem, Bool.not_eq_true, Option.isSome_eq_false_iff,
        Option.isNone_iff_eq_none] at possible
      obtain ⟨owned, idle⟩ := possible
      split
      · next others => exact .releasePortal owned (by simpa using others)
      · next last =>
        have none : (system.portals id).owners.erase (.other ()) = [] := by
          rw [← List.isEmpty_iff]
          simpa only [Bool.not_eq_true', Bool.not_eq_false] using last
        rw [none]
        split
        · next gone => exact .forgetPortal (eq_singleton_of_erase owned none) gone
        · exact .dropPortal idle (eq_singleton_of_erase owned none)
  | clientGone => exact Option.some.inj stepped ▸ .clientGone
  | connectionGone => exact Option.some.inj stepped ▸ .connectionGone
  | otherStatement => exact Option.some.inj stepped ▸ .nextStatement
  | otherPortal => exact Option.some.inj stepped ▸ .nextPortal

end

/-! ### The statements -/

section

variable {system next : System Ty} {id : UInt64}

theorem setStatement_follows {other : UInt64} {handle : Handle Holder}
    (moves : Moves (system.statement other) { system.statement other with
      awaiting := handle.awaiting, created := handle.created, owners := handle.owners }) :
    Follows (system.statement id) ((system.setStatement other handle).statement id) := by
  by_cases same : id = other
  · subst same
    right
    rw [setStatement_statement]
    exact moves
  · exact .inl (setStatement_statement_ne same _)

theorem dropStatement_follows {thread : Nat} {other : UInt64} (idle : system.unsent thread = none)
    (last : (system.statements other).owners = [.other .handle]) :
    Follows (system.statement id)
      (((system.setStatement other ((system.statements other).own [])).pend thread
        (.closeStatement other)).statement id) := by
  by_cases same : id = other
  · subst same
    right
    have close : onStatement id (.closeStatement id : ClientRequest Ty) = some .close := if_pos rfl
    rw [statement_pend_some close, setStatement_statement]
    refine .drop last ?_
    show (system.unsent thread).bind _ = none
    rw [idle]
    rfl
  · left
    have nothing : onStatement id (.closeStatement other : ClientRequest Ty) = none :=
      if_neg (Ne.symm same)
    exact Eq.trans (statement_pend_none nothing idle) (setStatement_statement_ne same _)

theorem setPortal_letGo_follows {other : UInt64} {handle : Handle Unit}
    (owned : ∀ statement, system.statementOf other = some statement →
      .other (.portal other) ∈ (system.statements statement).owners) :
    Follows (system.statement id)
      (((system.setPortal other handle).letGo other).statement id) := by
  have follows : Follows ((system.setPortal other handle).statement id)
      (((system.setPortal other handle).letGo other).statement id) := letGo_statement owned
  exact follows

theorem severed_statement (severed : system.clientGone = true ∨ system.connectionGone = true) :
    (system.statement id).severed = true := by
  simpa [System.statement, System.view] using severed

theorem steps_statement (sound : Sound system) (steps : Steps system next)
    (room : next.statementIds ≤ 2 ^ 64) :
    Follows (system.statement id) (next.statement id) := by
  cases steps with
  | stay | nextPortal | bound | clonePortal | releasePortal => exact .inl rfl
  | queryPortal maxRows idle => exact .inl (statement_pend_none rfl idle)
  | nextStatement => exact nextStatement_follows (Nat.lt_of_succ_le room)
  | plain idle nothing => exact .inl (statement_pend_none (nothing id) idle)
  | prepare query types idle => exact prepare_follows (Nat.lt_of_succ_le room) idle query types
  | prepared awaiting => exact setStatement_follows (.created Holder.handle awaiting)
  | notPrepared awaiting => exact setStatement_follows (.refused awaiting)
  | use idle owned does => exact useStatement_follows idle owned does
  | @bind thread other types params idle owned =>
      have does : ∀ id, onStatement id (.bind (UInt64.ofNat system.portalIds) ⟨some other, types⟩
          params) = if some other = some id then some .use else none := fun _ => rfl
      have follows : Follows (system.nextPortal.statement id) _ :=
        useStatement_follows idle owned does
      exact follows
  | @notBound other awaiting =>
      exact setPortal_letGo_follows fun statement found =>
        sound.held other statement found (.inl awaiting)
  | send pending => exact send_statement sound pending
  | cloneStatement owned => exact setStatement_follows (.share Holder.handle owned)
  | @releaseStatement other owned others =>
      by_cases more : (system.statements other).owners.erase (.other .handle) = []
      · have gone : system.clientGone = true := others.resolve_left (absurd more)
        rw [more]
        exact setStatement_follows
          (.forget (eq_singleton_of_erase owned more) (severed_statement (.inl gone)))
      · exact setStatement_follows (.release owned more)
  | dropStatement idle last => exact dropStatement_follows idle last
  | @forgetPortal other last gone =>
      exact setPortal_letGo_follows fun statement found =>
        sound.held other statement found (.inr (.inl (by simp [last])))
  | dropPortal idle last => exact .inl (statement_pend_none rfl idle)
  | clientGone => exact .inr .sever
  | connectionGone =>
      right
      have severed : ({ system with connectionGone := true } : System Ty).statement id =
          { system.statement id with severed := true } := by
        simp [System.statement, System.view]
      rw [severed]
      exact .sever

end

/-! ### The portals -/

section

variable {system next : System Ty} {id : UInt64}

theorem setPortal_follows {other : UInt64} {handle : Handle Unit}
    (moves : Moves (system.portal other) { system.portal other with
      awaiting := handle.awaiting, created := handle.created, owners := handle.owners }) :
    Follows (system.portal id) ((system.setPortal other handle).portal id) := by
  by_cases same : id = other
  · subst same
    right
    rw [setPortal_portal]
    exact moves
  · exact .inl (setPortal_portal_ne same _)

theorem dropPortal_follows {thread : Nat} {other : UInt64} (idle : system.unsent thread = none)
    (last : (system.portals other).owners = [.other ()]) :
    Follows (system.portal id) (((system.setPortal other ((system.portals other).own [])).pend
      thread (.closePortal ⟨other⟩)).portal id) := by
  by_cases same : id = other
  · subst same
    right
    have close : onPortal id (.closePortal ⟨id⟩ : ClientRequest Ty) = some .close := if_pos rfl
    rw [portal_pend_some close, setPortal_portal]
    refine .drop last ?_
    show (system.unsent thread).bind _ = none
    rw [idle]
    rfl
  · left
    have nothing : onPortal id (.closePortal ⟨other⟩ : ClientRequest Ty) = none :=
      if_neg (Ne.symm same)
    exact Eq.trans (portal_pend_none nothing idle) (setPortal_portal_ne same _)

theorem bind_follows {thread : Nat} {other : UInt64} (room : system.portalIds < 2 ^ 64)
    (idle : system.unsent thread = none) (types : List Ty) (params : List (ToSql Ty)) :
    Follows (system.portal id) ((system.nextPortal.useStatement thread other
      (.bind (UInt64.ofNat system.portalIds) ⟨some other, types⟩ params)).portal id) := by
  rw [System.useStatement]
  rcases nextPortal_portal room id with ⟨same, fresh, moved⟩ | ⟨apart, kept⟩
  · right
    have does : onPortal id (.bind (UInt64.ofNat system.portalIds) ⟨some other, types⟩ params) =
      some .create := if_pos same.symm
    rw [portal_pend_some does, setStatement_portal, moved]
    exact .nameAndPend thread fresh
  · left
    have does : onPortal id (.bind (UInt64.ofNat system.portalIds) ⟨some other, types⟩ params) =
      none := if_neg (Ne.symm apart)
    exact Eq.trans (portal_pend_none does idle) kept

theorem steps_portal (steps : Steps system next) (room : next.portalIds ≤ 2 ^ 64) :
    Follows (system.portal id) (next.portal id) := by
  cases steps with
  | stay | nextStatement | prepared | notPrepared | cloneStatement | releaseStatement =>
      exact .inl rfl
  | prepare query types idle | dropStatement idle => exact .inl (portal_pend_none rfl idle)
  | nextPortal => exact nextPortal_follows (Nat.lt_of_succ_le room)
  | plain idle _ nothing => exact .inl (portal_pend_none (nothing id) idle)
  | use idle owned _ nothing => exact .inl (portal_pend_none (nothing id) idle)
  | bind types params idle => exact bind_follows (Nat.lt_of_succ_le room) idle types params
  | bound awaiting => exact setPortal_follows (.created () awaiting)
  | notBound awaiting =>
      rw [letGo_portal]
      exact setPortal_follows (.refused awaiting)
  | queryPortal maxRows idle owned => exact usePortal_follows idle owned fun _ => rfl
  | send pending => exact send_portal pending
  | clonePortal owned => exact setPortal_follows (.share () owned)
  | releasePortal owned others => exact setPortal_follows (.release owned others)
  | @forgetPortal other last gone =>
      rw [letGo_portal]
      have severed : (system.portal other).severed = true := by
        simp [System.portal, System.view, gone]
      exact setPortal_follows (.forget last severed)
  | dropPortal idle last => exact dropPortal_follows idle last
  | clientGone => exact .inr .sever
  | connectionGone =>
      right
      have severed : ({ system with connectionGone := true } : System Ty).portal id =
          { system.portal id with severed := true } := by
        simp [System.portal, System.view]
      rw [severed]
      exact .sever

end

end OpenGauss.Driver.Handles

import OpenGauss.Driver.HandlesMoves

/-! What a run of the handles leaves in the queue for the name of a statement and of a portal. -/

set_option autoImplicit false

namespace OpenGauss.Driver.Handles

open Lib Protocol FrontendBuffer Resource

variable {Ty : Type}

/-! ### A portal in use owns its statement -/

/-- That a portal in use owns its statement, for one of them. -/
def System.Holds (system : System Ty) (id statement : UInt64) : Prop :=
  system.statementOf id = some statement → system.Busy id →
    .other (.portal id) ∈ (system.statements statement).owners

section

variable {system next : System Ty} {id other statement : UInt64} {thread : Nat}
  {request : ClientRequest Ty}

theorem setStatement_owner {handle : Handle Holder} {owner : Owner Holder}
    (kept : owner ∈ (system.statements other).owners → owner ∈ handle.owners)
    (owned : owner ∈ (system.statements statement).owners) :
    owner ∈ ((system.setStatement other handle).statements statement).owners := by
  by_cases same : statement = other
  · subst same
    simpa [System.setStatement] using kept owned
  · simpa [System.setStatement, same] using owned

theorem passStatement_owner {owner before after : Owner Holder} (apart : owner ≠ before)
    (owned : owner ∈ (system.statements statement).owners) :
    owner ∈ ((system.passStatement other before after).statements statement).owners :=
  setStatement_owner
    (fun owned => List.mem_cons_of_mem _ ((List.mem_erase_of_ne apart).mpr owned)) owned

theorem letGo_owner (apart : id ≠ other)
    (owned : .other (.portal id) ∈ (system.statements statement).owners) :
    .other (.portal id) ∈ ((system.letGo other).statements statement).owners := by
  rw [System.letGo]
  split
  · exact owned
  · exact passStatement_owner (by simpa using apart) owned

theorem busy_pend (apart : request ≠ .closePortal ⟨id⟩)
    (busy : (system.pend thread request).Busy id) : system.Busy id := by
  refine busy.imp_right (Or.imp_right ?_)
  rintro ⟨other, pending⟩
  by_cases same : other = thread
  · have found : request = .closePortal ⟨id⟩ := by simpa [System.pend, same] using pending
    exact absurd found apart
  · exact ⟨other, by simpa [System.pend, same] using pending⟩

theorem busy_sentOff (busy : (system.sentOff thread request).Busy id) : system.Busy id := by
  refine busy.imp_right (Or.imp_right ?_)
  rintro ⟨other, pending⟩
  by_cases same : other = thread
  · simp [System.sentOff, same] at pending
  · exact ⟨other, by simpa [System.sentOff, same] using pending⟩

theorem busy_setPortal {handle : Handle Unit} (before : id = other → system.Busy other)
    (busy : (system.setPortal other handle).Busy id) : system.Busy id := by
  by_cases same : id = other
  · exact same ▸ before same
  · simpa [System.Busy, System.setPortal, same] using busy

theorem busy_letGo : (system.letGo other).Busy id ↔ system.Busy id := by
  rw [System.letGo]
  split <;> rfl

@[simp] theorem statementOf_letGo : (system.letGo other).statementOf = system.statementOf := by
  rw [System.letGo]
  split <;> rfl

/-- A portal that is gone is not in use. -/
theorem not_busy (awaiting : (system.portals id).awaiting = false)
    (owners : (system.portals id).owners = []) (idle : Idle (system.portal id).unsent) :
    ¬ system.Busy id := by
  rintro (asked | owned | ⟨thread, pending⟩)
  · simp [awaiting] at asked
  · exact owned owners
  · exact idle.not_pending (portal_unsent pending (if_pos rfl))

/-- A portal that is not in use any more lets its statement go. -/
theorem holds_letGo {middle : System Ty} (sound : Sound system)
    (statementOf : middle.statementOf = system.statementOf)
    (statements : middle.statements = system.statements)
    (others : id ≠ other → middle.Busy id → system.Busy id) (gone : ¬ middle.Busy other) :
    (middle.letGo other).Holds id statement := by
  intro found busy
  rw [statementOf_letGo, statementOf] at found
  rw [busy_letGo] at busy
  have apart : id ≠ other := fun same => gone (same ▸ busy)
  refine letGo_owner apart ?_
  rw [statements]
  exact sound.held id statement found (others apart busy)

theorem used_owner {used : Statement Ty} {after : Holder}
    (owned : .other (.portal id) ∈ (system.statements statement).owners) :
    .other (.portal id) ∈ ((system.used thread used after).statements statement).owners := by
  rw [System.used]
  split
  · exact owned
  · exact passStatement_owner (by simp) owned

theorem busy_used {used : Statement Ty} {after : Holder} :
    (system.used thread used after).Busy id ↔ system.Busy id := by
  rw [System.used]
  split <;> rfl

@[simp] theorem statementOf_used {used : Statement Ty} {after : Holder} :
    (system.used thread used after).statementOf = system.statementOf := by
  rw [System.used]
  split <;> rfl

theorem send_held (sound : Sound system) (pending : system.unsent thread = some request) :
    ((system.sentOff thread request).afterSend thread request).Holds id statement := by
  cases request with
  | prepare number query types =>
      intro found busy
      by_cases gone : system.connectionGone = true
      · have lost : (system.sentOff thread (.prepare number query types)).connectionGone = true :=
          gone
        rw [System.afterSend, if_pos lost] at found busy ⊢
        exact sound.held id statement found (busy_sentOff busy)
      · have kept : ¬ (system.sentOff thread (.prepare number query types)).connectionGone = true :=
          gone
        rw [System.afterSend, if_neg kept] at found busy ⊢
        have before : (system.sentOff thread (.prepare number query types)).Busy id := busy
        exact setStatement_owner (fun owned => owned)
          (sound.held id statement found (busy_sentOff before))
  | query used params | execute used params =>
      intro found busy
      rw [System.afterSend, statementOf_used] at found
      rw [System.afterSend, busy_used] at busy
      exact used_owner (sound.held id statement found (busy_sentOff busy))
  | bind number used params =>
      rw [System.afterSend]
      split
      · intro found busy
        rw [statementOf_used] at found
        rw [busy_used] at busy
        exact used_owner (sound.held id statement found (busy_sentOff busy))
      · intro found busy
        by_cases same : id = number
        · subst same
          have named : used.id = some statement := by simpa [System.asked] using found
          rw [System.used, named]
          simp [System.asked, System.setPortal, System.passStatement, System.setStatement,
            Handle.own]
        · have before : system.statementOf id = some statement := by
            simpa [System.asked, same, System.sentOff] using found
          have asked := busy_used.mp (busy_setPortal (fun impossible => absurd impossible same) busy)
          exact used_owner (sound.held id statement before (busy_sentOff asked))
  | queryPortal portal maxRows =>
      intro found busy
      have use : onPortal portal.id (.queryPortal portal maxRows : ClientRequest Ty) = some .use :=
        if_pos rfl
      obtain ⟨_, _, ⟨impossible, _⟩ | ⟨_, owner⟩ | ⟨impossible, _⟩⟩ :=
        (sound.portals portal.id).pending (portal_unsent pending use)
      · cases impossible
      · have owned : (system.portals portal.id).owners ≠ [] := List.ne_nil_of_mem owner
        have before : (system.sentOff thread (.queryPortal portal maxRows)).Busy id :=
          busy_setPortal (fun _ => .inr (.inl owned)) busy
        exact sound.held id statement found (busy_sentOff before)
      · cases impossible
  | closePortal portal =>
      have close : onPortal portal.id (.closePortal portal : ClientRequest Ty) = some .close :=
        if_pos rfl
      obtain ⟨_, awaiting, ⟨impossible, _⟩ | ⟨impossible, _⟩ | ⟨_, _, owners, only⟩⟩ :=
        (sound.portals portal.id).pending (portal_unsent pending close)
      · cases impossible
      · cases impossible
      · refine holds_letGo sound rfl rfl (fun _ => busy_sentOff) (not_busy awaiting owners ?_)
        rw [portal_sentOff_some close]
        exact only.idle
  | closeStatement _ | queryTyped _ _ | executeTyped _ _ | simpleQuery _ | batchExecute _ =>
      exact fun found busy => sound.held id statement found (busy_sentOff busy)

theorem steps_held (sound : Sound system) (steps : Steps system next) :
    next.Holds id statement := by
  cases steps with
  | stay | nextStatement | nextPortal | clientGone | connectionGone => exact sound.held id statement
  | plain idle _ nothing =>
      intro found busy
      refine sound.held id statement found (busy_pend ?_ busy)
      rintro rfl
      have impossible := nothing id
      simp [onPortal] at impossible
  | prepare query types idle =>
      exact fun found busy => sound.held id statement found (busy_pend (by simp) busy)
  | @prepared other awaiting =>
      intro found busy
      refine setStatement_owner (fun owned => ?_) (sound.held id statement found busy)
      obtain ⟨_, _, _, owners⟩ := (sound.statements other).nothing_created awaiting
      have none : (system.statements other).owners = [] := owners
      simp [none] at owned
  | notPrepared awaiting =>
      exact fun found busy => setStatement_owner (fun owned => owned)
        (sound.held id statement found busy)
  | use idle owned _ nothing =>
      intro found busy
      refine setStatement_owner (List.mem_cons_of_mem _) (sound.held id statement found ?_)
      refine busy_pend ?_ busy
      rintro rfl
      have impossible := nothing id
      simp [onPortal] at impossible
  | bind types params idle owned =>
      exact fun found busy => setStatement_owner (List.mem_cons_of_mem _)
        (sound.held id statement found (busy_pend (by simp) busy))
  | bound awaiting =>
      exact fun found busy => sound.held id statement found
        (busy_setPortal (fun _ => .inl awaiting) busy)
  | @notBound other awaiting =>
      obtain ⟨_, _, idle, nobody⟩ := (sound.portals other).nothing_created awaiting
      have owners : (system.portals other).owners = [] := nobody
      refine holds_letGo sound rfl rfl
        (fun apart => busy_setPortal fun same => absurd same apart) (not_busy ?_ ?_ ?_)
      · simp [System.setPortal]
      · simpa [System.setPortal] using owners
      · rw [setPortal_portal]
        exact idle
  | queryPortal maxRows idle owned =>
      intro found busy
      have before := busy_pend (by simp) busy
      exact sound.held id statement found (busy_setPortal (fun _ => .inr (.inl owned)) before)
  | send pending => exact send_held sound pending
  | cloneStatement owned =>
      exact fun found busy => setStatement_owner (List.mem_cons_of_mem _)
        (sound.held id statement found busy)
  | clonePortal owned =>
      exact fun found busy => sound.held id statement found
        (busy_setPortal (fun _ => .inr (.inl owned)) busy)
  | releasePortal owned =>
      exact fun found busy => sound.held id statement found
        (busy_setPortal (fun _ => .inr (.inl (List.ne_nil_of_mem owned))) busy)
  | releaseStatement owned others =>
      exact fun found busy => setStatement_owner
        (fun owned => (List.mem_erase_of_ne (by simp)).mpr owned)
        (sound.held id statement found busy)
  | dropStatement idle last =>
      intro found busy
      refine setStatement_owner (fun owned => ?_)
        (sound.held id statement found (busy_pend (by simp) busy))
      simp [last] at owned
  | @forgetPortal other last gone =>
      obtain ⟨_, _, idle, answered⟩ := (sound.portals other).last last
      have awaiting : (system.portals other).awaiting = false := answered
      refine holds_letGo sound rfl rfl
        (fun apart => busy_setPortal fun same => absurd same apart) (not_busy ?_ ?_ ?_)
      · simpa [System.setPortal, Handle.own] using awaiting
      · simp [System.setPortal, Handle.own]
      · rw [setPortal_portal]
        exact idle
  | @dropPortal thread other idle last =>
      intro found busy
      refine sound.held id statement found ?_
      by_cases same : id = other
      · exact .inr (.inl (by simp [same, last]))
      · have before := busy_pend (by simpa using Ne.symm same) busy
        exact busy_setPortal (fun impossible => absurd impossible same) before

end

/-! ### Runs -/

section

variable {system next final : System Ty}

/-- Whether the counters of the names have not wrapped around. -/
def System.Room (system : System Ty) : Prop :=
  system.statementIds ≤ 2 ^ 64 ∧ system.portalIds ≤ 2 ^ 64

theorem letGo_room {id : UInt64} : (system.letGo id).Room ↔ system.Room := by
  rw [System.letGo]
  split <;> rfl

theorem used_room {thread : Nat} {statement : Statement Ty} {after : Holder} :
    (system.used thread statement after).Room ↔ system.Room := by
  rw [System.used]
  split <;> rfl

theorem afterSend_room {thread : Nat} {request : ClientRequest Ty} :
    (system.afterSend thread request).Room ↔ system.Room := by
  cases request with
  | prepare _ _ _ =>
      rw [System.afterSend]
      split <;> rfl
  | query _ _ | execute _ _ => exact used_room
  | bind _ _ _ =>
      rw [System.afterSend]
      split
      · exact used_room
      · exact used_room
  | closePortal _ => exact letGo_room
  | queryPortal _ _ | closeStatement _ | queryTyped _ _ | executeTyped _ _ | simpleQuery _
  | batchExecute _ => rfl

theorem steps_room (steps : Steps system next) (room : next.Room) : system.Room := by
  cases steps with
  | nextStatement | prepare => exact ⟨Nat.le_of_succ_le room.1, room.2⟩
  | nextPortal | bind => exact ⟨room.1, Nat.le_of_succ_le room.2⟩
  | @send thread request _ =>
      have before : (system.sentOff thread request).Room := afterSend_room.mp room
      exact before
  | @notBound id _ =>
      have before : (system.setPortal id { system.portals id with awaiting := false }).Room :=
        letGo_room.mp room
      exact before
  | @forgetPortal id _ _ =>
      have before : (system.setPortal id ((system.portals id).own [])).Room := letGo_room.mp room
      exact before
  | stay | plain | prepared | notPrepared | use | bound | queryPortal | cloneStatement
  | clonePortal | releaseStatement | dropStatement | releasePortal | dropPortal | clientGone
  | connectionGone => exact room

theorem start_sound : Sound ({} : System Ty) where
  statements _ := .fresh rfl rfl (fun _ => rfl) rfl rfl rfl
  portals _ := .fresh rfl rfl (fun _ => rfl) rfl rfl rfl
  held _ _ found := by cases found

theorem steps_sound (sound : Sound system) (steps : Steps system next) (room : next.Room) :
    Sound next where
  statements id := (steps_statement sound steps room.1).phase (sound.statements id)
  portals id := (steps_portal steps room.2).phase (sound.portals id)
  held _ _ := steps_held sound steps

section

variable [HasOid Ty] {events : List (Event Ty)}

theorem execute_sound (run : Execution.execute step {} events = some final) (room : final.Room) :
    Sound final := by
  have kept : final.Room → Sound final :=
    Execution.invariant step
      (fun system event next holds stepped room =>
        have steps := step_steps stepped
        steps_sound (holds (steps_room steps room)) steps room)
      run fun _ => start_sound
  exact kept room

end

/-- What the requests in the queue do with the statement of a number. -/
def System.onStatementName (system : System Ty) (id : UInt64) : List Act :=
  system.sent.filterMap (statementAct (numberedName 's' id))

def System.onPortalName (system : System Ty) (id : UInt64) : List Act :=
  system.sent.filterMap (portalAct (numberedName 'p' id))

/-- What holds of the requests in the queue, and of the handles. -/
structure Lived (system : System Ty) : Prop where
  /-- The name of a statement is parsed once, then used, and closed at most once at the end. -/
  statements : ∀ id, Orderly (system.onStatementName id)
  portals : ∀ id, Orderly (system.onPortalName id)
  /-- A statement is open for its handles, and for a portal that has not been closed. -/
  open_ : ∀ id, (system.statements id).owners ≠ [] → .close ∉ system.onStatementName id
  openPortal : ∀ id, (system.portals id).owners ≠ [] → .close ∉ system.onPortalName id
  nested : ∀ id statement, system.statementOf id = some statement → system.Busy id →
    .close ∉ system.onStatementName statement
  /-- Without handles it has been closed, or a thread is about to. -/
  closed : ∀ id, (system.statements id).created = true → (system.statements id).owners = [] →
    (∀ thread, system.unsent thread ≠ some (.closeStatement id)) →
    system.clientGone = false → system.connectionGone = false →
    .close ∈ system.onStatementName id
  closedPortal : ∀ id, (system.portals id).created = true → (system.portals id).owners = [] →
    (∀ thread, system.unsent thread ≠ some (.closePortal ⟨id⟩)) →
    system.clientGone = false → system.connectionGone = false →
    .close ∈ system.onPortalName id

theorem onStatementName_eq (id : UInt64) :
    system.onStatementName id = (system.statement id).history :=
  congrArg (fun act => system.sent.filterMap act) (funext (statementAct_eq id))

theorem onPortalName_eq (id : UInt64) : system.onPortalName id = (system.portal id).history :=
  congrArg (fun act => system.sent.filterMap act) (funext (portalAct_eq id))

theorem Sound.lived (sound : Sound system) : Lived system where
  statements id := onStatementName_eq id ▸ (sound.statements id).orderly
  portals id := onPortalName_eq id ▸ (sound.portals id).orderly
  open_ id owned := onStatementName_eq id ▸ (sound.statements id).open_ owned
  openPortal id owned := onPortalName_eq id ▸ (sound.portals id).open_ owned
  nested id statement found busy := onStatementName_eq statement ▸
    (sound.statements statement).open_ (List.ne_nil_of_mem (sound.held id statement found busy))
  closed id created owners closing client connection := by
    obtain ⟨uses, history⟩ := (sound.statements id).closed created owners
      (fun thread pending => by
        obtain ⟨request, sending, close⟩ := Option.bind_eq_some_iff.mp pending
        exact closing thread (onStatement_close close ▸ sending))
      (by simp [System.statement, System.view, client, connection])
    simp [onStatementName_eq, history]
  closedPortal id created owners closing client connection := by
    obtain ⟨uses, history⟩ := (sound.portals id).closed created owners
      (fun thread pending => by
        obtain ⟨request, sending, close⟩ := Option.bind_eq_some_iff.mp pending
        exact closing thread (onPortal_close close ▸ sending))
      (by simp [System.portal, System.view, client, connection])
    simp [onPortalName_eq, history]

variable [HasOid Ty] {events : List (Event Ty)}

/-- In every run of the handles, unless the counters of the names wrap around. -/
theorem execute_lived (run : Execution.execute step {} events = some final)
    (room : final.statementIds ≤ 2 ^ 64 ∧ final.portalIds ≤ 2 ^ 64) : Lived final :=
  (execute_sound run room).lived

end

/-- A portal outlives the last handle of its statement, which is closed behind it. -/
def portalEvents : List (Event UInt32) :=
  [.prepare 0 ['q'] [], .send 0, .prepared 0 true, .bind 1 0 [] [], .send 1,
    .dropStatement 0 0, .bound 0 true, .queryPortal 1 ⟨0⟩ 5, .send 1, .dropPortal 1 0,
    .dropPortal 0 0, .send 0, .dropStatement 0 0, .send 0]

theorem execute_lived_portal :
    ∃ final, Execution.execute (@step UInt32 ⟨id⟩) {} portalEvents = some final ∧
      final.onStatementName 0 = [.create, .use, .close] ∧
      final.onPortalName 0 = [.create, .use, .close] ∧ Lived final := by
  have ran : (Execution.execute (@step UInt32 ⟨id⟩) {} portalEvents).any (fun final =>
      decide (final.statementIds ≤ 2 ^ 64 ∧ final.portalIds ≤ 2 ^ 64) &&
        decide (final.onStatementName 0 = [.create, .use, .close]) &&
          decide (final.onPortalName 0 = [.create, .use, .close])) = true := by
    decide +kernel
  obtain ⟨final, run, holds⟩ := (Option.any_eq_true ..).mp ran
  simp only [Bool.and_eq_true, decide_eq_true_eq] at holds
  obtain ⟨⟨room, statement⟩, portal⟩ := holds
  exact ⟨final, run, statement, portal, @execute_lived UInt32 final ⟨id⟩ portalEvents run room⟩

end OpenGauss.Driver.Handles

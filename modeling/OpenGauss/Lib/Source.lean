/-! Sources that hand out items until they fail, the loops that take them, and the streams that are
made of such loops. A loop over one source can be followed on another that hands out the same. -/

set_option autoImplicit false

namespace OpenGauss.Lib

/-- A source; each item makes its state smaller. -/
structure Source (State Item Error : Type) where
  poll : State → Except Error Item × State
  size : State → Nat
  shorter : ∀ {state rest : State} {item : Item},
    poll state = (.ok item, rest) → size rest < size state

/-- What a loop does with an item: it ends with a value or an error, or goes on. -/
abbrev Body (Local Item Error Value : Type) :=
  Local → Item → Except Error (Option Value) × Local

/-- Where a loop has ended. -/
structure Ended (Local State Error Value : Type) where
  result : Except Error Value
  locals : Local
  source : State

namespace Source

variable {State Item Error Local Value Out : Type} (source : Source State Item Error)

/-- A loop that takes an item in each turn. -/
def run (body : Body Local Item Error Value) (locals : Local) (state : State) :
    Ended Local State Error Value :=
  match _ : source.poll state with
  | (.error error, rest) => ⟨.error error, locals, rest⟩
  | (.ok item, rest) =>
      match body locals item with
      | (.error error, locals) => ⟨.error error, locals, rest⟩
      | (.ok (some value), locals) => ⟨.ok value, locals, rest⟩
      | (.ok none, locals) => run body locals rest
termination_by source.size state
decreasing_by
  rename_i taken
  exact source.shorter taken

variable {source} {body : Body Local Item Error Value} {locals after : Local} {state rest : State}
  {item : Item} {error : Error} {value : Value}

theorem run_failed (taken : source.poll state = (.error error, rest)) :
    source.run body locals state = ⟨.error error, locals, rest⟩ := by
  rw [run]
  split
  · next other => rw [taken] at other; cases other; rfl
  · next other => rw [taken] at other; cases other

theorem run_item (taken : source.poll state = (.ok item, rest)) :
    source.run body locals state =
      match body locals item with
      | (.error error, locals) => ⟨.error error, locals, rest⟩
      | (.ok (some value), locals) => ⟨.ok value, locals, rest⟩
      | (.ok none, locals) => source.run body locals rest := by
  rw [run]
  split
  · next other => rw [taken] at other; cases other
  · next other => rw [taken] at other; cases other; rfl

theorem run_next (taken : source.poll state = (.ok item, rest))
    (again : body locals item = (.ok none, after)) :
    source.run body locals state = source.run body after rest := by
  rw [run_item taken, again]

theorem run_done (taken : source.poll state = (.ok item, rest))
    (done : body locals item = (.ok (some value), after)) :
    source.run body locals state = ⟨.ok value, after, rest⟩ := by
  rw [run_item taken, done]

theorem run_error (taken : source.poll state = (.ok item, rest))
    (failed : body locals item = (.error error, after)) :
    source.run body locals state = ⟨.error error, after, rest⟩ := by
  rw [run_item taken, failed]

/-- Each loop that comes to a value has taken an item. -/
theorem run_shorter (ended : (source.run body locals state).result = .ok value) :
    source.size (source.run body locals state).source < source.size state := by
  induction size : source.size state using Nat.strongRecOn generalizing locals state with
  | _ bound ih =>
      cases taken : source.poll state with
      | mk result rest =>
          cases result with
          | error error => simp [run_failed taken] at ended
          | ok item =>
              have shorter := size ▸ source.shorter taken
              cases turn : body locals item with
              | mk outcome after =>
                  match outcome with
                  | .error error => simp [run_error taken turn] at ended
                  | .ok (some found) => simpa [run_done taken turn] using shorter
                  | .ok none =>
                      rw [run_next taken turn] at ended ⊢
                      exact Nat.lt_trans (ih _ shorter ended rfl) shorter

/-! ### Following a loop on another source -/

variable {Other : Type} {other : Source Other Item Error}

/-- The states of two sources that hand out the same. -/
def Follows (source : Source State Item Error) (other : Source Other Item Error)
    (same : State → Other → Prop) : Prop :=
  ∀ state twin, same state twin →
    (source.poll state).1 = (other.poll twin).1 ∧ same (source.poll state).2 (other.poll twin).2

theorem Follows.run {same : State → Other → Prop} (follows : Follows source other same)
    (body : Body Local Item Error Value) (locals : Local) {twin : Other} (start : same state twin) :
    (source.run body locals state).result = (other.run body locals twin).result ∧
      (source.run body locals state).locals = (other.run body locals twin).locals ∧
      same (source.run body locals state).source (other.run body locals twin).source := by
  induction size : source.size state using Nat.strongRecOn generalizing locals state twin with
  | _ bound ih =>
      obtain ⟨equal, later⟩ := follows state twin start
      cases taken : source.poll state with
      | mk result rest =>
          cases took : other.poll twin with
          | mk result' rest' =>
              simp only [taken, took] at equal later
              subst equal
              cases result with
              | error error =>
                  rw [run_failed taken, run_failed took]
                  exact ⟨rfl, rfl, later⟩
              | ok item =>
                  have shorter := size ▸ source.shorter taken
                  cases turn : body locals item with
                  | mk outcome after =>
                      match outcome with
                      | .error error =>
                          rw [run_error taken turn, run_error took turn]
                          exact ⟨rfl, rfl, later⟩
                      | .ok (some found) =>
                          rw [run_done taken turn, run_done took turn]
                          exact ⟨rfl, rfl, later⟩
                      | .ok none =>
                          rw [run_next taken turn, run_next took turn]
                          exact ih _ shorter after later rfl

/-! ### Lists -/

section

variable (fails : Item → Option Error) (closed : Error)

def pollList : List Item → Except Error Item × List Item
  | [] => (.error closed, [])
  | item :: items =>
      match fails item with
      | some error => (.error error, items)
      | none => (.ok item, items)

/-- A list, of which some items are errors. -/
def ofList : Source (List Item) Item Error where
  poll := pollList fails closed
  size := List.length
  shorter := by
    intro items rest item taken
    cases items with
    | nil => cases taken
    | cons first items =>
        cases failed : fails first with
        | some error => simp [pollList, failed] at taken
        | none =>
            have same : items = rest := by simpa [pollList, failed] using congrArg Prod.snd taken
            simp [same]

/-- The loop goes on with each of these items. -/
inductive Goes (body : Body Local Item Error Value) : Local → List Item → Local → Prop where
  | nil {locals : Local} : Goes body locals [] locals
  | cons {locals between after : Local} {item : Item} {items : List Item}
      (again : body locals item = (.ok none, between)) (rest : Goes body between items after) :
      Goes body locals (item :: items) after

variable {fails closed} {items : List Item}

theorem poll_ofList (fine : fails item = none) :
    (ofList fails closed).poll (item :: items) = (.ok item, items) := by
  simp [ofList, pollList, fine]

theorem Goes.run (goes : Goes body locals items after) (fine : ∀ item ∈ items, fails item = none)
    (rest : List Item) :
    (ofList fails closed).run body locals (items ++ rest) =
      (ofList fails closed).run body after rest := by
  induction goes with
  | nil => rfl
  | @cons locals between after item items again goes ih =>
      have first : fails item = none := fine item List.mem_cons_self
      rw [List.cons_append, run_next (poll_ofList first) again]
      exact ih fun other member => fine other (List.mem_cons_of_mem _ member)

/-- A loop over a list ends with a value at the first item that it does not go on with. -/
theorem run_ofList_ok {rest : List Item} :
    (ofList fails closed).run body locals items = ⟨.ok value, after, rest⟩ ↔
      ∃ before last between, items = before ++ last :: rest ∧
        (∀ item ∈ before ++ [last], fails item = none) ∧ Goes body locals before between ∧
        body between last = (.ok (some value), after) := by
  constructor
  · intro ended
    induction items generalizing locals with
    | nil =>
        have taken : (ofList fails closed).poll [] = (.error closed, []) := rfl
        rw [run_failed taken] at ended
        cases ended
    | cons item items ih =>
        cases first : fails item with
        | some error =>
            have taken : (ofList fails closed).poll (item :: items) = (.error error, items) := by
              simp [ofList, pollList, first]
            rw [run_failed taken] at ended
            cases ended
        | none =>
            rw [run_item (poll_ofList first)] at ended
            cases turn : body locals item with
            | mk outcome between =>
                rw [turn] at ended
                match outcome with
                | .error error => cases ended
                | .ok (some found) =>
                    cases ended
                    exact ⟨[], item, locals, rfl, by simpa using first, .nil, turn⟩
                | .ok none =>
                    obtain ⟨before, last, final, rfl, fine, goes, done⟩ := ih ended
                    refine ⟨item :: before, last, final, rfl, ?_, .cons turn goes, done⟩
                    simpa [first] using fine
  · rintro ⟨before, last, between, rfl, fine, goes, done⟩
    rw [goes.run (fun item member => fine item (by simp [member])),
      run_done (poll_ofList (fine last (by simp))) done]

end

/-! ### Streams -/

variable (source) in
/-- A stream whose items are the values of a loop, folded until its end. -/
def fold {Acc : Type} (body : Body Local Item Error (Option Out))
    (push : Acc → Out → Except Error Acc) (acc : Acc) (locals : Local) (state : State) :
    Ended Local State Error Acc :=
  match _ : source.run body locals state with
  | ⟨.error error, locals, rest⟩ => ⟨.error error, locals, rest⟩
  | ⟨.ok none, locals, rest⟩ => ⟨.ok acc, locals, rest⟩
  | ⟨.ok (some out), locals, rest⟩ =>
      match push acc out with
      | .error error => ⟨.error error, locals, rest⟩
      | .ok acc => fold body push acc locals rest
termination_by source.size state
decreasing_by
  have ended := ‹source.run body _ state = _›
  simpa only [ended] using run_shorter (congrArg Ended.result ended)

section

variable {Acc : Type} {stream : Body Local Item Error (Option Out)}
  {push : Acc → Out → Except Error Acc} {acc : Acc} {out : Out}

theorem fold_error (ended : source.run stream locals state = ⟨.error error, after, rest⟩) :
    source.fold stream push acc locals state = ⟨.error error, after, rest⟩ := by
  rw [fold]
  split
  · next other => rw [ended] at other; cases other; rfl
  · next other => rw [ended] at other; cases other
  · next other => rw [ended] at other; cases other

theorem fold_end (ended : source.run stream locals state = ⟨.ok none, after, rest⟩) :
    source.fold stream push acc locals state = ⟨.ok acc, after, rest⟩ := by
  rw [fold]
  split
  · next other => rw [ended] at other; cases other
  · next other => rw [ended] at other; cases other; rfl
  · next other => rw [ended] at other; cases other

theorem fold_some (ended : source.run stream locals state = ⟨.ok (some out), after, rest⟩) :
    source.fold stream push acc locals state =
      match push acc out with
      | .error error => ⟨.error error, after, rest⟩
      | .ok acc => source.fold stream push acc after rest := by
  rw [fold]
  split
  · next other => rw [ended] at other; cases other
  · next other => rw [ended] at other; cases other
  · next other => rw [ended] at other; cases other; rfl

/-- A turn of the loop that makes an item and of the fold that takes it, in one. -/
def fused (stream : Body Local Item Error (Option Out)) (push : Acc → Out → Except Error Acc) :
    Body (Acc × Local) Item Error Acc := fun (acc, locals) item =>
  match stream locals item with
  | (.error error, locals) => (.error error, (acc, locals))
  | (.ok none, locals) => (.ok none, (acc, locals))
  | (.ok (some none), locals) => (.ok (some acc), (acc, locals))
  | (.ok (some (some out)), locals) =>
      match push acc out with
      | .error error => (.error error, (acc, locals))
      | .ok acc => (.ok none, (acc, locals))

theorem fold_congr {locals' : Local} {state' : State}
    (same : source.run stream locals state = source.run stream locals' state') :
    source.fold stream push acc locals state = source.fold stream push acc locals' state' := by
  cases ended : source.run stream locals' state' with
  | mk result after rest =>
      have ended' := same.trans ended
      match result with
      | .error error => rw [fold_error ended, fold_error ended']
      | .ok none => rw [fold_end ended, fold_end ended']
      | .ok (some out) => rw [fold_some ended, fold_some ended']

/-- Folding a stream is one loop. -/
theorem fold_fused :
    source.fold stream push acc locals state =
      let whole := source.run (fused stream push) (acc, locals) state
      ⟨whole.result, whole.locals.2, whole.source⟩ := by
  induction size : source.size state using Nat.strongRecOn generalizing acc locals state with
  | _ bound ih =>
      cases taken : source.poll state with
      | mk result rest =>
          cases result with
          | error error => rw [fold_error (run_failed taken), run_failed taken]
          | ok item =>
              have shorter := size ▸ source.shorter taken
              cases turn : stream locals item with
              | mk outcome after =>
                  match outcome with
                  | .error error =>
                      have both : fused stream push (acc, locals) item =
                          (.error error, (acc, after)) := by simp only [fused, turn]
                      rw [fold_error (run_error taken turn), run_error taken both]
                  | .ok none =>
                      have both : fused stream push (acc, locals) item = (.ok none, (acc, after)) := by
                        simp only [fused, turn]
                      rw [fold_congr (run_next taken turn), run_next taken both]
                      exact ih _ shorter rfl
                  | .ok (some none) =>
                      have both : fused stream push (acc, locals) item =
                          (.ok (some acc), (acc, after)) := by simp only [fused, turn]
                      rw [fold_end (run_done taken turn), run_done taken both]
                  | .ok (some (some out)) =>
                      rw [fold_some (run_done taken turn)]
                      cases pushed : push acc out with
                      | error error =>
                          have both : fused stream push (acc, locals) item =
                              (.error error, (acc, after)) := by simp only [fused, turn, pushed]
                          rw [run_error taken both]
                      | ok more =>
                          have both : fused stream push (acc, locals) item =
                              (.ok none, (more, after)) := by simp only [fused, turn, pushed]
                          rw [run_next taken both]
                          exact ih _ shorter rfl

/-! ### Streams over lists -/

/-- The stream takes these items without an end, and hands out these. -/
inductive Emits (stream : Body Local Item Error (Option Out)) :
    Local → List Item → List Out → Local → Prop where
  | nil {locals : Local} : Emits stream locals [] [] locals
  | skip {locals between after : Local} {item : Item} {items : List Item} {outs : List Out}
      (again : stream locals item = (.ok none, between))
      (rest : Emits stream between items outs after) :
      Emits stream locals (item :: items) outs after
  | emit {locals between after : Local} {item : Item} {out : Out} {items : List Item}
      {outs : List Out} (found : stream locals item = (.ok (some (some out)), between))
      (rest : Emits stream between items outs after) :
      Emits stream locals (item :: items) (out :: outs) after

/-- `try_collect`. -/
def pushOut (outs : List Out) (out : Out) : Except Error (List Out) := .ok (outs ++ [out])

theorem goes_pushOut {items : List Item} {before outs : List Out} :
    Goes (fused stream pushOut) (before, locals) items (outs, after) ↔
      ∃ emitted, Emits stream locals items emitted after ∧ outs = before ++ emitted := by
  constructor
  · intro goes
    generalize start : (before, locals) = first at goes
    generalize ended : (outs, after) = last at goes
    induction goes generalizing before locals with
    | nil =>
        cases start
        cases ended
        exact ⟨[], .nil, (List.append_nil _).symm⟩
    | @cons first between last item items again rest ih =>
        subst start
        cases turn : stream locals item with
        | mk outcome later =>
            match outcome with
            | .error error => simp [fused, turn] at again
            | .ok none =>
                simp only [fused, turn] at again
                cases again
                obtain ⟨emitted, emits, same⟩ := ih rfl ended
                exact ⟨emitted, .skip turn emits, same⟩
            | .ok (some none) => simp [fused, turn] at again
            | .ok (some (some out)) =>
                simp only [fused, turn, pushOut] at again
                cases again
                obtain ⟨emitted, emits, same⟩ := ih rfl ended
                exact ⟨out :: emitted, .emit turn emits, by simp [same]⟩
  · rintro ⟨emitted, emits, rfl⟩
    induction emits generalizing before with
    | nil => simpa using Goes.nil
    | @skip locals between after item items outs again rest ih =>
        have turn : fused stream pushOut (before, locals) item = (.ok none, (before, between)) := by
          simp only [fused, again]
        exact .cons turn ih
    | @emit locals between after item out items outs found rest ih =>
        have turn : fused stream pushOut (before, locals) item =
            (.ok none, (before ++ [out], between)) := by simp only [fused, found, pushOut]
        have later : Goes (fused stream pushOut) (before ++ [out], between) items
            (before ++ [out] ++ outs, after) := ih
        rw [List.append_assoc, List.singleton_append] at later
        exact .cons turn later

/-- Which lists a stream is collected from to its end, and what it has handed out by then. -/
theorem fold_ofList_ok {fails : Item → Option Error} {closed : Error} {items rest : List Item}
    {outs : List Out} :
    (ofList fails closed).fold stream pushOut [] locals items = ⟨.ok outs, after, rest⟩ ↔
      ∃ before last between, items = before ++ last :: rest ∧
        (∀ item ∈ before ++ [last], fails item = none) ∧ Emits stream locals before outs between ∧
        stream between last = (.ok (some none), after) := by
  rw [fold_fused]
  constructor
  · intro same
    have result : ((ofList fails closed).run (fused stream pushOut) ([], locals) items).result =
        .ok outs := congrArg Ended.result same
    have source : ((ofList fails closed).run (fused stream pushOut) ([], locals) items).source =
        rest := congrArg Ended.source same
    have final : ((ofList fails closed).run (fused stream pushOut) ([], locals) items).locals.2 =
        after := congrArg Ended.locals same
    have run : (ofList fails closed).run (fused stream pushOut) ([], locals) items =
        ⟨.ok outs, ((ofList fails closed).run (fused stream pushOut) ([], locals) items).locals,
          rest⟩ := by rw [← result, ← source]
    obtain ⟨before, last, between, split, fine, goes, done⟩ := run_ofList_ok.mp run
    obtain ⟨collected, inner⟩ := between
    obtain ⟨emitted, emits, rfl⟩ := goes_pushOut.mp goes
    cases turn : stream inner last with
    | mk outcome later =>
        match outcome with
        | .error error => simp [fused, turn] at done
        | .ok none => simp [fused, turn] at done
        | .ok (some none) =>
            simp only [fused, turn] at done
            obtain ⟨value, locals⟩ := Prod.mk.inj done
            cases value
            refine ⟨before, last, inner, split, fine, emits, ?_⟩
            rw [turn, ← final, ← locals]
        | .ok (some (some out)) => simp [fused, turn, pushOut] at done
  · rintro ⟨before, last, between, split, fine, emits, done⟩
    have turn : fused stream pushOut (outs, between) last = (.ok (some outs), (outs, after)) := by
      simp only [fused, done]
    have goes : Goes (fused stream pushOut) ([], locals) before (outs, between) :=
      goes_pushOut.mpr ⟨outs, emits, rfl⟩
    have run : (ofList fails closed).run (fused stream pushOut) ([], locals) items =
        ⟨.ok outs, (outs, after), rest⟩ :=
      run_ofList_ok.mpr ⟨before, last, (outs, between), split, fine, goes, turn⟩
    rw [run]

end

end Source

end OpenGauss.Lib

import Mathlib.Data.List.TakeWhile
import Mathlib.Data.List.Infix

/-! Texts that are cut at a marker, and the masking of what stands behind each
marker, up to a symbol that ends it. -/

set_option autoImplicit false

namespace OpenGauss.Lib

variable {Symbol : Type}

/-! ### Cutting -/

/-- A text in front of the first piece. -/
def joinFirst (text : List Symbol) : List (List Symbol) → List (List Symbol)
  | [] => [text]
  | piece :: pieces => (text ++ piece) :: pieces

/-- The pieces of two texts that follow each other. -/
def glue : List (List Symbol) → List (List Symbol) → List (List Symbol)
  | [], others => others
  | [piece], others => joinFirst piece others
  | piece :: next :: pieces, others => piece :: glue (next :: pieces) others

/-- The pieces between the markers of a text, from the left. The first symbols
may be skipped. -/
def piecesFrom [DecidableEq Symbol] (marker : List Symbol) :
    Nat → List Symbol → List (List Symbol)
  | _, [] => [[]]
  | skip + 1, _ :: text => piecesFrom marker skip text
  | 0, symbol :: text =>
      if marker.isPrefixOf (symbol :: text) then [] :: piecesFrom marker (marker.length - 1) text
      else joinFirst [symbol] (piecesFrom marker 0 text)

def pieces [DecidableEq Symbol] (marker text : List Symbol) : List (List Symbol) :=
  piecesFrom marker 0 text

/-- A text against the pieces between its markers. -/
inductive Cut (marker : List Symbol) : List Symbol → List (List Symbol) → Prop where
  | last {piece : List Symbol} (free : ¬marker <:+: piece) : Cut marker piece [piece]
  | next {piece text : List Symbol} {pieces : List (List Symbol)} (free : ¬marker <:+: piece)
      (later : Cut marker text pieces) : Cut marker (piece ++ (marker ++ text)) (piece :: pieces)

/-- No marker lies across the border of two texts. -/
def Apart (marker first second : List Symbol) : Prop :=
  ∀ front rest, marker = front ++ rest → front ≠ [] → rest ≠ [] → front <:+ first →
    ¬rest <+: second

section Cutting

variable {marker text other : List Symbol} {xs ys : List (List Symbol)}

theorem Cut.ne_nil (cut : Cut marker text xs) : xs ≠ [] := by
  cases cut with
  | last => exact List.cons_ne_nil _ _
  | next => exact List.cons_ne_nil _ _

theorem Cut.cons {symbol : Symbol} (apart : ¬marker <+: symbol :: text) (cut : Cut marker text xs) :
    Cut marker (symbol :: text) (joinFirst [symbol] xs) := by
  cases cut with
  | last free =>
      refine .last ?_
      rw [List.infix_cons_iff, not_or]
      exact ⟨apart, free⟩
  | @next piece text pieces free later =>
      refine @Cut.next _ _ (symbol :: piece) _ _ ?_ later
      rw [List.infix_cons_iff, not_or]
      exact ⟨fun starts => apart (starts.trans (List.prefix_append (symbol :: piece) _)), free⟩

theorem Cut.append (cut : Cut marker text xs) (later : Cut marker other ys) :
    Cut marker (text ++ (marker ++ other)) (xs ++ ys) := by
  induction cut with
  | last free => exact .next free later
  | next free _ ih =>
      rw [List.append_assoc, List.append_assoc]
      exact .next free ih

theorem Cut.intercalate (nonempty : xs ≠ []) (free : ∀ piece ∈ xs, ¬marker <:+: piece) :
    Cut marker (marker.intercalate xs) xs := by
  induction xs with
  | nil => exact absurd rfl nonempty
  | cons piece xs ih =>
      obtain ⟨first, free⟩ := List.forall_mem_cons.mp free
      cases xs with
      | nil =>
          rw [List.intercalate_singleton]
          exact .last first
      | cons next xs =>
          rw [List.intercalate_cons_cons, List.append_assoc]
          exact .next first (ih (List.cons_ne_nil _ _) free)

theorem Cut.free (cut : Cut marker text xs) : ∀ piece ∈ xs, ¬marker <:+: piece := by
  induction cut with
  | last free =>
      intro piece member
      obtain rfl := List.mem_singleton.mp member
      exact free
  | next free _ ih => exact List.forall_mem_cons.mpr ⟨free, ih⟩

theorem not_infix_append {first second : List Symbol} (apart : Apart marker first second)
    (nonempty : marker ≠ []) (inFirst : ¬marker <:+: first) (inSecond : ¬marker <:+: second) :
    ¬marker <:+: first ++ second := by
  intro inside
  obtain ⟨before, behind, same⟩ := inside
  rw [List.append_assoc] at same
  rcases List.append_eq_append_iff.mp same with ⟨middle, rfl, split⟩ | ⟨middle, rfl, split⟩
  · rcases List.append_eq_append_iff.mp split with ⟨rest, rfl, rfl⟩ | ⟨rest, rfl, rfl⟩
    · exact inFirst ⟨before, rest, List.append_assoc ..⟩
    · by_cases none : middle = []
      · subst none
        exact inSecond ⟨[], behind, rfl⟩
      · by_cases whole : rest = []
        · subst whole
          rw [List.append_nil] at inFirst
          exact inFirst ⟨before, [], List.append_nil _⟩
        · exact apart middle rest rfl none whole (List.suffix_append before middle)
            (List.prefix_append rest behind)
  · exact inSecond ⟨middle, behind, by rw [List.append_assoc]; exact split.symm⟩

theorem apart_of_last {first second : List Symbol} {symbol : Symbol}
    (ends : first.getLast? = some symbol) (out : symbol ∉ marker.dropLast) :
    Apart marker first second := by
  intro front rest same some more suffix _
  obtain ⟨before, rfl⟩ := suffix
  rw [List.getLast?_append, List.getLast?_eq_some_getLast some, Option.some_or] at ends
  obtain rfl := Option.some.inj ends
  apply out
  rw [same, List.dropLast_append_of_ne_nil more]
  exact List.mem_append_left _ (List.getLast_mem some)

theorem apart_of_head {first second : List Symbol}
    (out : ∀ symbol ∈ second.head?, symbol ∉ marker.tail) : Apart marker first second := by
  intro front rest same some more _ starts
  obtain ⟨symbol, symbols, rfl⟩ := List.exists_cons_of_ne_nil more
  obtain ⟨behind, rfl⟩ := starts
  apply out symbol rfl
  obtain ⟨head, front, rfl⟩ := List.exists_cons_of_ne_nil some
  rw [same]
  exact List.mem_append_right front List.mem_cons_self

/-- Texts that no marker lies across are cut on their own. -/
theorem Cut.glue (nonempty : marker ≠ []) (cut : Cut marker text xs)
    (later : Cut marker other ys) (apart : Apart marker text other) :
    Cut marker (text ++ other) (glue xs ys) := by
  induction cut with
  | @last piece free =>
      cases later with
      | last other => exact .last (not_infix_append apart nonempty free other)
      | @next second rest ys other later =>
          rw [← List.append_assoc]
          refine .next (not_infix_append ?_ nonempty free other) later
          intro front rest same some more ends starts
          exact apart front rest same some more ends (starts.trans (List.prefix_append ..))
  | @next piece text pieces free later' ih =>
      rw [List.append_assoc, List.append_assoc]
      have further : Cut marker (text ++ other) (OpenGauss.Lib.glue pieces ys) := by
        apply ih
        intro front rest same some more ends
        refine apart front rest same some more (ends.trans ?_)
        rw [← List.append_assoc]
        exact List.suffix_append ..
      cases pieces with
      | nil => exact absurd rfl later'.ne_nil
      | cons next pieces => exact .next free further

end Cutting

/-! ### Markers whose first symbol does not come again -/

section Markers

variable {head : Symbol} {tail text : List Symbol} {xs ys : List (List Symbol)}

theorem not_overlap (once : head ∉ tail) {ahead first second : List Symbol} (some : ahead ≠ [])
    (same : head :: tail ++ first = ahead ++ (head :: tail ++ second)) :
    head :: tail <+: ahead := by
  rcases List.append_eq_append_iff.mp same with ⟨middle, rfl, -⟩ | ⟨middle, split, rest⟩
  · exact List.prefix_append ..
  · cases middle with
    | nil =>
        rw [List.append_nil] at split
        exact split ▸ List.prefix_rfl
    | cons symbol middle =>
        obtain rfl : head = symbol := (List.cons.inj rest).1
        cases ahead with
        | nil => exact absurd rfl some
        | cons other ahead =>
            rw [List.cons_append] at split
            rw [(List.cons.inj split).2] at once
            exact absurd (List.mem_append_right ahead List.mem_cons_self) once

theorem Cut.unique (once : head ∉ tail) (cut : Cut (head :: tail) text xs)
    (again : Cut (head :: tail) text ys) : xs = ys := by
  induction cut generalizing ys with
  | last free =>
      cases again with
      | last => rfl
      | next => exact absurd (List.infix_append ..) (List.append_assoc .. ▸ free)
  | @next piece text pieces free later ih =>
      generalize whole : piece ++ (head :: tail ++ text) = total at again
      cases again with
      | last other =>
          subst whole
          exact absurd ⟨piece, text, List.append_assoc ..⟩ other
      | @next second rest ys other later' =>
          rcases List.append_eq_append_iff.mp whole with ⟨ahead, rfl, split⟩ | ⟨ahead, rfl, split⟩
          · cases ahead with
            | nil =>
                obtain rfl := List.append_cancel_left split
                rw [List.append_nil, ih later']
            | cons symbol ahead =>
                have found := not_overlap once (List.cons_ne_nil symbol ahead) split
                exact absurd (found.isInfix.trans (List.suffix_append ..).isInfix) other
          · cases ahead with
            | nil =>
                obtain rfl := List.append_cancel_left split
                rw [List.append_nil, ih later']
            | cons symbol ahead =>
                have found := not_overlap once (List.cons_ne_nil symbol ahead) split
                exact absurd (found.isInfix.trans (List.suffix_append ..).isInfix) free

end Markers

section Pieces

variable [DecidableEq Symbol] {marker : List Symbol}

theorem piecesFrom_skip (marker : List Symbol) (skip : Nat) (text : List Symbol) :
    piecesFrom marker skip text = pieces marker (text.drop skip) := by
  induction text generalizing skip with
  | nil =>
      rw [List.drop_nil]
      cases skip <;> rfl
  | cons symbol text ih =>
      cases skip with
      | zero => rfl
      | succ skip => exact ih skip

theorem pieces_marker (nonempty : marker ≠ []) (text : List Symbol) :
    pieces marker (marker ++ text) = [] :: pieces marker text := by
  cases marker with
  | nil => exact absurd rfl nonempty
  | cons head tail =>
      have starts : (head :: tail).isPrefixOf (head :: (tail ++ text)) = true :=
        List.isPrefixOf_iff_prefix.mpr (List.prefix_append (head :: tail) text)
      rw [List.cons_append, pieces, piecesFrom, if_pos starts, piecesFrom_skip, List.length_cons,
        Nat.add_sub_cancel, List.drop_left]

theorem pieces_cons {symbol : Symbol} {text : List Symbol} (apart : ¬marker <+: symbol :: text) :
    pieces marker (symbol :: text) = joinFirst [symbol] (pieces marker text) := by
  rw [pieces, piecesFrom, if_neg (mt List.isPrefixOf_iff_prefix.mp apart)]
  rfl

/-- The function cuts at the markers. -/
theorem cut_pieces (nonempty : marker ≠ []) (text : List Symbol) :
    Cut marker text (pieces marker text) := by
  induction size : text.length using Nat.strong_induction_on generalizing text with
  | _ size ih =>
      subst size
      cases text with
      | nil => exact .last fun inside => nonempty (List.infix_nil.mp inside)
      | cons symbol text =>
          by_cases starts : marker <+: symbol :: text
          · obtain ⟨rest, same⟩ := starts
            rw [← same, pieces_marker nonempty]
            have shorter : rest.length < (symbol :: text).length := by
              rw [← same, List.length_append]
              exact Nat.lt_add_of_pos_left (List.length_pos_iff.mpr nonempty)
            exact @Cut.next _ _ [] _ _ (fun inside => nonempty (List.infix_nil.mp inside))
              (ih _ shorter rest rfl)
          · rw [pieces_cons starts]
            exact (ih _ (Nat.lt_succ_self _) text rfl).cons starts

end Pieces

/-! ### Masking -/

section Masking

variable (stop : Symbol → Bool)

/-- What is shown of a piece: behind a marker, what follows the first stop. -/
def reveal (hidden : Bool) (piece : List Symbol) : List Symbol :=
  if hidden then piece.dropWhile fun symbol => !stop symbol else piece

def shown (hidden : Bool) : List (List Symbol) → List (List Symbol)
  | [] => []
  | piece :: pieces => reveal stop hidden piece :: shown true pieces

/-- Whether what follows some pieces is hidden. -/
def hiddenAfter (hidden : Bool) : List (List Symbol) → Bool
  | [] => hidden
  | [piece] => hidden && !piece.any stop
  | _ :: next :: pieces => hiddenAfter true (next :: pieces)

/-- The cover in front of what is shown behind a marker. -/
def coverRest (cover : List Symbol) : List (List Symbol) → List (List Symbol)
  | [] => []
  | piece :: pieces => piece :: pieces.map fun rest => cover ++ rest

def mask [DecidableEq Symbol] (marker cover text : List Symbol) : List Symbol :=
  marker.intercalate (coverRest cover (shown stop false (pieces marker text)))

variable {stop}

theorem reveal_eq_nil_iff {piece : List Symbol} :
    reveal stop true piece = [] ↔ piece.any stop = false := by
  rw [List.any_eq_false]
  change piece.dropWhile (fun symbol => !stop symbol) = [] ↔ _
  rw [List.dropWhile_eq_nil_iff]
  simp only [Bool.not_eq_true', Bool.not_eq_true]

theorem reveal_stop {symbol : Symbol} (stops : stop symbol = true) (rest : List Symbol) :
    reveal stop true (symbol :: rest) = symbol :: rest := by
  change (symbol :: rest).dropWhile (fun symbol => !stop symbol) = symbol :: rest
  rw [List.dropWhile_cons_of_neg]
  rw [stops]
  decide

theorem reveal_append (hidden : Bool) (first second : List Symbol) :
    reveal stop hidden (first ++ second) =
      reveal stop hidden first ++ reveal stop (hidden && !first.any stop) second := by
  cases hidden with
  | false => rfl
  | true =>
      have appended : reveal stop true (first ++ second) =
          if (reveal stop true first).isEmpty then reveal stop true second
          else reveal stop true first ++ second := List.dropWhile_append
      rw [appended, Bool.true_and]
      cases stops : first.any stop with
      | false =>
          rw [reveal_eq_nil_iff.mpr stops]
          rfl
      | true =>
          rw [if_neg]
          · rfl
          · rw [List.isEmpty_iff, reveal_eq_nil_iff, stops]
            decide

theorem shown_joinFirst (hidden : Bool) (text piece : List Symbol) (xs : List (List Symbol)) :
    shown stop hidden (joinFirst text (piece :: xs)) = joinFirst (reveal stop hidden text)
      (shown stop (hidden && !text.any stop) (piece :: xs)) := by
  change reveal stop hidden (text ++ piece) :: _ = (reveal stop hidden text ++ _) :: _
  rw [reveal_append]

/-- What is shown of two texts that follow each other. -/
theorem shown_glue (hidden : Bool) {xs ys : List (List Symbol)} (some : ys ≠ []) :
    shown stop hidden (glue xs ys) =
      glue (shown stop hidden xs) (shown stop (hiddenAfter stop hidden xs) ys) := by
  obtain ⟨first, others, rfl⟩ := List.exists_cons_of_ne_nil some
  induction xs generalizing hidden with
  | nil => rfl
  | cons piece xs ih =>
      cases xs with
      | nil => exact shown_joinFirst hidden piece first others
      | cons next xs => exact congrArg _ (ih true)

theorem length_shown (hidden : Bool) (xs : List (List Symbol)) :
    (shown stop hidden xs).length = xs.length := by
  induction xs generalizing hidden with
  | nil => rfl
  | cons piece xs ih => exact congrArg (· + 1) (ih true)

theorem shown_ne_nil {hidden : Bool} {xs : List (List Symbol)} (some : xs ≠ []) :
    shown stop hidden xs ≠ [] := by
  intro none
  apply some
  rw [← List.length_eq_zero_iff, ← length_shown hidden, none]
  rfl

theorem length_joinFirst {text : List Symbol} {ys : List (List Symbol)} (some : ys ≠ []) :
    (joinFirst text ys).length = ys.length := by
  cases ys with
  | nil => exact absurd rfl some
  | cons piece ys => rfl

theorem length_glue {xs ys : List (List Symbol)} (some : xs ≠ []) (others : ys ≠ []) :
    (glue xs ys).length + 1 = xs.length + ys.length := by
  induction xs with
  | nil => exact absurd rfl some
  | cons piece xs ih =>
      cases xs with
      | nil =>
          rw [glue, length_joinFirst others, List.length_singleton, Nat.add_comm]
      | cons next xs =>
          have later := ih (List.cons_ne_nil _ _)
          rw [glue, List.length_cons, List.length_cons]
          omega

theorem glue_cancel {xs ys zs : List (List Symbol)} (some : ys ≠ []) (others : zs ≠ []) :
    glue xs ys = glue xs zs ↔ ys = zs := by
  constructor
  · intro same
    induction xs with
    | nil => exact same
    | cons piece xs ih =>
        cases xs with
        | nil =>
            obtain ⟨first, ys, rfl⟩ := List.exists_cons_of_ne_nil some
            obtain ⟨second, zs, rfl⟩ := List.exists_cons_of_ne_nil others
            obtain ⟨heads, rfl⟩ := List.cons.inj same
            rw [List.append_cancel_left heads]
        | cons next xs => exact ih (List.cons.inj same).2
  · intro same
    rw [same]

theorem length_reveal (hidden : Bool) (piece : List Symbol) :
    (reveal stop hidden piece).length ≤ piece.length := by
  cases hidden with
  | false => exact Nat.le_refl _
  | true => exact (List.dropWhile_suffix _).length_le

/-- Where only one of two pieces has a stop, more is shown with it. -/
theorem reveal_apart {first second : List Symbol} (stops : first.any stop = true)
    (goes : second.any stop = false) (behind : List Symbol) :
    reveal stop true (first ++ behind) ≠ reveal stop true (second ++ behind) := by
  intro same
  have nothing := reveal_eq_nil_iff.mpr goes
  have something : reveal stop true first ≠ [] := by
    intro none
    exact absurd (stops.symm.trans (reveal_eq_nil_iff.mp none)) (by decide)
  rw [reveal_append, reveal_append, stops, goes, nothing, List.nil_append] at same
  have lengths := congrArg List.length same
  have short : (reveal stop true behind).length ≤ behind.length := length_reveal true behind
  have long := List.length_pos_iff.mpr something
  change (reveal stop true first ++ behind).length = (reveal stop true behind).length at lengths
  rw [List.length_append] at lengths
  omega

theorem any_of_reveal {first second : List Symbol}
    (same : reveal stop true first = reveal stop true second) :
    first.any stop = second.any stop := by
  cases second_stops : second.any stop with
  | false => rw [← reveal_eq_nil_iff, same, reveal_eq_nil_iff, second_stops]
  | true =>
      apply Bool.of_not_eq_false
      rw [← reveal_eq_nil_iff, same, reveal_eq_nil_iff, second_stops]
      decide

/-- Two pieces in one place are shown alike exactly if they are so on their own. -/
theorem reveal_replace_iff {hidden : Bool} {first second behind : List Symbol} :
    reveal stop hidden (first ++ behind) = reveal stop hidden (second ++ behind) ↔
      reveal stop hidden first = reveal stop hidden second := by
  cases hidden with
  | false => exact List.append_left_inj behind
  | true =>
      by_cases stops : first.any stop = second.any stop
      · rw [reveal_append, reveal_append, stops, List.append_left_inj]
      · constructor
        · intro same
          cases first_stops : first.any stop with
          | false =>
              rw [first_stops] at stops
              exact absurd same.symm
                (reveal_apart (Bool.of_not_eq_false (Ne.symm stops)) first_stops behind)
          | true =>
              rw [first_stops] at stops
              exact absurd same
                (reveal_apart first_stops (Bool.of_not_eq_true (Ne.symm stops)) behind)
        · intro same
          exact absurd (any_of_reveal same) stops

/-- The same of lists of pieces. -/
theorem shown_replace_iff {hidden : Bool} {xs ys zs : List (List Symbol)} (first : xs ≠ [])
    (second : ys ≠ []) (some : zs ≠ []) :
    shown stop hidden (glue xs zs) = shown stop hidden (glue ys zs) ↔
      shown stop hidden xs = shown stop hidden ys := by
  by_cases lengths : xs.length = ys.length
  · obtain ⟨behind, others, rfl⟩ := List.exists_cons_of_ne_nil some
    induction xs generalizing hidden ys with
    | nil => exact absurd rfl first
    | cons x xs ih =>
        obtain ⟨y, ys, rfl⟩ := List.exists_cons_of_ne_nil second
        cases xs with
        | nil =>
            obtain rfl := List.length_eq_zero_iff.mp (Nat.succ.inj lengths).symm
            change reveal stop hidden (x ++ behind) :: _ = reveal stop hidden (y ++ behind) :: _ ↔
              [_] = [_]
            rw [List.cons.injEq, List.cons.injEq, reveal_replace_iff, and_iff_left rfl,
              and_iff_left rfl]
        | cons next xs =>
            cases ys with
            | nil => cases lengths
            | cons other ys =>
                have later := @ih true (other :: ys) (List.cons_ne_nil _ _) (List.cons_ne_nil _ _)
                  (Nat.succ.inj lengths)
                change reveal stop hidden x :: _ = reveal stop hidden y :: _ ↔
                  reveal stop hidden x :: _ = reveal stop hidden y :: _
                rw [List.cons.injEq, List.cons.injEq, later]
  · constructor
    · intro same
      have counts := congrArg List.length same
      rw [length_shown, length_shown] at counts
      have one := length_glue first some
      have two := length_glue second some
      omega
    · intro same
      have counts := congrArg List.length same
      rw [length_shown, length_shown] at counts
      exact absurd counts lengths

theorem hiddenAfter_append {xs ys : List (List Symbol)} (hidden : Bool) (some : xs ≠ [])
    (others : ys ≠ []) : hiddenAfter stop hidden (xs ++ ys) = hiddenAfter stop true ys := by
  induction xs generalizing hidden with
  | nil => exact absurd rfl some
  | cons piece xs ih =>
      obtain ⟨first, ys, rfl⟩ := List.exists_cons_of_ne_nil others
      cases xs with
      | nil => rfl
      | cons next xs => exact ih true (List.cons_ne_nil _ _)

/-- What follows is hidden exactly behind a marker that no stop comes after. -/
theorem hiddenAfter_iff [DecidableEq Symbol] {head : Symbol} {tail text : List Symbol}
    (once : head ∉ tail) :
    hiddenAfter stop false (pieces (head :: tail) text) = true ↔
      ∃ front rest, text = front ++ (head :: tail ++ rest) ∧ rest.any stop = false := by
  have nonempty : head :: tail ≠ [] := List.cons_ne_nil _ _
  constructor
  · intro hidden
    have last {text : List Symbol} {xs : List (List Symbol)} (cut : Cut (head :: tail) text xs)
        (hidden : hiddenAfter stop true xs = true) :
        text.any stop = false ∨
          ∃ front rest, text = front ++ (head :: tail ++ rest) ∧ rest.any stop = false := by
      induction cut with
      | last => exact .inl (Bool.not_eq_true' _ ▸ hidden)
      | @next piece text pieces _ later ih =>
          obtain ⟨first, others, rfl⟩ := List.exists_cons_of_ne_nil later.ne_nil
          rcases ih hidden with goes | ⟨front, rest, rfl, goes⟩
          · exact .inr ⟨piece, text, rfl, goes⟩
          · refine .inr ⟨piece ++ (head :: tail ++ front), rest, ?_, goes⟩
            rw [List.append_assoc, List.append_assoc]
    have cut := cut_pieces nonempty text
    generalize pieces (head :: tail) text = xs at cut hidden
    cases cut with
    | last => cases hidden
    | @next piece text pieces _ later =>
        obtain ⟨first, others, rfl⟩ := List.exists_cons_of_ne_nil later.ne_nil
        rcases last later hidden with goes | ⟨front, rest, rfl, goes⟩
        · exact ⟨piece, text, rfl, goes⟩
        · refine ⟨piece ++ (head :: tail ++ front), rest, ?_, goes⟩
          rw [List.append_assoc, List.append_assoc]
  · intro behind
    obtain ⟨front, rest, rfl, goes⟩ := behind
    have whole := (cut_pieces nonempty front).append (cut_pieces nonempty rest)
    rw [(cut_pieces nonempty _).unique once whole,
      hiddenAfter_append false (cut_pieces nonempty front).ne_nil
        (cut_pieces nonempty rest).ne_nil]
    have free {text : List Symbol} {xs : List (List Symbol)} (cut : Cut (head :: tail) text xs)
        (goes : text.any stop = false) : hiddenAfter stop true xs = true := by
      induction cut with
      | last =>
          change (true && !_) = true
          rw [goes]
          rfl
      | @next piece text pieces _ later ih =>
          obtain ⟨first, others, rfl⟩ := List.exists_cons_of_ne_nil later.ne_nil
          apply ih
          rw [List.any_append, List.any_append, Bool.or_eq_false_iff, Bool.or_eq_false_iff] at goes
          exact goes.2.2
    exact free (cut_pieces nonempty rest) goes

/-! ### Two masked texts -/

variable {cover : List Symbol}

theorem not_infix_suffix {marker piece rest : List Symbol} (free : ¬marker <:+: piece)
    (suffix : rest <:+ piece) : ¬marker <:+: rest :=
  fun inside => free (inside.trans suffix.isInfix)

theorem reveal_suffix (hidden : Bool) (piece : List Symbol) : reveal stop hidden piece <:+ piece := by
  cases hidden with
  | false => exact List.suffix_rfl
  | true => exact List.dropWhile_suffix _

theorem shown_free {marker : List Symbol} {xs : List (List Symbol)} (hidden : Bool)
    (free : ∀ piece ∈ xs, ¬marker <:+: piece) :
    ∀ piece ∈ shown stop hidden xs, ¬marker <:+: piece := by
  induction xs generalizing hidden with
  | nil => exact free
  | cons piece xs ih =>
      obtain ⟨first, free⟩ := List.forall_mem_cons.mp free
      exact List.forall_mem_cons.mpr
        ⟨not_infix_suffix first (reveal_suffix hidden piece), ih true free⟩

/-- A cover without a symbol of the marker brings no marker. -/
theorem coverRest_free {marker : List Symbol} {xs : List (List Symbol)} (nonempty : marker ≠ [])
    (covers : ∀ symbol ∈ cover, symbol ∉ marker) (free : ∀ piece ∈ xs, ¬marker <:+: piece) :
    ∀ piece ∈ coverRest cover xs, ¬marker <:+: piece := by
  cases xs with
  | nil => exact free
  | cons piece xs =>
      obtain ⟨first, free⟩ := List.forall_mem_cons.mp free
      refine List.forall_mem_cons.mpr ⟨first, ?_⟩
      intro covered member
      obtain ⟨rest, inXs, rfl⟩ := List.mem_map.mp member
      refine not_infix_append ?_ nonempty ?_ (free rest inXs)
      · intro front later same some more ends
        obtain ⟨symbol, symbols, rfl⟩ := List.exists_cons_of_ne_nil some
        have inCover := ends.subset List.mem_cons_self
        exact absurd (same ▸ List.mem_append_left later List.mem_cons_self)
          (covers symbol inCover)
      · intro inside
        obtain ⟨symbol, symbols, rfl⟩ := List.exists_cons_of_ne_nil nonempty
        exact covers symbol (inside.subset List.mem_cons_self) List.mem_cons_self

theorem coverRest_injective {xs ys : List (List Symbol)}
    (same : coverRest cover xs = coverRest cover ys) : xs = ys := by
  cases xs with
  | nil =>
      cases ys with
      | nil => rfl
      | cons => cases same
  | cons x xs =>
      cases ys with
      | nil => cases same
      | cons y ys =>
          obtain ⟨rfl, rests⟩ := List.cons.inj same
          have cancel : Function.Injective fun rest : List Symbol => cover ++ rest :=
            fun _ _ => List.append_cancel_left
          rw [cancel.list_map rests]

section Texts

variable [DecidableEq Symbol] {head : Symbol} {tail : List Symbol}

/-- Two texts are masked alike exactly if the same is shown of their pieces. -/
theorem mask_eq_iff (once : head ∉ tail) (covers : ∀ symbol ∈ cover, symbol ∉ head :: tail)
    {text other : List Symbol} :
    mask stop (head :: tail) cover text = mask stop (head :: tail) cover other ↔
      shown stop false (pieces (head :: tail) text) =
        shown stop false (pieces (head :: tail) other) := by
  have nonempty : head :: tail ≠ [] := List.cons_ne_nil _ _
  have cut (text : List Symbol) : Cut (head :: tail) (mask stop (head :: tail) cover text)
      (coverRest cover (shown stop false (pieces (head :: tail) text))) := by
    have pieced := cut_pieces nonempty text
    apply Cut.intercalate
    · obtain ⟨piece, rest, same⟩ :=
        List.exists_cons_of_ne_nil (@shown_ne_nil _ stop false _ pieced.ne_nil)
      rw [same]
      exact List.cons_ne_nil _ _
    · exact coverRest_free nonempty covers (shown_free false pieced.free)
  constructor
  · intro same
    exact coverRest_injective ((cut text).unique once (same ▸ cut other))
  · intro same
    rw [mask, mask, same]

/-- Of two texts that differ in one place, which no marker goes across the borders
of, the masks are the same exactly if there the same is shown. -/
theorem mask_replace_iff (once : head ∉ tail) (covers : ∀ symbol ∈ cover, symbol ∉ head :: tail)
    {before first second after : List Symbol}
    (startsFirst : Apart (head :: tail) before (first ++ after))
    (startsSecond : Apart (head :: tail) before (second ++ after))
    (endsFirst : Apart (head :: tail) first after)
    (endsSecond : Apart (head :: tail) second after) :
    mask stop (head :: tail) cover (before ++ (first ++ after)) =
        mask stop (head :: tail) cover (before ++ (second ++ after)) ↔
      shown stop (hiddenAfter stop false (pieces (head :: tail) before))
          (pieces (head :: tail) first) =
        shown stop (hiddenAfter stop false (pieces (head :: tail) before))
          (pieces (head :: tail) second) := by
  have nonempty : head :: tail ≠ [] := List.cons_ne_nil _ _
  have whole {value : List Symbol} (starts : Apart (head :: tail) before (value ++ after))
      (ends : Apart (head :: tail) value after) :
      pieces (head :: tail) (before ++ (value ++ after)) =
        glue (pieces (head :: tail) before)
          (glue (pieces (head :: tail) value) (pieces (head :: tail) after)) :=
    (cut_pieces nonempty _).unique once ((cut_pieces nonempty before).glue nonempty
      ((cut_pieces nonempty value).glue nonempty (cut_pieces nonempty after) ends) starts)
  have some (text : List Symbol) : pieces (head :: tail) text ≠ [] :=
    (cut_pieces nonempty text).ne_nil
  have glued (value : List Symbol) :
      glue (pieces (head :: tail) value) (pieces (head :: tail) after) ≠ [] := by
    intro none
    have lengths := length_glue (some value) (some after)
    rw [none] at lengths
    have first := List.length_pos_iff.mpr (some value)
    have second := List.length_pos_iff.mpr (some after)
    rw [List.length_nil] at lengths
    omega
  rw [mask_eq_iff once covers, whole startsFirst endsFirst, whole startsSecond endsSecond,
    shown_glue false (glued first), shown_glue false (glued second),
    glue_cancel (shown_ne_nil (glued first)) (shown_ne_nil (glued second)),
    shown_replace_iff (some first) (some second) (some after)]

end Texts

end Masking

end OpenGauss.Lib

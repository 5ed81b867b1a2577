import OpenGauss.Lib.PercentEncoding
import OpenGauss.Mcp.Redaction

/-! What a redacted connection string shows of a password. -/

set_option autoImplicit false

namespace OpenGauss.Mcp

open Driver Lib Lib.Text

def passwordKey : Text := "password=".toList

/-- What stays readable of a value behind some text: it is cut at each `password=`,
and all pieces are read from their first blank on; but the first one as a whole,
unless the text has a `password=` that no blank comes after. -/
def readable (before value : Text) : List Text :=
  shown (· == ' ') (hiddenAfter (· == ' ') false (pieces passwordKey before))
    (pieces passwordKey value)

theorem passwordKey_once : 'p' ∉ "assword=".toList := by decide

theorem zipIdx_redactPart (parts : List Text) (start : Nat) :
    ((parts.zipIdx (start + 1)).map fun indexed => redactPart indexed.1 indexed.2) =
      (shown (· == ' ') true parts).map fun rest => "****".toList ++ rest := by
  induction parts generalizing start with
  | nil => rfl
  | cons part parts ih =>
      rw [List.zipIdx_cons, List.map_cons, ih]
      have covered : redactPart part (start + 1) =
          "****".toList ++ reveal (· == ' ') true part := by
        rw [redactPart, if_neg (Nat.succ_ne_zero start)]
        have goes {text : Text} (inside : ∀ char ∈ text, (char == ' ') = false) :
            text.any (· == ' ') = false :=
          List.any_eq_false.mpr fun char member => Bool.eq_false_iff.mp (inside char member)
        rcases first_end (· == ' ') part with inside | ⟨first, stop, rest, rfl, inside, stops⟩
        · rw [splitAtFirst_none inside, reveal_eq_nil_iff.mpr (goes inside)]
          rfl
        · rw [splitAtFirst_append inside stops, reveal_append, reveal_eq_nil_iff.mpr (goes inside),
            goes inside, List.nil_append]
          exact congrArg ("****".toList ++ ·) (@reveal_stop _ (· == ' ') stop stops rest).symm
      rw [covered]
      rfl

/-- The redaction covers what stands behind each `password=`, up to a blank. -/
theorem redactUrl_mask (url : Text) :
    redactUrl url = mask (· == ' ') passwordKey "****".toList url := by
  rw [redactUrl, mask]
  congr 1
  change _ = coverRest _ (shown (· == ' ') false (pieces "password=".toList url))
  cases pieces "password=".toList url with
  | nil => rfl
  | cons part parts => exact congrArg (part :: ·) (zipIdx_redactPart parts 0)

/-! ### The borders of a password -/

section Borders

variable {percentDecode : UrlParser.PercentDecode} {before value after : Text}

theorem blank_out {char : Char} (blank : isWhitespace char = true) :
    char ∉ passwordKey := by
  intro member
  have shown : ∀ char ∈ passwordKey, isWhitespace char = false := by decide
  exact absurd (blank.symm.trans (shown char member)) (by decide)

theorem getLast?_equals (text : Text) {blanks : Text} (blank : Parser.Blank blanks) :
    ∃ char, (text ++ '=' :: blanks).getLast? = some char ∧ char ∉ passwordKey.dropLast := by
  cases last : blanks.getLast? with
  | none =>
      rw [List.getLast?_eq_none_iff] at last
      subst last
      exact ⟨'=', List.getLast?_concat .., by decide⟩
  | some char =>
      refine ⟨char, ?_, ?_⟩
      · rw [List.getLast?_append, List.getLast?_cons, last]
        rfl
      · intro member
        exact blank_out (blank char (List.mem_of_getLast? last)) (List.mem_of_mem_dropLast member)

/-- No `password=` reaches into a password from before it. -/
theorem PasswordText.starts (reads : PasswordText percentDecode before value after)
    (text : Text) : Apart passwordKey before text := by
  cases reads with
  | @setting read blanks around behind value password after pairs _ _ _ behindBlank _ =>
      obtain ⟨char, last, out⟩ := getLast?_equals
        (read ++ (blanks ++ ("password".toList ++ around))) behindBlank
      refine apart_of_last ?_ out
      rw [← last]
      simp only [List.append_assoc]
  | @credentials scheme user value rest =>
      refine apart_of_last ?_ (by decide : ':' ∉ passwordKey.dropLast)
      rw [← List.append_assoc]
      exact List.getLast?_concat ..
  | @query scheme body front read rawKey value after =>
      obtain ⟨char, last, out⟩ := getLast?_equals
        (scheme ++ (front ++ '?' :: (read ++ rawKey)))
        (fun char member => absurd member List.not_mem_nil : Parser.Blank [])
      refine apart_of_last ?_ out
      rw [← last]
      simp only [List.append_assoc, List.cons_append]

theorem apart_after {separator : Char} (out : separator ∉ passwordKey.tail)
    (head : ∀ char ∈ after.head?, char = separator) : Apart passwordKey value after := by
  apply apart_of_head
  intro char first
  exact head char first ▸ out

/-- And none reaches from it behind it. -/
theorem PasswordText.ends (reads : PasswordText percentDecode before value after) :
    Apart passwordKey value after := by
  cases reads with
  | @setting read blanks around behind value password after pairs _ _ _ _ valueText =>
      generalize whole : value ++ after = text at valueText
      cases valueText with
      | @quoted raw _ _ body =>
          have same : value = '\'' :: (raw ++ ['\'']) := by
            apply @List.append_cancel_right _ _ after
            rw [whole, List.cons_append, List.append_assoc]
            rfl
          rw [same]
          refine apart_of_last ?_ (by decide : '\'' ∉ passwordKey.dropLast)
          rw [← List.cons_append]
          exact List.getLast?_concat ..
      | @simple raw _ _ body nonempty unquoted ends =>
          apply apart_of_head
          intro char first member
          exact blank_out (ends char first) (List.mem_of_mem_tail member)
      | lone =>
          apply apart_of_head
          intro char first
          cases first
  | @credentials scheme user value rest =>
      exact apart_after (by decide : '@' ∉ passwordKey.tail)
        fun char first => (Option.some.inj first).symm
  | query _ _ _ _ _ _ _ _ _ ends => exact apart_after (by decide : '&' ∉ passwordKey.tail) ends

end Borders

/-! ### What stays readable -/

section Readable

variable {before value : Text}

theorem pieces_free (free : ¬passwordKey <:+: value) : pieces passwordKey value = [value] :=
  (cut_pieces (by decide) value).unique passwordKey_once (.last free)

/-- Of a word behind `password=`, nothing is. -/
theorem readable_hidden {front rest : Text} (behind : before = front ++ (passwordKey ++ rest))
    (word : ' ' ∉ rest ++ value) (free : ¬passwordKey <:+: value) :
    readable before value = [[]] := by
  have goes {text : Text} (noBlank : ' ' ∉ text) : text.any (· == ' ') = false := by
    rw [List.any_eq_false]
    intro char member blank
    exact noBlank (beq_iff_eq.mp blank ▸ member)
  rw [List.mem_append, not_or] at word
  have hidden : hiddenAfter (· == ' ') false (pieces passwordKey before) = true :=
    (hiddenAfter_iff passwordKey_once).mpr ⟨front, rest, behind, goes word.1⟩
  rw [readable, hidden, pieces_free free]
  exact congrArg (· :: []) (reveal_eq_nil_iff.mpr (goes word.2))

/-- Anywhere else the whole password is. -/
theorem readable_clear
    (clear : ∀ front rest, before = front ++ (passwordKey ++ rest) → ' ' ∈ rest)
    (free : ¬passwordKey <:+: value) : readable before value = [value] := by
  have shown : hiddenAfter (· == ' ') false (pieces passwordKey before) = false := by
    rw [Bool.eq_false_iff]
    intro hidden
    obtain ⟨front, rest, same, goes⟩ := (hiddenAfter_iff passwordKey_once).mp hidden
    exact List.any_eq_false.mp goes ' ' (clear front rest same) (beq_self_eq_true ' ')
  rw [readable, shown, pieces_free free]
  rfl

end Readable

/-- The configuration of a user `app` with a password, at the host `db`. -/
def appConfig (port : List Nat) (dbname : Option Text) (password : Text) : Config where
  user := some "app".toList
  password := some (Utf8.encode password)
  dbname
  host := [.tcp "db".toList]
  port

/-- Two strings that differ in their password are redacted to the same text exactly
if the same stays readable of both passwords. -/
theorem redactUrl_eq_iff {percentDecode : UrlParser.PercentDecode}
    {before first second after : Text}
    (differ : DifferInPassword percentDecode before first second after) :
    redactUrl (before ++ (first ++ after)) = redactUrl (before ++ (second ++ after)) ↔
      readable before first = readable before second := by
  rw [redactUrl_mask, redactUrl_mask]
  exact mask_replace_iff passwordKey_once (by decide) (differ.reads.starts _)
    (differ.readsOther.starts _) differ.reads.ends differ.readsOther.ends

theorem redactUrl_eq_iff_word :
    redactUrl ("host=db password=".toList ++ ("s3cret".toList ++ " user=app".toList)) =
      redactUrl ("host=db password=".toList ++ ("hunter2".toList ++ " user=app".toList)) := by
  have before : "host=db password=".toList =
      "host=db".toList ++ (" ".toList ++ ("password".toList ++ ([] ++ '=' :: []))) := by decide
  have differ : DifferInPassword PercentEncoding.decode "host=db password=".toList
      "s3cret".toList "hunter2".toList " user=app".toList := by
    refine ⟨?_, ?_, appConfig [] none "s3cret".toList, appConfig [] none "hunter2".toList,
      by decide +kernel, by decide +kernel, rfl⟩
    · rw [before]
      exact .setting (by decide +kernel)
        (.next ((@Parser.parameter_iff [] _ _ ("host".toList, "db".toList)).mp (by decide +kernel))
          (.done _)) (by decide) (by decide)
        ((@Parser.value_iff [] _ "s3cret".toList _).mp (by decide +kernel))
    · rw [before]
      exact .setting (by decide +kernel)
        (.next ((@Parser.parameter_iff [] _ _ ("host".toList, "db".toList)).mp (by decide +kernel))
          (.done _)) (by decide) (by decide)
        ((@Parser.value_iff [] _ "hunter2".toList _).mp (by decide +kernel))
  exact (redactUrl_eq_iff differ).mpr (by decide +kernel)

/-- The password of a URL is shown as it is. -/
theorem redactUrl_shows_url :
    DifferInPassword PercentEncoding.decode "postgres://app:".toList "s3cret".toList
        "hunter2".toList "@db/prod".toList ∧
      redactUrl ("postgres://app:".toList ++ ("s3cret".toList ++ "@db/prod".toList)) ≠
        redactUrl ("postgres://app:".toList ++ ("hunter2".toList ++ "@db/prod".toList)) := by
  have before : "postgres://app:".toList = "postgres://".toList ++ ("app".toList ++ [':']) := by
    decide
  refine ⟨⟨?_, ?_, appConfig [5432] (some "prod".toList) "s3cret".toList,
    appConfig [5432] (some "prod".toList) "hunter2".toList, by decide +kernel, by decide +kernel,
    rfl⟩, by decide +kernel⟩
  · rw [before]
    exact .credentials (by decide +kernel) (by decide) (by decide)
  · rw [before]
    exact .credentials (by decide +kernel) (by decide) (by decide)

end OpenGauss.Mcp

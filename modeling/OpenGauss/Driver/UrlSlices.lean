import OpenGauss.Driver.ConfigUrls

/-! The URL parser as it slices its text: by byte offsets, where a slice that is
out of bounds or not at a character panics. It never does, and is the parser of
`UrlParser`. -/

set_option autoImplicit false

namespace OpenGauss.Driver.UrlSlices

open Protocol Lib Lib.Text

/-- `none` is a panic, or a loop that does not come to its end. -/
abbrev Sliced := ExceptT Error Option

/-- A computation in which no slice is out of bounds. -/
def inBounds {Value : Type} (result : Except Error Value) : Sliced Value := ExceptT.mk (some result)

/-- `split_at`, with an offset in bytes. -/
def splitAt? : Text → Nat → Option (Text × Text)
  | text, 0 => some ([], text)
  | [], _ + 1 => none
  | char :: rest, offset + 1 =>
      if offset + 1 < char.utf8Size then none
      else (splitAt? rest (offset + 1 - char.utf8Size)).map fun split => (char :: split.1, split.2)

/-- `&s[start..]`. -/
def sliceFrom? (s : Text) (start : Nat) : Option Text := (splitAt? s start).map Prod.snd

/-- `&s[start..stop]`. -/
def slice? (s : Text) (start stop : Nat) : Option Text :=
  (splitAt? s stop).bind fun split => sliceFrom? split.1 start

/-- `find`, which answers an offset in bytes. -/
def find (isEnd : Char → Bool) : Text → Option Nat
  | [] => none
  | char :: rest => if isEnd char then some 0 else (find isEnd rest).map (char.utf8Size + ·)

def takeUntil (isEnd : Char → Bool) (s : Text) : Sliced (Option Text × Text) :=
  match find isEnd s with
  | some pos => do
      let (head, tail) ← (splitAt? s pos : Option (Text × Text))
      return (some head, tail)
  | none => return (none, s)

def eatByte (s : Text) : Sliced Text := (sliceFrom? s 1 : Option Text)

variable (percentDecode : UrlParser.PercentDecode)

def decode (s : Text) : Sliced Text := inBounds (UrlParser.decode percentDecode s)

def hostParam (config : Config) (s : Text) : Sliced Config :=
  inBounds (UrlParser.hostParam percentDecode config s)

def param (config : Config) (key value : Text) : Sliced Config := inBounds (config.param key value)

def parseCredentials (s : Text) (config : Config) : Sliced (Text × Config) := do
  match ← takeUntil (· == '@') s with
  | (none, s) => return (s, config)
  | (some creds, s) =>
      let s ← eatByte s
      let (user, password) := splitTwo ':' creds
      let user ← decode percentDecode user
      let config := { config with user := some user }
      match password with
      | some password =>
          return (s, { config with password := some (percentDecode (Utf8.encode password)) })
      | none => return (s, config)

def hostPort (chunk : Text) : Sliced (Text × Option Text) :=
  if chunk.head? = some '[' then
    match find (· == ']') chunk with
    | none => throw (Config.invalidValue "host")
    | some idx => do
        let host ← (slice? chunk 1 idx : Option Text)
        let remaining ← (sliceFrom? chunk (idx + 1) : Option Text)
        match stripPrefix? [':'] remaining with
        | some port => return (host, some port)
        | none =>
            if remaining = [] then return (host, none) else throw (Config.invalidValue "host")
  else return splitTwo ':' chunk

def parseHostChunk (config : Config) (chunk : Text) : Sliced Config := do
  let (host, port) ← hostPort chunk
  let config ← hostParam percentDecode config host
  let port ← decode percentDecode (port.getD "5432".toList)
  param config "port".toList port

def parseHost (s : Text) (config : Config) : Sliced (Text × Config) := do
  let (host, s) ← match ← takeUntil (fun char => char == '/' || char == '?') s with
    | (some host, s) => pure (host, s)
    | (none, s) => pure (s, [])
  if host = [] then return (s, config)
  else
    let config ← (host.splitOn ',').foldlM (parseHostChunk percentDecode) config
    return (s, config)

def parsePath (s : Text) (config : Config) : Sliced (Text × Config) := do
  if s.head? = some '/' then
    let s ← eatByte s
    let (dbname, s) ← match ← takeUntil (· == '?') s with
      | (some dbname, s) => pure (dbname, s)
      | (none, s) => pure (s, [])
    if dbname = [] then return (s, config)
    else
      let dbname ← decode percentDecode dbname
      return (s, { config with dbname := some dbname })
  else return (s, config)

/-- The `while` loop of `parse_params`. -/
def queryParams : Nat → Text → Config → Sliced Config
  | 0, _, _ => (none : Option Config)
  | fuel + 1, s, config => do
      if s = [] then return config
      else
        match ← takeUntil (· == '=') s with
        | (none, _) => throw (.configParse "unterminated parameter")
        | (some key, s) =>
            let key ← decode percentDecode key
            let s ← eatByte s
            let (value, s) ← match ← takeUntil (· == '&') s with
              | (some value, s) => do
                  let s ← eatByte s
                  pure (value, s)
              | (none, s) => pure (s, [])
            if key = "host".toList then
              let config ← hostParam percentDecode config value
              queryParams fuel s config
            else
              let value ← decode percentDecode value
              let config ← param config key value
              queryParams fuel s config

def parseParams (s : Text) (config : Config) : Sliced Config := do
  if s.head? = some '?' then
    let s ← eatByte s
    queryParams percentDecode (s.length + 1) s config
  else return config

def parse (s : Text) : Sliced (Option Config) :=
  match UrlParser.removeUrlPrefix s with
  | none => return none
  | some s => do
      let (s, config) ← parseCredentials percentDecode s .new
      let (s, config) ← parseHost percentDecode s config
      let (s, config) ← parsePath percentDecode s config
      let config ← parseParams percentDecode s config
      return some config

/-! ### No slice is out of bounds -/

theorem splitAt?_append (head tail : Text) :
    splitAt? (head ++ tail) (utf8Length head) = some (head, tail) := by
  induction head with
  | nil => cases tail <;> rfl
  | cons char head ih =>
      have size : utf8Length (char :: head) = char.utf8Size + utf8Length head := by simp [utf8Length]
      have positive := Char.utf8Size_pos char
      obtain ⟨offset, shown⟩ : ∃ offset, utf8Length (char :: head) = offset + 1 :=
        Nat.exists_eq_add_one.mpr (by omega)
      have behind : offset + 1 - char.utf8Size = utf8Length head := by omega
      rw [List.cons_append, shown, splitAt?, if_neg (by omega), behind, ih]
      rfl

theorem find_append {isEnd : Char → Bool} {head : Text} {stop : Char}
    (inside : ∀ char ∈ head, isEnd char = false) (stops : isEnd stop = true) (rest : Text) :
    find isEnd (head ++ stop :: rest) = some (utf8Length head) := by
  induction head with
  | nil => exact if_pos stops
  | cons char head ih =>
      obtain ⟨goes, inside⟩ := List.forall_mem_cons.mp inside
      rw [List.cons_append, find, if_neg (Bool.eq_false_iff.mp goes), ih inside]
      simp [utf8Length]

theorem find_none {isEnd : Char → Bool} {text : Text} (inside : ∀ char ∈ text, isEnd char = false) :
    find isEnd text = none := by
  induction text with
  | nil => rfl
  | cons char text ih =>
      obtain ⟨goes, inside⟩ := List.forall_mem_cons.mp inside
      rw [find, if_neg (Bool.eq_false_iff.mp goes), ih inside]
      rfl

theorem bind_inBounds {First Second : Type} (first : Except Error First) {next : First → Sliced Second}
    {total : First → Except Error Second} (same : ∀ value, next value = inBounds (total value)) :
    (inBounds first >>= next) = inBounds (first >>= total) := by
  cases first with
  | error error => rfl
  | ok value => exact same value

theorem takeUntil_none {isEnd : Char → Bool} {text : Text} (inside : ∀ char ∈ text, isEnd char = false) :
    takeUntil isEnd text = inBounds (.ok (none, text)) := by
  rw [takeUntil, find_none inside]
  rfl

theorem takeUntil_append {isEnd : Char → Bool} {head : Text} {stop : Char}
    (inside : ∀ char ∈ head, isEnd char = false) (stops : isEnd stop = true) (rest : Text) :
    takeUntil isEnd (head ++ stop :: rest) = inBounds (.ok (some head, stop :: rest)) := by
  rw [takeUntil, find_append inside stops]
  dsimp only
  rw [splitAt?_append]
  rfl

/-- Only bytes of ASCII characters are eaten. -/
theorem eatByte_cons {char : Char} (narrow : char.utf8Size = 1) (rest : Text) :
    eatByte (char :: rest) = inBounds (.ok rest) := by
  have split := splitAt?_append [char] rest
  rw [utf8Length, List.map_singleton, List.sum_singleton, narrow, List.singleton_append] at split
  rw [eatByte, sliceFrom?, split]
  rfl

theorem parseCredentials_total (s : Text) (config : Config) :
    parseCredentials percentDecode s config =
      inBounds (UrlParser.parseCredentials percentDecode s config) := by
  rw [parseCredentials, UrlParser.parseCredentials]
  obtain inside | ⟨head, stop, rest, rfl, inside, stops⟩ := first_end (· == '@') s
  · rw [takeUntil_none inside, splitAtFirst_none inside]
    rfl
  · rw [takeUntil_append inside stops, splitAtFirst_append inside stops]
    obtain rfl := beq_iff_eq.mp stops
    change (eatByte ('@' :: rest) >>= _) = _
    rw [eatByte_cons (by decide)]
    dsimp only
    generalize splitTwo ':' head = pieces
    change (inBounds (UrlParser.decode percentDecode pieces.1) >>= _) = _
    refine bind_inBounds (UrlParser.decode percentDecode pieces.1) fun user => ?_
    cases pieces.2 <;> rfl

theorem sliceFrom?_append (head tail : Text) :
    sliceFrom? (head ++ tail) (utf8Length head) = some tail := by
  rw [sliceFrom?, splitAt?_append]
  rfl

/-- What stands behind the bracket of a host. -/
def bracketPort (host remaining : Text) : Except Error (Text × Option Text) :=
  match remaining with
  | [] => .ok (host, none)
  | ':' :: port => .ok (host, some port)
  | _ => .error (Config.invalidValue "host")

theorem stripPrefix?_bracketPort (host remaining : Text) :
    (match stripPrefix? [':'] remaining with
      | some port => return (host, some port)
      | none => if remaining = [] then return (host, none) else throw (Config.invalidValue "host")) =
      inBounds (bracketPort host remaining) := by
  cases remaining with
  | nil => rfl
  | cons char port =>
      by_cases colon : char = ':'
      · have found : stripPrefix? [':'] (':' :: port) = some port := stripPrefix?_append [':'] port
        rw [colon, found]
        rfl
      · have apart : [':'].isPrefixOf (char :: port) = false := by
          rw [List.isPrefixOf_cons_cons, beq_eq_false_iff_ne.mpr (Ne.symm colon), Bool.false_and]
        have other : bracketPort host (char :: port) = .error (Config.invalidValue "host") := by
          unfold bracketPort
          split
          · contradiction
          · rename_i same
            exact absurd (List.cons.inj same).1 colon
          · rfl
        rw [stripPrefix?_none apart, other]
        rfl

theorem hostPort_total (chunk : Text) : hostPort chunk = inBounds (UrlParser.hostPort chunk) := by
  by_cases bracket : chunk.head? = some '['
  · obtain ⟨rest, rfl⟩ := List.head?_eq_some_iff.mp bracket
    rw [hostPort, if_pos bracket, UrlParser.hostPort]
    obtain inside | ⟨host, stop, remaining, rfl, inside, stops⟩ := first_end (· == ']') rest
    · have noBracket : find (· == ']') ('[' :: rest) = none :=
        find_none (List.forall_mem_cons.mpr ⟨by decide, inside⟩)
      rw [noBracket, splitAtFirst_none inside]
      rfl
    · obtain rfl := beq_iff_eq.mp stops
      have goes : ∀ char ∈ '[' :: host, (char == ']') = false := List.forall_mem_cons.mpr ⟨by decide, inside⟩
      have whole : '[' :: (host ++ ']' :: remaining) = ('[' :: host) ++ ']' :: remaining := rfl
      have name : slice? (('[' :: host) ++ ']' :: remaining) 1 (utf8Length ('[' :: host)) = some host := by
        rw [slice?, splitAt?_append]
        exact sliceFrom?_append ['['] host
      have behind : sliceFrom? (('[' :: host) ++ ']' :: remaining) (utf8Length ('[' :: host) + 1) =
          some remaining := by
        have size : utf8Length ('[' :: host) + 1 = utf8Length ('[' :: host ++ [']']) := by
          simp [utf8Length]
          rfl
        rw [size, List.append_cons, sliceFrom?_append]
      rw [splitAtFirst_append inside stops, whole, find_append goes stops]
      dsimp only
      rw [name, behind]
      exact stripPrefix?_bracketPort host remaining
  · rw [hostPort, if_neg bracket]
    unfold UrlParser.hostPort
    split
    · exact absurd rfl bracket
    · rfl

theorem parseHostChunk_total (config : Config) (chunk : Text) :
    parseHostChunk percentDecode config chunk =
      inBounds (UrlParser.parseHostChunk percentDecode config chunk) := by
  rw [parseHostChunk, hostPort_total]
  refine bind_inBounds _ fun split => bind_inBounds _ fun config => bind_inBounds _ fun port => rfl

theorem parseHostChunks_total (chunks : List Text) (config : Config) :
    chunks.foldlM (parseHostChunk percentDecode) config =
      inBounds (chunks.foldlM (UrlParser.parseHostChunk percentDecode) config) := by
  induction chunks generalizing config with
  | nil => rfl
  | cons chunk chunks ih =>
      rw [List.foldlM_cons, List.foldlM_cons, parseHostChunk_total]
      exact bind_inBounds _ ih

theorem parseHost_total (s : Text) (config : Config) :
    parseHost percentDecode s config = inBounds (UrlParser.parseHost percentDecode s config) := by
  have taken (host rest : Text) : (if host = [] then return (rest, config)
      else do
        let config ← (host.splitOn ',').foldlM (parseHostChunk percentDecode) config
        return (rest, config)) = inBounds (if host = [] then .ok (rest, config)
      else do
        let config ← (host.splitOn ',').foldlM (UrlParser.parseHostChunk percentDecode) config
        return (rest, config)) := by
    split
    · rfl
    · rw [parseHostChunks_total]
      exact bind_inBounds _ fun config => rfl
  rw [parseHost, UrlParser.parseHost]
  obtain inside | ⟨head, stop, rest, rfl, inside, stops⟩ :=
    first_end (fun char => char == '/' || char == '?') s
  · rw [takeUntil_none inside, splitAtFirst_none inside]
    exact taken s []
  · rw [takeUntil_append inside stops, splitAtFirst_append inside stops]
    exact taken head (stop :: rest)

theorem parsePath_total (s : Text) (config : Config) :
    parsePath percentDecode s config = inBounds (UrlParser.parsePath percentDecode s config) := by
  have taken (dbname rest : Text) : (if dbname = [] then return (rest, config)
      else do
        let dbname ← decode percentDecode dbname
        return (rest, { config with dbname := some dbname })) = inBounds (if dbname = [] then .ok (rest, config)
      else do
        let dbname ← UrlParser.decode percentDecode dbname
        return (rest, { config with dbname := some dbname })) := by
    split
    · rfl
    · exact bind_inBounds _ fun dbname => rfl
  rw [parsePath]
  by_cases slash : s.head? = some '/'
  · obtain ⟨s, rfl⟩ := List.head?_eq_some_iff.mp slash
    rw [if_pos slash, eatByte_cons (by decide), UrlParser.parsePath]
    change (takeUntil _ s >>= _) = _
    obtain inside | ⟨head, stop, rest, rfl, inside, stops⟩ := first_end (· == '?') s
    · rw [takeUntil_none inside, splitAtFirst_none inside]
      exact taken s []
    · rw [takeUntil_append inside stops, splitAtFirst_append inside stops]
      exact taken head (stop :: rest)
  · rw [if_neg slash]
    unfold UrlParser.parsePath
    split
    · exact absurd rfl slash
    · rfl

/-- What is done with a parameter's key and value. -/
theorem applied_total {fuel : Nat} (key value later : Text) (config : Config)
    (goesOn : ∀ config, queryParams percentDecode fuel later config =
      inBounds (UrlParser.queryParams percentDecode fuel later config)) :
    (if key = "host".toList then do
        let config ← hostParam percentDecode config value
        queryParams percentDecode fuel later config
      else do
        let value ← decode percentDecode value
        let config ← param config key value
        queryParams percentDecode fuel later config) =
      inBounds (match (if key = "host".toList then do
          let config ← UrlParser.hostParam percentDecode config value
          return (later, config)
        else do
          let value ← UrlParser.decode percentDecode value
          let config ← config.param key value
          return (later, config) : Except Error (Text × Config)) with
        | .error error => .error error
        | .ok (later, config) => UrlParser.queryParams percentDecode fuel later config) := by
  split
  · rw [hostParam]
    cases UrlParser.hostParam percentDecode config value with
    | error error => rfl
    | ok config => exact goesOn config
  · rw [decode]
    cases UrlParser.decode percentDecode value with
    | error error => rfl
    | ok value =>
        have applied (result : Except Error Config) :
            (inBounds result >>= fun config => queryParams percentDecode fuel later config) =
              inBounds (match result.bind fun config => .ok (later, config) with
                | .error error => .error error
                | .ok (later, config) => UrlParser.queryParams percentDecode fuel later config) := by
          cases result with
          | error error => rfl
          | ok config => exact goesOn config
        exact applied (config.param key value)

theorem queryParams_total {fuel : Nat} {s : Text} (enough : s.length < fuel) (config : Config) :
    queryParams percentDecode fuel s config =
      inBounds (UrlParser.queryParams percentDecode fuel s config) := by
  induction fuel generalizing s config with
  | zero => exact absurd enough (Nat.not_lt_zero _)
  | succ fuel ih =>
      rw [queryParams, UrlParser.queryParams]
      by_cases ended : s = []
      · rw [if_pos ended, if_pos ended]
        rfl
      rw [if_neg ended, if_neg ended, UrlParser.queryParam]
      obtain inside | ⟨key, stop, behind, rfl, inside, stops⟩ := first_end (· == '=') s
      · rw [takeUntil_none inside, splitAtFirst_none inside]
        rfl
      obtain rfl := beq_iff_eq.mp stops
      rw [List.length_append, List.length_cons] at enough
      rw [takeUntil_append inside stops, splitAtFirst_append inside stops]
      dsimp only
      change (decode percentDecode key >>= _) = _
      rw [decode]
      cases UrlParser.decode percentDecode key with
      | error error => rfl
      | ok key =>
          change (eatByte ('=' :: behind) >>= _) = _
          rw [eatByte_cons (by decide)]
          change (takeUntil (· == '&') behind >>= _) = _
          obtain inside | ⟨value, stop, rest, rfl, inside, stops⟩ := first_end (· == '&') behind
          · rw [takeUntil_none inside, List.drop_one, List.tail_cons, splitAtFirst_none inside]
            exact applied_total percentDecode key behind [] config (ih (by simp; omega))
          · obtain rfl := beq_iff_eq.mp stops
            rw [takeUntil_append inside stops, List.drop_one, List.tail_cons,
              splitAtFirst_append inside stops]
            change (eatByte ('&' :: rest) >>= _) = _
            rw [eatByte_cons (by decide)]
            exact applied_total percentDecode key value rest config (ih (by simp at enough; omega))

theorem parseParams_total (s : Text) (config : Config) :
    parseParams percentDecode s config = inBounds (UrlParser.parseParams percentDecode s config) := by
  rw [parseParams]
  by_cases question : s.head? = some '?'
  · obtain ⟨s, rfl⟩ := List.head?_eq_some_iff.mp question
    rw [if_pos question, eatByte_cons (by decide), UrlParser.parseParams]
    exact queryParams_total percentDecode (Nat.lt_succ_self _) config
  · rw [if_neg question]
    unfold UrlParser.parseParams
    split
    · exact absurd rfl question
    · rfl

theorem parse_total (s : Text) :
    parse percentDecode s = inBounds (UrlParser.parse percentDecode s) := by
  rw [parse, UrlParser.parse]
  cases UrlParser.removeUrlPrefix s with
  | none => rfl
  | some s =>
      dsimp only
      rw [parseCredentials_total]
      refine bind_inBounds _ fun read => ?_
      rw [parseHost_total]
      refine bind_inBounds _ fun read => ?_
      rw [parsePath_total]
      refine bind_inBounds _ fun read => ?_
      rw [parseParams_total]
      exact bind_inBounds _ fun read => rfl

/-- A URL whose components are encoded is read back, and no string at all makes
the parser slice out of bounds or run on. -/
theorem fromStr_urls :
    (Inverts percentDecode → ∀ url : Url, url.Valid →
      Config.fromStr percentDecode url.text = Parser.applyAll url.config url.parameters) ∧
    ∀ s, parse percentDecode s = inBounds (UrlParser.parse percentDecode s) :=
  ⟨fun inverts _ valid => UrlParser.fromStr_text inverts valid, parse_total percentDecode⟩

/-- Every component has a character that the parser searches for. -/
private def delimiters : Url where
  credentials := some ("us@r:".toList, some "p/?ß".toList)
  hosts := [(.tcp "[db],1".toList, 5433), (.unix (Utf8.encode "/run/a:b".toList), 65535)]
  dbname := some "orders?".toList
  parameters := [("application_name".toList, "a&b=c%41".toList), ("sslmode".toList, "require".toList)]

theorem fromStr_urls_delimiters :
    delimiters.text = ("postgres://us%40r%3A:p%2F%3F%C3%9F@%5Bdb%5D%2C1:5433,%2Frun%2Fa%3Ab:65535" ++
        "/orders%3F?application_name=a%26b%3Dc%2541&sslmode=require").toList ∧
      Config.fromStr PercentEncoding.decode delimiters.text =
        .ok { delimiters.config with
          applicationName := some "a&b=c%41".toList, sslMode := .require } :=
  ⟨by decide +kernel,
    ((fromStr_urls PercentEncoding.decode).1 PercentEncoding.decode_encode delimiters
      ⟨by decide, by decide +kernel, by decide, by decide, by decide⟩).trans (by decide +kernel)⟩

end OpenGauss.Driver.UrlSlices

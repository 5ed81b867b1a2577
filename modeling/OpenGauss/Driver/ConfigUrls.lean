import OpenGauss.Driver.ConfigProperties
import OpenGauss.Lib.PercentEncoding

/-! URLs: how they are written with every component percent-encoded, and that
the parser reads them back. -/

set_option autoImplicit false

namespace OpenGauss.Driver

open Protocol Lib Lib.Text

namespace Host

/-- A host as it stands in a URL, before it is encoded. -/
def bytes : Host → Bytes
  | .tcp name => Utf8.encode name
  | .unix path => path

/-- A name that is no path, or an absolute path. -/
def Valid : Host → Prop
  | .tcp name => name ≠ [] ∧ name.head? ≠ some '/'
  | .unix path => path.head? = some 47

instance (host : Host) : Decidable host.Valid :=
  match host with
  | .tcp name => inferInstanceAs (Decidable (name ≠ [] ∧ name.head? ≠ some '/'))
  | .unix path => inferInstanceAs (Decidable (path.head? = some 47))

end Host

structure Url where
  credentials : Option (Text × Option Text)
  hosts : List (Host × Nat)
  dbname : Option Text
  parameters : List (Text × Text)
  deriving DecidableEq, Repr

namespace Url

structure Valid (url : Url) : Prop where
  hosts : url.hosts ≠ []
  host : ∀ host ∈ url.hosts, host.1.Valid
  port : ∀ host ∈ url.hosts, 1 ≤ host.2 ∧ host.2 < 2 ^ 16
  dbname : url.dbname ≠ some []
  parameters : ∀ pair ∈ url.parameters, pair.1 ≠ "host".toList

def component (text : Text) : Text := PercentEncoding.encode (Utf8.encode text)

def credentialsText (url : Url) : Text :=
  match url.credentials with
  | none => []
  | some (user, none) => component user ++ ['@']
  | some (user, some password) => component user ++ ':' :: component password ++ ['@']

def hostText (host : Host × Nat) : Text :=
  PercentEncoding.encode host.1.bytes ++ ':' :: component (Nat.toDigits 10 host.2)

def hostsText (url : Url) : Text := [','].intercalate (url.hosts.map hostText)

def pathText (url : Url) : Text :=
  match url.dbname with
  | none => []
  | some dbname => '/' :: component dbname

def pairText (pair : Text × Text) : Text := component pair.1 ++ '=' :: component pair.2

def queryText (url : Url) : Text :=
  match url.parameters with
  | [] => []
  | parameters => '?' :: ['&'].intercalate (parameters.map pairText)

def text (url : Url) : Text :=
  "postgres://".toList ++ (url.credentialsText ++ (url.hostsText ++ (url.pathText ++ url.queryText)))

/-- The configuration with the components of the URL, without its parameters. -/
def config (url : Url) : Config where
  user := url.credentials.map Prod.fst
  password := (url.credentials.bind Prod.snd).map Utf8.encode
  host := url.hosts.map Prod.fst
  port := url.hosts.map Prod.snd
  dbname := url.dbname

end Url

/-- What `percent_decode` is for: it undoes the encoding of every byte outside the
unreserved set. -/
def Inverts (percentDecode : UrlParser.PercentDecode) : Prop :=
  ∀ bytes, percentDecode (Utf8.encode (PercentEncoding.encode bytes)) = bytes

namespace UrlParser

open Url

section Components

variable {percentDecode : PercentDecode}

theorem component_char {text : Text} {char : Char} (member : char ∈ component text) :
    PercentEncoding.isComponent char = true := PercentEncoding.encode_component member

/-- A separator is no character of a component. -/
theorem component_separator (separator : Char) (special : PercentEncoding.isComponent separator = false)
    (bytes : Bytes) : separator ∉ PercentEncoding.encode bytes := by
  intro member
  rw [PercentEncoding.encode_component member] at special
  cases special

theorem component_apart (separator : Char) (special : PercentEncoding.isComponent separator = false)
    (text : Text) : ∀ char ∈ component text, (char == separator) = false :=
  fun _ member => beq_eq_false_iff_ne.mpr fun same =>
    component_separator separator special _ (same ▸ member)

theorem decode_component (inverts : Inverts percentDecode) (text : Text) :
    decode percentDecode (component text) = .ok text := by
  rw [decode, component, inverts, Utf8.decode?_encode]

theorem hostParam_encode (inverts : Inverts percentDecode) (config : Config) {host : Host}
    (valid : host.Valid) :
    hostParam percentDecode config (PercentEncoding.encode host.bytes) =
      .ok { config with host := config.host ++ [host] } := by
  cases host with
  | unix path =>
      rw [hostParam, inverts]
      exact if_pos valid
  | tcp name =>
      have plain : ¬(Utf8.encode name).head? = some 47 := fun slash =>
        valid.2 (Utf8.slash_of_encode_head slash)
      rw [hostParam, inverts]
      refine (if_neg plain).trans ?_
      rw [Host.bytes, Utf8.decode?_encode]
      exact congrArg Except.ok (if_neg valid.2)

theorem parseHostChunk_text (inverts : Inverts percentDecode) (config : Config) {host : Host × Nat}
    (valid : host.1.Valid) (port : host.2 < 2 ^ 16) :
    parseHostChunk percentDecode config (hostText host) =
      .ok { config with host := config.host ++ [host.1], port := config.port ++ [host.2] } := by
  have split : hostPort (hostText host) =
      .ok (PercentEncoding.encode host.1.bytes, some (component (Nat.toDigits 10 host.2))) := by
    have noColon := component_separator ':' (by decide) host.1.bytes
    have noBracket := component_separator '[' (by decide) host.1.bytes
    unfold hostPort
    split
    · rename_i bracket
      cases shown : PercentEncoding.encode host.1.bytes with
      | nil => simp [hostText, shown] at bracket
      | cons char rest =>
          rw [hostText, shown, List.cons_append, List.cons.injEq] at bracket
          exact absurd (bracket.1 ▸ shown ▸ List.mem_cons_self) noBracket
    · exact congrArg Except.ok (splitTwo_append noColon _)
  rw [parseHostChunk, split]
  change (hostParam percentDecode config _).bind _ = _
  rw [hostParam_encode inverts config valid]
  change (decode percentDecode (component _)).bind _ = _
  rw [decode_component inverts]
  exact Config.param_port _ port

theorem parseHostChunks_text (inverts : Inverts percentDecode) {hosts : List (Host × Nat)}
    (valid : ∀ host ∈ hosts, host.1.Valid) (port : ∀ host ∈ hosts, host.2 < 2 ^ 16) (config : Config) :
    (hosts.map hostText).foldlM (parseHostChunk percentDecode) config =
      .ok { config with
        host := config.host ++ hosts.map Prod.fst, port := config.port ++ hosts.map Prod.snd } := by
  induction hosts generalizing config with
  | nil => simp [pure, Except.pure]
  | cons host hosts ih =>
      obtain ⟨first, valid⟩ := List.forall_mem_cons.mp valid
      obtain ⟨firstPort, port⟩ := List.forall_mem_cons.mp port
      rw [List.map_cons, List.foldlM_cons, parseHostChunk_text inverts config first firstPort]
      refine (ih valid port _).trans ?_
      simp

theorem hostText_component {host : Host × Nat} {char : Char} (member : char ∈ hostText host) :
    PercentEncoding.isComponent char = true ∨ char = ':' := by
  simp only [hostText, List.mem_append, List.mem_cons] at member
  obtain name | rfl | port := member
  · exact .inl (PercentEncoding.encode_component name)
  · exact .inr rfl
  · exact .inl (component_char port)

theorem mem_intercalate {separator char : Char} {texts : List Text}
    (member : char ∈ [separator].intercalate texts) : char = separator ∨ ∃ text ∈ texts, char ∈ text := by
  induction texts with
  | nil => cases member
  | cons text texts ih =>
      cases texts with
      | nil =>
          rw [List.intercalate_singleton] at member
          exact .inr ⟨text, List.mem_cons_self, member⟩
      | cons next texts =>
          rw [List.intercalate_cons_cons, List.append_assoc, List.mem_append, List.mem_append,
            List.mem_singleton] at member
          obtain first | same | later := member
          · exact .inr ⟨text, List.mem_cons_self, first⟩
          · exact .inl same
          · refine (ih later).imp_right ?_
            rintro ⟨other, inTexts, inText⟩
            exact ⟨other, List.mem_cons_of_mem _ inTexts, inText⟩

theorem parseHost_text (inverts : Inverts percentDecode) {url : Url} (valid : url.Valid) (config : Config)
    {rest : Text} (behind : ∀ char ∈ rest.head?, char = '/' ∨ char = '?') :
    parseHost percentDecode (url.hostsText ++ rest) config =
      .ok (rest, { config with
        host := config.host ++ url.hosts.map Prod.fst, port := config.port ++ url.hosts.map Prod.snd }) := by
  have inside : ∀ char ∈ url.hostsText, (char == '/' || char == '?') = false := by
    intro char member
    obtain rfl | ⟨text, inHosts, inText⟩ := mem_intercalate member
    · rfl
    · obtain ⟨host, -, rfl⟩ := List.mem_map.mp inHosts
      obtain component | rfl := hostText_component inText
      · by_contra special
        rw [Bool.not_eq_false, Bool.or_eq_true, beq_iff_eq, beq_iff_eq] at special
        obtain rfl | rfl := special <;> cases component
      · rfl
  have taken : (splitAtFirst (fun char => char == '/' || char == '?') (url.hostsText ++ rest)).getD
      (url.hostsText ++ rest, []) = (url.hostsText, rest) := by
    cases rest with
    | nil =>
        rw [List.append_nil, splitAtFirst_none inside]
        rfl
    | cons char rest =>
        rw [splitAtFirst_append inside (by obtain rfl | rfl := behind char rfl <;> rfl)]
        rfl
  have noComma : ∀ text ∈ url.hosts.map hostText, ',' ∉ text := by
    intro text member inText
    obtain ⟨host, -, rfl⟩ := List.mem_map.mp member
    obtain component | colon := hostText_component inText
    · cases component
    · cases colon
  have chunks : url.hostsText.splitOn ',' = url.hosts.map hostText :=
    List.splitOn_intercalate ',' noComma fun empty => valid.hosts (List.map_eq_nil_iff.mp empty)
  have nonempty : url.hostsText ≠ [] := by
    intro empty
    rw [empty] at chunks
    have blank : [] ∈ url.hosts.map hostText := chunks ▸ List.mem_singleton_self []
    obtain ⟨host, -, shown⟩ := List.mem_map.mp blank
    exact List.append_ne_nil_of_right_ne_nil _ (List.cons_ne_nil _ _) shown
  have applied := parseHostChunks_text inverts valid.host (fun host member => (valid.port host member).2) config
  rw [parseHost, taken]
  dsimp only
  rw [if_neg nonempty, chunks, applied]
  rfl

theorem parseCredentials_text (inverts : Inverts percentDecode) (url : Url) {rest : Text}
    (noAt : '@' ∉ rest) :
    parseCredentials percentDecode (url.credentialsText ++ rest) .new =
      .ok (rest, { Config.new with
        user := url.credentials.map Prod.fst
        password := (url.credentials.bind Prod.snd).map Utf8.encode }) := by
  have plain := component_apart '@' (by decide)
  have noColon (text : Text) : ':' ∉ component text := component_separator ':' (by decide) _
  rw [parseCredentials, credentialsText]
  match url.credentials with
  | none =>
      have inside : ∀ char ∈ rest, (char == '@') = false := fun char member =>
        beq_eq_false_iff_ne.mpr fun same => noAt (same ▸ member)
      dsimp only
      rw [List.nil_append, splitAtFirst_none inside]
      rfl
  | some (user, none) =>
      dsimp only
      rw [List.append_assoc, List.cons_append, List.nil_append, splitAtFirst_append (plain user) rfl]
      dsimp only
      rw [splitTwo_single (noColon _)]
      change (decode percentDecode (component user)).bind _ = _
      rw [decode_component inverts]
      rfl
  | some (user, some password) =>
      have inside : ∀ char ∈ component user ++ ':' :: component password, (char == '@') = false := by
        intro char member
        rw [List.mem_append, List.mem_cons] at member
        obtain name | rfl | secret := member
        · exact plain user char name
        · rfl
        · exact plain password char secret
      dsimp only
      rw [List.append_assoc, List.cons_append, List.nil_append, splitAtFirst_append inside rfl]
      dsimp only
      rw [splitTwo_append (noColon _)]
      change (decode percentDecode (component user)).bind _ = _
      rw [decode_component inverts]
      change Except.ok (_, _) = _
      rw [component, inverts]
      rfl

theorem parsePath_text (inverts : Inverts percentDecode) {url : Url} (valid : url.Valid) {config : Config}
    (noName : config.dbname = none) {rest : Text} (behind : ∀ char ∈ rest.head?, char = '?') :
    parsePath percentDecode (url.pathText ++ rest) config =
      .ok (rest, { config with dbname := url.dbname }) := by
  rw [pathText]
  cases named : url.dbname with
  | none =>
      have same : { config with dbname := none } = config := by rw [← noName]
      change parsePath percentDecode rest config = .ok (rest, { config with dbname := none })
      rw [same]
      cases rest with
      | nil => rfl
      | cons char rest =>
          obtain rfl := behind char rfl
          rfl
  | some dbname =>
      have nonempty : component dbname ≠ [] := by
        refine PercentEncoding.encode_ne_nil fun empty => valid.dbname (named.trans ?_)
        exact congrArg some (Utf8.encode_injective empty)
      have inside := component_apart '?' (by decide) dbname
      have taken : (splitAtFirst (· == '?') (component dbname ++ rest)).getD (component dbname ++ rest, []) =
          (component dbname, rest) := by
        cases rest with
        | nil =>
            rw [List.append_nil, splitAtFirst_none inside]
            rfl
        | cons char rest =>
            obtain rfl := behind char rfl
            rw [splitAtFirst_append inside rfl]
            rfl
      dsimp only
      rw [List.cons_append, parsePath, taken]
      dsimp only
      rw [if_neg nonempty, decode_component inverts]
      rfl

/-- The parameters of a query, after its question mark or an ampersand. -/
def pairsText (pairs : List (Text × Text)) : Text := ['&'].intercalate (pairs.map pairText)

theorem queryParam_text (inverts : Inverts percentDecode) {pair : Text × Text}
    (noHost : pair.1 ≠ "host".toList) (config : Config) {rest : Text}
    (behind : ∀ char ∈ rest.head?, char = '&') :
    queryParam percentDecode (pairText pair ++ rest) config =
      (config.param pair.1 pair.2).map fun config => (rest.drop 1, config) := by
  have key := component_apart '=' (by decide) pair.1
  have value := component_apart '&' (by decide) pair.2
  have applied (later : Text) : (do
      let value ← decode percentDecode (component pair.2)
      let config ← config.param pair.1 value
      pure (later, config)) = (config.param pair.1 pair.2).map fun config => (later, config) := by
    rw [decode_component inverts]
    change (config.param pair.1 pair.2).bind _ = _
    cases config.param pair.1 pair.2 <;> rfl
  rw [queryParam, pairText, List.append_assoc, List.cons_append, splitAtFirst_append key rfl]
  change (decode percentDecode (component pair.1)).bind _ = _
  rw [decode_component inverts]
  refine (if_neg noHost).trans ?_
  rw [List.drop_one, List.tail_cons]
  cases rest with
  | nil =>
      rw [List.append_nil, splitAtFirst_none value]
      exact applied []
  | cons char rest =>
      obtain rfl := behind char rfl
      rw [splitAtFirst_append value rfl]
      exact applied rest

theorem pairsText_cons (pair : Text × Text) (pairs : List (Text × Text)) :
    ∃ rest, pairsText (pair :: pairs) = pairText pair ++ rest ∧ rest.drop 1 = pairsText pairs ∧
      ∀ char ∈ rest.head?, char = '&' := by
  cases pairs with
  | nil => exact ⟨[], by simp [pairsText], rfl, nofun⟩
  | cons next pairs =>
      refine ⟨'&' :: pairsText (next :: pairs), ?_, rfl, fun char first => (Option.some.inj first).symm⟩
      rw [pairsText, List.map_cons, List.map_cons, List.intercalate_cons_cons, List.append_assoc]
      rfl

theorem pairText_ne_nil (pair : Text × Text) : pairText pair ≠ [] :=
  List.append_ne_nil_of_right_ne_nil _ (List.cons_ne_nil _ _)

theorem queryParams_text (inverts : Inverts percentDecode) {pairs : List (Text × Text)} {fuel : Nat}
    (enough : pairs.length < fuel) (noHost : ∀ pair ∈ pairs, pair.1 ≠ "host".toList) (config : Config) :
    queryParams percentDecode fuel (pairsText pairs) config = Parser.applyAll config pairs := by
  induction pairs generalizing fuel config with
  | nil =>
      cases fuel with
      | zero => rfl
      | succ fuel => rfl
  | cons pair pairs ih =>
      obtain ⟨first, noHost⟩ := List.forall_mem_cons.mp noHost
      obtain ⟨rest, shown, behind, ends⟩ := pairsText_cons pair pairs
      cases fuel with
      | zero => cases enough
      | succ fuel =>
          have later := ih (Nat.lt_of_succ_lt_succ enough) noHost
          rw [queryParams, shown,
            if_neg (List.append_ne_nil_of_left_ne_nil (pairText_ne_nil pair) rest),
            queryParam_text inverts first config ends, Parser.applyAll_cons, behind]
          cases config.param pair.1 pair.2 with
          | error error => rfl
          | ok config => exact later config

theorem length_pairsText (pairs : List (Text × Text)) : pairs.length ≤ (pairsText pairs).length := by
  induction pairs with
  | nil => exact Nat.le_refl _
  | cons pair pairs ih =>
      obtain ⟨rest, shown, behind, -⟩ := pairsText_cons pair pairs
      have taken := List.length_pos_iff.mpr (pairText_ne_nil pair)
      have left : (pairsText pairs).length = rest.length - 1 := by rw [← behind, List.length_drop]
      rw [shown, List.length_append, List.length_cons]
      omega

theorem parseParams_text (inverts : Inverts percentDecode) {url : Url} (valid : url.Valid)
    (config : Config) :
    parseParams percentDecode url.queryText config = Parser.applyAll config url.parameters := by
  rw [queryText]
  cases shown : url.parameters with
  | nil => rfl
  | cons pair pairs =>
      exact queryParams_text inverts (Nat.lt_succ_of_le (length_pairsText (pair :: pairs)))
        (shown ▸ valid.parameters) config

theorem pairText_component {pair : Text × Text} {char : Char} (member : char ∈ pairText pair) :
    PercentEncoding.isComponent char = true ∨ char = '=' := by
  simp only [pairText, List.mem_append, List.mem_cons] at member
  obtain key | rfl | value := member
  · exact .inl (component_char key)
  · exact .inr rfl
  · exact .inl (component_char value)

theorem noAt_text (url : Url) : '@' ∉ url.hostsText ++ (url.pathText ++ url.queryText) := by
  have special : PercentEncoding.isComponent '@' = false := by decide
  rw [List.mem_append, List.mem_append, not_or, not_or]
  refine ⟨fun member => ?_, fun member => ?_, fun member => ?_⟩
  · obtain same | ⟨text, inHosts, inText⟩ := mem_intercalate member
    · cases same
    · obtain ⟨host, -, rfl⟩ := List.mem_map.mp inHosts
      obtain component | colon := hostText_component inText
      · exact absurd component (Bool.eq_false_iff.mp special)
      · cases colon
  · rw [pathText] at member
    cases named : url.dbname with
    | none => rw [named] at member; cases member
    | some dbname =>
        rw [named] at member
        obtain slash | inName := List.mem_cons.mp member
        · cases slash
        · exact component_separator '@' special _ inName
  · rw [queryText] at member
    cases shown : url.parameters with
    | nil => rw [shown] at member; cases member
    | cons pair pairs =>
        rw [shown] at member
        obtain question | inQuery := List.mem_cons.mp member
        · cases question
        · obtain same | ⟨text, inPairs, inText⟩ := mem_intercalate inQuery
          · cases same
          · obtain ⟨pair, -, rfl⟩ := List.mem_map.mp inPairs
            obtain component | equals := pairText_component inText
            · exact absurd component (Bool.eq_false_iff.mp special)
            · cases equals

theorem removeUrlPrefix_postgres (rest : Text) :
    removeUrlPrefix ("postgres://".toList ++ rest) = some rest := by
  unfold removeUrlPrefix
  rw [stripPrefix?_append]

theorem parse_of_steps {s afterPrefix afterCredentials afterHost afterPath : Text}
    {withCredentials withHost withPath : Config}
    (started : removeUrlPrefix s = some afterPrefix)
    (credentials : parseCredentials percentDecode afterPrefix .new = .ok (afterCredentials, withCredentials))
    (host : parseHost percentDecode afterCredentials withCredentials = .ok (afterHost, withHost))
    (path : parsePath percentDecode afterHost withHost = .ok (afterPath, withPath)) :
    parse percentDecode s = (parseParams percentDecode afterPath withPath).map some := by
  rw [parse, started]
  simp only [credentials, host, path, bind, Except.bind]
  cases parseParams percentDecode afterPath withPath <;> rfl

theorem parse_text (inverts : Inverts percentDecode) {url : Url} (valid : url.Valid) :
    parse percentDecode url.text = (Parser.applyAll url.config url.parameters).map some := by
  have query : ∀ char ∈ url.queryText.head?, char = '?' := by
    intro char first
    rw [queryText] at first
    cases shown : url.parameters with
    | nil => rw [shown] at first; cases first
    | cons pair pairs => rw [shown] at first; exact (Option.some.inj first).symm
  have path : ∀ char ∈ (url.pathText ++ url.queryText).head?, char = '/' ∨ char = '?' := by
    intro char first
    rw [pathText] at first
    cases named : url.dbname with
    | none => rw [named] at first; exact .inr (query char first)
    | some dbname => rw [named] at first; exact .inl (Option.some.inj first).symm
  have steps := parse_of_steps (removeUrlPrefix_postgres _) (parseCredentials_text inverts url (noAt_text url))
    (parseHost_text inverts valid _ path) (parsePath_text inverts valid rfl query)
  have read := parseParams_text inverts valid url.config
  exact steps.trans (congrArg (Except.map some) read)

theorem fromStr_text (inverts : Inverts percentDecode) {url : Url} (valid : url.Valid) :
    Config.fromStr percentDecode url.text = Parser.applyAll url.config url.parameters := by
  rw [Config.fromStr, parse_text inverts valid]
  cases Parser.applyAll url.config url.parameters <;> rfl

end Components

end UrlParser

end OpenGauss.Driver

import OpenGauss.Driver.TypeLookup
import Mathlib.Data.Finite.Defs
import Mathlib.Data.Fintype.EquivFin
import Mathlib.Data.List.Nodup
import Mathlib.Logic.Relation
import Mathlib.Order.WellFounded

/-! `get_type` answers the tree that the catalog unfolds to, and its cache holds such trees
only. -/

set_option autoImplicit false

namespace OpenGauss.Driver.TypeLookup

open Lib OpenGauss.Types Routine

/-! ### Unfolding the catalog -/

namespace Tables

section

variable (tables : Tables)

/-- The queries that this server can run. -/
def typeinfoQuery : Query := if tables.rangeTable then .typeinfo else .typeinfoFallback

def enumQuery : Query := if tables.sortOrder then .enum else .enumFallback

/-- The labels of an enum, in the order of the server. -/
def labels (oid : UInt32) : List String :=
  (tables.enumRows tables.enumQuery oid).map EnumRow.enumlabel

/-- The columns of a relation that are not dropped, in their order. -/
def columns (relid : UInt32) : List (PgField UInt32) :=
  (tables.columnRows relid).map fun row => ⟨row.attname, row.atttypid⟩

def range (oid : UInt32) : Option UInt32 :=
  (tables.ranges.find? fun range => range.rngtypid == oid).map RangeRow.rngsubtype

/-- The kind of a type, with the oids that it refers to. -/
def kind (row : TypeRow) : Kind UInt32 :=
  if row.typtype = 101 then .enum (tables.labels row.oid)
  else if row.typtype = 112 then .pseudo
  else if row.typbasetype ≠ 0 then .domain row.typbasetype
  else if row.typelem ≠ 0 then .array row.typelem
  else if row.typrelid ≠ 0 then .composite (tables.columns row.typrelid)
  else (tables.range row.oid).elim .simple .range

/-- A type that is not built in, with its schema. -/
structure Looked (oid : UInt32) (row : TypeRow) (schema : SchemaRow) : Prop where
  foreign : fromOid oid = none
  rowIn : row ∈ tables.types
  rowOid : row.oid = oid
  schemaIn : schema ∈ tables.schemas
  schemaOid : schema.oid = row.typnamespace

/-- The reference graph. The client knows what is built in without following it. -/
def References (oid target : UInt32) : Prop :=
  fromOid oid = none ∧ ∃ row ∈ tables.types, row.oid = oid ∧ target ∈ (tables.kind row).parts

def Knows (oid : UInt32) : Prop := (fromOid oid).isSome ∨ ∃ row ∈ tables.types, row.oid = oid

def Acyclic : Prop := ∀ oid, ¬Relation.TransGen tables.References oid oid

/-- The tree of an oid: its row, and in place of each reference the tree of its target. -/
inductive Unfolds : UInt32 → PgType → Prop where
  | builtin {oid : UInt32} {type_ : PgType} (known : fromOid oid = some type_) :
      Unfolds oid type_
  | looked {oid : UInt32} {row : TypeRow} {schema : SchemaRow} {types : UInt32 → PgType}
      (found : tables.Looked oid row schema)
      (parts : ∀ part ∈ (tables.kind row).parts, Unfolds part (types part)) :
      Unfolds oid (.new row.typname oid ((tables.kind row).map types) schema.nspname)

end

end Tables

/-- A catalog in itself: the keys are keys, and what is referred to is there. -/
structure Catalog extends Tables where
  typeKey : (types.map TypeRow.oid).Nodup
  schemaKey : (schemas.map SchemaRow.oid).Nodup
  rangeKey : (ranges.map RangeRow.rngtypid).Nodup
  schemaFound : ∀ row ∈ types, ∃ schema ∈ schemas, schema.oid = row.typnamespace
  targetFound : ∀ oid target, toTables.References oid target → toTables.Knows target
  rangeTableFound : rangeTable = false → ranges = []

section

variable {catalog : Catalog} {oid : UInt32}

theorem Tables.enumRows_sorted (tables : Tables) (query : Query) (oid : UInt32) :
    (tables.enumRows query oid).Perm (tables.enums.filter fun row => row.enumtypid == oid) ∧
      (tables.enumRows query oid).Pairwise
        fun first second => enumKey query first ≤ enumKey query second :=
  ⟨List.perm_insertionSort _ _, List.pairwise_insertionSort _ _⟩

theorem Tables.columnRows_sorted (tables : Tables) (relid : UInt32) :
    (tables.columnRows relid).Perm (tables.attributes.filter fun row =>
        row.attrelid == relid && !row.attisdropped && 0 < row.attnum) ∧
      (tables.columnRows relid).Pairwise fun first second => first.attnum ≤ second.attnum :=
  ⟨List.perm_insertionSort _ _, List.pairwise_insertionSort _ _⟩

theorem looked_unique {row other : TypeRow} {schema another : SchemaRow}
    (first : catalog.Looked oid row schema) (second : catalog.Looked oid other another) :
    row = other ∧ schema = another := by
  have rows : row = other :=
    List.inj_on_of_nodup_map catalog.typeKey first.rowIn second.rowIn
      (first.rowOid.trans second.rowOid.symm)
  subst rows
  exact ⟨rfl, List.inj_on_of_nodup_map catalog.schemaKey first.schemaIn second.schemaIn
    (first.schemaOid.trans second.schemaOid.symm)⟩

/-- A catalog unfolds to one tree. -/
theorem unfolds_unique {type_ other : PgType} (first : catalog.Unfolds oid type_)
    (second : catalog.Unfolds oid other) : type_ = other := by
  induction first generalizing other with
  | @builtin oid type_ known =>
      cases second with
      | builtin again => exact Option.some.inj (known.symm.trans again)
      | looked found parts =>
          have foreign := found.foreign
          rw [known] at foreign
          cases foreign
  | @looked oid row schema types found parts ih =>
      cases second with
      | builtin known =>
          have foreign := found.foreign
          rw [known] at foreign
          cases foreign
      | looked again others =>
          obtain ⟨rfl, rfl⟩ := looked_unique found again
          rw [Kind.map_congr fun part member => ih part member (others part member)]

noncomputable def Tables.tree (tables : Tables) (oid : UInt32) : PgType :=
  Classical.epsilon (tables.Unfolds oid)

theorem tree_eq {type_ : PgType} (unfolds : catalog.Unfolds oid type_) :
    catalog.tree oid = type_ :=
  unfolds_unique (Classical.epsilon_spec ⟨type_, unfolds⟩) unfolds

/-! ### Statements -/

/-- What holds of a client at any time: its statements are those of this server, and its
cache maps oids to their trees. -/
structure Sound (catalog : Catalog) (client : Client) : Prop where
  typeinfo : ∀ stmt ∈ client.typeinfo, stmt.query = catalog.typeinfoQuery
  typeinfoEnum : ∀ stmt ∈ client.typeinfoEnum, stmt.query = catalog.enumQuery
  types : ∀ oid type_, client.type_ oid = some type_ → catalog.Unfolds oid type_

variable {getTypeRec : UInt32 → Lookup PgType} {fails : Error → Prop}

theorem triple_getTypes {oids : List UInt32}
    (each : ∀ oid ∈ oids, Triple (Sound catalog) (getTypeRec oid) (fun _ => True) fails) :
    Triple (Sound catalog) (getTypes getTypeRec oids) (fun _ => True) fails := by
  induction oids with
  | nil => exact triple_pure trivial
  | cons oid oids ih =>
      obtain ⟨first, rest⟩ := List.forall_mem_cons.mp each
      exact triple_bind first fun _ _ => triple_bind (ih rest) fun _ _ => triple_pure trivial

theorem triple_fetchId : Triple (Sound catalog) fetchId (fun _ => True) fails := by
  have counted : Triple (Sound catalog)
      (modify fun client => { client with nextId := client.nextId + 1 } : Lookup Unit)
      (fun _ => True) fails :=
    triple_modify trivial fun _ sound => ⟨sound.typeinfo, sound.typeinfoEnum, sound.types⟩
  have read : Triple (Sound catalog) (get : Lookup Client) (fun _ => True) fails :=
    triple_get fun _ _ => trivial
  exact triple_bind read fun _ _ => triple_bind counted fun _ _ => triple_pure trivial

/-- The cache stays right when a tree goes into it. -/
theorem triple_setType {type_ : PgType} (tree : catalog.Unfolds oid type_) :
    Triple (Sound catalog) (modify fun client => client.setType oid type_ : Lookup Unit)
      (fun _ => True) fails := by
  refine triple_modify trivial fun client sound => ⟨sound.typeinfo, sound.typeinfoEnum, ?_⟩
  intro other stored found
  rw [Client.type_, Client.setType, List.lookup_cons] at found
  by_cases same : other = oid
  · subst same
    rw [beq_self_eq_true] at found
    exact Option.some.inj found ▸ tree
  · rw [beq_eq_false_iff_ne.mpr same] at found
    exact sound.types other stored found

/-- The types that the queries of `prepare.rs` speak of are built in. -/
theorem describe_builtin {tables : Tables} {query : Query} {described : List UInt32 × List UInt32}
    (answered : tables.describe query = .ok described) :
    ∀ oid ∈ described.1 ++ described.2, (fromOid oid).isSome := by
  have three : ([26, 19, 18].all fun oid => (fromOid oid).isSome) = true := by decide +kernel
  have known : ∀ oid ∈ [(26 : UInt32), 19, 18], (fromOid oid).isSome :=
    fun oid member => List.all_eq_true.mp three oid member
  have within : described.1 ++ described.2 ⊆ [26, 19, 18] := by
    cases query with
    | typeinfo =>
        rw [Tables.describe] at answered
        split at answered
        · obtain rfl := Except.ok.inj answered
          decide
        · cases answered
    | typeinfoFallback =>
        obtain rfl := Except.ok.inj answered
        decide
    | enum =>
        rw [Tables.describe] at answered
        split at answered
        · obtain rfl := Except.ok.inj answered
          decide
        · cases answered
    | enumFallback =>
        obtain rfl := Except.ok.inj answered
        decide
    | composite =>
        obtain rfl := Except.ok.inj answered
        decide
  exact fun oid member => known oid (within member)

theorem triple_prepare {query : Query} {described : List UInt32 × List UInt32}
    (answered : catalog.describe query = .ok described)
    (builtin : ∀ oid, (fromOid oid).isSome →
      Triple (Sound catalog) (getTypeRec oid) (fun _ => True) fails) :
    Triple (Sound catalog) (prepare catalog.toTables getTypeRec query)
      (fun stmt => stmt.query = query) fails := by
  have known := describe_builtin answered
  refine triple_bind triple_fetchId fun id _ => ?_
  have lifted : Triple (Sound catalog) (liftM (catalog.describe query) : Lookup _)
      (fun answer => answer = described) fails := by
    rw [answered]
    exact triple_lift (fun _ same => (Except.ok.inj same).symm) nofun
  refine triple_bind lifted fun answer same => ?_
  subst same
  refine triple_bind (triple_getTypes fun oid member =>
    builtin oid (known oid (List.mem_append_left _ member))) fun params _ => ?_
  refine triple_bind (triple_getTypes fun oid member =>
    builtin oid (known oid (List.mem_append_right _ member))) fun columns _ => ?_
  exact triple_pure rfl

theorem triple_prepare_unknown {query : Query} {unknown : Error}
    (answered : catalog.describe query = .error unknown) :
    Triple (Sound catalog) (prepare catalog.toTables getTypeRec query) (fun _ => False)
      (fun error => error = unknown) := by
  refine triple_bind triple_fetchId fun id _ => ?_
  have lifted : Triple (Sound catalog) (liftM (catalog.describe query) : Lookup _)
      (fun _ => False) (fun error => error = unknown) := by
    rw [answered]
    exact triple_lift nofun fun _ same => (Except.error.inj same).symm
  exact triple_bind lifted fun _ impossible => impossible.elim

/-- A statement of the query or, where the server does not know it, of the other one. -/
theorem triple_prepareOr {query fallback : Query} {unknown : Error} {knows : Bool}
    {described other : List UInt32 × List UInt32}
    (answered : catalog.describe query = if knows then .ok described else .error unknown)
    (answeredElse : catalog.describe fallback = .ok other)
    (builtin : ∀ oid, (fromOid oid).isSome →
      Triple (Sound catalog) (getTypeRec oid) (fun _ => True) fails)
    (never : ¬fails unknown) :
    Triple (Sound catalog) (prepareOr catalog.toTables getTypeRec query fallback unknown)
      (fun stmt => stmt.query = if knows then query else fallback) fails := by
  cases knows with
  | true =>
      refine triple_tryCatch (triple_prepare answered builtin) fun error failed => ?_
      have different : error ≠ unknown := fun same => never (same ▸ failed)
      rw [if_neg different]
      exact triple_throw failed
  | false =>
      refine triple_tryCatch ((triple_prepare_unknown answered).imp (fun _ => False.elim)
        fun _ same => same) fun error same => ?_
      rw [if_pos same]
      exact triple_prepare answeredElse builtin

/-! ### Queries -/

/-- The row that `TYPEINFO_QUERY` answers for a type. -/
abbrev Tables.infoOf (tables : Tables) (row : TypeRow) (schema : SchemaRow) : TypeInfo where
  typname := row.typname
  typtype := row.typtype
  typelem := row.typelem
  rngsubtype := tables.range row.oid
  typbasetype := row.typbasetype
  nspname := schema.nspname
  typrelid := row.typrelid

theorem range_none {tables : Tables} (none : ∀ range ∈ tables.ranges, range.rngtypid ≠ oid) :
    tables.range oid = .none := by
  have missing : (tables.ranges.find? fun range => range.rngtypid == oid) = .none :=
    List.find?_eq_none.mpr fun range member same => none range member (beq_iff_eq.mp same)
  rw [Tables.range, missing]
  rfl

theorem range_some {range : RangeRow} (member : range ∈ catalog.ranges) :
    catalog.range range.rngtypid = some range.rngsubtype := by
  rw [Tables.range]
  cases found : catalog.ranges.find? fun other => other.rngtypid == range.rngtypid with
  | none => exact absurd (beq_self_eq_true _) (List.find?_eq_none.mp found range member)
  | some other =>
      have holds := List.find?_some found
      have same : other.rngtypid = range.rngtypid := beq_iff_eq.mp holds
      rw [List.inj_on_of_nodup_map catalog.rangeKey (List.mem_of_find?_eq_some found) member same]
      rfl

/-- The join finds the range of a type, or that it has none. -/
theorem rngsubtypes_eq {rngsubtype : Option UInt32}
    (member : rngsubtype ∈ catalog.rngsubtypes catalog.typeinfoQuery oid) :
    rngsubtype = catalog.range oid := by
  rw [Tables.rngsubtypes] at member
  by_cases joins : catalog.typeinfoQuery = .typeinfo ∧
      (catalog.ranges.filter fun range => range.rngtypid == oid) ≠ []
  · rw [if_pos joins] at member
    obtain ⟨range, within, rfl⟩ := List.mem_map.mp member
    obtain ⟨inRanges, same⟩ := List.mem_filter.mp within
    obtain rfl := beq_iff_eq.mp same
    exact (range_some inRanges).symm
  · rw [if_neg joins] at member
    obtain rfl := List.mem_singleton.mp member
    refine (range_none fun range inRanges same => ?_).symm
    have joined : (catalog.ranges.filter fun range => range.rngtypid == oid) ≠ [] :=
      List.ne_nil_of_mem (List.mem_filter.mpr ⟨inRanges, beq_iff_eq.mpr same⟩)
    cases table : catalog.rangeTable with
    | true => exact joins ⟨if_pos table, joined⟩
    | false =>
        rw [catalog.rangeTableFound table] at inRanges
        cases inRanges

theorem typeinfo_mem {info : TypeInfo}
    (member : info ∈ catalog.typeinfo catalog.typeinfoQuery oid) :
    ∃ row ∈ catalog.types, row.oid = oid ∧ ∃ schema ∈ catalog.schemas,
      schema.oid = row.typnamespace ∧ info = catalog.infoOf row schema := by
  obtain ⟨row, inTypes, member⟩ := List.mem_flatMap.mp member
  obtain ⟨schema, inSchemas, member⟩ := List.mem_flatMap.mp member
  obtain ⟨rngsubtype, joined, rfl⟩ := List.mem_map.mp member
  obtain ⟨rowIn, rowOid⟩ := List.mem_filter.mp inTypes
  obtain ⟨schemaIn, schemaOid⟩ := List.mem_filter.mp inSchemas
  refine ⟨row, rowIn, beq_iff_eq.mp rowOid, schema, schemaIn, beq_iff_eq.mp schemaOid, ?_⟩
  rw [rngsubtypes_eq joined]

theorem typeinfo_ne_nil {query : Query} {row : TypeRow} (rowIn : row ∈ catalog.types) :
    catalog.typeinfo query row.oid ≠ [] := by
  obtain ⟨schema, schemaIn, schemaOid⟩ := catalog.schemaFound row rowIn
  have joined : catalog.rngsubtypes query row.oid ≠ [] := by
    rw [Tables.rngsubtypes]
    split
    · next both => exact fun empty => both.2 (List.map_eq_nil_iff.mp empty)
    · exact List.cons_ne_nil _ _
  obtain ⟨rngsubtype, member⟩ := List.exists_mem_of_ne_nil _ joined
  refine List.ne_nil_of_mem (List.mem_flatMap.mpr ⟨row, ?_, List.mem_flatMap.mpr ⟨schema, ?_,
    List.mem_map.mpr ⟨rngsubtype, member, rfl⟩⟩⟩)
  · exact List.mem_filter.mpr ⟨rowIn, beq_self_eq_true _⟩
  · exact List.mem_filter.mpr ⟨schemaIn, beq_iff_eq.mpr schemaOid⟩

/-! ### One call -/

/-- What a call needs of the calls that it makes. -/
structure Recurses (catalog : Catalog) (getTypeRec : UInt32 → Lookup PgType)
    (targets : UInt32 → Prop) (fails : Error → Prop) : Prop where
  builtin : ∀ oid, (fromOid oid).isSome →
    Triple (Sound catalog) (getTypeRec oid) (fun _ => True) fails
  target : ∀ oid, targets oid →
    Triple (Sound catalog) (getTypeRec oid) (catalog.Unfolds oid) fails
  table : ¬fails .undefinedTable
  column : ¬fails .undefinedColumn

theorem triple_cachedStatement {cached : Client → Option Statement}
    {store : Statement → Client → Client} {prepared : Lookup Statement}
    {right : Statement → Prop}
    (known : ∀ client, Sound catalog client → ∀ stmt, cached client = some stmt → right stmt)
    (prepares : Triple (Sound catalog) prepared right fails)
    (stores : ∀ stmt, right stmt → ∀ client, Sound catalog client →
      Sound catalog (store stmt client)) :
    Triple (Sound catalog) (cachedStatement cached store prepared) right fails := by
  refine triple_bind (triple_get known) fun client found => ?_
  cases held : cached client with
  | some stmt => exact triple_pure (found stmt held)
  | none =>
      refine triple_bind prepares fun stmt isRight => ?_
      have stored : Triple (Sound catalog) (modify (store stmt) : Lookup Unit) (fun _ => True)
          fails := triple_modify trivial (stores stmt isRight)
      exact triple_bind stored fun _ _ => triple_pure isRight

section

variable {targets : UInt32 → Prop} (recurses : Recurses catalog getTypeRec targets fails)

include recurses

theorem triple_typeinfoStatement :
    Triple (Sound catalog) (typeinfoStatement catalog.toTables getTypeRec)
      (fun stmt => stmt.query = catalog.typeinfoQuery) fails :=
  triple_cachedStatement (fun _ sound => sound.typeinfo)
    (@triple_prepareOr catalog getTypeRec fails .typeinfo .typeinfoFallback .undefinedTable
      catalog.rangeTable _ _ rfl rfl recurses.builtin recurses.table)
    fun _ query _ sound =>
      ⟨fun _ same => Option.mem_some_iff.mp same ▸ query, sound.typeinfoEnum, sound.types⟩

theorem triple_typeinfoEnumStatement :
    Triple (Sound catalog) (typeinfoEnumStatement catalog.toTables getTypeRec)
      (fun stmt => stmt.query = catalog.enumQuery) fails :=
  triple_cachedStatement (fun _ sound => sound.typeinfoEnum)
    (@triple_prepareOr catalog getTypeRec fails .enum .enumFallback .undefinedColumn
      catalog.sortOrder _ _ rfl rfl recurses.builtin recurses.column)
    fun _ query _ sound =>
      ⟨sound.typeinfo, fun _ same => Option.mem_some_iff.mp same ▸ query, sound.types⟩

theorem triple_typeinfoCompositeStatement :
    Triple (Sound catalog) (typeinfoCompositeStatement catalog.toTables getTypeRec)
      (fun _ => True) fails :=
  triple_cachedStatement (fun _ _ _ _ => trivial)
    ((@triple_prepare catalog getTypeRec fails .composite _ rfl recurses.builtin).imp
      (fun _ _ => trivial) fun _ failed => failed)
    fun _ _ _ sound => ⟨sound.typeinfo, sound.typeinfoEnum, sound.types⟩

theorem triple_getEnumVariants :
    Triple (Sound catalog) (getEnumVariants catalog.toTables getTypeRec oid)
      (fun variants => variants = catalog.labels oid) fails := by
  refine triple_bind (triple_typeinfoEnumStatement recurses) fun stmt query => triple_pure ?_
  rw [query]
  rfl

theorem triple_target {target : UInt32} (wanted : targets target) :
    Triple (Sound catalog) (getTypeRec target)
      (fun type_ => type_ = catalog.tree target ∧ catalog.Unfolds target (catalog.tree target))
      fails := by
  refine (recurses.target target wanted).imp (fun type_ unfolds => ?_) fun _ failed => failed
  rw [tree_eq unfolds]
  exact ⟨rfl, unfolds⟩

theorem triple_getFields {rows : List AttributeRow}
    (wanted : ∀ row ∈ rows, targets row.atttypid) :
    Triple (Sound catalog) (getFields getTypeRec rows)
      (fun fields => fields = rows.map (fun row => ⟨row.attname, catalog.tree row.atttypid⟩) ∧
        ∀ row ∈ rows, catalog.Unfolds row.atttypid (catalog.tree row.atttypid)) fails := by
  induction rows with
  | nil => exact triple_pure ⟨rfl, nofun⟩
  | cons row rows ih =>
      obtain ⟨first, rest⟩ := List.forall_mem_cons.mp wanted
      refine triple_bind (triple_target recurses first) fun type_ found => ?_
      obtain ⟨rfl, unfolds⟩ := found
      refine triple_bind (ih rest) fun fields more => ?_
      obtain ⟨rfl, others⟩ := more
      exact triple_pure ⟨rfl, List.forall_mem_cons.mpr ⟨unfolds, others⟩⟩

theorem triple_oneTarget {target : UInt32} {form : Kind UInt32} {build : PgType → Kind PgType}
    (parts : form.parts = [target]) (built : form.map catalog.tree = build (catalog.tree target))
    (wanted : ∀ part ∈ form.parts, targets part) :
    Triple (Sound catalog) (do
        let type_ ← getTypeRec target
        return build type_)
      (fun kind => kind = form.map catalog.tree ∧
        ∀ part ∈ form.parts, catalog.Unfolds part (catalog.tree part)) fails := by
  rw [parts] at wanted
  rw [parts, built]
  refine triple_bind (triple_target recurses (wanted target List.mem_cons_self))
    fun type_ found => triple_pure ?_
  obtain ⟨rfl, unfolds⟩ := found
  exact ⟨rfl, List.forall_mem_cons.mpr ⟨unfolds, nofun⟩⟩

/-- The kind has the trees of the targets in the places of the references. -/
theorem triple_getKind {row : TypeRow} {schema : SchemaRow}
    (wanted : ∀ part ∈ (catalog.kind row).parts, targets part) :
    Triple (Sound catalog)
      (getKind catalog.toTables getTypeRec row.oid (catalog.infoOf row schema))
      (fun kind => kind = (catalog.kind row).map catalog.tree ∧
        ∀ part ∈ (catalog.kind row).parts, catalog.Unfolds part (catalog.tree part)) fails := by
  rw [getKind]
  dsimp only [Tables.infoOf]
  by_cases isEnum : row.typtype = 101
  · have shape : catalog.kind row = .enum (catalog.labels row.oid) := if_pos isEnum
    rw [if_pos isEnum, shape]
    refine triple_bind (triple_getEnumVariants recurses) fun variants labels => triple_pure ?_
    rw [labels]
    exact ⟨rfl, nofun⟩
  rw [if_neg isEnum]
  by_cases isPseudo : row.typtype = 112
  · have shape : catalog.kind row = .pseudo := by rw [Tables.kind, if_neg isEnum, if_pos isPseudo]
    rw [if_pos isPseudo, shape]
    exact triple_pure ⟨rfl, nofun⟩
  rw [if_neg isPseudo]
  by_cases isDomain : row.typbasetype ≠ 0
  · have shape : catalog.kind row = .domain row.typbasetype := by
      rw [Tables.kind, if_neg isEnum, if_neg isPseudo, if_pos isDomain]
    rw [shape] at wanted
    rw [if_pos isDomain, shape]
    exact triple_oneTarget recurses rfl rfl wanted
  rw [if_neg isDomain]
  by_cases isArray : row.typelem ≠ 0
  · have shape : catalog.kind row = .array row.typelem := by
      rw [Tables.kind, if_neg isEnum, if_neg isPseudo, if_neg isDomain, if_pos isArray]
    rw [shape] at wanted
    rw [if_pos isArray, shape]
    exact triple_oneTarget recurses rfl rfl wanted
  rw [if_neg isArray]
  by_cases isComposite : row.typrelid ≠ 0
  · have shape : catalog.kind row = .composite (catalog.columns row.typrelid) := by
      rw [Tables.kind, if_neg isEnum, if_neg isPseudo, if_neg isDomain, if_neg isArray,
        if_pos isComposite]
    have parts : (catalog.kind row).parts =
        (catalog.columnRows row.typrelid).map AttributeRow.atttypid := by
      rw [shape, Kind.parts, Tables.columns, List.map_map]
      rfl
    rw [parts] at wanted
    rw [if_pos isComposite, parts, shape]
    have fieldsFound := triple_bind
      (triple_typeinfoCompositeStatement recurses)
      fun _ _ => triple_getFields recurses (List.forall_mem_map.mp wanted)
    refine triple_bind fieldsFound fun fields found => triple_pure ?_
    refine ⟨?_, List.forall_mem_map.mpr found.2⟩
    rw [found.1, Kind.map, Tables.columns, List.map_map]
    rfl
  rw [if_neg isComposite]
  have other : catalog.kind row = (catalog.range row.oid).elim .simple .range := by
    rw [Tables.kind, if_neg isEnum, if_neg isPseudo, if_neg isDomain, if_neg isArray,
      if_neg isComposite]
  cases range : catalog.range row.oid with
  | none =>
      rw [range] at other
      rw [other]
      exact triple_pure ⟨rfl, nofun⟩
  | some rngsubtype =>
      rw [range] at other
      rw [other] at wanted ⊢
      exact triple_oneTarget recurses rfl rfl wanted

theorem triple_askType (foreign : fromOid oid = none)
    (there : (∃ row ∈ catalog.types, row.oid = oid) ∨ fails .unexpectedMessage)
    (wanted : ∀ target, catalog.References oid target → targets target) :
    Triple (Sound catalog) (askType catalog.toTables getTypeRec oid) (catalog.Unfolds oid)
      fails := by
  refine triple_bind (triple_typeinfoStatement recurses) fun stmt query => ?_
  rw [query]
  cases answered : catalog.typeinfo catalog.typeinfoQuery oid with
  | nil =>
      refine triple_throw (there.resolve_left fun found => ?_)
      obtain ⟨row, rowIn, rfl⟩ := found
      exact typeinfo_ne_nil rowIn answered
  | cons info others =>
      have first : info ∈ catalog.typeinfo catalog.typeinfoQuery oid := by
        rw [answered]
        exact List.mem_cons_self
      obtain ⟨row, rowIn, rfl, schema, schemaIn, schemaOid, rfl⟩ := typeinfo_mem first
      refine triple_bind (triple_getKind recurses fun part member =>
        wanted part ⟨foreign, row, rowIn, rfl, member⟩) fun kind built => ?_
      obtain ⟨rfl, unfolds⟩ := built
      have tree : catalog.Unfolds row.oid
          (.new row.typname row.oid ((catalog.kind row).map catalog.tree) schema.nspname) :=
        .looked ⟨foreign, rowIn, rfl, schemaIn, schemaOid⟩ unfolds
      exact triple_bind (triple_setType tree) fun _ _ => triple_pure tree

theorem triple_getTypeOnce
    (there : catalog.Knows oid ∨ fails .unexpectedMessage)
    (wanted : ∀ target, catalog.References oid target → targets target) :
    Triple (Sound catalog) (getTypeOnce catalog.toTables getTypeRec oid) (catalog.Unfolds oid)
      fails := by
  rw [getTypeOnce]
  cases known : fromOid oid with
  | some type_ => exact triple_pure (.builtin known)
  | none =>
      refine triple_bind (triple_get fun _ sound => sound.types oid) fun client cached => ?_
      cases found : client.type_ oid with
      | some type_ => exact triple_pure (cached type_ found)
      | none =>
          refine triple_askType recurses known (there.imp_left fun knows => ?_) wanted
          exact knows.resolve_left (by rw [known]; exact Bool.false_ne_true)

end

/-! ### All calls -/

/-- Whatever the fuel, a call keeps the client sound and answers nothing but the tree. -/
theorem triple_getType (catalog : Catalog) (fuel : Nat) (oid : UInt32) :
    Triple (Sound catalog) (getType catalog.toTables fuel oid) (catalog.Unfolds oid)
      fun error => error = .outOfFuel ∨ error = .unexpectedMessage := by
  induction fuel generalizing oid with
  | zero => exact triple_throw (.inl rfl)
  | succ fuel ih =>
      have recurses : Recurses catalog (getType catalog.toTables fuel) (fun _ => True)
          fun error => error = .outOfFuel ∨ error = .unexpectedMessage :=
        { builtin := fun oid _ => (ih oid).imp (fun _ _ => trivial) fun _ failed => failed
          target := fun oid _ => ih oid
          table := fun failed => failed.elim nofun nofun
          column := fun failed => failed.elim nofun nofun }
      exact triple_getTypeOnce recurses (.inr (.inr rfl)) fun _ _ => trivial

theorem wellFounded_references (acyclic : catalog.Acyclic) :
    WellFounded fun target oid => catalog.References oid target := by
  have finite : Finite UInt32 := Finite.of_injective UInt32.toFin fun _ _ => UInt32.toFin_inj.mp
  have below : WellFounded fun target oid => Relation.TransGen catalog.References oid target := by
    have : IsTrans UInt32 fun target oid => Relation.TransGen catalog.References oid target :=
      ⟨fun _ _ _ first second => second.trans first⟩
    have : Std.Irrefl fun target oid => Relation.TransGen catalog.References oid target :=
      ⟨acyclic⟩
    exact Finite.wellFounded_of_trans_of_irrefl _
  exact Subrelation.wf Relation.TransGen.single below

theorem exists_bound {Item : Type} {holds : Item → Nat → Prop} {items : List Item}
    (each : ∀ item ∈ items, ∃ bound, ∀ more, bound ≤ more → holds item more) :
    ∃ bound, ∀ item ∈ items, ∀ more, bound ≤ more → holds item more := by
  induction items with
  | nil => exact ⟨0, nofun⟩
  | cons item items ih =>
      obtain ⟨first, rest⟩ := List.forall_mem_cons.mp each
      obtain ⟨bound, holdsItem⟩ := first
      obtain ⟨other, holdsItems⟩ := ih rest
      refine ⟨max bound other, List.forall_mem_cons.mpr ⟨fun more enough => ?_,
        fun item member more enough => ?_⟩⟩
      · exact holdsItem more (le_trans (le_max_left _ _) enough)
      · exact holdsItems item member more (le_trans (le_max_right _ _) enough)

theorem triple_builtin {fails : Error → Prop} (fuel : Nat) (known : (fromOid oid).isSome) :
    Triple (Sound catalog) (getType catalog.toTables (fuel + 1) oid) (catalog.Unfolds oid)
      fails := by
  obtain ⟨type_, found⟩ := Option.isSome_iff_exists.mp known
  rw [getType, getTypeOnce, found]
  exact triple_pure (.builtin found)

/-- With enough fuel, a call on a catalog without cycles returns. -/
theorem getType_returns (acyclic : catalog.Acyclic) (knows : catalog.Knows oid) :
    ∃ fuel, ∀ more, fuel ≤ more → Triple (Sound catalog) (getType catalog.toTables more oid)
      (catalog.Unfolds oid) fun _ => False := by
  induction oid using (wellFounded_references acyclic).induction with
  | _ oid ih =>
      cases knows with
      | inl known =>
          refine ⟨1, fun more enough => ?_⟩
          obtain ⟨fuel, rfl⟩ := Nat.exists_eq_add_of_le' enough
          exact triple_builtin fuel known
      | inr found =>
          obtain ⟨row, rowIn, rfl⟩ := found
          by_cases known : (fromOid row.oid).isSome
          · refine ⟨1, fun more enough => ?_⟩
            obtain ⟨fuel, rfl⟩ := Nat.exists_eq_add_of_le' enough
            exact triple_builtin fuel known
          · have foreign : fromOid row.oid = none := Option.not_isSome_iff_eq_none.mp known
            have refers (part : UInt32) (member : part ∈ (catalog.kind row).parts) :
                catalog.References row.oid part := ⟨foreign, row, rowIn, rfl, member⟩
            obtain ⟨bound, enoughFor⟩ := exists_bound fun part member =>
              ih part (refers part member) (catalog.targetFound _ _ (refers part member))
            refine ⟨bound + 2, fun more enough => ?_⟩
            obtain ⟨fuel, rfl⟩ := Nat.exists_eq_add_of_le' enough
            have recurses : Recurses catalog (getType catalog.toTables (fuel + bound + 1))
                (catalog.References row.oid) fun _ => False :=
              { builtin := fun oid known =>
                  (triple_builtin (fuel + bound) known).imp (fun _ _ => trivial) fun _ => id
                target := fun target refers => by
                  obtain ⟨-, other, otherIn, same, member⟩ := refers
                  obtain rfl := List.inj_on_of_nodup_map catalog.typeKey otherIn rowIn same
                  exact enoughFor target member _ (by omega)
                table := id
                column := id }
            exact triple_getTypeOnce recurses (.inl (.inr ⟨row, rowIn, rfl⟩)) fun _ refers => refers

/-- The clients that earlier calls leave, also those that failed or were given up. -/
inductive Reachable (catalog : Catalog) : Client → Prop where
  | new {nextId : Nat} : Reachable catalog (.new nextId)
  | getType {client : Client} (before : Reachable catalog client) (fuel : Nat) (oid : UInt32) :
      Reachable catalog ((getType catalog.toTables fuel oid).execute client).2
  | clear {client : Client} (before : Reachable catalog client) :
      Reachable catalog client.clearTypeCache

theorem Reachable.sound {client : Client} (reachable : Reachable catalog client) :
    Sound catalog client := by
  induction reachable with
  | new => exact ⟨nofun, nofun, nofun⟩
  | getType _ fuel oid ih => exact (triple_getType catalog fuel oid _ ih).keeps
  | clear _ ih => exact ⟨ih.typeinfo, ih.typeinfoEnum, nofun⟩

/-- On a catalog without cycles, `get_type` returns the tree that an oid unfolds to, whatever
has been looked up before, and the cache maps oids to their trees only. -/
theorem getType_unfolds (catalog : Catalog) (acyclic : catalog.Acyclic) {client : Client}
    (reachable : Reachable catalog client) {oid : UInt32} (knows : catalog.Knows oid) :
    ∃ type_, (∀ other, catalog.Unfolds oid other ↔ other = type_) ∧
      (∃ fuel, ∀ more, fuel ≤ more → ∃ after,
        (getType catalog.toTables more oid).execute client = (.ok type_, after) ∧
          Reachable catalog after) ∧
      ∀ cached found, client.type_ cached = some found →
        ∀ other, catalog.Unfolds cached other ↔ other = found := by
  have only {oid : UInt32} {type_ : PgType} (unfolds : catalog.Unfolds oid type_)
      (other : PgType) : catalog.Unfolds oid other ↔ other = type_ :=
    ⟨fun again => unfolds_unique again unfolds, fun same => same ▸ unfolds⟩
  obtain ⟨fuel, returns⟩ := getType_returns acyclic knows
  obtain ⟨type_, _, _, unfolds, _⟩ := (returns fuel (le_refl fuel)).runs reachable.sound
  refine ⟨type_, only unfolds, ⟨fuel, fun more enough => ?_⟩,
    fun cached found same => only (reachable.sound.types cached found same)⟩
  obtain ⟨other, after, ran, again, _⟩ := (returns more enough).runs reachable.sound
  obtain rfl := unfolds_unique again unfolds
  refine ⟨after, ran, ?_⟩
  have left := Reachable.getType reachable more oid
  rw [ran] at left
  exact left

/-! A relation with a column of an enum and one of an array of a domain. -/

def itemTables : Tables where
  types :=
    [⟨16390, "score", 100, 0, 23, 2200, 0⟩, ⟨16391, "_score", 98, 16390, 0, 2200, 0⟩,
      ⟨16392, "state", 101, 0, 0, 2200, 0⟩, ⟨16400, "item", 99, 0, 0, 2200, 16398⟩]
  schemas := [⟨2200, "public"⟩]
  ranges := []
  enums := [⟨16393, 16392, "new", 2⟩, ⟨16394, 16392, "old", 1⟩]
  attributes :=
    [⟨16398, "scores", 16391, 2, false⟩, ⟨16398, "state", 16392, 1, false⟩,
      ⟨16398, "gone", 0, 3, true⟩]
  rangeTable := true
  sortOrder := true

def itemTree : PgType :=
  .new "item" 16400 (.composite
    [⟨"state", .new "state" 16392 (.enum ["old", "new"]) "public"⟩,
      ⟨"scores", .new "_score" 16391 (.array (.new "score" 16390
        (.domain (.new "int4" 23 .simple "pg_catalog")) "public")) "public"⟩]) "public"

theorem item_references (oid target : UInt32) (refers : itemTables.References oid target) :
    itemTables.Knows target ∧ target < oid := by
  have below : (itemTables.types.all fun row => (itemTables.kind row).parts.all fun part =>
      ((fromOid part).isSome || itemTables.types.any fun other => other.oid == part) &&
        decide (part < row.oid)) = true := by decide +kernel
  obtain ⟨-, row, rowIn, rfl, member⟩ := refers
  have part := List.all_eq_true.mp (List.all_eq_true.mp below row rowIn) target member
  obtain ⟨known, smaller⟩ := Bool.and_eq_true_iff.mp part
  refine ⟨(Bool.or_eq_true_iff.mp known).imp id fun found => ?_, of_decide_eq_true smaller⟩
  obtain ⟨other, otherIn, same⟩ := List.any_eq_true.mp found
  exact ⟨other, otherIn, beq_iff_eq.mp same⟩

theorem item_schemas :
    ∀ row ∈ itemTables.types, ∃ schema ∈ itemTables.schemas, schema.oid = row.typnamespace := by
  have all : (itemTables.types.all fun row =>
      itemTables.schemas.any fun schema => schema.oid == row.typnamespace) = true := by decide
  intro row rowIn
  obtain ⟨schema, schemaIn, same⟩ := List.any_eq_true.mp (List.all_eq_true.mp all row rowIn)
  exact ⟨schema, schemaIn, beq_iff_eq.mp same⟩

theorem item_acyclic : itemTables.Acyclic := by
  intro oid cycle
  have smaller {first second : UInt32}
      (path : Relation.TransGen itemTables.References first second) : second < first := by
    induction path with
    | single refers => exact (item_references _ _ refers).2
    | tail _ refers ih => exact UInt32.lt_trans (item_references _ _ refers).2 ih
  exact UInt32.lt_irrefl _ (smaller cycle)

def itemCatalog : Catalog where
  toTables := itemTables
  typeKey := by decide
  schemaKey := by decide
  rangeKey := by decide
  schemaFound := item_schemas
  targetFound oid target refers := (item_references oid target refers).1
  rangeTableFound := nofun

theorem getType_unfolds_item :
    ∃ fuel after, (getType itemTables fuel 16400).execute (.new 0) = (.ok itemTree, after) ∧
      ∀ other, itemTables.Unfolds 16400 other ↔ other = itemTree := by
  have fresh : Reachable itemCatalog (.new 0) := .new
  have knows : itemCatalog.Knows 16400 :=
    .inr ⟨_, List.mem_cons_of_mem _ (List.mem_cons_of_mem _ (List.mem_cons_of_mem _
      List.mem_cons_self)), rfl⟩
  obtain ⟨type_, only, ⟨fuel, runs⟩, -⟩ := getType_unfolds itemCatalog item_acyclic fresh knows
  have unfolds : itemCatalog.Unfolds 16400 itemTree :=
    (triple_getType itemCatalog 5 16400 _ fresh.sound).value itemTree rfl
  obtain rfl := (only itemTree).mp unfolds
  obtain ⟨after, ran, _⟩ := runs fuel (le_refl fuel)
  exact ⟨fuel, after, ran, only⟩

end

end OpenGauss.Driver.TypeLookup

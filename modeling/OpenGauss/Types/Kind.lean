/-! The types of the server (`opengauss-types`, `lib.rs`): a name, an oid, a schema and
the kind, which holds the types that the type is made of. -/

set_option autoImplicit false

namespace OpenGauss.Types

/-- `Field`. -/
structure PgField (Ty : Type) where
  name : String
  type_ : Ty
  deriving DecidableEq, Repr

inductive Kind (Ty : Type) where
  | simple
  | enum (variants : List String)
  | pseudo
  | array (type_ : Ty)
  | range (type_ : Ty)
  | multirange (type_ : Ty)
  | domain (type_ : Ty)
  | composite (fields : List (PgField Ty))
  deriving DecidableEq, Repr

namespace Kind

section

variable {Ty Other : Type}

/-- The types that a kind is made of. -/
def parts : Kind Ty → List Ty
  | .simple | .enum _ | .pseudo => []
  | .array type_ | .range type_ | .multirange type_ | .domain type_ => [type_]
  | .composite fields => fields.map PgField.type_

def map (f : Ty → Other) : Kind Ty → Kind Other
  | .simple => .simple
  | .enum variants => .enum variants
  | .pseudo => .pseudo
  | .array type_ => .array (f type_)
  | .range type_ => .range (f type_)
  | .multirange type_ => .multirange (f type_)
  | .domain type_ => .domain (f type_)
  | .composite fields => .composite (fields.map fun field => ⟨field.name, f field.type_⟩)

/-- The kind with every part replaced, if each of them can be. -/
def traverse (f : Ty → Option Other) : Kind Ty → Option (Kind Other)
  | .simple => some .simple
  | .enum variants => some (.enum variants)
  | .pseudo => some .pseudo
  | .array type_ => (f type_).map .array
  | .range type_ => (f type_).map .range
  | .multirange type_ => (f type_).map .multirange
  | .domain type_ => (f type_).map .domain
  | .composite fields =>
      (fields.mapM fun field => (f field.type_).map fun type_ => ⟨field.name, type_⟩).map .composite

theorem map_congr {f g : Ty → Other} {kind : Kind Ty} (same : ∀ part ∈ kind.parts, f part = g part) :
    kind.map f = kind.map g := by
  cases kind with
  | simple => rfl
  | enum variants => rfl
  | pseudo => rfl
  | array type_ => exact congrArg Kind.array (same type_ List.mem_cons_self)
  | range type_ => exact congrArg Kind.range (same type_ List.mem_cons_self)
  | multirange type_ => exact congrArg Kind.multirange (same type_ List.mem_cons_self)
  | domain type_ => exact congrArg Kind.domain (same type_ List.mem_cons_self)
  | composite fields =>
      refine congrArg Kind.composite (List.map_congr_left fun field member => ?_)
      rw [same field.type_ (List.mem_map.mpr ⟨field, member, rfl⟩)]

end

end Kind

/-- `Type`. -/
inductive PgType where
  | new (name : String) (oid : UInt32) (kind : Kind PgType) (schema : String)

instance : Inhabited PgType := ⟨.new "" 0 .simple ""⟩

namespace PgType

def name : PgType → String
  | new name _ _ _ => name

def oid : PgType → UInt32
  | new _ oid _ _ => oid

def kind : PgType → Kind PgType
  | new _ _ kind _ => kind

def schema : PgType → String
  | new _ _ _ schema => schema

end PgType

end OpenGauss.Types

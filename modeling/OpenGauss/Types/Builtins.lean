import OpenGauss.Types.Kind

/-! The types that the client knows without asking the server (`opengauss-types`,
`type_gen.rs`). -/

set_option autoImplicit false

namespace OpenGauss.Types

/-- Oid, name and kind of every `Inner`, where a kind names types by their oids. -/
def builtins : List (UInt32 × String × Kind UInt32) :=
  [(16, "bool", .simple), (17, "bytea", .simple), (18, "char", .simple), (19, "name", .simple),
    (20, "int8", .simple), (21, "int2", .simple), (22, "int2vector", .array 21),
    (23, "int4", .simple), (24, "regproc", .simple), (25, "text", .simple), (26, "oid", .simple),
    (27, "tid", .simple), (28, "xid", .simple), (29, "cid", .simple), (30, "oidvector", .array 26),
    (32, "pg_ddl_command", .pseudo), (114, "json", .simple), (142, "xml", .simple),
    (143, "_xml", .array 142), (194, "pg_node_tree", .simple), (199, "_json", .array 114),
    (269, "table_am_handler", .pseudo), (271, "_xid8", .array 5069),
    (325, "index_am_handler", .pseudo), (600, "point", .simple), (601, "lseg", .simple),
    (602, "path", .simple), (603, "box", .simple), (604, "polygon", .simple),
    (628, "line", .simple), (629, "_line", .array 628), (650, "cidr", .simple),
    (651, "_cidr", .array 650), (700, "float4", .simple), (701, "float8", .simple),
    (705, "unknown", .simple), (718, "circle", .simple), (719, "_circle", .array 718),
    (774, "macaddr8", .simple), (775, "_macaddr8", .array 774), (790, "money", .simple),
    (791, "_money", .array 790), (829, "macaddr", .simple), (869, "inet", .simple),
    (1000, "_bool", .array 16), (1001, "_bytea", .array 17), (1002, "_char", .array 18),
    (1003, "_name", .array 19), (1005, "_int2", .array 21), (1006, "_int2vector", .array 22),
    (1007, "_int4", .array 23), (1008, "_regproc", .array 24), (1009, "_text", .array 25),
    (1010, "_tid", .array 27), (1011, "_xid", .array 28), (1012, "_cid", .array 29),
    (1013, "_oidvector", .array 30), (1014, "_bpchar", .array 1042),
    (1015, "_varchar", .array 1043), (1016, "_int8", .array 20), (1017, "_point", .array 600),
    (1018, "_lseg", .array 601), (1019, "_path", .array 602), (1020, "_box", .array 603),
    (1021, "_float4", .array 700), (1022, "_float8", .array 701), (1027, "_polygon", .array 604),
    (1028, "_oid", .array 26), (1033, "aclitem", .simple), (1034, "_aclitem", .array 1033),
    (1040, "_macaddr", .array 829), (1041, "_inet", .array 869), (1042, "bpchar", .simple),
    (1043, "varchar", .simple), (1082, "date", .simple), (1083, "time", .simple),
    (1114, "timestamp", .simple), (1115, "_timestamp", .array 1114), (1182, "_date", .array 1082),
    (1183, "_time", .array 1083), (1184, "timestamptz", .simple),
    (1185, "_timestamptz", .array 1184), (1186, "interval", .simple),
    (1187, "_interval", .array 1186), (1231, "_numeric", .array 1700),
    (1263, "_cstring", .array 2275), (1266, "timetz", .simple), (1270, "_timetz", .array 1266),
    (1560, "bit", .simple), (1561, "_bit", .array 1560), (1562, "varbit", .simple),
    (1563, "_varbit", .array 1562), (1700, "numeric", .simple), (1790, "refcursor", .simple),
    (2201, "_refcursor", .array 1790), (2202, "regprocedure", .simple), (2203, "regoper", .simple),
    (2204, "regoperator", .simple), (2205, "regclass", .simple), (2206, "regtype", .simple),
    (2207, "_regprocedure", .array 2202), (2208, "_regoper", .array 2203),
    (2209, "_regoperator", .array 2204), (2210, "_regclass", .array 2205),
    (2211, "_regtype", .array 2206), (2249, "record", .pseudo), (2275, "cstring", .pseudo),
    (2276, "any", .pseudo), (2277, "anyarray", .pseudo), (2278, "void", .pseudo),
    (2279, "trigger", .pseudo), (2280, "language_handler", .pseudo), (2281, "internal", .pseudo),
    (2283, "anyelement", .pseudo), (2287, "_record", .pseudo), (2776, "anynonarray", .pseudo),
    (2949, "_txid_snapshot", .array 2970), (2950, "uuid", .simple), (2951, "_uuid", .array 2950),
    (2970, "txid_snapshot", .simple), (3115, "fdw_handler", .pseudo), (3220, "pg_lsn", .simple),
    (3221, "_pg_lsn", .array 3220), (3310, "tsm_handler", .pseudo),
    (3361, "pg_ndistinct", .simple), (3402, "pg_dependencies", .simple),
    (3500, "anyenum", .pseudo), (3614, "tsvector", .simple), (3615, "tsquery", .simple),
    (3642, "gtsvector", .simple), (3643, "_tsvector", .array 3614),
    (3644, "_gtsvector", .array 3642), (3645, "_tsquery", .array 3615),
    (3734, "regconfig", .simple), (3735, "_regconfig", .array 3734),
    (3769, "regdictionary", .simple), (3770, "_regdictionary", .array 3769),
    (3802, "jsonb", .simple), (3807, "_jsonb", .array 3802), (3831, "anyrange", .pseudo),
    (3838, "event_trigger", .pseudo), (3904, "int4range", .range 23),
    (3905, "_int4range", .array 3904), (3906, "numrange", .range 1700),
    (3907, "_numrange", .array 3906), (3908, "tsrange", .range 1114),
    (3909, "_tsrange", .array 3908), (3910, "tstzrange", .range 1184),
    (3911, "_tstzrange", .array 3910), (3912, "daterange", .range 1082),
    (3913, "_daterange", .array 3912), (3926, "int8range", .range 20),
    (3927, "_int8range", .array 3926), (4072, "jsonpath", .simple),
    (4073, "_jsonpath", .array 4072), (4089, "regnamespace", .simple),
    (4090, "_regnamespace", .array 4089), (4096, "regrole", .simple),
    (4097, "_regrole", .array 4096), (4191, "regcollation", .simple),
    (4192, "_regcollation", .array 4191), (4451, "int4multirange", .multirange 23),
    (4532, "nummultirange", .multirange 1700), (4533, "tsmultirange", .multirange 1114),
    (4534, "tstzmultirange", .multirange 1184), (4535, "datemultirange", .multirange 1082),
    (4536, "int8multirange", .multirange 20), (4537, "anymultirange", .pseudo),
    (4538, "anycompatiblemultirange", .pseudo), (4600, "pg_brin_bloom_summary", .simple),
    (4601, "pg_brin_minmax_multi_summary", .simple), (5017, "pg_mcv_list", .simple),
    (5038, "pg_snapshot", .simple), (5039, "_pg_snapshot", .array 5038), (5069, "xid8", .simple),
    (5077, "anycompatible", .pseudo), (5078, "anycompatiblearray", .pseudo),
    (5079, "anycompatiblenonarray", .pseudo), (5080, "anycompatiblerange", .pseudo),
    (6150, "_int4multirange", .array 4451), (6151, "_nummultirange", .array 4532),
    (6152, "_tsmultirange", .array 4533), (6153, "_tstzmultirange", .array 4534),
    (6155, "_datemultirange", .array 4535), (6157, "_int8multirange", .array 4536)]

/-- The type of an oid, as deep as its kind goes. -/
def builtinWithin : Nat → UInt32 → Option PgType
  | 0, _ => none
  | depth + 1, oid =>
      match builtins.lookup oid with
      | some (name, kind) => do
          return .new name oid (← kind.traverse (builtinWithin depth)) "pg_catalog"
      | none => none

/-- `Type::from_oid`: no kind in the table goes deeper than an array of ranges. -/
def fromOid (oid : UInt32) : Option PgType := builtinWithin 3 oid

theorem fromOid_builtins : (builtins.all fun entry => (fromOid entry.1).isSome) = true := by
  decide +kernel

end OpenGauss.Types

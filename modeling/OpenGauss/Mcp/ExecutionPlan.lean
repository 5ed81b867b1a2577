import OpenGauss.Mcp.ExecuteQuery

/-! The texts that the tool `get_execution_plan` sends (`gaussdb-mcp`, `server.rs`)
once it has a client. -/

set_option autoImplicit false

namespace OpenGauss.Mcp

open Driver Lib.UpperCase

structure GetExecutionPlanParams where
  sql : Text
  analyze : Option Bool
  format : Option Text
  timeoutMs : Option UInt64
  deriving DecidableEq, Repr

/-- The format as it stands in the text. -/
def GetExecutionPlanParams.planFormat (params : GetExecutionPlanParams) : Text :=
  toUppercase (params.format.getD "TEXT".toList)

def explainSql (params : GetExecutionPlanParams) : Text :=
  if params.analyze.getD false then
    "EXPLAIN (ANALYZE, BUFFERS, FORMAT ".toList ++ params.planFormat ++ ") ".toList ++ params.sql
  else "EXPLAIN (FORMAT ".toList ++ params.planFormat ++ ") ".toList ++ params.sql

def getExecutionPlan (set : Bool) (params : GetExecutionPlanParams) : List Request :=
  queryWithOptionalTimeout set (explainSql params) params.timeoutMs

end OpenGauss.Mcp

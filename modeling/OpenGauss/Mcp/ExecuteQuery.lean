import OpenGauss.Lib.Text
import OpenGauss.Lib.UpperCase
import OpenGauss.Driver.Config

/-! The texts that the tool `execute_query` sends (`gaussdb-mcp`, `server.rs`)
once it has a client. -/

set_option autoImplicit false

namespace OpenGauss.Mcp

open Driver Lib.Text Lib.UpperCase

/-- What goes to the server: by `simple_query`, or by `query`, which prepares
the text as one statement. -/
inductive Request where
  | simpleQuery (text : Text)
  | query (text : Text)
  deriving DecidableEq, Repr

/-- The error of a text that is not sent. -/
structure InvalidRequest where
  kind : Text
  message : Text
  deriving DecidableEq, Repr

def invalidQuery : InvalidRequest where
  kind := "invalid_query".toList
  message := "Only SELECT and EXPLAIN queries are allowed".toList

/-- `query_with_optional_timeout`. `set` tells whether the server takes the
timeout; what comes of the reset is not looked at. -/
def queryWithOptionalTimeout (set : Bool) (sql : Text) (timeoutMs : Option UInt64) :
    List Request :=
  match timeoutMs with
  | none => [.query sql]
  | some ms =>
      .simpleQuery ("SET statement_timeout=".toList ++ (toString ms).toList) ::
        if set then [.query sql, .simpleQuery "SET statement_timeout=DEFAULT".toList] else []

/-- The check of `execute_query`. -/
def allowed (sql : Text) : Bool :=
  "SELECT".toList.isPrefixOf (toUppercase sql) || "EXPLAIN".toList.isPrefixOf (toUppercase sql)

/-- `execute_query`, from the client on. The log line of a text that is not
sent is left out. -/
def executeQuery (set : Bool) (sql : Text) (timeoutMs : Option UInt64) :
    Except InvalidRequest (List Request) :=
  let trimmed := trim sql
  if allowed trimmed then .ok (queryWithOptionalTimeout set trimmed timeoutMs)
  else .error invalidQuery

end OpenGauss.Mcp

import OpenGauss.Protocol.Backend
import OpenGauss.Protocol.BackendProperties
import OpenGauss.Lib.Framing
import OpenGauss.Lib.Execution
import OpenGauss.Lib.Channel
import OpenGauss.Lib.Segments
import OpenGauss.Lib.Numeral
import OpenGauss.Lib.Base64
import OpenGauss.Driver.Error
import OpenGauss.Driver.Codec
import OpenGauss.Driver.CodecProperties
import OpenGauss.Driver.Connection
import OpenGauss.Driver.ConnectionProperties
import OpenGauss.Types.Decimal
import OpenGauss.Types.DecimalProperties
import OpenGauss.Lib.Positional
import OpenGauss.Types.Numeric
import OpenGauss.Types.NumericDecoding
import OpenGauss.Types.NumericEncoding
import OpenGauss.Lib.Utf8
import OpenGauss.Lib.Text
import OpenGauss.Lib.IpAddr
import OpenGauss.Driver.Config
import OpenGauss.Driver.ConfigProperties
import OpenGauss.Driver.ConfigStrings
import OpenGauss.Driver.ConfigFrames
import OpenGauss.Driver.ConfigPassword
import OpenGauss.Driver.ConfigSslmode
import OpenGauss.Driver.ConfigUrls
import OpenGauss.Driver.UrlSlices
import OpenGauss.Lib.PercentEncoding
import OpenGauss.Lib.SqlStrings
import OpenGauss.Protocol.Escape
import OpenGauss.Protocol.EscapeProperties
import OpenGauss.Protocol.Frontend
import OpenGauss.Lib.Builder
import OpenGauss.Protocol.Put
import OpenGauss.Protocol.PutProperties
import OpenGauss.Protocol.FrontendBuffer
import OpenGauss.Protocol.FrontendBufferProperties
import OpenGauss.Lib.Grammar
import OpenGauss.Protocol.FrontendDecoding
import OpenGauss.Protocol.ArraySql
import OpenGauss.Protocol.ArraySqlProperties
import OpenGauss.Protocol.Authentication
import OpenGauss.Protocol.Sasl
import OpenGauss.Protocol.Password
import OpenGauss.Protocol.ScramServer
import OpenGauss.Protocol.ScramServerProperties
import OpenGauss.Driver.Authenticate
import OpenGauss.Protocol.SaslProperties
import OpenGauss.Protocol.SaslRuns
import OpenGauss.Driver.AuthenticateProperties
import OpenGauss.Driver.Transaction
import OpenGauss.Driver.TransactionProperties
import OpenGauss.Driver.Startup
import OpenGauss.Driver.StartupProperties
import OpenGauss.Driver.CopyIn
import OpenGauss.Driver.CopyInProperties
import OpenGauss.Driver.CopyInSink
import OpenGauss.Driver.CopyInSinkProperties
import OpenGauss.Driver.WriteSide
import OpenGauss.Driver.WriteSideProperties
import OpenGauss.Driver.ClientRequests
import OpenGauss.Driver.ClientRequestsProperties
import OpenGauss.Driver.Row
import OpenGauss.Driver.RowProperties
import OpenGauss.Driver.Savepoints
import OpenGauss.Driver.SavepointsProperties
import OpenGauss.Gaussdb.Config
import OpenGauss.Gaussdb.ConfigProperties
import OpenGauss.Gaussdb.Keyring
import OpenGauss.Gaussdb.Rewrite
import OpenGauss.Gaussdb.RewriteProperties
import OpenGauss.Gaussdb.Sslmode
import OpenGauss.Gaussdb.SslmodeProperties
import OpenGauss.Gaussdb.Timeouts
import OpenGauss.Gaussdb.UrlPassword
import OpenGauss.Gaussdb.Resolution
import OpenGauss.Gaussdb.ResolutionProperties
import OpenGauss.Gaussdb.MultiConfig
import OpenGauss.Gaussdb.RawConfig
import OpenGauss.Gaussdb.Deserialize
import OpenGauss.Gaussdb.RewriteToml
import OpenGauss.Gaussdb.RewriteTomlProperties
import OpenGauss.Lib.Toml
import OpenGauss.Lib.TomlProperties
import OpenGauss.Mcp.Config
import OpenGauss.Mcp.ConfigProperties
import OpenGauss.Lib.SqlLexical
import OpenGauss.Mcp.Interactive
import OpenGauss.Mcp.InteractiveProperties
import OpenGauss.Mcp.InteractiveIncremental
import OpenGauss.Lib.UpperCase
import OpenGauss.Lib.SqlStatements
import OpenGauss.Mcp.ExecuteQuery
import OpenGauss.Mcp.ExecuteQueryProperties
import OpenGauss.Lib.Register
import OpenGauss.Mcp.ExecutionPlan
import OpenGauss.Mcp.StatementTimeout
import OpenGauss.Mcp.StatementTimeoutProperties
import OpenGauss.Mcp.Migration
import OpenGauss.Mcp.LazyResolution
import OpenGauss.Mcp.LazyResolutionProperties
import OpenGauss.Mcp.RawConfig
import OpenGauss.Mcp.RawConfigProperties
import OpenGauss.Mcp.MigrationProperties
import OpenGauss.Mcp.Server
import OpenGauss.Mcp.ServerProperties
import OpenGauss.Mcp.ConnectAttempts
import OpenGauss.Mcp.NeedsTls
import OpenGauss.Lib.Masking
import OpenGauss.Mcp.Redaction
import OpenGauss.Mcp.RedactionProperties
import OpenGauss.Lib.SqlBoundary
import OpenGauss.Lib.SqlExplain
import OpenGauss.Mcp.ExecutionPlanProperties
import OpenGauss.Lib.SqlComments
import OpenGauss.Mcp.Cli
import OpenGauss.Mcp.CliComments
import OpenGauss.Mcp.InteractiveComments
import OpenGauss.Mcp.CliProperties
import OpenGauss.Driver.RowRanges
import OpenGauss.Driver.BinaryCopy
import OpenGauss.Driver.BinaryCopyIn
import OpenGauss.Driver.BinaryCopyOut
import OpenGauss.Gaussdb.RewriteLines
import OpenGauss.Lib.NumeralText
import OpenGauss.Mcp.Interval
import OpenGauss.Protocol.BigEndian
import OpenGauss.Mcp.IntervalProperties
import OpenGauss.Lib.Floats
import OpenGauss.Types.FromSql
import OpenGauss.Mcp.Output
import OpenGauss.Types.NumericRange
import OpenGauss.Mcp.OutputFields
import OpenGauss.Mcp.OutputMissing
import OpenGauss.Mcp.OutputAgreement
import OpenGauss.Protocol.RangeSql
import OpenGauss.Protocol.HstoreSqlProperties
import OpenGauss.Protocol.PathSql
import OpenGauss.Protocol.SaslGrammar
import OpenGauss.Protocol.ChallengeResponses
import OpenGauss.Derive.CompositeProperties
import OpenGauss.Sync.Notifications
import OpenGauss.Driver.TypeLookupProperties
import OpenGauss.Types.PgLsn
import OpenGauss.Gaussdb.DurationGrammar
import OpenGauss.Gaussdb.TimeoutOverrides
import OpenGauss.Types.TimeOfDay
import OpenGauss.Types.SystemTime
import OpenGauss.Mcp.SqlPreview
import OpenGauss.Mcp.KeyringCheck
import OpenGauss.Driver.ConnectProperties
import OpenGauss.Sync.CopyOutReaderProperties
import OpenGauss.Driver.Session
import OpenGauss.Driver.SessionFrames
import OpenGauss.Driver.SessionProperties
import OpenGauss.Driver.SessionAnswers
import OpenGauss.Lib.Source
import OpenGauss.Driver.Query
import OpenGauss.Driver.QueryProperties
import OpenGauss.Driver.QuerySingle
import OpenGauss.Driver.SessionQueries
import OpenGauss.Driver.Prepare
import OpenGauss.Driver.SimpleQuery
import OpenGauss.Lib.Lifecycle
import OpenGauss.Driver.Handles
import OpenGauss.Lib.Exact
import OpenGauss.Protocol.Descriptions
import OpenGauss.Protocol.DescriptionsProperties
import OpenGauss.Driver.HandlesMoves
import OpenGauss.Driver.HandlesProperties
import OpenGauss.Derive.Codec
import OpenGauss.Derive.CodecLaws
import OpenGauss.Derive.CodecArrays
import OpenGauss.Derive.CodecProperties
import OpenGauss.Mcp.Repl
import OpenGauss.Mcp.ReplProperties
import OpenGauss.Mcp.Table
import OpenGauss.Mcp.TableProperties
import OpenGauss.Driver.ErrorProperties

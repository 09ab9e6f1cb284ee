import PointLedger.Engine.Attempt
import PointLedger.Json.Decode
/-!
The settings of an application around the ledger. Settings are read from a tree of values; how a
single value becomes a number, a text or a truth value is up to where the tree comes from.
-/

namespace PointLedger

/-- Where the server listens. -/
structure ServerConfig where
  host : String := "0.0.0.0"
  tcpPort : UInt16 := 8080
  deriving DecidableEq, Repr

/-- How the database is reached. -/
structure DatabaseConfig where
  url : String
  maxConnections : UInt32 := 10
  minConnections : UInt32 := 1
  /-- Seconds to wait for a connection. -/
  connectTimeoutSecs : UInt64 := 8
  /-- True when pending migrations are applied at the start. -/
  runMigrations : Bool := false
  deriving DecidableEq, Repr

/-- How the ledger works. -/
structure LedgerConfig where
  /-- Milliseconds that one mutation may take. -/
  operationTimeoutMs : UInt64 := 5000
  maxPageSize : UInt32 := 100
  deriving DecidableEq, Repr

/-- How logs are written. -/
structure LoggingConfig where
  /-- True when log records are written as JSON. -/
  json : Bool := false
  deriving DecidableEq, Repr

/-- All settings; only the database has one without a default. -/
structure AppConfig where
  server : ServerConfig := {}
  database : DatabaseConfig
  ledger : LedgerConfig := {}
  logging : LoggingConfig := {}
  deriving DecidableEq, Repr

/-- How single values of a settings tree are read. -/
structure Scalars where
  string? : Json → Option String
  bool? : Json → Option Bool
  /-- A number from 0 to below a bound. -/
  nat? : Nat → Json → Option Nat
  /-- The fields of a record. -/
  fields? : List String → Json → Option Json.Fields

namespace Scalars

/-- Every value is of the type that is wanted. -/
def strict : Scalars := ⟨Json.asString?, Json.asBool?, Json.asNat?, Json.fields?⟩

def uint16? (s : Scalars) (value : Json) : Option UInt16 :=
  (s.nat? UInt16.size value).map UInt16.ofNat

def uint32? (s : Scalars) (value : Json) : Option UInt32 :=
  (s.nat? UInt32.size value).map UInt32.ofNat

def uint64? (s : Scalars) (value : Json) : Option UInt64 :=
  (s.nat? UInt64.size value).map UInt64.ofNat

end Scalars

namespace ServerConfig

def ofJson? (s : Scalars) (value : Json) : Option ServerConfig := do
  let fields ← s.fields? ["host", "port"] value
  return {
    host := ← fields.defaulted "host" "0.0.0.0" s.string?
    tcpPort := ← fields.defaulted "port" 8080 s.uint16? }

def toJson (c : ServerConfig) : Json :=
  .object [("host", .string c.host), ("port", .int c.tcpPort.toNat)]

end ServerConfig

namespace DatabaseConfig

def ofJson? (s : Scalars) (value : Json) : Option DatabaseConfig := do
  let fields ← s.fields?
    ["url", "max_connections", "min_connections", "connect_timeout_secs", "run_migrations"] value
  return {
    url := ← fields.required "url" s.string?
    maxConnections := ← fields.defaulted "max_connections" 10 s.uint32?
    minConnections := ← fields.defaulted "min_connections" 1 s.uint32?
    connectTimeoutSecs := ← fields.defaulted "connect_timeout_secs" 8 s.uint64?
    runMigrations := ← fields.defaulted "run_migrations" false s.bool? }

def toJson (c : DatabaseConfig) : Json :=
  .object [
    ("url", .string c.url),
    ("max_connections", .int c.maxConnections.toNat),
    ("min_connections", .int c.minConnections.toNat),
    ("connect_timeout_secs", .int c.connectTimeoutSecs.toNat),
    ("run_migrations", .bool c.runMigrations)]

end DatabaseConfig

namespace LedgerConfig

def ofJson? (s : Scalars) (value : Json) : Option LedgerConfig := do
  let fields ← s.fields? ["operation_timeout_ms", "max_page_size"] value
  return {
    operationTimeoutMs := ← fields.defaulted "operation_timeout_ms" 5000 s.uint64?
    maxPageSize := ← fields.defaulted "max_page_size" 100 s.uint32? }

def toJson (c : LedgerConfig) : Json :=
  .object [
    ("operation_timeout_ms", .int c.operationTimeoutMs.toNat),
    ("max_page_size", .int c.maxPageSize.toNat)]

/-- The ledger's set-up with these settings. -/
def engine (c : LedgerConfig) : EngineConfig :=
  ⟨Duration.ofMillis c.operationTimeoutMs.toNat, c.maxPageSize⟩

end LedgerConfig

namespace LoggingConfig

def ofJson? (s : Scalars) (value : Json) : Option LoggingConfig := do
  let fields ← s.fields? ["json"] value
  return { json := ← fields.defaulted "json" false s.bool? }

def toJson (c : LoggingConfig) : Json := .object [("json", .bool c.json)]

end LoggingConfig

namespace AppConfig

/-- Reads the settings from a tree of values. -/
def ofJson? (s : Scalars) (value : Json) : Option AppConfig := do
  let fields ← s.fields? ["server", "database", "ledger", "logging"] value
  return {
    server := ← fields.defaulted "server" {} (ServerConfig.ofJson? s)
    database := ← fields.required "database" (DatabaseConfig.ofJson? s)
    ledger := ← fields.defaulted "ledger" {} (LedgerConfig.ofJson? s)
    logging := ← fields.defaulted "logging" {} (LoggingConfig.ofJson? s) }

def toJson (c : AppConfig) : Json :=
  .object [
    ("server", c.server.toJson),
    ("database", c.database.toJson),
    ("ledger", c.ledger.toJson),
    ("logging", c.logging.toJson)]

end AppConfig
end PointLedger

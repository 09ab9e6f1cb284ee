import PointLedger.Sql.Exchange
/-!
The schema of the ledger's database, made and unmade by migrations. A migration sends its
statements one after the other and stops at the first that fails.
-/

namespace PointLedger.Sql

/-- A change of the schema that can be taken back. -/
structure Migration where
  name : String
  /-- The statements that make the change. -/
  up : List String
  /-- The statements that take it back. -/
  down : List String
  deriving DecidableEq, Repr

/-- The directions of a migration. -/
inductive Direction where
  | up
  | down
  deriving DecidableEq, Repr

/-- The statements of a migration in a direction. -/
def Migration.statements (migration : Migration) : Direction → List String
  | .up => migration.up
  | .down => migration.down

/-- Sends statements while a database replies, and says what was sent and whether all of it was
carried out. A database without a reply has carried the statement out. -/
def send : List String → List Reply → List Statement × Bool
  | [], _ => ([], true)
  | sql :: rest, replies =>
    match replies with
    | .failed _ :: _ => ([.text sql []], false)
    | _ =>
      let (sent, done) := send rest replies.tail
      (.text sql [] :: sent, done)

namespace Schema

/-- The kinds of entries. -/
def createKinds : String := "
CREATE TYPE ledger_entry_type AS ENUM ('CREDIT', 'DEBIT');
"

/-- The table of entries, with an index in chain order. -/
def createEntries : String := "
CREATE TABLE ledger_entries (
    id UUID PRIMARY KEY,
    organization_id VARCHAR(255) NOT NULL,
    user_id VARCHAR(255) NOT NULL,
    type ledger_entry_type NOT NULL,
    amount BIGINT NOT NULL,
    transaction_id VARCHAR(32) NOT NULL,
    reference_id VARCHAR(255) NOT NULL,
    description TEXT NOT NULL DEFAULT '',
    metadata JSONB NOT NULL DEFAULT '\x7b\x7d'::jsonb,
    previous_hash VARCHAR(64) NOT NULL,
    hash VARCHAR(64) NOT NULL,
    created_at TIMESTAMPTZ NOT NULL,
    CONSTRAINT ledger_entries_organization_id_reference_id_key UNIQUE (organization_id, reference_id),
    CONSTRAINT chk_ledger_entries_amount_positive CHECK (amount > 0),
    CONSTRAINT chk_ledger_entries_description_length CHECK (char_length(description) <= 1024)
);

-- Chain order per pair; also serves the tail lookup
CREATE INDEX idx_ledger_entries_chain
    ON ledger_entries(organization_id, user_id, created_at, id);
"

/-- The table of pools, with an index of the open ones in the order of spending. -/
def createPools : String := "
CREATE TABLE credit_pools (
    id UUID PRIMARY KEY,
    organization_id VARCHAR(255) NOT NULL,
    user_id VARCHAR(255) NOT NULL,
    ledger_entry_id UUID NOT NULL REFERENCES ledger_entries(id),
    remaining BIGINT NOT NULL,
    created_at TIMESTAMPTZ NOT NULL,
    consumed_at TIMESTAMPTZ,
    CONSTRAINT credit_pools_ledger_entry_id_key UNIQUE (ledger_entry_id),
    CONSTRAINT chk_credit_pools_remaining CHECK (remaining >= 0)
);

-- FIFO walk over open pools
CREATE INDEX idx_credit_pools_open
    ON credit_pools(organization_id, user_id, created_at, id)
    WHERE remaining > 0;
"

/-- The table of balances. -/
def createBalances : String := "
CREATE TABLE balances (
    id UUID PRIMARY KEY,
    organization_id VARCHAR(255) NOT NULL,
    user_id VARCHAR(255) NOT NULL,
    balance BIGINT NOT NULL,
    created_at TIMESTAMPTZ NOT NULL,
    updated_at TIMESTAMPTZ NOT NULL,
    CONSTRAINT balances_organization_id_user_id_key UNIQUE (organization_id, user_id)
);
"

/-- Entries are never changed or deleted. -/
def guardEntries : String := "
CREATE OR REPLACE FUNCTION prevent_ledger_entry_mutation()
RETURNS TRIGGER AS $$
BEGIN
    RAISE EXCEPTION 'ledger_entries is append-only: % rejected', TG_OP;
END;
$$ LANGUAGE plpgsql;

CREATE TRIGGER trg_ledger_entries_append_only
BEFORE UPDATE OR DELETE ON ledger_entries
FOR EACH ROW
EXECUTE FUNCTION prevent_ledger_entry_mutation();
"

/-- A pool is never deleted, keeps what it is, and never grows. -/
def guardPools : String := "
CREATE OR REPLACE FUNCTION guard_credit_pool_update()
RETURNS TRIGGER AS $$
BEGIN
    IF TG_OP = 'DELETE' THEN
        RAISE EXCEPTION 'credit pools cannot be deleted';
    END IF;

    IF NEW.ledger_entry_id <> OLD.ledger_entry_id
        OR NEW.organization_id <> OLD.organization_id
        OR NEW.user_id <> OLD.user_id
        OR NEW.created_at <> OLD.created_at THEN
        RAISE EXCEPTION 'credit pool % identity is immutable', OLD.id;
    END IF;

    IF NEW.remaining > OLD.remaining THEN
        RAISE EXCEPTION 'credit pool % remaining may only decrease (% -> %)',
            OLD.id, OLD.remaining, NEW.remaining;
    END IF;

    RETURN NEW;
END;
$$ LANGUAGE plpgsql;

CREATE TRIGGER trg_credit_pools_guard
BEFORE UPDATE OR DELETE ON credit_pools
FOR EACH ROW
EXECUTE FUNCTION guard_credit_pool_update();
"

/-- Takes everything away again. -/
def dropAll : String := "
DROP TABLE IF EXISTS balances CASCADE;
DROP TABLE IF EXISTS credit_pools CASCADE;
DROP TABLE IF EXISTS ledger_entries CASCADE;
DROP FUNCTION IF EXISTS guard_credit_pool_update();
DROP FUNCTION IF EXISTS prevent_ledger_entry_mutation();
DROP TYPE IF EXISTS ledger_entry_type;
"

/-- The ledger's tables and the rules that keep them. -/
def ledger : Migration where
  name := "m20260301_000001_ledger"
  up := [createKinds, createEntries, createPools, createBalances, guardEntries, guardPools]
  down := [dropAll]

/-- All migrations, oldest first. -/
def migrations : List Migration := [ledger]

end Schema
end PointLedger.Sql

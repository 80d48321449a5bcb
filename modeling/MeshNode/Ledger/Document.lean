import MeshNode.Ledger

/-!
# Ledger documents

The rows of a ledger as a document, for a machine that keeps ledgers in files without a database. A
document holds every row as it is, so that a row which cannot be read back as the record of an
attempt is kept all the same. Anything else is no ledger.
-/

namespace MeshNode

namespace LedgerRow

/-- Reads a row. -/
def decoder : Json.Decoder LedgerRow :=
  .record "LedgerRow"
    (.cons (.required "status" .text) <| .cons (.optional "result" .text) <|
      .cons (.required "created_ts" .int64) .nil)
    fun (status, result, created, ()) => ⟨status, result, created⟩

/-- The written form. -/
def toJson (r : LedgerRow) : Json :=
  .obj [("status", .str r.status), ("result", .ofText? r.result), ("created_ts", .int r.created)]

end LedgerRow

namespace Ledger

/-- Reads the rows of a ledger. -/
def decoder : Json.Decoder Ledger :=
  .record "Ledger" (.cons (.required "attempts" (.dict LedgerRow.decoder)) .nil)
    fun (rows, ()) => ⟨rows⟩

/-- The written form. -/
def toJson (l : Ledger) : Json :=
  .obj [("attempts", .obj (l.rows.map fun r => (r.1, r.2.toJson)))]

/-- The document of a ledger. -/
def document (l : Ledger) : Bytes := l.toJson.pretty

/-- The ledger of a document. -/
def ofDocument? (b : Bytes) : Option Ledger := (decoder.ofBytes b).toOption

end Ledger

end MeshNode

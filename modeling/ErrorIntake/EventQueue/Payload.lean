import ErrorIntake.Json.Octets
import ErrorIntake.Report
import ErrorIntake.Zlib.Compressor

/-!
# Queued reports

A report crosses the queue as a zlib stream of its JSON text.  Octets that are no UTF-8 are let pass
in what the report does not ask for.
-/

namespace ErrorIntake.EventQueue

/-- The payload of a report. -/
def encode (z : Zlib.Compressor) (level : Nat) (r : Report) : Bytes :=
  z.run level (Text.toBytes r.toText)

/-- The report that a payload holds. -/
def decode? (payload : Bytes) : Option Report := do
  let bytes ← Zlib.decompress? payload
  Report.ofText? (Json.textOfBytes bytes)

end ErrorIntake.EventQueue

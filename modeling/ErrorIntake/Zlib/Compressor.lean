import ErrorIntake.Zlib.Stored

/-!
# Compressors

There are many zlib streams that stand for the same octets, and which of them a compressor writes is
its own affair.  All that is known of a compressor is that its streams are read back.
-/

namespace ErrorIntake.Zlib

/-- Writes zlib streams that are read back. -/
structure Compressor where
  /-- A zlib stream of octets at a level. -/
  run : (level : Nat) → Bytes → Bytes
  decompress?_run : ∀ level bytes, decompress? (run level bytes) = some bytes

attribute [simp] Compressor.decompress?_run

/-- A compressor that stores octets as they are.  It stands in where any compressor will do. -/
def Compressor.stored : Compressor := ⟨store, decompress?_store⟩

end ErrorIntake.Zlib

import Mathlib.Data.Nat.Notation

/-!
# Times, error responses and bytes

What every part of the service shares: clock readings, the error with which a request ends, and
byte literals.
-/

namespace BidProof

/-- Microseconds since the epoch, in UTC. -/
abbrev Time := ℕ

/-- An error response. -/
structure HTTPException where
  status_code : ℕ
  detail : String
  deriving DecidableEq

/-- The bytes of an ASCII literal. -/
def bytes (s : String) : List UInt8 := s.toList.map fun c => UInt8.ofNat c.toNat

end BidProof

import Mathlib

/-!
# Common types

The integer types of `Utils/NetworkTypes.h`.  Identifiers and time stamps are
`uint64_t` in the source and `UInt64` here, so that their arithmetic wraps as
the source's does.
-/

namespace NetworkModule

/-- `Utils::ConnectionId`. -/
abbrev ConnectionId := UInt64

/-- `Utils::Timestamp`, a count of milliseconds. -/
abbrev Timestamp := UInt64

/-- `SessionState`. -/
inductive SessionState where
  | none
  | connecting
  | connected
  | disconnecting
  | disconnected
  deriving DecidableEq, Repr

end NetworkModule

import Mathlib

/-!
# Asynchronous I/O

The types of `Network/Core/AsyncIOProvider.h` that the io_uring and the epoll
provider share.
-/

namespace NetworkModule.AsyncIO

/-- `AsyncIOType`, as far as the two providers use it. -/
inductive AsyncIOType where
  | send
  | recv
  deriving DecidableEq, Repr

/-- `AsyncIOError`, as far as a request returns it. -/
inductive AsyncIOError where
  | success
  | operationFailed
  | noResources
  | invalidParameter
  deriving DecidableEq, Repr

/-- `CompletionEntry`. -/
structure CompletionEntry where
  mContext : UInt64
  mType : AsyncIOType
  mResult : Int
  mOsError : Int
  deriving DecidableEq, Repr

/-- The test of `LinuxNetworkEngine::ProcessCompletions` for an error or a closed
connection. -/
def CompletionEntry.isError (e : CompletionEntry) : Bool :=
  decide (e.mOsError ≠ 0) || decide (e.mResult ≤ 0)

end NetworkModule.AsyncIO

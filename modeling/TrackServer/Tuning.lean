import TrackServer.Connection

/-!
# Tuning — the knobs of a server

All connections of a server share its tuning.  A tuning file may leave knobs out; they keep their
defaults (`standard`).  A size of zero would stop the server's loops; `zeroSize?` finds the first
one, in the order in which the sizes are declared.
-/

namespace TrackServer

/-- The knobs of a server. -/
structure Tuning where
  /-- The address the listening socket binds to. -/
  bindHost : String
  /-- The most bytes one write attempt is offered. -/
  chunkSize : Nat
  /-- The longest request that may still be incomplete. -/
  maxRequestSize : Nat
  /-- How many notifications one turn fetches. -/
  eventsCapacity : Nat
  deriving DecidableEq, Repr

namespace Tuning

/-- The tuning of a server without a tuning file. -/
def standard : Tuning :=
  ⟨"0.0.0.0", 4096, 1024, 64⟩

/-- The size that may not be zero and is. -/
inductive ZeroSize
  | chunkSize
  | maxRequestSize
  | eventsCapacity
  deriving DecidableEq, Repr

/-- The wording of a size that is zero. -/
def ZeroSize.message : ZeroSize → String
  | .chunkSize => "chunk_size must be at least 1"
  | .maxRequestSize => "max_request_size must be at least 1"
  | .eventsCapacity => "events_capacity must be at least 1"

variable (tuning : Tuning)

/-- The first size that is zero, if any. -/
def zeroSize? : Option ZeroSize :=
  if tuning.chunkSize = 0 then some .chunkSize
  else if tuning.maxRequestSize = 0 then some .maxRequestSize
  else if tuning.eventsCapacity = 0 then some .eventsCapacity
  else none

/-- What the connections of a server under this tuning share. -/
def service (catalog : Catalog) (files : FileSystem) : Service :=
  ⟨catalog, files, tuning.chunkSize, tuning.maxRequestSize⟩

/-- A tuning without zero sizes has all three sizes at least 1. -/
theorem zeroSize?_eq_none_iff :
    tuning.zeroSize? = none ↔
      1 ≤ tuning.chunkSize ∧ 1 ≤ tuning.maxRequestSize ∧ 1 ≤ tuning.eventsCapacity := by
  unfold zeroSize?
  repeat' split
  all_goals simp; omega

end Tuning

end TrackServer

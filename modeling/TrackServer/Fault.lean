/-!
# Fault — what goes wrong below the server

Reads, writes and file operations fail with a fault: a kind, which a caller may branch on, and a
wording, which only people read.  Two results that a non-blocking stream gives in normal operation,
"would block" and "interrupted", are no faults; the streams have outcomes of their own for them.
-/

namespace TrackServer

/-- The kinds of fault. -/
inductive FaultKind
  | notFound
  | permissionDenied
  | connectionRefused
  | connectionReset
  | hostUnreachable
  | networkUnreachable
  | connectionAborted
  | notConnected
  | addressInUse
  | addressNotAvailable
  | networkDown
  | brokenPipe
  | alreadyExists
  | notADirectory
  | isADirectory
  | directoryNotEmpty
  | readOnlyFiles
  | staleHandle
  | invalidInput
  | invalidData
  | timedOut
  | writeZero
  | storageFull
  | notSeekable
  | quotaExceeded
  | fileTooLarge
  | resourceBusy
  | executableBusy
  | deadlock
  | crossesDevices
  | tooManyLinks
  | invalidName
  | argumentsTooLong
  | unsupported
  | unexpectedEnd
  | outOfMemory
  | filesystemLoop
  | uncategorized
  | other
  deriving DecidableEq, Repr

/-- A fault: its kind and its wording. -/
structure Fault where
  kind : FaultKind
  message : String
  deriving DecidableEq, Repr

end TrackServer

/-!
# Bytes — contents as arrays of bytes

The contents of files, tracks and responses, and what a socket stored, are arrays of bytes.  Two of
them are equal when their bytes are, which `decidableEqBytes` decides.
-/

namespace TrackServer

/-- Equality of contents, byte by byte. -/
instance (priority := 2000) decidableEqBytes : DecidableEq ByteArray :=
  ByteArray.instDecidableEq

end TrackServer

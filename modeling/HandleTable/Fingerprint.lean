import HandleTable.Digest.Sha256
import HandleTable.Listing
import HandleTable.Text.Bytes

/-!
# Fingerprints of listings

A cookie-verifier names one listing of one directory.  It is the first eight
bytes of a hash over the length of the directory's path in bytes, the path, and
the names of the entries in listing order, one straight after the other.  Sizes
and times do not enter, so a listing keeps its verifier while its names stay.
-/

namespace HandleTable

/-- The name of a listing. -/
abbrev Verifier := UInt64

/-- The bytes over which a verifier is computed. -/
def fingerprintBytes (path : String) (listing : Listing) : List UInt8 :=
  Digest.Sha256.lengthBytes path.utf8ByteSize ++ Text.bytes path ++
    listing.names.flatMap Text.bytes

/-- The verifier of a listing of the directory at `path`. -/
def fingerprint (path : String) (listing : Listing) : Verifier :=
  Digest.Sha256.leadingWord (fingerprintBytes path listing)

end HandleTable

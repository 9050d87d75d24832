/-!
# Directory listings

An entry says what a reader of a directory learns about one object in it: its
name, its size in bytes, whether it is itself a directory, and when it was last
changed, in seconds since the epoch.  A listing is the entries of a directory
in the order in which the store reports them; names may repeat.
-/

namespace HandleTable

/-- One object as its directory reports it. -/
structure Entry where
  name : String
  size : Nat
  isDir : Bool
  modified : Int
deriving DecidableEq, Repr

/-- The entries of a directory, in the order in which the store reports them. -/
abbrev Listing := List Entry

namespace Listing

/-- The names of a listing, in order. -/
def names (listing : Listing) : List String :=
  listing.map Entry.name

/-- The entries in the order of their names, which is that of the names' bytes;
entries of one name keep their order. -/
def sorted (listing : Listing) : Listing :=
  listing.mergeSort fun first second => !decide (second.name < first.name)

end Listing

end HandleTable

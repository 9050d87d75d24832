import HandleTable.Text.Hex

/-!
# Opaque file handles

A handle is sixteen bytes that say nothing about the object they stand for.
Any other number of bytes is no handle, and whoever presents it learns no more
than that it is stale.  Handles are ordered byte by byte and printed as the
usual five groups of digits; a fresh one carries the marks of a random
identifier (version four, in the common variant).
-/

namespace HandleTable

/-- An opaque name for an object: sixteen bytes. -/
structure Handle where
  bytes : List UInt8
  length_bytes : bytes.length = 16
deriving DecidableEq

/-- Why a presented handle is refused: it is malformed, was never issued, or has
been evicted, and no one outside can tell which. -/
inductive HandleError where
  | stale
deriving DecidableEq, Repr

namespace Handle

/-- Reads a handle from the bytes that a client presents. -/
def parse (wire : List UInt8) : Except HandleError Handle :=
  if hlength : wire.length = 16 then .ok ⟨wire, hlength⟩ else .error .stale

/-- The digits of a handle in groups of eight, four, four, four and twelve. -/
def display (handle : Handle) : String :=
  let digits (first count : Nat) : String :=
    String.ofList (Text.Hex.ofBytes ((handle.bytes.drop first).take count))
  "-".intercalate [digits 0 4, digits 4 2, digits 6 2, digits 8 2, digits 10 6]

/-- Handles in the order of their bytes. -/
def le (first second : Handle) : Bool :=
  !decide (second.bytes < first.bytes)

/-- Handles sorted by their bytes; equal ones stay together. -/
def sort (handles : List Handle) : List Handle :=
  handles.mergeSort le

/-- One byte of a random identifier: the seventh and the ninth byte carry the
version and the variant in their high bits. -/
private def marked (position : Nat) (byte : UInt8) : UInt8 :=
  if position = 6 then (byte &&& 0x0f) ||| 0x40
  else if position = 8 then (byte &&& 0x3f) ||| 0x80
  else byte

/-- The handle made from a random number of 128 bits. -/
def ofSeed (seed : Nat) : Handle where
  bytes := (List.range 16).map fun position =>
    marked position (UInt8.ofNat (seed >>> (8 * (15 - position))))
  length_bytes := by simp

/-- Whether a handle carries the marks of a random identifier. -/
def isRandomIdentifier (handle : Handle) : Bool :=
  handle.bytes.getD 6 0 &&& 0xf0 == 0x40 && handle.bytes.getD 8 0 &&& 0xc0 == 0x80

/-- A handle is nothing but its bytes. -/
theorem bytes_injective {first second : Handle} (hbytes : first.bytes = second.bytes) :
    first = second := by
  cases first
  cases second
  simp_all

/-- The bytes of a handle read back as that handle. -/
@[simp] theorem parse_bytes (handle : Handle) : parse handle.bytes = .ok handle := by
  simp [parse, handle.length_bytes]

/-- What reads as a handle is that handle's bytes and nothing else. -/
theorem parse_eq_ok_iff {wire : List UInt8} {handle : Handle} :
    parse wire = .ok handle ↔ wire = handle.bytes := by
  constructor
  · intro hparse
    unfold parse at hparse
    split at hparse
    · injection hparse with hhandle
      rw [← hhandle]
    · contradiction
  · rintro rfl
    exact parse_bytes handle

end Handle

end HandleTable

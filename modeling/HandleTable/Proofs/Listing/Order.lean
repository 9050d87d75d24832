import HandleTable.Listing
import HandleTable.Text.Bytes
import Mathlib.Data.List.Nodup
import Mathlib.Tactic.SplitIfs

/-!
# The order of a listing

Entries are sorted by their names as texts, character by character.  The names travel as
bytes, and whoever looks at a listing from outside compares bytes.  Both orders are the
same: the bytes of a character begin with what is larger for larger characters, and no
character's bytes are the beginning of another's (`bytesLess_of_lt`).

If no two entries have one name, the sorted listing is strictly ascending, and it is the
only ascending one with these entries.  So it does not depend on the order in which they
came (`Listing.sorted_eq_of_perm`).
-/

namespace HandleTable

namespace Text

/-! ## Texts as bytes -/

/-- The order of byte sequences: the first byte in which they differ decides, and a
beginning comes before what goes on. -/
def BytesLess (first second : List UInt8) : Prop :=
  List.Lex (fun one other => one.toNat < other.toNat) first second

theorem bytesLess_cons_iff {one other : UInt8} {first second : List UInt8} :
    BytesLess (one :: first) (other :: second) ↔
      one.toNat < other.toNat ∨ one.toNat = other.toNat ∧ BytesLess first second := by
  rw [BytesLess, List.cons_lex_cons_iff, UInt8.toNat_inj]
  rfl

theorem BytesLess.append_left {first second : List UInt8} (hless : BytesLess first second)
    (common : List UInt8) : BytesLess (common ++ first) (common ++ second) := by
  induction common with
  | nil => exact hless
  | cons byte rest ih => exact bytesLess_cons_iff.mpr (.inr ⟨rfl, ih⟩)

/-- A smaller number is smaller in the first of four digits that differ, where all digits
but the leading one go up to 64. -/
theorem sixBitDigits_lt {one other : Nat} (hless : one < other) :
    one / 262144 < other / 262144 ∨ one / 262144 = other / 262144 ∧
      (one / 4096 % 64 < other / 4096 % 64 ∨ one / 4096 % 64 = other / 4096 % 64 ∧
        (one / 64 % 64 < other / 64 % 64 ∨ one / 64 % 64 = other / 64 % 64 ∧
          one % 64 < other % 64)) := by
  have hlast : one / 64 < other / 64 ∨ one / 64 = other / 64 ∧ one % 64 < other % 64 := by omega
  have hthird : one / 64 < other / 64 →
      one / 4096 < other / 4096 ∨
        one / 4096 = other / 4096 ∧ one / 64 % 64 < other / 64 % 64 := by omega
  have hsecond : one / 4096 < other / 4096 →
      one / 262144 < other / 262144 ∨
        one / 262144 = other / 262144 ∧ one / 4096 % 64 < other / 4096 % 64 := by omega
  omega

theorem toNat_continuationByte (number : Nat) :
    (UInt8.ofNat (number % 64 + 128)).toNat = number % 64 + 128 := by
  rw [UInt8.toNat_ofNat']
  omega

theorem toNat_leadingByte {number : Nat} (hnumber : number < 0x110000) :
    (UInt8.ofNat (number / 262144 % 8 + 240)).toNat = number / 262144 + 240 := by
  rw [UInt8.toNat_ofNat']
  omega

/-- **A smaller character has smaller bytes**, whatever stands behind them. -/
theorem bytesLess_utf8EncodeChar {one other : Char} (hless : one.val.toNat < other.val.toNat)
    (first second : List UInt8) :
    BytesLess (String.utf8EncodeChar one ++ first) (String.utf8EncodeChar other ++ second) := by
  have hother : other.val.toNat < 0x110000 := by
    rcases other.valid with hbelow | ⟨-, habove⟩
    · exact Nat.lt_trans hbelow (by decide)
    · exact habove
  have hdigits := sixBitDigits_lt hless
  -- characters of different lengths differ in their first byte, others in a digit
  simp only [String.utf8EncodeChar]
  split_ifs <;>
    simp only [List.cons_append, List.nil_append, bytesLess_cons_iff, toNat_continuationByte,
      toNat_leadingByte hother, toNat_leadingByte (Nat.lt_trans hless hother),
      UInt8.toNat_ofNat'] <;>
    omega

theorem bytesLess_flatMap {first second : List Char} (hless : List.Lex (· < ·) first second) :
    BytesLess (first.flatMap String.utf8EncodeChar) (second.flatMap String.utf8EncodeChar) := by
  induction hless with
  | @nil letter rest =>
      obtain ⟨byte, others, hbytes⟩ :=
        List.exists_cons_of_ne_nil (String.utf8EncodeChar_ne_nil (c := letter))
      rw [List.flatMap_cons, hbytes]
      exact .nil
  | rel hletter => exact bytesLess_utf8EncodeChar hletter _ _
  | cons _ ih => exact ih.append_left _

/-- **The order of texts is that of their bytes.** -/
theorem bytesLess_of_lt {first second : String} (hless : first < second) :
    BytesLess (bytes first) (bytes second) := by
  rw [bytes_eq_flatMap, bytes_eq_flatMap]
  exact bytesLess_flatMap (String.lt_iff.mp hless)

end Text

namespace Listing

/-! ## Sorted listings -/

/-- Each name comes before the next one in the order of their bytes. -/
def Ascending (listing : Listing) : Prop :=
  listing.Pairwise fun first second =>
    Text.BytesLess (Text.bytes first.name) (Text.bytes second.name)

theorem sorted_perm (listing : Listing) : (sorted listing).Perm listing :=
  List.mergeSort_perm _ _

theorem pairwise_sorted (listing : Listing) :
    (sorted listing).Pairwise fun first second => ¬ second.name < first.name := by
  have htrans : ∀ first second third : Entry, !decide (second.name < first.name) →
      !decide (third.name < second.name) → !decide (third.name < first.name) := by
    intro first second third hfirst hsecond
    simp only [Bool.not_eq_true', decide_eq_false_iff_not, String.not_lt] at hfirst hsecond ⊢
    exact String.le_trans hfirst hsecond
  have htotal : ∀ first second : Entry,
      !decide (second.name < first.name) || !decide (first.name < second.name) := by
    intro first second
    simp only [Bool.or_eq_true, Bool.not_eq_true', decide_eq_false_iff_not, String.not_lt]
    exact String.le_total first.name second.name
  exact (List.pairwise_mergeSort htrans htotal listing).imp fun hle => by simpa using hle

theorem sorted_eq_self {listing : Listing}
    (horder : listing.Pairwise fun first second => ¬ second.name < first.name) :
    sorted listing = listing :=
  List.mergeSort_of_pairwise (horder.imp fun hle => by simpa using hle)

/-- Where no name stands twice, sorting puts each name before the next one. -/
theorem ascending_sorted {listing : Listing} (hdistinct : listing.names.Nodup) :
    (sorted listing).Ascending := by
  have hnames : (sorted listing).Pairwise fun first second => first.name ≠ second.name :=
    List.pairwise_map.mp (((sorted_perm listing).map Entry.name).nodup_iff.mpr hdistinct)
  refine (listing.pairwise_sorted.and hnames).imp fun ⟨hle, hne⟩ => ?_
  apply Text.bytesLess_of_lt
  by_contra hnot
  exact hne (String.le_antisymm (String.not_lt.mp hle) (String.not_lt.mp hnot))

/-- **The order in which the entries came does not matter** where no name stands twice. -/
theorem sorted_eq_of_perm {listing other : Listing} (hperm : listing.Perm other)
    (hdistinct : listing.names.Nodup) : sorted listing = sorted other := by
  refine List.Perm.eq_of_pairwise ?_ listing.pairwise_sorted other.pairwise_sorted
    ((sorted_perm listing).trans (hperm.trans (sorted_perm other).symm))
  intro first second hfirst hsecond hle hge
  have hname : first.name = second.name :=
    String.le_antisymm (String.not_lt.mp hle) (String.not_lt.mp hge)
  exact List.inj_on_of_nodup_map hdistinct ((sorted_perm listing).mem_iff.mp hfirst)
    (hperm.mem_iff.mpr ((sorted_perm other).mem_iff.mp hsecond)) hname

end Listing

end HandleTable

/-!
# The bytes of a text

Names and paths are compared, measured and hashed by the bytes of their UTF-8
form.
-/

namespace HandleTable.Text

/-- The UTF-8 bytes of a text. -/
def bytes (text : String) : List UInt8 :=
  text.toUTF8.data.toList

/-- The text with these UTF-8 bytes, if they are the bytes of one. -/
def ofBytes? (bytes : List UInt8) : Option String :=
  String.fromUTF8? ⟨bytes.toArray⟩

theorem length_bytes (text : String) : (bytes text).length = text.utf8ByteSize := by
  rfl

/-- Two texts with the same bytes are the same text. -/
theorem bytes_injective {first second : String} (hbytes : bytes first = bytes second) :
    first = second := by
  have harray : first.toUTF8.data = second.toUTF8.data := Array.toList_inj.mp hbytes
  have hutf8 : first.toUTF8 = second.toUTF8 := by
    cases hfirst : first.toUTF8
    cases hsecond : second.toUTF8
    simp_all
  exact String.toByteArray_inj.mp hutf8

theorem bytes_of_ofBytes? {encoded : List UInt8} {text : String}
    (htext : ofBytes? encoded = some text) : bytes text = encoded := by
  unfold ofBytes? String.fromUTF8? at htext
  split at htext
  · cases htext
    rfl
  · contradiction

theorem ofBytes?_bytes (text : String) : ofBytes? (bytes text) = some text := by
  have hbytes : (⟨(bytes text).toArray⟩ : ByteArray) = text.toByteArray := rfl
  rw [ofBytes?, hbytes, String.fromUTF8?, dif_pos text.isValidUTF8]
  rfl

/-- The bytes of a text are those of its characters, one character after the other. -/
theorem bytes_eq_flatMap (text : String) :
    bytes text = text.toList.flatMap String.utf8EncodeChar := by
  have hencoded : text.toByteArray =
      (text.toList.flatMap String.utf8EncodeChar).toByteArray :=
    String.utf8Encode_toList.symm
  simp [bytes, hencoded]

/-- A byte below 128 stands for the character of that number: every byte of a character
that takes several has its highest bit set. -/
theorem toNat_eq_of_mem_utf8EncodeChar {character : Char} {byte : UInt8}
    (hascii : byte.toNat < 128) (hbyte : byte ∈ String.utf8EncodeChar character) :
    character.toNat = byte.toNat := by
  have hvalue : character.val.toNat = character.toNat := rfl
  revert hbyte
  fun_cases String.utf8EncodeChar character <;>
    simp only [List.mem_cons, List.not_mem_nil, or_false, ← UInt8.toNat_inj,
      UInt8.toNat_ofNat'] <;> omega

theorem mem_toList_of_mem_bytes {text : String} {byte : UInt8}
    (hascii : byte.toNat < 128) (hbyte : byte ∈ bytes text) :
    Char.ofNat byte.toNat ∈ text.toList := by
  rw [bytes_eq_flatMap, List.mem_flatMap] at hbyte
  obtain ⟨character, hcharacter, hencoded⟩ := hbyte
  rwa [← toNat_eq_of_mem_utf8EncodeChar hascii hencoded, Char.ofNat_toNat]

end HandleTable.Text

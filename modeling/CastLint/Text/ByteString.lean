import CastLint.Text.Utf8

/-! Texts of the system. Its names and paths are bytes, which need not encode characters. -/

namespace CastLint

abbrev ByteString := List UInt8

namespace ByteString

def slash : UInt8 := 47

def dot : UInt8 := 46

def ofString (s : String) : ByteString := s.toByteArray.data.toList

instance : Coe String ByteString := ⟨ofString⟩

/-- The text that bytes encode, if they do. -/
def text? (b : ByteString) : Option String := String.fromUTF8? ⟨b.toArray⟩

def shown (b : ByteString) : String := Text.decodeUtf8 b

@[simp] theorem ofString_inj {s t : String} : ofString s = ofString t ↔ s = t := by
  rw [ofString, ofString, Array.toList_inj, ← String.toByteArray_inj, ByteArray.ext_iff]

@[simp] theorem text?_ofString (s : String) : text? (ofString s) = some s := by
  have h : (ByteArray.mk (ofString s).toArray).IsValidUTF8 := by
    simpa [ofString] using s.isValidUTF8
  rw [text?, String.fromUTF8?, dif_pos h]
  simp [String.fromUTF8, ofString]

theorem text?_eq_some_iff {b : ByteString} {s : String} : text? b = some s ↔ b = ofString s := by
  constructor
  · intro h
    unfold text? String.fromUTF8? at h
    split at h
    next =>
      obtain rfl := Option.some.inj h
      simp [ofString, String.fromUTF8]
    next => cases h
  · rintro rfl
    exact text?_ofString s

end ByteString
end CastLint

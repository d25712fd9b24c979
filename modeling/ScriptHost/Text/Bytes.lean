/-!
# Bytes of a text

UTF-8 bytes as lists, and hexadecimal text of bytes.
-/

namespace ScriptHost.Text

def toBytes (s : String) : List UInt8 := s.toByteArray.data.toList

/-- The text whose UTF-8 bytes these are, if they are well formed. -/
def ofBytes? (bs : List UInt8) : Option String := String.fromUTF8? ⟨bs.toArray⟩

@[simp] theorem ofBytes?_toBytes (s : String) : ofBytes? (toBytes s) = some s := by
  simp [ofBytes?, toBytes, String.fromUTF8?, s.isValidUTF8, String.fromUTF8]

theorem toBytes_of_ofBytes? {bs : List UInt8} {s : String} (h : ofBytes? bs = some s) :
    toBytes s = bs := by
  simp only [ofBytes?, String.fromUTF8?] at h
  split at h
  · cases h; simp [toBytes, String.fromUTF8]
  · simp at h

end ScriptHost.Text

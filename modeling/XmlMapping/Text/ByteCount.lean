/-!
# Lengths in bytes

Some lengths are counted in bytes of UTF-8 instead of characters.
-/

namespace XmlMapping.Text

/-- The number of bytes that a text takes in UTF-8. -/
def byteCount (s : List Char) : Nat :=
  s.foldl (fun n c => n + c.utf8Size) 0

/-- Whether a text takes fewer bytes than a number. Only as many characters are looked at. -/
def shorterThan (bytes : Nat) (s : List Char) : Bool :=
  byteCount (s.take bytes) < bytes

end XmlMapping.Text

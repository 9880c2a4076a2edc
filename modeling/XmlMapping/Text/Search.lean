/-!
# Searching in texts

Where a text begins with another one, and where another one occurs in it first.
-/

namespace XmlMapping.Text

/-- The text after a word that it begins with. -/
def after? : List Char → List Char → Option (List Char)
  | [], s => some s
  | _ :: _, [] => none
  | c :: word, d :: s => if c = d then after? word s else none

/-- The texts before and after the first occurrence of a word. -/
def splitAt? (word : List Char) : List Char → Option (List Char × List Char)
  | [] => if word.isEmpty then some ([], []) else none
  | c :: s =>
    match after? word (c :: s) with
    | some rest => some ([], rest)
    | none => (splitAt? word s).map fun (before, rest) => (c :: before, rest)

end XmlMapping.Text

/-!
# Letter patterns of dates

A letter pattern such as `yyyy-MM-dd` stands for a format such as `%Y-%m-%d`. A run of one ASCII letter
is a field. Single quotes put text between them into the format as it is, two single quotes put in one,
and other characters stand for themselves. A pattern with a percent sign is a format already.
-/

namespace XmlMapping.Date

/-- What can be wrong with a letter pattern. -/
inductive PatternFlaw
  | unterminatedQuote
  | unsupportedField (run : List Char)
deriving DecidableEq

/-- What a message says of a flaw of a pattern. -/
def PatternFlaw.message (pattern : String) : PatternFlaw → String
  | .unterminatedQuote => "Unterminated quote in date pattern '" ++ pattern ++ "'"
  | .unsupportedField run =>
    "Unsupported field '" ++ String.ofList run ++ "' in date pattern '" ++ pattern ++ "'"

/-- What a field stands for in a format, given its letter and how often it is repeated. -/
def fieldItem? (letter : Char) (width : Nat) : Option (List Char) :=
  match letter, width with
  | 'y', 2 => some ['%', 'y']
  | 'u', 2 => some ['%', 'y']
  | 'y', _ => some ['%', 'Y']
  | 'u', _ => some ['%', 'Y']
  | 'M', 1 => some ['%', 'm']
  | 'M', 2 => some ['%', 'm']
  | 'M', 3 => some ['%', 'b']
  | 'M', _ => some ['%', 'B']
  | 'd', 1 => some ['%', 'd']
  | 'd', 2 => some ['%', 'd']
  | 'D', _ => some ['%', 'j']
  | 'E', n => if n ≤ 3 then some ['%', 'a'] else some ['%', 'A']
  | 'H', _ => some ['%', 'H']
  | 'h', _ => some ['%', 'I']
  | 'm', _ => some ['%', 'M']
  | 's', _ => some ['%', 'S']
  | 'S', 3 => some ['%', '3', 'f']
  | 'S', 6 => some ['%', '6', 'f']
  | 'S', 9 => some ['%', '9', 'f']
  | 'a', _ => some ['%', 'p']
  | _, _ => none

theorem length_dropWhile_le (p : Char → Bool) (s : List Char) : (s.dropWhile p).length ≤ s.length :=
  (List.dropWhile_sublist p).length_le

/-- The format that a letter pattern stands for. -/
def expand (s : List Char) : Except PatternFlaw (List Char) :=
  match s with
  | [] => .ok []
  | '\'' :: '\'' :: rest => (expand rest).map ('\'' :: ·)
  | '\'' :: rest =>
    let after := rest.dropWhile (· != '\'')
    if after.isEmpty then .error .unterminatedQuote
    else (expand (after.drop 1)).map (rest.takeWhile (· != '\'') ++ ·)
  | c :: rest =>
    if c.isAlpha then
      let run := c :: rest.takeWhile (· == c)
      match fieldItem? c run.length with
      | some item => (expand (rest.dropWhile (· == c))).map (item ++ ·)
      | none => .error (.unsupportedField run)
    else (expand rest).map (c :: ·)
termination_by s.length
decreasing_by
  · simp only [List.length_cons]; omega
  · have := length_dropWhile_le (· != '\'') rest
    simp only [List.length_cons, List.length_drop]
    omega
  · have := length_dropWhile_le (· == c) rest
    simp only [List.length_cons]
    omega
  · simp

/-- The format of a pattern: the pattern itself when it has a percent sign. -/
def formatOf (pattern : String) : Except PatternFlaw String :=
  if pattern.toList.contains '%' then .ok pattern else (expand pattern.toList).map String.ofList

end XmlMapping.Date

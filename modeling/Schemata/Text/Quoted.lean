set_option autoImplicit false

namespace Schemata.Quoted

def unescape (char : Char) : Char :=
  match char with
  | 'n' => '\n'
  | 't' => '\t'
  | 'r' => '\r'
  | other => other

def escape (char : Char) : List Char :=
  match char with
  | '"' => ['\\', '"']
  | '\\' => ['\\', '\\']
  | '\n' => ['\\', 'n']
  | '\t' => ['\\', 't']
  | '\r' => ['\\', 'r']
  | other => [other]

def encode (text : List Char) : List Char :=
  '"' :: text.flatMap escape ++ ['"']

/--
Read the text up to the closing `delimiter`, and return it with what follows the delimiter.
`escaped` says that a backslash stands just before. A line feed is refused unless it is escaped.
-/
def decode (delimiter : Char) : Bool → List Char → Option (List Char × List Char)
  | _, [] => none
  | true, char :: rest =>
      (decode delimiter false rest).map fun (text, after) => (unescape char :: text, after)
  | false, char :: rest =>
      if char = delimiter then some ([], rest)
      else if char = '\\' then decode delimiter true rest
      else if char = '\n' then none
      else (decode delimiter false rest).map fun (text, after) => (char :: text, after)

def quote (text : String) : String :=
  String.ofList (encode text.toList)

theorem decode_escape (char : Char) (rest : List Char) :
    decode '"' false (escape char ++ rest) =
      (decode '"' false rest).map fun (text, after) => (char :: text, after) := by
  by_cases quoteMark : char = '"'
  · subst char; simp [escape, decode, unescape]
  by_cases backslash : char = '\\'
  · subst char; simp [escape, decode, unescape]
  by_cases lineFeed : char = '\n'
  · subst char; simp [escape, decode, unescape]
  by_cases tab : char = '\t'
  · subst char; simp [escape, decode, unescape]
  by_cases carriageReturn : char = '\r'
  · subst char; simp [escape, decode, unescape]
  simp [escape, decode, quoteMark, backslash, lineFeed]

theorem decode_flatMap_escape (text rest : List Char) :
    decode '"' false (text.flatMap escape ++ '"' :: rest) = some (text, rest) := by
  induction text with
  | nil => simp [decode]
  | cons char text ih =>
      rw [List.flatMap_cons, List.append_assoc, decode_escape, ih]
      rfl

end Schemata.Quoted

namespace BulkSync

/-- A JSON value. Numbers and strings are kept as they were written; the text of a string is
what stands between its quotes, escapes and all. -/
inductive Json where
  | null
  | bool (b : Bool)
  | number (written : List Char)
  | string (written : List Char)
  | array (items : List Json)
  | object (members : List (List Char × Json))

namespace Json

def isSpace (c : Char) : Bool :=
  c == ' ' || c == '\t' || c == '\n' || c == '\r'

def skipSpace (cs : List Char) : List Char :=
  cs.dropWhile isSpace

def isDigit (c : Char) : Bool :=
  '0' ≤ c && c ≤ '9'

def hexValue? (c : Char) : Option Nat :=
  if isDigit c then some (c.toNat - '0'.toNat)
  else if 'a' ≤ c ∧ c ≤ 'f' then some (c.toNat - 'a'.toNat + 10)
  else if 'A' ≤ c ∧ c ≤ 'F' then some (c.toNat - 'A'.toNat + 10)
  else none

/-- The character of a one-letter escape. -/
def shortEscape? : Char → Option Char
  | '"' => some '"'
  | '\\' => some '\\'
  | '/' => some '/'
  | 'b' => some '\x08'
  | 'f' => some '\x0c'
  | 'n' => some '\n'
  | 'r' => some '\r'
  | 't' => some '\t'
  | _ => none

/-- The number written by four hexadecimal digits, and the rest. -/
def hexQuad? : List Char → Option (Nat × List Char)
  | a :: b :: c :: d :: rest => do
    let a ← hexValue? a
    let b ← hexValue? b
    let c ← hexValue? c
    let d ← hexValue? d
    return (((a * 16 + b) * 16 + c) * 16 + d, rest)
  | _ => none

/-- Reads a string after its opening quote: what stands before the closing one, and the rest.
Control characters may not stand in a string. -/
def scanString (seen : List Char) : List Char → Option (List Char × List Char)
  | [] => none
  | '"' :: rest => some (seen.reverse, rest)
  | '\\' :: 'u' :: a :: b :: c :: d :: rest =>
    match hexQuad? [a, b, c, d] with
    | none => none
    | some _ => scanString (d :: c :: b :: a :: 'u' :: '\\' :: seen) rest
  | '\\' :: c :: rest =>
    match shortEscape? c with
    | none => none
    | some _ => scanString (c :: '\\' :: seen) rest
  | c :: rest => if c.toNat < 0x20 || c == '\\' then none else scanString (c :: seen) rest

/-- The text that was written, unless it names half of a surrogate pair. -/
def decodeString (written : List Char) : Option (List Char) :=
  match written with
  | [] => some []
  | '\\' :: 'u' :: a :: b :: c :: d :: rest =>
    match hexQuad? [a, b, c, d] with
    | none => none
    | some (unit, _) =>
      if 0xd800 ≤ unit ∧ unit < 0xdc00 then
        match rest with
        | '\\' :: 'u' :: a :: b :: c :: d :: rest =>
          match hexQuad? [a, b, c, d] with
          | none => none
          | some (low, _) =>
            if 0xdc00 ≤ low ∧ low < 0xe000 then
              let code := 0x10000 + (unit - 0xd800) * 0x400 + (low - 0xdc00)
              (decodeString rest).map (Char.ofNat code :: ·)
            else none
        | _ => none
      else if 0xdc00 ≤ unit ∧ unit < 0xe000 then none
      else (decodeString rest).map (Char.ofNat unit :: ·)
  | '\\' :: c :: rest =>
    match shortEscape? c with
    | none => none
    | some e => (decodeString rest).map (e :: ·)
  | c :: rest => (decodeString rest).map (c :: ·)

/-- The digits at the start of a text, at least one, and the rest. -/
def scanDigits (cs : List Char) : Option (List Char × List Char) :=
  match cs.takeWhile isDigit with
  | [] => none
  | digits => some (digits, cs.dropWhile isDigit)

/-- An integer part: a lone zero, or digits that start with another one. -/
def scanInteger (cs : List Char) : Option (List Char × List Char) := do
  let (digits, rest) ← scanDigits cs
  match digits with
  | '0' :: _ :: _ => none
  | _ => some (digits, rest)

/-- A fraction, if there is one. -/
def scanFraction : List Char → Option (List Char × List Char)
  | '.' :: cs => (scanDigits cs).map fun (digits, rest) => ('.' :: digits, rest)
  | cs => some ([], cs)

/-- An exponent, if there is one. -/
def scanExponent : List Char → Option (List Char × List Char)
  | [] => some ([], [])
  | e :: cs =>
    if e = 'e' ∨ e = 'E' then
      match cs with
      | '+' :: cs => (scanDigits cs).map fun (digits, rest) => (e :: '+' :: digits, rest)
      | '-' :: cs => (scanDigits cs).map fun (digits, rest) => (e :: '-' :: digits, rest)
      | cs => (scanDigits cs).map fun (digits, rest) => (e :: digits, rest)
    else some ([], e :: cs)

/-- A number: an optional minus sign, an integer part, a fraction and an exponent. -/
def scanNumber (cs : List Char) : Option (List Char × List Char) := do
  let sign := match cs with
    | '-' :: _ => ['-']
    | _ => []
  let (whole, rest) ← scanInteger (cs.drop sign.length)
  let (fraction, rest) ← scanFraction rest
  let (exponent, rest) ← scanExponent rest
  return (sign ++ whole ++ fraction ++ exponent, rest)

mutual

/-- Reads a value at the start of a text. Every call uses up at least one character, so the
length of the text is fuel enough. -/
def scanValue : (fuel : Nat) → List Char → Option (Json × List Char)
  | 0, _ => none
  | fuel + 1, cs =>
    match skipSpace cs with
    | 'n' :: 'u' :: 'l' :: 'l' :: rest => some (.null, rest)
    | 't' :: 'r' :: 'u' :: 'e' :: rest => some (.bool true, rest)
    | 'f' :: 'a' :: 'l' :: 's' :: 'e' :: rest => some (.bool false, rest)
    | '"' :: rest => (scanString [] rest).map fun (written, rest) => (.string written, rest)
    | '[' :: rest =>
      match skipSpace rest with
      | ']' :: rest => some (.array [], rest)
      | rest => (scanItems fuel rest).map fun (items, rest) => (.array items, rest)
    | '\x7b' :: rest =>
      match skipSpace rest with
      | '\x7d' :: rest => some (.object [], rest)
      | rest => (scanMembers fuel rest).map fun (members, rest) => (.object members, rest)
    | rest => (scanNumber rest).map fun (written, rest) => (.number written, rest)

/-- Reads the items of an array up to its closing bracket. -/
def scanItems : (fuel : Nat) → List Char → Option (List Json × List Char)
  | 0, _ => none
  | fuel + 1, cs => do
    let (item, rest) ← scanValue fuel cs
    match skipSpace rest with
    | ',' :: rest =>
      let (items, rest) ← scanItems fuel rest
      return (item :: items, rest)
    | ']' :: rest => return ([item], rest)
    | _ => none

/-- Reads the members of an object up to its closing brace. -/
def scanMembers : (fuel : Nat) → List Char → Option (List (List Char × Json) × List Char)
  | 0, _ => none
  | fuel + 1, cs =>
    match skipSpace cs with
    | '"' :: rest => do
      let (key, rest) ← scanString [] rest
      match skipSpace rest with
      | ':' :: rest =>
        let (value, rest) ← scanValue fuel rest
        match skipSpace rest with
        | ',' :: rest =>
          let (members, rest) ← scanMembers fuel rest
          return ((key, value) :: members, rest)
        | '\x7d' :: rest => return ([(key, value)], rest)
        | _ => none
      | _ => none
    | _ => none

end

/-- Reads a text that holds one value and nothing else but white space. -/
def parse (cs : List Char) : Option Json :=
  match scanValue (2 * cs.length + 2) cs with
  | some (value, rest) => if (skipSpace rest).isEmpty then some value else none
  | none => none

end Json

end BulkSync

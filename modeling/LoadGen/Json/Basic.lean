import LoadGen.Decimal.Layout

/-!
# JSON documents

A document is built by the reports and snapshots and written in one of two forms: `compact`, on one
line without blanks, and `pretty`, one member a line with two blanks for each level.  Numbers are
kept as the text that is written, so a document never rounds.
-/

namespace LoadGen

/-- A JSON document whose object members keep their order. -/
inductive Json
  | null
  | bool (value : Bool)
  | number (text : String)
  | text (value : String)
  | list (items : List Json)
  | object (members : List (String × Json))
  deriving Inhabited

namespace Json

def nat (n : Nat) : Json := .number (toString n)

def int (n : Int) : Json := .number (toString n)

/-- A double by its shortest digits; `null` when it is not finite. -/
def float (x : Float) : Json := .number (Decimal.Style.json.render x)

def hexDigit (n : Nat) : Char :=
  Char.ofNat (if n < 10 then n + 48 else n + 87)

/-- One character inside quotes: quote, backslash and control characters are
escaped, all else stands. -/
def escapeChar (c : Char) : List Char :=
  if c = '"' then ['\\', '"']
  else if c = '\\' then ['\\', '\\']
  else if c.toNat = 8 then ['\\', 'b']
  else if c.toNat = 9 then ['\\', 't']
  else if c.toNat = 10 then ['\\', 'n']
  else if c.toNat = 12 then ['\\', 'f']
  else if c.toNat = 13 then ['\\', 'r']
  else if c.toNat < 32 then ['\\', 'u', '0', '0', hexDigit (c.toNat / 16), hexDigit (c.toNat % 16)]
  else [c]

def quote (s : String) : String :=
  "\"" ++ String.ofList (s.toList.flatMap escapeChar) ++ "\""

mutual

/-- The document on one line, without blanks. -/
def compact : Json → String
  | .null => "null"
  | .bool b => if b then "true" else "false"
  | .number t => t
  | .text s => quote s
  | .list items => "[" ++ compactItems items ++ "]"
  | .object members => "\x7b" ++ compactMembers members ++ "\x7d"

def compactItems : List Json → String
  | [] => ""
  | [item] => compact item
  | item :: rest => compact item ++ "," ++ compactItems rest

def compactMembers : List (String × Json) → String
  | [] => ""
  | [(name, value)] => quote name ++ ":" ++ compact value
  | (name, value) :: rest => quote name ++ ":" ++ compact value ++ "," ++ compactMembers rest

end

/-- A line break and the blanks of a level. -/
def newline (level : Nat) : String :=
  "\n" ++ String.ofList (List.replicate (2 * level) ' ')

mutual

/-- The document with one item or member a line, `level` levels deep; an empty
one stays on its line. -/
def prettyAt (level : Nat) : Json → String
  | .null => "null"
  | .bool b => if b then "true" else "false"
  | .number t => t
  | .text s => quote s
  | .list items =>
    if items.isEmpty then "[]"
    else "[" ++ prettyItems (level + 1) items ++ newline level ++ "]"
  | .object members =>
    if members.isEmpty then "\x7b\x7d"
    else "\x7b" ++ prettyMembers (level + 1) members ++ newline level ++ "\x7d"

/-- The items of a list, each on a line of its own. -/
def prettyItems (level : Nat) : List Json → String
  | [] => ""
  | [item] => newline level ++ prettyAt level item
  | item :: rest => newline level ++ prettyAt level item ++ "," ++ prettyItems level rest

/-- The members of an object, each on a line of its own. -/
def prettyMembers (level : Nat) : List (String × Json) → String
  | [] => ""
  | [(name, value)] => newline level ++ quote name ++ ": " ++ prettyAt level value
  | (name, value) :: rest =>
    newline level ++ quote name ++ ": " ++ prettyAt level value ++ "," ++ prettyMembers level rest

end

def pretty (doc : Json) : String :=
  prettyAt 0 doc

end Json
end LoadGen

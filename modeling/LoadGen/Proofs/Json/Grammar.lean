import LoadGen.Json.Basic
import Mathlib.Data.List.Forall2

/-!
# The texts of a document

A document can be written in many ways, which differ in the blanks between its parts and in how
characters are escaped.  The grammar says which texts are texts of a document, whoever writes them.

* `Json.Escaped`, `Json.Quoted` — characters and texts inside quotes.
* `Json.Written` — the texts of a document.
* `Json.written_pretty` — what `pretty` writes is one of them.
-/

namespace LoadGen
namespace Json

/-! ## Quoted texts -/

/-- How a character may be written inside quotes. -/
inductive Escaped : Char → List Char → Prop
  | plain {c : Char} (hquote : c ≠ '"') (hbackslash : c ≠ '\\') (hprints : 32 ≤ c.toNat) :
      Escaped c [c]
  | quote : Escaped '"' ['\\', '"']
  | backslash : Escaped '\\' ['\\', '\\']
  | backspace {c : Char} (hcode : c.toNat = 8) : Escaped c ['\\', 'b']
  | tab {c : Char} (hcode : c.toNat = 9) : Escaped c ['\\', 't']
  | lineFeed {c : Char} (hcode : c.toNat = 10) : Escaped c ['\\', 'n']
  | formFeed {c : Char} (hcode : c.toNat = 12) : Escaped c ['\\', 'f']
  | carriageReturn {c : Char} (hcode : c.toNat = 13) : Escaped c ['\\', 'r']
  | control {c high low : Char} (hcode : c.toNat < 32)
      (hhigh : "0123456789abcdef".toList[c.toNat / 16]? = some high)
      (hlow : "0123456789abcdef".toList[c.toNat % 16]? = some low) :
      Escaped c ['\\', 'u', '0', '0', high, low]

/-- The ways to write a text inside quotes. -/
def Quoted (s text : String) : Prop :=
  ∃ parts : List (List Char), List.Forall₂ Escaped s.toList parts ∧
    text = "\"" ++ String.ofList parts.flatten ++ "\""

theorem hexDigit_eq : ∀ n < 16, "0123456789abcdef".toList[n]? = some (hexDigit n) := by
  decide

theorem escaped_escapeChar (c : Char) : Escaped c (escapeChar c) := by
  unfold escapeChar
  split
  · rename_i hquote
    exact hquote ▸ .quote
  rename_i hquote
  split
  · rename_i hbackslash
    exact hbackslash ▸ .backslash
  rename_i hbackslash
  split
  · exact .backspace ‹_›
  split
  · exact .tab ‹_›
  split
  · exact .lineFeed ‹_›
  split
  · exact .formFeed ‹_›
  split
  · exact .carriageReturn ‹_›
  split
  · rename_i hcode
    exact .control hcode (hexDigit_eq _ (by omega)) (hexDigit_eq _ (by omega))
  · rename_i hcode
    exact .plain hquote hbackslash (Nat.le_of_not_lt hcode)

theorem quoted_quote (s : String) : Quoted s (quote s) := by
  refine ⟨s.toList.map escapeChar, ?_, ?_⟩
  · rw [List.forall₂_map_right_iff, List.forall₂_same]
    exact fun c _ => escaped_escapeChar c
  · rw [quote, List.flatMap_def]

/-! ## Documents -/

/-- What may stand between the parts of a document. -/
def Blank (s : String) : Prop :=
  ∀ c ∈ s.toList, c = ' ' ∨ c = '\n'

mutual

/-- The texts of a document. -/
inductive Written : Json → String → Prop
  | null : Written .null "null"
  | no : Written (.bool false) "false"
  | yes : Written (.bool true) "true"
  | number (text : String) : Written (.number text) text
  | text {s text : String} (hquoted : Quoted s text) : Written (.text s) text
  | list {items : List Json} {body : String} (hitems : WrittenItems items body) :
      Written (.list items) ("[" ++ body ++ "]")
  | object {members : List (String × Json)} {body : String}
      (hmembers : WrittenMembers members body) :
      Written (.object members) ("\x7b" ++ body ++ "\x7d")

/-- The texts between the brackets of a list. -/
inductive WrittenItems : List Json → String → Prop
  | empty {blank : String} (hblank : Blank blank) : WrittenItems [] blank
  | last {item : Json} {before text after : String} (hbefore : Blank before)
      (hitem : Written item text) (hafter : Blank after) :
      WrittenItems [item] (before ++ text ++ after)
  | cons {item next : Json} {rest : List Json} {before text body : String}
      (hbefore : Blank before) (hitem : Written item text)
      (hrest : WrittenItems (next :: rest) body) :
      WrittenItems (item :: next :: rest) (before ++ text ++ "," ++ body)

/-- The texts between the braces of an object. -/
inductive WrittenMembers : List (String × Json) → String → Prop
  | empty {blank : String} (hblank : Blank blank) : WrittenMembers [] blank
  | last {name : String} {value : Json} {before quoted blank text after : String}
      (hbefore : Blank before) (hname : Quoted name quoted) (hblank : Blank blank)
      (hvalue : Written value text) (hafter : Blank after) :
      WrittenMembers [(name, value)] (before ++ quoted ++ ":" ++ blank ++ text ++ after)
  | cons {name : String} {value : Json} {next : String × Json} {rest : List (String × Json)}
      {before quoted blank text body : String} (hbefore : Blank before)
      (hname : Quoted name quoted) (hblank : Blank blank) (hvalue : Written value text)
      (hrest : WrittenMembers (next :: rest) body) :
      WrittenMembers ((name, value) :: next :: rest)
        (before ++ quoted ++ ":" ++ blank ++ text ++ "," ++ body)

end

theorem blank_newline (level : Nat) : Blank (newline level) := by
  intro c hc
  rw [newline, String.toList_append, List.mem_append] at hc
  rcases hc with hbreak | hspace
  · exact .inr (List.mem_singleton.1 hbreak)
  · rw [String.toList_ofList] at hspace
    exact .inl (List.eq_of_mem_replicate hspace)

theorem blank_space : Blank " " :=
  fun _ hc => .inl (List.mem_singleton.1 hc)

theorem blank_empty : Blank "" :=
  fun _ hc => absurd hc List.not_mem_nil

/-- The colon and the blank after it are parts of their own in the grammar. -/
theorem colon_eq : ": " = ":" ++ " " := by
  decide

mutual

theorem written_prettyAt (level : Nat) : ∀ doc : Json, doc.Written (doc.prettyAt level)
  | .null => by
    rw [prettyAt]
    exact .null
  | .bool false => by
    rw [prettyAt]
    exact .no
  | .bool true => by
    rw [prettyAt]
    exact .yes
  | .number digits => by
    rw [prettyAt]
    exact .number digits
  | .text s => by
    rw [prettyAt]
    exact .text (quoted_quote s)
  | .list items => by
    have hitems := writtenItems_prettyItems (level + 1) (blank_newline level) items
    rw [prettyAt]
    split
    · rename_i hempty
      rw [List.isEmpty_iff.1 hempty]
      exact .list (.empty blank_empty)
    · simpa only [String.append_assoc] using Written.list hitems
  | .object members => by
    have hmembers := writtenMembers_prettyMembers (level + 1) (blank_newline level) members
    rw [prettyAt]
    split
    · rename_i hempty
      rw [List.isEmpty_iff.1 hempty]
      exact .object (.empty blank_empty)
    · simpa only [String.append_assoc] using Written.object hmembers

theorem writtenItems_prettyItems (level : Nat) {after : String} (hafter : Blank after) :
    ∀ items : List Json, WrittenItems items (prettyItems level items ++ after)
  | [] => by
    rw [prettyItems, String.empty_append]
    exact .empty hafter
  | [item] => by
    rw [prettyItems]
    exact .last (blank_newline level) (written_prettyAt level item) hafter
  | item :: next :: rest => by
    have hrest := writtenItems_prettyItems level hafter (next :: rest)
    rw [prettyItems]
    · simpa only [String.append_assoc] using
        WrittenItems.cons (blank_newline level) (written_prettyAt level item) hrest
    · exact List.cons_ne_nil next rest

theorem writtenMembers_prettyMembers (level : Nat) {after : String} (hafter : Blank after) :
    ∀ members : List (String × Json),
      WrittenMembers members (prettyMembers level members ++ after)
  | [] => by
    rw [prettyMembers, String.empty_append]
    exact .empty hafter
  | [(name, value)] => by
    rw [prettyMembers, colon_eq]
    simpa only [String.append_assoc] using
      WrittenMembers.last (blank_newline level) (quoted_quote name) blank_space
        (written_prettyAt level value) hafter
  | (name, value) :: next :: rest => by
    have hrest := writtenMembers_prettyMembers level hafter (next :: rest)
    rw [prettyMembers, colon_eq]
    · simpa only [String.append_assoc] using
        WrittenMembers.cons (blank_newline level) (quoted_quote name) blank_space
          (written_prettyAt level value) hrest
    · exact List.cons_ne_nil next rest

end

end Json
end LoadGen

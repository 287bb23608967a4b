import LoadGen.Fault.Info
import LoadGen.Text.Lowercase

/-!
# Classifying failures

A classifier is a list of rules on the lowercased text of a failure, and the first rule that
accepts the text decides.

* `occursIn` — whether one text contains another, as a test on characters.
* `Classifier.rule?` — the rule that decides, off which `classify` is read; `ruleIndex?` — its place.
* `Classifier.standard` — the rules that every classifier starts from unless
  it is made from nothing.
* `classify_append_of_some` — adding rules at the end changes nothing for a
  text that a rule accepts.
-/

namespace LoadGen
namespace Fault

def startsWith (needle : List Char) (text : List Char) : Bool :=
  needle.isPrefixOf text

def endsWith (needle : List Char) (text : List Char) : Bool :=
  needle.reverse.isPrefixOf text.reverse

/-- Whether `needle` stands anywhere in a text. -/
def occursIn (needle : List Char) : List Char → Bool
  | [] => startsWith needle []
  | c :: rest => startsWith needle (c :: rest) || occursIn needle rest

/-- A test on the lowercased text of a failure and the classification it stands for. -/
structure Rule where
  info : Info
  accepts : List Char → Bool

/-- Accepts the texts that contain one of the needles. -/
def Rule.containsAny (info : Info) (needles : List String) : Rule where
  info := info
  accepts := fun text => needles.any fun needle => occursIn needle.toList text

def Rule.starting (info : Info) (head : String) : Rule where
  info := info
  accepts := startsWith head.toList

def Rule.ending (info : Info) (tail : String) : Rule where
  info := info
  accepts := endsWith tail.toList

def Rule.exactly (info : Info) (whole : String) : Rule where
  info := info
  accepts := fun text => text == whole.toList

/-- Rules in the order in which they are tried. -/
structure Classifier where
  rules : List Rule

namespace Classifier

def empty : Classifier := ⟨[]⟩

/-- The classifier with further rules after its own. -/
def append (c : Classifier) (rules : List Rule) : Classifier :=
  ⟨c.rules ++ rules⟩

/-- The common failures of network clients. -/
def standard : Classifier where
  rules :=
    [ .containsAny ⟨.timeout, true, false, .medium⟩ ["timeout", "timed out", "deadline exceeded"],
      .containsAny ⟨.connection, true, true, .high⟩
        ["connection refused", "connection reset", "connection closed", "broken pipe",
          "unexpected eof"],
      .containsAny ⟨.network, true, true, .high⟩
        ["network", "unreachable", "no route to host", "dns"],
      .containsAny ⟨.authentication, false, true, .critical⟩
        ["auth", "unauthorized", "forbidden", "permission denied", "invalid password"],
      .containsAny ⟨.rateLimit, true, false, .medium⟩
        ["rate limit", "too many requests", "throttl"] ]

/-- The position of the first rule that accepts the message. -/
def ruleIndex? (c : Classifier) (message : String) : Option Nat :=
  c.rules.findIdx? (·.accepts (Text.lowercase message.toList))

def rule? (c : Classifier) (message : String) : Option Rule :=
  c.rules.find? (·.accepts (Text.lowercase message.toList))

/-- The classification of a message: that of the first rule that accepts it. -/
def classifyMessage (c : Classifier) (message : String) : Info :=
  ((c.rule? message).map Rule.info).getD .unknown

/-- The classification of a failure, by its whole text. -/
def classify (c : Classifier) (chain : Chain) : Info :=
  c.classifyMessage chain.text

theorem classify_append_of_some (c : Classifier) (more : List Rule) (message : String)
    (hrule : (c.rule? message).isSome) :
    (c.append more).classifyMessage message = c.classifyMessage message := by
  obtain ⟨r, hr⟩ := Option.isSome_iff_exists.1 hrule
  have happ : (c.append more).rule? message = some r := by
    unfold rule? append at *
    rw [List.find?_append, hr]
    rfl
  unfold classifyMessage
  rw [happ, hr]

end Classifier
end Fault
end LoadGen

import LoadGen.Fault.Classifier
import LoadGen.Proofs.Text.Lowercase

/-!
# Which rule decides on a failure

The first rule that accepts the text of a failure decides, so a classification can change only in
favour of an earlier rule.  A rule that looks for needles accepts every text around one that it
accepts.  That is why a context, which is put in front of a failure, calls in earlier rules at most,
and why rules that are added at the end never take over.

* `occursIn_iff` — what a needle has to do with a text.
* `Chain.within` — a failure with a context in front of it.
* `Rule.Searches`, `Classifier.Searches` — rules that look for needles; `searches_standard_append`
  says that the standard ones do.
* `Classifier.place` — the place of the rule that decides; `rule?_eq_getElem?_place` says that it is
  there, `place_le` compares two texts, and `place_within_le` a failure with what it is made of.
* `Classifier.precedence_of_parts` — contexts, further rules and the case of letters.
* `Classifier.precedence_of_parts_user` — a rule that says unknown, and takes over for a context.
-/

namespace LoadGen
namespace Fault

/-! ## Needles -/

theorem startsWith_iff {needle text : List Char} :
    startsWith needle text = true ↔ needle <+: text :=
  List.isPrefixOf_iff_prefix

theorem occursIn_iff {needle text : List Char} :
    occursIn needle text = true ↔ needle <:+: text := by
  induction text with
  | nil => rw [occursIn, startsWith_iff, List.prefix_nil, List.infix_nil]
  | cons c rest ih => rw [occursIn, Bool.or_eq_true, startsWith_iff, ih, List.infix_cons_iff]

/-! ## Contexts -/

/-- A failure with a context in front of it. -/
def Chain.within (failure : Chain) (context : String) : Chain :=
  ⟨context :: failure.messages⟩

theorem Chain.text_within {failure : Chain} (hsome : failure.messages ≠ []) (context : String) :
    (failure.within context).text = context ++ ": " ++ failure.text := by
  obtain ⟨message, rest, hmessages⟩ := List.exists_cons_of_ne_nil hsome
  rw [text, text, within, hmessages, String.intercalate_cons_cons]

/-- The two parts of a text are lowercased apart. -/
theorem lowercase_within (context message : String) :
    Text.lowercase (context ++ ": " ++ message).toList =
      Text.lowercase context.toList ++ ':' :: ' ' :: Text.lowercase message.toList := by
  rw [← Text.lowercase_joined, String.toList_append, String.toList_append, List.append_assoc]
  rfl

/-! ## Rules that look for needles -/

/-- A rule that accepts the texts with one of some needles. -/
def Rule.Searches (r : Rule) : Prop :=
  ∃ needles, r = .containsAny r.info needles

/-- A rule that looks for needles finds them in every longer text. -/
theorem Rule.Searches.accepts_mono {r : Rule} (h : r.Searches) {part whole : List Char}
    (hpart : part <:+: whole) (haccepts : r.accepts part = true) : r.accepts whole = true := by
  obtain ⟨needles, hr⟩ := h
  rw [hr] at haccepts ⊢
  obtain ⟨needle, hneedle, hoccurs⟩ := List.any_eq_true.1 haccepts
  refine List.any_eq_true.2 ⟨needle, hneedle, ?_⟩
  exact occursIn_iff.2 ((occursIn_iff.1 hoccurs).trans hpart)

namespace Classifier

variable {c : Classifier}

/-- A classifier all of whose rules look for needles. -/
def Searches (c : Classifier) : Prop :=
  ∀ r ∈ c.rules, r.Searches

/-- The standard rules look for needles, and further ones of this kind may be added. -/
theorem searches_standard_append {more : List Rule} (hmore : ∀ r ∈ more, r.Searches) :
    (standard.append more).Searches := by
  intro r hr
  rcases List.mem_append.1 hr with hstandard | hadded
  · simp only [standard, List.mem_cons, List.not_mem_nil, or_false] at hstandard
    rcases hstandard with rfl | rfl | rfl | rfl | rfl <;> exact ⟨_, rfl⟩
  · exact hmore r hadded

/-! ## The place of the rule that decides -/

/-- The place of the rule that decides on a message; without one it is past the last rule. -/
def place (c : Classifier) (message : String) : Nat :=
  (c.ruleIndex? message).getD c.rules.length

theorem place_eq_findIdx (c : Classifier) (message : String) :
    c.place message = c.rules.findIdx (·.accepts (Text.lowercase message.toList)) :=
  List.findIdx_eq_getD_findIdx?.symm

/-- The rule that decides on a message is the one in this place, if there is one. -/
theorem rule?_eq_getElem?_place (c : Classifier) (message : String) :
    c.rule? message = c.rules[c.place message]? := by
  rw [place_eq_findIdx]
  exact List.find?_eq_getElem?_findIdx

/-- A rule decides on a message exactly if its place is not past the last rule. -/
theorem place_lt_iff (c : Classifier) (message : String) :
    c.place message < c.rules.length ↔ (c.rule? message).isSome = true := by
  rw [rule?_eq_getElem?_place, isSome_getElem?]

/-- On a longer text the same rule decides, or an earlier one. -/
theorem place_le (hsearches : c.Searches) {part whole : String}
    (hpart : Text.lowercase part.toList <:+: Text.lowercase whole.toList) :
    c.place whole ≤ c.place part := by
  rw [place_eq_findIdx, place_eq_findIdx]
  apply List.findIdx_le_findIdx
  intro r hr haccepts
  exact (hsearches r hr).accepts_mono hpart haccepts

/-- A failure with a context in front of it is decided on by no later rule than either of them. -/
theorem place_within_le (hsearches : c.Searches) (context message : String) :
    c.place (context ++ ": " ++ message) ≤ c.place message ∧
      c.place (context ++ ": " ++ message) ≤ c.place context := by
  constructor
  · apply place_le hsearches
    rw [lowercase_within]
    exact ⟨Text.lowercase context.toList ++ [':', ' '], [], by simp⟩
  · apply place_le hsearches
    rw [lowercase_within]
    exact (List.prefix_append _ _).isInfix

/-! ## Classifications -/

/-- The rule that decides on a message gives it its own classification. -/
theorem classifyMessage_of_rule? {message : String} {r : Rule} (h : c.rule? message = some r) :
    r ∈ c.rules ∧ c.classifyMessage message = r.info := by
  constructor
  · exact List.mem_of_find?_eq_some h
  · rw [classifyMessage, h]
    rfl

/-- Without a rule a message counts as unknown. -/
theorem isSome_rule?_of_ne_unknown {message : String} (h : c.classifyMessage message ≠ .unknown) :
    (c.rule? message).isSome = true := by
  cases hrule : c.rule? message with
  | some r => rfl
  | none =>
      rw [classifyMessage, hrule] at h
      exact absurd rfl h

theorem classifyMessage_congr {message message' : String}
    (h : message.toList.map Char.toLower = message'.toList.map Char.toLower) :
    c.classifyMessage message = c.classifyMessage message' := by
  have hsame : Text.lowercase message.toList = Text.lowercase message'.toList := by
    rw [← Text.lowercase_map_toLower, h, Text.lowercase_map_toLower]
  unfold classifyMessage rule?
  rw [hsame]

/-- The rule in its place decides on a message.  If all rules look for needles, then a failure with a
context in front of it is decided on by no later rule than the failure alone, and by no later rule
than the context alone.  So one that a rule describes does not become one that no rule describes, and
does not become unknown unless a rule says so.  Further rules change nothing for a message on which a
rule decides already.  The case of ASCII letters changes nothing at all. -/
theorem precedence_of_parts (c : Classifier) :
    (∀ message : String, c.rule? message = c.rules[c.place message]?) ∧
      (c.Searches → ∀ context message : String,
        let wrapped := context ++ ": " ++ message
        c.place wrapped ≤ c.place message ∧ c.place wrapped ≤ c.place context ∧
          ((c.rule? message).isSome = true → ∃ r ∈ c.rules,
            c.rule? wrapped = some r ∧ c.classifyMessage wrapped = r.info) ∧
          ((∀ r ∈ c.rules, r.info ≠ .unknown) → c.classifyMessage message ≠ .unknown →
            c.classifyMessage wrapped ≠ .unknown) ∧
          ∀ failure : Chain, failure.messages ≠ [] → failure.text = message →
            c.classify (failure.within context) = c.classifyMessage wrapped) ∧
      (∀ (more : List Rule) (message : String), (c.rule? message).isSome = true →
        (c.append more).classifyMessage message = c.classifyMessage message) ∧
      ∀ message message' : String,
        message.toList.map Char.toLower = message'.toList.map Char.toLower →
          c.classifyMessage message = c.classifyMessage message' := by
  refine ⟨c.rule?_eq_getElem?_place, ?_, c.classify_append_of_some,
    fun _ _ hletters => classifyMessage_congr hletters⟩
  intro hsearches context message wrapped
  obtain ⟨hmessage, hcontext⟩ := place_within_le hsearches context message
  have hdecided (hsome : (c.rule? message).isSome = true) : ∃ r ∈ c.rules,
      c.rule? wrapped = some r ∧ c.classifyMessage wrapped = r.info := by
    have hplace := Nat.lt_of_le_of_lt hmessage ((place_lt_iff c message).2 hsome)
    obtain ⟨r, hr⟩ := Option.isSome_iff_exists.1 ((place_lt_iff c wrapped).1 hplace)
    obtain ⟨hmem, hinfo⟩ := classifyMessage_of_rule? hr
    exact ⟨r, hmem, hr, hinfo⟩
  refine ⟨hmessage, hcontext, hdecided, ?_, ?_⟩
  · intro hknown hclassified
    obtain ⟨r, hmem, -, hinfo⟩ := hdecided (isSome_rule?_of_ne_unknown hclassified)
    rw [hinfo]
    exact hknown r hmem
  · intro failure hsome htext
    rw [classify, Chain.text_within hsome, htext]

/-- The standard rules with a further one, of which a failure and its context meet the last and the
first. -/
theorem precedence_of_parts_loading :
    let loading : Rule := .containsAny ⟨.temporary, true, false, .low⟩ ["loading"]
    let c := standard.append [loading]
    c.Searches ∧ c.place "LOADING the data" = 5 ∧ c.place "read Timed Out" = 0 ∧
      c.place ("read Timed Out" ++ ": " ++ "LOADING the data") = 0 ∧
      c.classify ⟨["read Timed Out", "LOADING the data"]⟩ ≠ .unknown ∧
      (c.append [.ending .unknown "data"]).classifyMessage "LOADING the data" = loading.info ∧
      c.classifyMessage "loading THE data" = c.classifyMessage "LOADING the data" := by
  intro loading c
  have hsearches : c.Searches := by
    apply searches_standard_append
    intro r hr
    rw [List.mem_singleton.1 hr]
    exact ⟨_, rfl⟩
  have hplaces : c.place "LOADING the data" = 5 ∧ c.place "read Timed Out" = 0 := by
    decide +kernel
  have hloading : (c.rule? "LOADING the data").isSome = true := by decide +kernel
  have hinfo : c.classifyMessage "LOADING the data" = loading.info := by decide +kernel
  obtain ⟨-, hwithin, hadded, hletters⟩ := precedence_of_parts c
  obtain ⟨-, hcontext, -, hknown, hchain⟩ :=
    hwithin hsearches "read Timed Out" "LOADING the data"
  refine ⟨hsearches, hplaces.1, hplaces.2, ?_, ?_, ?_, ?_⟩
  · exact Nat.le_zero.1 (Nat.le_trans hcontext (Nat.le_of_eq hplaces.2))
  · have hclassified := hknown (by decide +kernel) (by rw [hinfo]; decide)
    have htext := hchain ⟨["LOADING the data"]⟩ (by decide) rfl
    rwa [← htext] at hclassified
  · rw [hadded _ _ hloading, hinfo]
  · exact hletters _ _ (by decide +kernel)

/-- A rule that calls unknown what it accepts takes over from a later one as any other rule does, so
the context turns a classified failure into an unknown one. -/
theorem precedence_of_parts_user :
    let user : Rule := .containsAny .unknown ["user"]
    let loading : Rule := .containsAny ⟨.temporary, true, true, .low⟩ ["loading"]
    let c := standard.append [user, loading]
    c.Searches ∧ c.classifyMessage "LOADING the data" = loading.info ∧ loading.info ≠ .unknown ∧
      c.classifyMessage ("GET user:1" ++ ": " ++ "LOADING the data") = .unknown := by
  intro user loading c
  refine ⟨?_, by decide +kernel, by decide, by decide +kernel⟩
  apply searches_standard_append
  intro r hr
  simp only [List.mem_cons, List.not_mem_nil, or_false] at hr
  rcases hr with rfl | rfl <;> exact ⟨_, rfl⟩

end Classifier
end Fault
end LoadGen

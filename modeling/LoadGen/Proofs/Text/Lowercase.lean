import LoadGen.Text.Lowercase

/-!
# Letter case in the parts of a text

Only a sigma looks at its neighbours, and it looks past case-ignorable characters only.  So a text
is lowercased part by part where a colon and a space stand between the parts: a sigma may look past
the colon, and the space stops it.  ASCII letters may be in either case beforehand.

* `lowercaseAfter_congr`, `lowercaseAfter_append` — what matters of the text before a part, and of
  the text after it.
* `lowercase_joined` — two parts with a colon and a space between them are lowercased apart.
* `SameLetter`, `lowercase_map_toLower` — the case of ASCII letters does not matter.
-/

namespace LoadGen
namespace Text

/-! ## Texts in parts -/

theorem meetsCased_cons (c : Char) (cs : List Char) :
    meetsCased (c :: cs) = if isCaseIgnorable c then meetsCased cs else isCased c := by
  unfold meetsCased
  rw [List.dropWhile_cons]
  cases isCaseIgnorable c <;> rfl

/-- What stands further away does not matter if there is no letter in sight. -/
theorem meetsCased_append {ys : List Char} (hys : meetsCased ys = false) (xs : List Char) :
    meetsCased (xs ++ ys) = meetsCased xs := by
  induction xs with
  | nil => exact hys
  | cons c xs ih => rw [List.cons_append, meetsCased_cons, meetsCased_cons, ih]

/-- Of the text before a part only the nearest letter matters. -/
theorem lowercaseAfter_congr {before before' : List Char}
    (h : meetsCased before = meetsCased before') (cs : List Char) :
    lowercaseAfter before cs = lowercaseAfter before' cs := by
  induction cs generalizing before before' with
  | nil => rfl
  | cons c cs ih =>
      have hnext : meetsCased (c :: before) = meetsCased (c :: before') := by
        rw [meetsCased_cons, meetsCased_cons, h]
      rw [lowercaseAfter, lowercaseAfter, ih hnext, lowercaseSigma, lowercaseSigma, h]

/-- The text after a part does not matter if no letter is in sight there. -/
theorem lowercaseAfter_append {ys : List Char} (hys : meetsCased ys = false)
    (before xs : List Char) : lowercaseAfter before (xs ++ ys) =
      lowercaseAfter before xs ++ lowercaseAfter (xs.reverse ++ before) ys := by
  induction xs generalizing before with
  | nil => rfl
  | cons c xs ih =>
      rw [List.cons_append, lowercaseAfter, lowercaseAfter, ih, lowercaseSigma, lowercaseSigma,
        meetsCased_append hys, List.reverse_cons]
      simp only [List.append_assoc, List.cons_append, List.nil_append]

/-- Two parts with a colon and a space between them are lowercased apart. -/
theorem lowercase_joined (xs ys : List Char) :
    lowercase (xs ++ ':' :: ' ' :: ys) = lowercase xs ++ ':' :: ' ' :: lowercase ys := by
  have hcolon : isCaseIgnorable ':' = true := by decide +kernel
  have hspace : isCaseIgnorable ' ' = false ∧ isCased ' ' = false := by decide +kernel
  have hmarks : lowercaseChar ':' = [':'] ∧ lowercaseChar ' ' = [' '] := by decide +kernel
  -- Seen from either side, the space is the nearest character that counts.
  have hblind (cs : List Char) : meetsCased (' ' :: cs) = false := by
    rw [meetsCased_cons, hspace.1, hspace.2]
    rfl
  have hafter : meetsCased (':' :: ' ' :: ys) = false := by
    rw [meetsCased_cons, if_pos hcolon, hblind]
  have hbefore : meetsCased (' ' :: ':' :: (xs.reverse ++ [])) = meetsCased [] := hblind _
  unfold lowercase
  rw [lowercaseAfter_append hafter, lowercaseAfter, lowercaseAfter, lowercaseAfter_congr hbefore,
    if_neg (by decide), if_neg (by decide), hmarks.1, hmarks.2]
  rfl

/-- The sigma before the colon ends a word, and the one after the space does not. -/
example : lowercase "ΣΑΣ: Σ".toList = "σας: σ".toList := by
  decide +kernel

/-! ## ASCII letters -/

/-- Two characters with the same lowercase form, in which a sigma sees the same. -/
def SameLetter (c d : Char) : Prop :=
  lowercaseChar c = lowercaseChar d ∧ isCased c = isCased d ∧
    isCaseIgnorable c = isCaseIgnorable d ∧ (c = capitalSigma ↔ d = capitalSigma)

instance (c d : Char) : Decidable (SameLetter c d) :=
  inferInstanceAs (Decidable (_ ∧ _ ∧ _ ∧ _))

/-- An ASCII letter is the same letter in both cases. -/
theorem sameLetter_toLower (c : Char) : SameLetter c.toLower c := by
  by_cases hcapital : 65 ≤ c.toNat ∧ c.toNat ≤ 90
  · have hletters : ∀ n < 91, 65 ≤ n → SameLetter (Char.ofNat n).toLower (Char.ofNat n) := by
      decide +kernel
    have hletter := hletters c.toNat (by omega) hcapital.1
    rwa [Char.ofNat_toNat] at hletter
  · have hsame : c.toLower = c := by
      unfold Char.toLower
      rw [dif_neg]
      exact hcapital
    rw [hsame]
    exact ⟨rfl, rfl, rfl, Iff.rfl⟩

theorem meetsCased_map_toLower (cs : List Char) :
    meetsCased (cs.map Char.toLower) = meetsCased cs := by
  induction cs with
  | nil => rfl
  | cons c cs ih =>
      obtain ⟨-, hcased, hignorable, -⟩ := sameLetter_toLower c
      rw [List.map_cons, meetsCased_cons, meetsCased_cons, ih, hcased, hignorable]

theorem lowercaseAfter_map_toLower (before cs : List Char) :
    lowercaseAfter (before.map Char.toLower) (cs.map Char.toLower) = lowercaseAfter before cs := by
  induction cs generalizing before with
  | nil => rfl
  | cons c cs ih =>
      obtain ⟨hform, -, -, hsigma⟩ := sameLetter_toLower c
      have hrest := ih (c :: before)
      rw [List.map_cons] at hrest
      rw [List.map_cons, lowercaseAfter, lowercaseAfter, hrest, hform, lowercaseSigma,
        lowercaseSigma, meetsCased_map_toLower, meetsCased_map_toLower]
      simp only [hsigma]

/-- The case of ASCII letters does not matter. -/
theorem lowercase_map_toLower (cs : List Char) :
    lowercase (cs.map Char.toLower) = lowercase cs :=
  lowercaseAfter_map_toLower [] cs

end Text
end LoadGen

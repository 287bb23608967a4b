import LoadGen.Measure.Ledger
import Mathlib.Algebra.GroupWithZero.Nat
import Mathlib.Data.List.Dedup
import Mathlib.Data.List.Induction
import Mathlib.Data.List.Perm.Subperm

/-!
# Texts under a cap

A tally of texts counts each under itself.  With a cap, it does so until it knows as many texts as the
cap allows, and counts any other text under the name of the others.  That name stands in the same
tally, and a text may also be equal to it.

* `Tally.get?_bumpAll`, `Tally.keys_bumpAll`, `Tally.sum_bumpAll` — a tally of a list of texts.
* `firstTexts`, `countedAs` — the texts that the cap lets in, and the text under which each is
  counted.
* `foldl_tallyError_empty` — under a cap, texts are tallied as the texts under which they are counted.
* `foldl_tallyError_of_few` — a cap that lets all texts in does not matter.
-/

namespace LoadGen

/-! ## Tallies of lists -/

theorem eraseDups_snoc (texts : List String) (text : String) :
    (texts ++ [text]).eraseDups =
      if text ∈ texts then texts.eraseDups else texts.eraseDups ++ [text] := by
  rw [List.eraseDups_append]
  by_cases h : text ∈ texts <;> simp [h, List.removeAll, List.eraseDups_cons]

namespace Tally

/-- The entry of a tally for a text that was seen so many times. -/
def entry (n : Nat) : Option Nat :=
  if n = 0 then none else some n

theorem getD_entry (n : Nat) : (entry n).getD 0 = n := by
  cases n <;> rfl

theorem map_succ_entry (n : Nat) : some ((entry n).getD 0 + 1) = entry (n + 1) := by
  rw [getD_entry]
  rfl

/-- A tally with further texts. -/
def bumpAll (t : Tally) (labels : List String) : Tally :=
  labels.foldl bump t

theorem bumpAll_snoc (t : Tally) (labels : List String) (label : String) :
    t.bumpAll (labels ++ [label]) = (t.bumpAll labels).bump label :=
  List.foldl_append

/-- A text that was never seen is not in a tally, and any other one is there with its number. -/
theorem get?_bumpAll (labels : List String) (label : String) :
    (bumpAll .empty labels).get? label = entry (labels.count label) := by
  induction labels using List.reverseRecOn with
  | nil => rfl
  | append_singleton labels last ih =>
      rw [bumpAll_snoc, bump, Assoc.get?_update, List.count_append, List.count_singleton]
      by_cases h : label = last
      · subst h
        rw [if_pos rfl, ih, map_succ_entry]
        simp
      · rw [if_neg h, ih]
        simp [Ne.symm h]

/-- A tally lists its texts in the order in which they first came. -/
theorem keys_bumpAll (labels : List String) : (bumpAll .empty labels).keys = labels.eraseDups := by
  induction labels using List.reverseRecOn with
  | nil => rfl
  | append_singleton labels last ih =>
      rw [bumpAll_snoc, bump, Assoc.keys_update, ih, eraseDups_snoc]
      simp only [List.mem_eraseDups]

theorem contains_bumpAll (labels : List String) (label : String) :
    (bumpAll .empty labels).contains label = true ↔ label ∈ labels := by
  rw [Assoc.contains, get?_bumpAll, entry]
  by_cases h : label ∈ labels
  · simp [h, Nat.ne_of_gt (List.count_pos_iff.2 h)]
  · simp [h, List.count_eq_zero_of_not_mem h]

theorem size_bumpAll (labels : List String) :
    (bumpAll .empty labels).size = labels.eraseDups.length := by
  rw [← keys_bumpAll]
  exact (List.length_map _).symm

theorem sum_bump (t : Tally) (label : String) :
    ((t.bump label).entries.map Prod.snd).sum = (t.entries.map Prod.snd).sum + 1 := by
  obtain ⟨entries, hdistinct⟩ := t
  show ((Assoc.revise label _ entries).map Prod.snd).sum = (entries.map Prod.snd).sum + 1
  clear hdistinct
  induction entries with
  | nil => rfl
  | cons e rest ih =>
      obtain ⟨key, n⟩ := e
      rw [Assoc.revise]
      split
      · simp only [List.map_cons, List.sum_cons, Option.getD_some]
        omega
      · simp only [List.map_cons, List.sum_cons, ih]
        omega

/-- The numbers of a tally add up to the number of texts. -/
theorem sum_bumpAll (labels : List String) :
    ((bumpAll .empty labels).entries.map Prod.snd).sum = labels.length := by
  induction labels using List.reverseRecOn with
  | nil => rfl
  | append_singleton labels last ih =>
      rw [bumpAll_snoc, sum_bump, ih, List.length_append]
      rfl

end Tally

theorem nodup_eraseDups (texts : List String) : texts.eraseDups.Nodup :=
  Tally.keys_bumpAll texts ▸ (Tally.bumpAll .empty texts).distinct

/-! ## Under a cap -/

/-- The distinct texts of a list in the order in which they first came, as many as the cap allows. -/
def firstTexts (cap : Nat) (texts : List String) : List String :=
  texts.eraseDups.take cap

/-- The text under which a failure is counted once the ledger knows some texts. -/
def countedAs (known : List String) (text : String) : String :=
  if text ∈ known then text else otherErrors

/-- Texts that are known are counted as they are. -/
theorem map_countedAs {known texts : List String} (h : ∀ text ∈ texts, text ∈ known) :
    texts.map (countedAs known) = texts :=
  (List.map_congr_left fun text htext => if_pos (h text htext)).trans (List.map_id texts)

section Cap

variable {cap : Nat} {texts : List String} {text : String}

theorem mem_of_mem_firstTexts (h : text ∈ firstTexts cap texts) : text ∈ texts :=
  List.mem_eraseDups.1 (List.mem_of_mem_take h)

theorem firstTexts_snoc (cap : Nat) (texts : List String) (text : String) :
    firstTexts cap (texts ++ [text]) =
      if text ∉ texts ∧ texts.eraseDups.length < cap then firstTexts cap texts ++ [text]
      else firstTexts cap texts := by
  rw [firstTexts, firstTexts, eraseDups_snoc]
  by_cases hmem : text ∈ texts
  · simp [hmem]
  · rw [if_neg hmem]
    by_cases hroom : texts.eraseDups.length < cap
    · rw [if_pos ⟨hmem, hroom⟩, List.take_of_length_le (Nat.le_of_lt hroom),
        List.take_of_length_le (by rw [List.length_append]; exact hroom)]
    · rw [if_neg (fun h => hroom h.2), List.take_append_of_le_length (Nat.le_of_not_lt hroom)]

/-- While a text is not yet known, the tally is full unless there is room for it. -/
theorem full_of_not_mem_firstTexts (hnew : text ∉ firstTexts cap texts)
    (hroom : ¬ (text ∉ texts ∧ texts.eraseDups.length < cap)) :
    cap ≤ (Tally.bumpAll .empty (texts.map (countedAs (firstTexts cap texts)))).size := by
  have hmany : cap ≤ texts.eraseDups.length := by
    by_contra hfew
    refine hroom ⟨fun hmem => hnew ?_, Nat.lt_of_not_le hfew⟩
    rw [firstTexts, List.take_of_length_le (Nat.le_of_not_le hfew)]
    exact List.mem_eraseDups.2 hmem
  have hlength : (firstTexts cap texts).length = cap := by
    rw [firstTexts, List.length_take, Nat.min_eq_left hmany]
  have hsubset : firstTexts cap texts ⊆
      (texts.map (countedAs (firstTexts cap texts))).eraseDups := by
    intro known hknown
    refine List.mem_eraseDups.2 (List.mem_map.2 ⟨known, mem_of_mem_firstTexts hknown, ?_⟩)
    exact if_pos hknown
  have hnodup : (firstTexts cap texts).Nodup :=
    (nodup_eraseDups texts).sublist (List.take_sublist _ _)
  have hle := (hnodup.subperm hsubset).length_le
  rwa [hlength, ← Tally.size_bumpAll] at hle

/-- The texts that are counted while the cap lets no new one in. -/
theorem tallyError_of_full (hroom : ¬ (text ∉ texts ∧ texts.eraseDups.length < cap)) :
    tallyError cap (.bumpAll .empty (texts.map (countedAs (firstTexts cap texts)))) text =
      .bump (.bumpAll .empty (texts.map (countedAs (firstTexts cap texts))))
        (countedAs (firstTexts cap texts) text) := by
  unfold tallyError
  by_cases hknown : text ∈ firstTexts cap texts
  · have hcontains : text ∈ texts.map (countedAs (firstTexts cap texts)) :=
      List.mem_map.2 ⟨text, mem_of_mem_firstTexts hknown, if_pos hknown⟩
    rw [countedAs, if_pos hknown]
    exact if_neg fun hfull => hfull.2 ((Tally.contains_bumpAll _ _).2 hcontains)
  · rw [countedAs, if_neg hknown]
    by_cases hcontains : text ∈ texts.map (countedAs (firstTexts cap texts))
    · -- An unknown text that is in the tally is the name of the others.
      obtain ⟨t, -, ht⟩ := List.mem_map.1 hcontains
      have hother : text = otherErrors := by
        unfold countedAs at ht
        split at ht
        · rename_i hmem
          exact absurd (ht ▸ hmem) hknown
        · exact ht.symm
      rw [hother, ite_self]
    · exact if_pos ⟨full_of_not_mem_firstTexts hknown hroom, fun h =>
        hcontains ((Tally.contains_bumpAll _ _).1 h)⟩

end Cap

/-- Under a cap, texts are tallied as the texts under which they are counted.  Which texts are known
at the end settles also how the early ones were counted: a text that comes to be known is counted
under itself from the first. -/
theorem foldl_tallyError_empty (cap : Nat) (texts : List String) :
    texts.foldl (tallyError cap) .empty =
      .bumpAll .empty (texts.map (countedAs (firstTexts cap texts))) := by
  induction texts using List.reverseRecOn with
  | nil => rfl
  | append_singleton texts text ih =>
      rw [List.foldl_append, List.foldl_cons, List.foldl_nil, ih, List.map_append,
        List.map_singleton, Tally.bumpAll_snoc, firstTexts_snoc]
      by_cases hroom : text ∉ texts ∧ texts.eraseDups.length < cap
      · -- There is room for a new text, and all texts before it are known.
        have hall : firstTexts cap texts = texts.eraseDups :=
          List.take_of_length_le (Nat.le_of_lt hroom.2)
        rw [if_pos hroom, hall, map_countedAs (by simp), map_countedAs (by simp +contextual),
          countedAs, if_pos (by simp)]
        refine if_neg fun hfull => ?_
        rw [Tally.size_bumpAll] at hfull
        exact Nat.lt_irrefl _ (Nat.lt_of_lt_of_le hroom.2 hfull.1)
      · rw [if_neg hroom]
        exact tallyError_of_full hroom

/-- A cap that lets all texts in does not matter. -/
theorem foldl_tallyError_of_few {cap : Nat} {texts : List String}
    (hcap : texts.dedup.length ≤ cap) :
    texts.foldl (tallyError cap) .empty = .bumpAll .empty texts := by
  have hperm : texts.eraseDups.Perm texts.dedup :=
    (List.perm_ext_iff_of_nodup (nodup_eraseDups texts) texts.nodup_dedup).2 (by simp)
  have hall : firstTexts cap texts = texts.eraseDups :=
    List.take_of_length_le (by rwa [hperm.length_eq])
  rw [foldl_tallyError_empty, hall, map_countedAs fun t ht => List.mem_eraseDups.2 ht]

/-! ## The number under each text -/

section Numbers

variable {known texts : List String}

theorem count_countedAs_of_mem {text : String} (hknown : text ∈ known) (hother : text ≠ otherErrors) :
    (texts.map (countedAs known)).count text = texts.count text := by
  rw [List.count_eq_countP, List.countP_map, List.count_eq_countP]
  refine List.countP_congr fun t _ => ?_
  simp only [Function.comp_apply, beq_iff_eq, countedAs]
  split
  · exact Iff.rfl
  · rename_i hnew
    exact ⟨fun h => absurd h.symm hother, fun h => absurd (h ▸ hknown) hnew⟩

theorem count_countedAs_otherErrors :
    (texts.map (countedAs known)).count otherErrors =
      texts.countP fun t => decide (t ∉ known ∨ t = otherErrors) := by
  rw [List.count_eq_countP, List.countP_map]
  refine List.countP_congr fun t _ => ?_
  simp only [Function.comp_apply, beq_iff_eq, countedAs, decide_eq_true_eq]
  split
  · rename_i hmem
    simp [hmem]
  · rename_i hnew
    simp [hnew]

theorem count_countedAs_of_not_mem {text : String} (hnew : text ∉ known)
    (hother : text ≠ otherErrors) : (texts.map (countedAs known)).count text = 0 := by
  refine List.count_eq_zero_of_not_mem fun hmem => ?_
  obtain ⟨t, -, ht⟩ := List.mem_map.1 hmem
  unfold countedAs at ht
  split at ht
  · rename_i hknown
    exact hnew (ht ▸ hknown)
  · exact hother ht.symm

/-- Apart from the known texts, only the name of the others is counted. -/
theorem length_eraseDups_countedAs (known texts : List String) :
    (texts.map (countedAs known)).eraseDups.length ≤ known.length + 1 := by
  have hsubset : (texts.map (countedAs known)).eraseDups ⊆ known ++ [otherErrors] := by
    intro text htext
    obtain ⟨t, -, rfl⟩ := List.mem_map.1 (List.mem_eraseDups.1 htext)
    unfold countedAs
    split
    · rename_i hknown
      exact List.mem_append_left _ hknown
    · simp
  have hle := ((nodup_eraseDups _).subperm hsubset).length_le
  rwa [List.length_append] at hle

end Numbers

end LoadGen

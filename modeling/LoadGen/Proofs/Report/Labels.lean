import LoadGen.Report.Document
import LoadGen.Report.Terminal
import Mathlib.Data.List.TakeWhile

/-!
# Labels in the two forms of a report

A report shows how often each label was recorded under each key, once in its document and once in its
lines for the terminal.  The document shows the labels of every key.  The lines list the labels of a
key under a heading of its own, but a key with numbers has its row in the table and no such heading,
so the labels that were recorded beside numbers are in the document only.

* `Json.at?` — what a document holds at a path of member names.
* `at?_report` — the labels of a key in the document.
* `Terminal.under`, `Terminal.ListsLabel` — the lines under a heading, and a label listed there.
* `Terminal.labelLine_inj` — the line of a label can be read back.
* `Terminal.listsLabel_lines_iff` — the labels that the lines list under the heading of a key.
* `labels_of_report` — which labels the two forms show.
-/

namespace LoadGen

/-! ## Looking up by name -/

theorem lookup_map_of_injective {κ κ' α β : Type} [DecidableEq κ] [DecidableEq κ'] {g : κ → κ'}
    (hg : Function.Injective g) (f : α → β) (entries : List (κ × α)) (k : κ) :
    (entries.map fun e => (g e.1, f e.2)).lookup (g k) = (entries.lookup k).map f := by
  induction entries with
  | nil => rfl
  | cons e rest ih =>
      obtain ⟨k', a⟩ := e
      rw [List.map_cons, List.lookup_cons, List.lookup_cons, ih]
      by_cases h : k = k'
      · simp [h]
      · have hkey : (k == k') = false := beq_eq_false_iff_ne.2 h
        have hname : (g k == g k') = false := beq_eq_false_iff_ne.2 (hg.ne h)
        rw [hkey, hname]

/-- The entries of a map can be looked up in any order. -/
theorem Assoc.lookup_of_perm {κ α : Type} [DecidableEq κ] {m : Assoc κ α} {entries : List (κ × α)}
    (hperm : entries.Perm m.entries) (k : κ) : entries.lookup k = m.get? k := by
  have hfind : entries.lookup k = find? k entries := by
    clear hperm
    induction entries with
    | nil => rfl
    | cons e rest ih =>
        obtain ⟨k', a⟩ := e
        rw [List.lookup_cons, find?, ih]
        by_cases h : k = k'
        · simp [h]
        · rw [beq_eq_false_iff_ne.2 h, if_neg (Ne.symm h)]
  ext a
  have hdistinct : (entries.map Prod.fst).Nodup := (hperm.map Prod.fst).nodup_iff.2 m.distinct
  rw [hfind, find?_eq_some_iff hdistinct, get?_eq_some_iff, hperm.mem_iff]

/-- However a tally is listed, it is listed in full. -/
theorem Tally.mem_ranked_iff (t : Tally) (label : String) (count : Nat) :
    (label, count) ∈ t.ranked ↔ t.get? label = some count := by
  have hperm : t.ranked.Perm t.entries := (perm_sortBy _ _).trans (perm_sortBy _ _)
  rw [hperm.mem_iff, Assoc.get?_eq_some_iff]

theorem MetaKey.name_injective : Function.Injective MetaKey.name := fun k k' h =>
  Option.some.inj (by rw [← ofName?_name, h, ofName?_name])

/-! ## The document -/

/-- What a document holds at a path of member names. -/
def Json.at? : Json → List String → Option Json
  | j, [] => some j
  | .object members, name :: path => (members.lookup name).bind fun j => j.at? path
  | _, _ :: _ => none

@[simp] theorem Json.at?_nil (doc : Json) : doc.at? [] = some doc := by
  cases doc <;> rfl

/-- The members of a document that is made of a map are those of the map, in any order. -/
theorem Json.at?_sorted {α : Type} (m : Assoc String α) (lt : String → String → Bool)
    (f : α → Json) (name : String) :
    (Json.object ((m.sorted lt).map fun e => (e.1, f e.2))).at? [name] = (m.get? name).map f := by
  have hlookup : ((m.sorted lt).map fun e => (e.1, f e.2)).lookup name =
      (m.get? name).map f := by
    rw [← Assoc.lookup_of_perm (perm_sortBy _ _) name]
    exact lookup_map_of_injective Function.injective_id f _ name
  rw [at?, hlookup]
  simp only [at?_nil]
  exact Option.bind_fun_some _

theorem KeySummary.at?_toJson (k : KeySummary) (label : String) :
    k.toJson.at? ["labels", label] = (k.labels.get? label).map Json.nat := by
  -- The figures stand in the same object, and none of them has the name of the labels.
  have hnumeric : ((k.numeric.map NumericSummary.members).getD []).lookup "labels" = none := by
    cases k.numeric <;> rfl
  rw [toJson, Json.at?, List.lookup_append, hnumeric, Option.none_or]
  split
  · rename_i hempty
    cases hcount : k.labels.get? label with
    | none => rfl
    | some count => exact absurd hempty (Assoc.not_isEmpty_of_get? hcount)
  · exact Json.at?_sorted k.labels _ Json.nat label

namespace Report

/-- The document shows the labels of every key. -/
theorem at?_report (r : Report) (key : MetaKey) (label : String) :
    (Document.report r).at? ["protocol", key.name, "labels", label] =
      ((r.metrics.keys.lookup key).bind fun k => k.labels.get? label).map Json.nat := by
  have htable : (KeySummary.table r.metrics.keys).at? [key.name, "labels", label] =
      ((r.metrics.keys.lookup key).bind fun k => k.labels.get? label).map Json.nat := by
    rw [KeySummary.table, Json.at?,
      lookup_map_of_injective MetaKey.name_injective KeySummary.toJson, Option.bind_map,
      Option.map_bind]
    simp only [Function.comp_def, KeySummary.at?_toJson]
  have hmember : (Document.members r).lookup "protocol" =
      if r.metrics.keys.isEmpty then none else some (KeySummary.table r.metrics.keys) := by
    rw [Document.members]
    -- The members before and after this one may be missing.
    cases r.metrics.keys.isEmpty <;> cases r.figures.isEmpty <;>
      by_cases htotal : r.metrics.total = 0 <;> simp [htotal, List.lookup_cons]
  rw [Document.report, Json.at?, hmember, ← htable]
  split
  · rename_i hempty
    rw [List.isEmpty_iff.1 hempty]
    rfl
  · rfl

/-! ## The lines for the terminal -/

namespace Terminal

/-- The heading of the labels of a key. -/
def keyHeading (key : MetaKey) : String :=
  Style.subheading.paint ("  " ++ key.name)

/-- The line of a label with its count, which is given so many places. -/
def labelLine (width : Nat) (e : String × Nat) : String :=
  "    [" ++ Style.green.paint (rightAligned width e.2) ++ "] " ++ e.1

/-- Whether a line begins like those of the labels. -/
def isLabelLine (line : String) : Bool :=
  "    [".toList.isPrefixOf line.toList

/-- The lines of labels that stand under a heading. -/
def under (heading : String) (lines : List String) : List String :=
  ((lines.dropWhile fun line => line != heading).drop 1).takeWhile isLabelLine

/-- The lines list a label under the heading of a key, with its count. -/
def ListsLabel (lines : List String) (key : MetaKey) (label : String) (count : Nat) : Prop :=
  ∃ width, labelLine width (label, count) ∈ under (keyHeading key) lines

section Under

variable {heading : String} {lines before block after : List String}

theorem under_eq_nil (h : heading ∉ lines) : under heading lines = [] := by
  have hdrop : (lines.dropWhile fun line => line != heading) = [] :=
    List.dropWhile_eq_nil_iff.2 fun line hline => bne_iff_ne.2 fun heq => h (heq ▸ hline)
  rw [under, hdrop]
  rfl

theorem under_append (hbefore : heading ∉ before)
    (hblock : ∀ line ∈ block, isLabelLine line = true)
    (hafter : ∀ line ∈ after.head?, isLabelLine line = false) :
    under heading (before ++ heading :: (block ++ after)) = block := by
  have hall : ∀ line ∈ before, (line != heading) = true := fun line hline =>
    bne_iff_ne.2 fun heq => hbefore (heq ▸ hline)
  have hself : (heading :: (block ++ after)).dropWhile (fun line => line != heading) =
      heading :: (block ++ after) := List.dropWhile_cons_of_neg (by simp)
  have hend : after.takeWhile isLabelLine = [] := by
    cases after with
    | nil => rfl
    | cons line rest => rw [List.takeWhile_cons_of_neg (by simp [hafter line rfl])]
  rw [under, List.dropWhile_append_of_pos hall, hself, List.drop_one, List.tail_cons,
    List.takeWhile_append_of_pos hblock, hend, List.append_nil]

end Under

/-! ### The line of a label -/

theorem isLabelLine_labelLine (width : Nat) (e : String × Nat) :
    isLabelLine (labelLine width e) = true := by
  simp [isLabelLine, labelLine]

theorem toList_rightAligned (width n : Nat) :
    (rightAligned width n).toList =
      List.replicate (width - (toString n).length) ' ' ++ Nat.toDigits 10 n := by
  simp [rightAligned, Grid.blanks]

/-- A number can be read back from its places. -/
theorem rightAligned_inj {width width' n n' : Nat}
    (h : rightAligned width n = rightAligned width' n') : n = n' := by
  have hdigits (width n : Nat) :
      (rightAligned width n).toList.filter Char.isDigit = Nat.toDigits 10 n := by
    rw [toList_rightAligned, List.filter_append, List.filter_replicate_of_neg (by decide),
      List.nil_append, List.filter_eq_self]
    exact fun c => Nat.isDigit_of_mem_toDigits (by decide) (by decide)
  have hsame := congrArg (fun s => s.toList.filter Char.isDigit) h
  simp only [hdigits] at hsame
  calc n = Nat.ofDigitChars 10 (Nat.toDigits 10 n) 0 := Nat.ofDigitChars_ten_toDigits.symm
    _ = Nat.ofDigitChars 10 (Nat.toDigits 10 n') 0 := by rw [hsame]
    _ = n' := Nat.ofDigitChars_ten_toDigits

/-- A list can be cut at the first place of a member. -/
theorem cut_inj {α : Type} {a : α} {xs ys xs' ys' : List α} (hxs : a ∉ xs) (hxs' : a ∉ xs')
    (h : xs ++ a :: ys = xs' ++ a :: ys') : xs = xs' ∧ ys = ys' := by
  induction xs generalizing xs' with
  | nil =>
      cases xs' with
      | nil => exact ⟨rfl, (List.cons.inj h).2⟩
      | cons x' xs' => exact absurd ((List.cons.inj h).1 ▸ List.mem_cons_self) hxs'
  | cons x xs ih =>
      cases xs' with
      | nil => exact absurd ((List.cons.inj h).1 ▸ List.mem_cons_self) hxs
      | cons x' xs' =>
          obtain ⟨rfl, hrest⟩ := List.cons.inj h
          obtain ⟨rfl, htail⟩ := ih (List.not_mem_of_not_mem_cons hxs)
            (List.not_mem_of_not_mem_cons hxs') hrest
          exact ⟨rfl, htail⟩

/-- The line of a label can be read back. -/
theorem labelLine_inj {width width' : Nat} {e e' : String × Nat}
    (h : labelLine width e = labelLine width' e') : e = e' := by
  -- The escape character that ends the colour is not part of the number.
  have hgreen : Style.green = ⟨"\x1b[38;5;10m", "\x1b[39m"⟩ := rfl
  obtain ⟨opening, closing, hparts⟩ : ∃ opening closing : List Char, ∀ width e,
      (labelLine width e).toList =
        opening ++ ((rightAligned width e.2).toList ++ '\x1b' :: (closing ++ e.1.toList)) :=
    ⟨"    [\x1b[38;5;10m".toList, "[39m] ".toList, fun width e => by
      simp [labelLine, Style.paint, hgreen]⟩
  have hescape (width n : Nat) : '\x1b' ∉ (rightAligned width n).toList := by
    rw [toList_rightAligned, List.mem_append, not_or]
    refine ⟨fun hmem => ?_, fun hmem => ?_⟩
    · exact absurd (List.eq_of_mem_replicate hmem) (by decide)
    · exact absurd (Nat.isDigit_of_mem_toDigits (by decide) (by decide) hmem) (by decide)
  have hlists := congrArg String.toList h
  rw [hparts, hparts, List.append_cancel_left_eq] at hlists
  obtain ⟨hnumber, htail⟩ := cut_inj (hescape width e.2) (hescape width' e'.2) hlists
  exact Prod.ext (String.toList_inj.1 (List.append_cancel_left htail))
    (rightAligned_inj (String.toList_inj.1 hnumber))

/-- The labels of a key are listed with their counts. -/
theorem mem_labelLines_iff (labels : Tally) (label : String) (count : Nat) :
    (∃ width, labelLine width (label, count) ∈ labelLines labels) ↔
      labels.get? label = some count := by
  rw [← Tally.mem_ranked_iff]
  constructor
  · rintro ⟨width, hmem⟩
    obtain ⟨e, he, hline⟩ := List.mem_map.1 hmem
    rwa [labelLine_inj (show labelLine _ e = labelLine width (label, count) from hline)] at he
  · intro hmem
    exact ⟨_, List.mem_map.2 ⟨_, hmem, rfl⟩⟩

/-! ### The headings of the keys -/

theorem keyHeading_injective : Function.Injective keyHeading := by
  intro key key' h
  have hname : "  " ++ key.name = "  " ++ key'.name :=
    (String.append_right_inj _).1 ((String.append_left_inj _).1 h)
  exact MetaKey.name_injective ((String.append_right_inj _).1 hname)

/-- Whether a line begins like the headings within a section. -/
def isSubheading (line : String) : Bool :=
  "\x1b[38;5;14m".toList.isPrefixOf line.toList

theorem isSubheading_keyHeading (key : MetaKey) : isSubheading (keyHeading key) = true := by
  simp [isSubheading, keyHeading, Style.subheading, Style.paint, Style.code]

/-- No line is the heading of the labels of a key. -/
def Foreign (lines : List String) : Prop :=
  ∀ line ∈ lines, ∀ key, line ≠ keyHeading key

theorem foreign_append {lines lines' : List String} :
    Foreign (lines ++ lines') ↔ Foreign lines ∧ Foreign lines' :=
  List.forall_mem_append

theorem foreign_of_isSubheading {lines : List String}
    (h : ∀ line ∈ lines, isSubheading line = false) : Foreign lines := by
  intro line hline key heq
  have hplain := h line hline
  rw [heq, isSubheading_keyHeading] at hplain
  cases hplain

theorem isSubheading_heading (text : String) : isSubheading (Style.heading.paint text) = false := by
  simp [isSubheading, Style.heading, Style.paint, Style.code, List.isPrefixOf]

theorem foreign_heading (text : String) : Foreign [Style.heading.paint text] :=
  foreign_of_isSubheading fun _ hline => List.mem_singleton.1 hline ▸ isSubheading_heading text

theorem foreign_blank : Foreign [""] :=
  foreign_of_isSubheading (by simp [isSubheading])

theorem foreign_map {α : Type} {line : α → String} (h : ∀ a, isSubheading (line a) = false)
    (xs : List α) : Foreign (xs.map line) :=
  foreign_of_isSubheading fun _ hmem => by
    obtain ⟨a, -, rfl⟩ := List.mem_map.1 hmem
    exact h a

/-- A table that keeps a distance from the margin has no headings. -/
theorem foreign_grid {g : Grid} (hmargin : g.margin = 1) (rows : List (List Cell)) :
    Foreign (g.lines rows) :=
  foreign_map (fun row => by simp [isSubheading, hmargin, Grid.blanks, List.isPrefixOf]) rows

theorem foreign_jobsTable (r : Report) : Foreign (jobsTable r) := by
  refine foreign_of_isSubheading fun line hline => ?_
  simp only [jobsTable, Grid.lines, List.map_cons, List.map_nil, List.mapIdx_cons,
    String.join_cons, List.mem_cons, List.not_mem_nil, or_false] at hline
  rcases hline with rfl | rfl
  · simp [isSubheading, Grid.cell, Grid.blanks, Style.cellBold, Style.paint, Style.code,
      List.isPrefixOf]
  · simp [isSubheading, Grid.cell, Grid.blanks, Style.unstyled, Style.paint, List.isPrefixOf]

theorem foreign_summary (r : Report) : Foreign (summary r) := by
  have habandoned : Foreign (if 0 < r.abandoned then
      ["  Abandoned:     " ++ Style.yellow.paint (toString r.abandoned)] else []) := by
    split
    · exact foreign_of_isSubheading (by simp [isSubheading, List.isPrefixOf])
    · simp [Foreign]
  simp only [summary, foreign_append]
  refine ⟨⟨⟨⟨foreign_of_isSubheading ?_, foreign_jobsTable r⟩, foreign_of_isSubheading ?_⟩,
    habandoned⟩, foreign_blank⟩
  · simp only [List.forall_mem_cons, isSubheading_heading]
    simp [isSubheading, List.isPrefixOf]
  · simp [isSubheading, List.isPrefixOf]

theorem foreign_latencies (m : Snapshot) : Foreign (latencies m) := by
  -- The percentiles have a heading of the same kind, but no key has that name.
  have hpercentiles : Foreign ["", Style.subheading.paint "  Percentiles"] := by
    refine foreign_append.2 ⟨foreign_blank, fun line hline key heq => ?_⟩
    rw [List.mem_singleton.1 hline] at heq
    have hname := (String.append_right_inj _).1 ((String.append_left_inj _).1 heq)
    revert hname
    cases key <;> decide
  unfold latencies
  split
  · simp [Foreign]
  · simp only [foreign_append]
    refine ⟨⟨⟨⟨foreign_heading _, foreign_grid rfl _⟩, hpercentiles⟩, foreign_map ?_ _⟩,
      foreign_blank⟩
    simp [isSubheading, List.isPrefixOf]

theorem foreign_numericTable (keys : List (MetaKey × KeySummary)) :
    Foreign (numericTable keys) := by
  unfold numericTable
  simp only
  split
  · simp [Foreign]
  · exact foreign_grid rfl _

theorem foreign_labelLines (labels : Tally) : Foreign (labelLines labels) :=
  foreign_map (fun e => by simp [isSubheading, List.isPrefixOf]) _

theorem foreign_backendFigures (figures : Assoc String MetaValue) :
    Foreign (backendFigures figures) := by
  unfold backendFigures
  split
  · simp [Foreign]
  · simp only [foreign_append]
    refine ⟨⟨foreign_heading _, foreign_map ?_ _⟩, foreign_blank⟩
    simp [isSubheading, List.isPrefixOf]

theorem foreign_errorDistribution (errors : Tally) : Foreign (errorDistribution errors) := by
  have hred : Style.red = ⟨"\x1b[38;5;9m", "\x1b[39m"⟩ := rfl
  unfold errorDistribution
  split
  · simp [Foreign]
  · refine foreign_append.2 ⟨foreign_heading _, foreign_map ?_ _⟩
    simp [isSubheading, hred, Style.paint, List.isPrefixOf]

/-! ### The section of the keys -/

theorem of_mem_keyLabels {key : MetaKey} {e : MetaKey × KeySummary}
    (h : keyHeading key ∈ keyLabels e) : e.1 = key ∧ e.2.numeric = none := by
  unfold keyLabels at h
  split at h
  · simp at h
  · rename_i hnumeric
    refine ⟨?_, by simpa using hnumeric⟩
    rcases List.mem_cons.1 h with hself | hlabel
    · exact (keyHeading_injective hself).symm
    · exact absurd rfl (foreign_labelLines _ _ hlabel key)

/-- What follows the labels of a key is not a label. -/
theorem isLabelLine_head? (keys : List (MetaKey × KeySummary)) {after : List String}
    (hafter : after.head? = some "") :
    ∀ line ∈ (keys.flatMap keyLabels ++ after).head?, isLabelLine line = false := by
  induction keys with
  | nil =>
      rintro line hline
      obtain rfl : "" = line := Option.some.inj (hafter ▸ hline)
      simp [isLabelLine]
  | cons e keys ih =>
      rw [List.flatMap_cons, keyLabels]
      split
      · exact ih
      · rintro line hline
        obtain rfl := Option.some.inj hline
        simp [isLabelLine, Style.subheading, Style.paint, Style.code, List.isPrefixOf]

/-- Around the labels of the keys there is no heading of a key. -/
theorem lines_eq (r : Report) : ∃ before after,
    lines r = before ++ (r.metrics.keys.flatMap keyLabels ++ after) ∧ Foreign before ∧
      Foreign after ∧ (r.metrics.keys ≠ [] → after.head? = some "") := by
  have hbefore := foreign_append.2 ⟨foreign_summary r, foreign_latencies r.metrics⟩
  have hafter := foreign_append.2
    ⟨foreign_backendFigures r.figures, foreign_errorDistribution r.metrics.errors⟩
  by_cases hkeys : r.metrics.keys = []
  · refine ⟨_, _, ?_, hbefore, hafter, fun hne => absurd hkeys hne⟩
    simp [lines, keyStatistics, hkeys]
  · refine ⟨_, "" :: _, ?_, foreign_append.2 ⟨hbefore, foreign_append.2
      ⟨foreign_heading "Protocol metrics", foreign_numericTable r.metrics.keys⟩⟩,
      foreign_append.2 ⟨foreign_blank, hafter⟩, fun _ => rfl⟩
    simp [lines, keyStatistics, hkeys]

/-- Under the heading of a key without numbers stand its labels. -/
theorem under_lines_of_eq_none {r : Report} {key : MetaKey} {k : KeySummary}
    (hk : r.metrics.keys.lookup key = some k) (hnumeric : k.numeric = none) :
    under (keyHeading key) (lines r) = labelLines k.labels := by
  obtain ⟨earlier, later, hkeys, hearlier⟩ := List.lookup_eq_some_iff.1 hk
  obtain ⟨before, after, hlines, hforeign, -, hblank⟩ := lines_eq r
  have hlabels : keyLabels (key, k) = keyHeading key :: labelLines k.labels := by
    rw [keyLabels, hnumeric]
    rfl
  rw [hlines, hkeys, List.flatMap_append, List.flatMap_cons, hlabels, List.append_assoc,
    List.append_assoc, List.cons_append, ← List.append_assoc before]
  refine under_append ?_ ?_ (isLabelLine_head? later (hblank (by simp [hkeys])))
  · intro hmem
    rcases List.mem_append.1 hmem with hbefore | hlabel
    · exact hforeign _ hbefore key rfl
    · obtain ⟨e, he, hheading⟩ := List.mem_flatMap.1 hlabel
      exact absurd (of_mem_keyLabels hheading).1.symm (bne_iff_ne.1 (hearlier e he))
  · intro line hline
    obtain ⟨e, -, rfl⟩ := List.mem_map.1 hline
    exact isLabelLine_labelLine _ e

/-- A key with numbers has no heading, nor has one that was not recorded. -/
theorem under_lines_eq_nil {r : Report} {key : MetaKey}
    (h : ∀ k, (key, k) ∈ r.metrics.keys → k.numeric ≠ none) :
    under (keyHeading key) (lines r) = [] := by
  refine under_eq_nil fun hmem => ?_
  obtain ⟨before, after, hlines, hbefore, hafter, -⟩ := lines_eq r
  rw [hlines, List.mem_append, List.mem_append] at hmem
  rcases hmem with hmem | hmem | hmem
  · exact hbefore _ hmem key rfl
  · obtain ⟨e, he, hheading⟩ := List.mem_flatMap.1 hmem
    obtain ⟨rfl, hnumeric⟩ := of_mem_keyLabels hheading
    exact h e.2 he hnumeric
  · exact hafter _ hmem key rfl

/-- The lines list the labels of the keys without numbers, with their counts. -/
theorem listsLabel_lines_iff {r : Report} (hkeys : (r.metrics.keys.map Prod.fst).Nodup)
    (key : MetaKey) (label : String) (count : Nat) :
    ListsLabel (lines r) key label count ↔ ∃ k, r.metrics.keys.lookup key = some k ∧
      k.numeric = none ∧ k.labels.get? label = some count := by
  by_cases hplain : ∃ k, r.metrics.keys.lookup key = some k ∧ k.numeric = none
  · obtain ⟨k, hk, hnumeric⟩ := hplain
    rw [ListsLabel, under_lines_of_eq_none hk hnumeric, mem_labelLines_iff]
    simp [hk, hnumeric]
  · have hnil : under (keyHeading key) (lines r) = [] :=
      under_lines_eq_nil fun k hmem hnumeric =>
        hplain ⟨k, (Assoc.lookup_of_perm (m := ⟨_, hkeys⟩) (.refl _) key).trans
          ((Assoc.get?_eq_some_iff _ _ _).2 hmem), hnumeric⟩
    simp only [ListsLabel, hnil, List.not_mem_nil, exists_false, false_iff]
    rintro ⟨k, hk, hnumeric, -⟩
    exact hplain ⟨k, hk, hnumeric⟩

end Terminal

/-- Which labels the two forms of a report show.  The document shows the labels of every key with
their counts.  The lines for the terminal list exactly those of the keys without numbers: a label that
was recorded beside numbers is missing there. -/
theorem labels_of_report (r : Report) (hkeys : (r.metrics.keys.map Prod.fst).Nodup)
    (key : MetaKey) (label : String) (count : Nat) :
    (Document.report r).at? ["protocol", key.name, "labels", label] =
        ((r.metrics.keys.lookup key).bind fun k => k.labels.get? label).map Json.nat ∧
      (Terminal.ListsLabel (Terminal.lines r) key label count ↔
        ∃ k, r.metrics.keys.lookup key = some k ∧ k.numeric = none ∧
          k.labels.get? label = some count) :=
  ⟨at?_report r key label, Terminal.listsLabel_lines_iff hkeys key label count⟩

/-- One result carries a number under a key and the next one a label: the label is in the document and
is not listed in the lines. -/
theorem labels_of_report_mixed :
    let first := (OperationResult.succeeded 8 true).withMeta .statusCode (.int 200)
    let second := (OperationResult.succeeded 5 true).withMeta .statusCode (.text "OK")
    let ledger := (((Ledger.start {} 0).record 1 first).1.record 2 second).1
    let report : Report :=
      { backend := "scripted"
        circuit := .closed
        execution := ⟨1, 2, 2, 2, 0, 3⟩
        metrics := ledger.view 3
        figures := .empty }
    (report.metrics.keys.map Prod.fst).Nodup ∧
      (Document.report report).at? ["protocol", "status_code", "labels", "OK"] =
        some (.nat 1) ∧
      ¬ Terminal.ListsLabel (Terminal.lines report) .statusCode "OK" 1 := by
  intro first second ledger report
  have hkeys : (report.metrics.keys.map Prod.fst).Nodup := by decide
  obtain ⟨k, n, hk, hnumeric, hlabel⟩ : ∃ k n, report.metrics.keys.lookup .statusCode = some k ∧
      k.numeric = some n ∧ k.labels.get? "OK" = some 1 := ⟨_, _, rfl, rfl, rfl⟩
  obtain ⟨hdocument, hlines⟩ := labels_of_report report hkeys .statusCode "OK" 1
  refine ⟨hkeys, ?_, ?_⟩
  · rw [hk, Option.bind_some, hlabel] at hdocument
    exact hdocument
  · rw [hlines]
    rintro ⟨k', hk', hnone, -⟩
    obtain rfl := Option.some.inj (hk.symm.trans hk')
    rw [hnumeric] at hnone
    cases hnone

end Report
end LoadGen

import LoadGen.Measure.RateWindow
import Mathlib.Data.List.Induction

/-!
# What a rate window holds

A rate window does not know which bucket it is at: it keeps the start of its newest bucket and
nothing else of the past.  Seen from outside, time is cut into slots of the width of a bucket, the
first of which begins at the first anchor, and instants before it belong to it too.  The window is
at the latest slot that it was ever told, and every record counts for the slot that the window is at
when it arrives.

* `latestSlot`, `recordSlots` — the slot a window is at, and the slots of its records.
* `Keeps` — the anchor and the buckets agree with these slots; `Keeps.visit` says that every
  call preserves it.
* `advance_hops` — moving forward in several hops is moving forward once.
* `buckets_of_visits` — what a window holds after any calls, in whatever order of their instants.
-/

namespace LoadGen
namespace RateWindow

/-- A call on a window: it is told an instant, and perhaps given a record. -/
structure Visit where
  instant : Int
  records : Bool
  deriving DecidableEq, Repr

def visit (w : RateWindow) (v : Visit) : RateWindow :=
  if v.records then w.record v.instant else w.advance v.instant

def visitAll (w : RateWindow) (vs : List Visit) : RateWindow :=
  vs.foldl visit w

section Slots

variable (anchor : Int) (width : Nat)

/-- The slot of an instant; whatever is before the anchor belongs to the first one. -/
def slotOf (instant : Int) : Nat :=
  (instant - anchor).toNat / width

/-- The latest slot among those of some calls. -/
def latestSlot (vs : List Visit) : Nat :=
  (vs.map fun v => slotOf anchor width v.instant).foldl max 0

/-- The slot for which the call with number `k` counts: the latest one up to that call. -/
def effectiveSlot (vs : List Visit) (k : Nat) : Nat :=
  latestSlot anchor width (vs.take (k + 1))

/-- The slots for which the records among some calls count, first to last. -/
def recordSlots (vs : List Visit) : List Nat :=
  ((List.range vs.length).filter fun k => vs[k]?.any Visit.records).map
    (effectiveSlot anchor width vs)

end Slots

variable {anchor : Int} {width : Nat} {vs : List Visit} {v : Visit} {w : RateWindow}

/-! ## Slots -/

@[simp] theorem latestSlot_snoc (vs : List Visit) (v : Visit) :
    latestSlot anchor width (vs ++ [v]) =
      max (latestSlot anchor width vs) (slotOf anchor width v.instant) := by
  simp [latestSlot]

/-- The records before the last call count for the same slots as without it. -/
theorem recordSlots_snoc (vs : List Visit) (v : Visit) :
    recordSlots anchor width (vs ++ [v]) = recordSlots anchor width vs ++
      if v.records then [latestSlot anchor width (vs ++ [v])] else [] := by
  have hbefore : ((List.range vs.length).filter fun k => (vs ++ [v])[k]?.any Visit.records).map
      (effectiveSlot anchor width (vs ++ [v])) = recordSlots anchor width vs := by
    unfold recordSlots
    have hfilter : ((List.range vs.length).filter fun k => (vs ++ [v])[k]?.any Visit.records) =
        (List.range vs.length).filter fun k => vs[k]?.any Visit.records := by
      apply List.filter_congr
      intro k hk
      rw [List.getElem?_append_left (List.mem_range.1 hk)]
    rw [hfilter]
    apply List.map_congr_left
    intro k hk
    have hlt : k < vs.length := List.mem_range.1 (List.mem_filter.1 hk).1
    rw [effectiveSlot, effectiveSlot, List.take_append_of_le_length hlt]
  have hlast : effectiveSlot anchor width (vs ++ [v]) vs.length =
      latestSlot anchor width (vs ++ [v]) := by
    rw [effectiveSlot, List.take_of_length_le (by simp)]
  rw [recordSlots, List.length_append, List.length_singleton, List.range_succ, List.filter_append,
    List.map_append, hbefore]
  congr 1
  cases hrecords : v.records <;> simp [hrecords, hlast]

/-- No record counts for a slot that the window has not come to. -/
theorem le_latestSlot (vs : List Visit) :
    ∀ slot ∈ recordSlots anchor width vs, slot ≤ latestSlot anchor width vs := by
  induction vs using List.reverseRecOn with
  | nil =>
      intro slot hslot
      cases hslot
  | append_singleton vs v ih =>
      intro slot hslot
      rw [recordSlots_snoc, List.mem_append] at hslot
      rcases hslot with hold | hnew
      · have hle := ih slot hold
        rw [latestSlot_snoc]
        omega
      · split at hnew
        · exact Nat.le_of_eq (List.mem_singleton.1 hnew)
        · cases hnew

/-! ## The buckets after a call -/

/-- The number of buckets never changes. -/
@[simp] theorem length_visitAll (w : RateWindow) (vs : List Visit) :
    (w.visitAll vs).buckets.length = w.buckets.length := by
  induction vs generalizing w with
  | nil => rfl
  | cons v vs ih =>
      show ((w.visit v).visitAll vs).buckets.length = _
      rw [ih, visit]
      split
      · exact length_record w v.instant
      · exact length_advance w v.instant

theorem getElem_rotate {buckets : List Nat} {n i : Nat} (hi : i < (rotate buckets n).length)
    (hold : i < buckets.length) :
    (rotate buckets n)[i] = if i < n then 0 else buckets[i - n] := by
  have hn := rotate_eq buckets n
  simp only [hn, List.getElem_take]
  by_cases hnew : i < n
  · rw [if_pos hnew, List.getElem_append_left (by simpa using hnew), List.getElem_replicate]
  · rw [if_neg hnew, List.getElem_append_right (by simpa using hnew)]
    simp

theorem getElem_bumpNewest {buckets : List Nat} {i : Nat} (hi : i < (bumpNewest buckets).length)
    (hold : i < buckets.length) :
    (bumpNewest buckets)[i] = buckets[i] + if i = 0 then 1 else 0 := by
  cases buckets with
  | nil => simp [bumpNewest] at hi
  | cons n rest => cases i <;> simp [bumpNewest]

/-- Two rotations are one. -/
theorem rotate_rotate (buckets : List Nat) (n m : Nat) :
    rotate (rotate buckets (min n buckets.length)) (min m buckets.length) =
      rotate buckets (min (n + m) buckets.length) := by
  apply List.ext_getElem
  · simp
  · intro i hi hi'
    have hlt : i < buckets.length := by simpa using hi'
    rw [getElem_rotate hi (by simpa using hlt), getElem_rotate hi' hlt]
    by_cases hnew : i < m
    · rw [if_pos (by omega), if_pos (by omega)]
    · rw [if_neg (by omega), getElem_rotate _ (by omega)]
      by_cases hold : i < n + m
      · rw [if_pos (by omega), if_pos (by omega)]
      · rw [if_neg (by omega), if_neg (by omega)]
        congr 1
        omega

/-! ## What is known of a window -/

/-- The window began at `anchor` with buckets of width `width`, and it holds the records of the
calls `vs`: each bucket those of its slot. -/
structure Keeps (anchor : Int) (width : Nat) (vs : List Visit) (w : RateWindow) : Prop where
  width_eq : w.width = width
  anchor_eq : w.anchor = anchor + (latestSlot anchor width vs * width : Nat)
  bucket : ∀ (i : Nat) (hi : i < w.buckets.length), w.buckets[i] =
    (recordSlots anchor width vs).countP fun slot => slot + i = latestSlot anchor width vs

/-- Seen from the start of a later slot, an instant is so many slots nearer. -/
theorem slotOf_sub (anchor instant : Int) (width slot : Nat) :
    (instant - (anchor + (slot * width : Nat))).toNat / width =
      slotOf anchor width instant - slot := by
  have hsplit : (instant - (anchor + (slot * width : Nat))).toNat =
      (instant - anchor).toNat - width * slot := by
    rw [Nat.mul_comm slot width]
    omega
  rw [hsplit, slotOf, Nat.sub_mul_div]

namespace Keeps

theorem elapsedBuckets_eq (h : Keeps anchor width vs w) (instant : Int) :
    w.elapsedBuckets instant = slotOf anchor width instant - latestSlot anchor width vs := by
  rw [elapsedBuckets, h.anchor_eq, h.width_eq, slotOf_sub]

theorem start (count width : Nat) (anchor : Int) :
    Keeps anchor (max width Nanos.perMilli) [] (start count width anchor) where
  width_eq := rfl
  anchor_eq := by simp [RateWindow.start, latestSlot]
  bucket i hi := by simp [RateWindow.start, recordSlots]

/-- Moving forward empties the buckets of the slots in between. -/
theorem advance (h : Keeps anchor width vs w)
    (hnear : v.instant - anchor ≤ (Nanos.wordMax : Nat)) (hsilent : v.records = false) :
    Keeps anchor width (vs ++ [v]) (w.advance v.instant) := by
  have hshifts := h.elapsedBuckets_eq v.instant
  have hslot : latestSlot anchor width (vs ++ [v]) =
      latestSlot anchor width vs + w.elapsedBuckets v.instant := by
    rw [latestSlot_snoc, hshifts]
    omega
  have hrecords : recordSlots anchor width (vs ++ [v]) = recordSlots anchor width vs := by
    simp [recordSlots_snoc, hsilent]
  refine ⟨h.width_eq, ?_, ?_⟩
  · -- The whole slots that have passed fit into one word, so the anchor moves by all of them.
    have hfits : w.elapsedBuckets v.instant * width ≤ Nanos.wordMax := by
      calc w.elapsedBuckets v.instant * width
          ≤ slotOf anchor width v.instant * width := by
            rw [hshifts]
            exact Nat.mul_le_mul_right width (Nat.sub_le _ _)
        _ ≤ (v.instant - anchor).toNat := Nat.div_mul_le_self _ _
        _ ≤ Nanos.wordMax := by omega
    show w.anchor + Int.ofNat (min (w.elapsedBuckets v.instant * w.width) Nanos.wordMax) = _
    rw [h.width_eq, Nat.min_eq_left hfits, h.anchor_eq, hslot, Nat.add_mul]
    simp only [Int.ofNat_eq_natCast]
    omega
  · intro i hi
    rw [hrecords, hslot]
    have hlt : i < w.buckets.length := by simpa using hi
    have hstill :
        i < (rotate w.buckets (min (w.elapsedBuckets v.instant) w.buckets.length)).length := hi
    show (rotate w.buckets (min (w.elapsedBuckets v.instant) w.buckets.length))[i] = _
    rw [getElem_rotate hstill hlt]
    by_cases hnew : i < w.elapsedBuckets v.instant
    · rw [if_pos (by omega)]
      symm
      rw [List.countP_eq_zero]
      intro slot hslot'
      have hle := le_latestSlot vs slot hslot'
      simp only [decide_eq_true_eq]
      omega
    · rw [if_neg (by omega), h.bucket]
      apply List.countP_congr
      intro slot _
      simp only [decide_eq_true_eq]
      omega

/-- A record counts for the slot to which the window has moved. -/
theorem visit (h : Keeps anchor width vs w)
    (hnear : v.instant - anchor ≤ (Nanos.wordMax : Nat)) :
    Keeps anchor width (vs ++ [v]) (w.visit v) := by
  cases hrecords : v.records with
  | false =>
      rw [RateWindow.visit, hrecords]
      exact h.advance hnear hrecords
  | true =>
      -- The record is a move forward and then one more in the newest bucket.
      let silent : Visit := { v with records := false }
      have hmoved : Keeps anchor width (vs ++ [silent]) (w.advance v.instant) :=
        h.advance (v := silent) hnear rfl
      have hslot :
          latestSlot anchor width (vs ++ [silent]) = latestSlot anchor width (vs ++ [v]) := by
        rw [latestSlot_snoc, latestSlot_snoc]
      have hslots : recordSlots anchor width (vs ++ [silent]) = recordSlots anchor width vs := by
        rw [recordSlots_snoc]
        exact List.append_nil _
      rw [RateWindow.visit, hrecords, if_pos rfl]
      refine ⟨hmoved.width_eq, hslot ▸ hmoved.anchor_eq, ?_⟩
      intro i hi
      have hstill : i < (bumpNewest (w.advance v.instant).buckets).length := hi
      have hlt : i < (w.advance v.instant).buckets.length := by simpa using hi
      show (bumpNewest (w.advance v.instant).buckets)[i] = _
      rw [getElem_bumpNewest hstill hlt, hmoved.bucket, hslots, hslot, recordSlots_snoc, hrecords,
        if_pos rfl, List.countP_append, List.countP_singleton]
      congr 1
      by_cases hnewest : i = 0 <;> simp [hnewest]

theorem visitAll (h : Keeps anchor width [] w)
    (hnear : ∀ v ∈ vs, v.instant - anchor ≤ (Nanos.wordMax : Nat)) :
    Keeps anchor width vs (w.visitAll vs) := by
  induction vs using List.reverseRecOn with
  | nil => exact h
  | append_singleton vs v ih =>
      rw [RateWindow.visitAll, List.foldl_append]
      apply visit
      · apply ih
        intro u hu
        exact hnear u (List.mem_append_left _ hu)
      · exact hnear v (List.mem_append_right _ (List.mem_singleton_self v))

/-- The window as a whole holds the records of its last slots. -/
theorem total_eq (h : Keeps anchor width vs w) : w.total =
    (recordSlots anchor width vs).countP
      fun slot => latestSlot anchor width vs < slot + w.buckets.length := by
  have hbuckets : w.buckets = (List.range w.buckets.length).map fun i =>
      (recordSlots anchor width vs).countP fun slot => slot + i = latestSlot anchor width vs := by
    apply List.ext_getElem
    · simp
    · intro i hi _
      rw [h.bucket i hi, List.getElem_map, List.getElem_range]
  -- Each of the first buckets adds the records of one more slot.
  have hsum (n : Nat) : ((List.range n).map fun i =>
      (recordSlots anchor width vs).countP fun slot => slot + i = latestSlot anchor width vs).sum =
        (recordSlots anchor width vs).countP fun slot => latestSlot anchor width vs < slot + n := by
    induction n with
    | zero =>
        symm
        rw [List.range_zero, List.map_nil, List.sum_nil, List.countP_eq_zero]
        intro slot hslot
        have hle := le_latestSlot vs slot hslot
        simpa using hle
    | succ n ih =>
        rw [List.range_succ, List.map_append, List.sum_append, ih, List.map_singleton,
          List.sum_singleton]
        generalize recordSlots anchor width vs = slots
        induction slots with
        | nil => rfl
        | cons slot slots ih =>
            simp only [List.countP_cons, decide_eq_true_eq]
            split <;> split <;> split <;> omega
  rw [total, ← List.sum_eq_foldl, hbuckets, hsum]
  simp

end Keeps

/-! ## Hops -/

theorem eq_of_parts {w w' : RateWindow} (hbuckets : w.buckets = w'.buckets)
    (hwidth : w.width = w'.width) (hanchor : w.anchor = w'.anchor) : w = w' := by
  cases w
  cases w'
  cases hbuckets
  cases hwidth
  cases hanchor
  rfl

/-- Moving to an instant and then to a later one is moving to the later one, as long as that is no
further away than one word. -/
theorem advance_advance {s t : Int} (hst : s ≤ t) (hnear : t - w.anchor ≤ (Nanos.wordMax : Nat)) :
    (w.advance s).advance t = w.advance t := by
  have hwide : 0 < w.width := Nat.lt_of_lt_of_le (by decide) w.wide
  have hfits {instant : Int} (hle : instant ≤ t) :
      w.elapsedBuckets instant * w.width ≤ Nanos.wordMax := by
    have hdiv : w.elapsedBuckets instant * w.width ≤ (instant - w.anchor).toNat :=
      Nat.div_mul_le_self _ _
    omega
  have hanchor : (w.advance s).anchor = w.anchor + (w.elapsedBuckets s * w.width : Nat) := by
    show w.anchor + Int.ofNat (min (w.elapsedBuckets s * w.width) Nanos.wordMax) = _
    rw [Nat.min_eq_left (hfits hst)]
    rfl
  have hless : w.elapsedBuckets s ≤ w.elapsedBuckets t := by
    apply Nat.div_le_div_right
    omega
  have hrest : (w.advance s).elapsedBuckets t = w.elapsedBuckets t - w.elapsedBuckets s := by
    rw [elapsedBuckets, hanchor, width_advance, slotOf_sub]
    rfl
  have hbuckets : ((w.advance s).advance t).buckets = (w.advance t).buckets := by
    show rotate (rotate w.buckets (min (w.elapsedBuckets s) w.buckets.length))
      (min ((w.advance s).elapsedBuckets t) (w.advance s).buckets.length) =
        rotate w.buckets (min (w.elapsedBuckets t) w.buckets.length)
    rw [length_advance, hrest, rotate_rotate]
    congr 2
    omega
  have hanchors : ((w.advance s).advance t).anchor = (w.advance t).anchor := by
    show (w.advance s).anchor + Int.ofNat (min ((w.advance s).elapsedBuckets t * w.width) _) =
      w.anchor + Int.ofNat (min (w.elapsedBuckets t * w.width) Nanos.wordMax)
    have hsplit : (w.elapsedBuckets t - w.elapsedBuckets s) * w.width +
        w.elapsedBuckets s * w.width = w.elapsedBuckets t * w.width := by
      rw [← Nat.add_mul]
      congr 1
      omega
    have hboth := hfits (Int.le_refl t)
    rw [hanchor, hrest, Nat.min_eq_left (by omega), Nat.min_eq_left hboth, ← hsplit]
    simp only [Int.ofNat_eq_natCast]
    omega
  exact eq_of_parts hbuckets rfl hanchors

/-- However many hops lead up to an instant, the window is the same there. -/
theorem advance_hops {hops : List Int} {t : Int} (hhops : ∀ hop ∈ hops, hop ≤ t)
    (hnear : t - w.anchor ≤ (Nanos.wordMax : Nat)) :
    (hops.foldl RateWindow.advance w).advance t = w.advance t := by
  induction hops generalizing w with
  | nil => rfl
  | cons hop hops ih =>
      have hfirst : hop ≤ t := hhops hop List.mem_cons_self
      have hforward : w.anchor ≤ (w.advance hop).anchor := by
        show w.anchor ≤ w.anchor + Int.ofNat _
        exact Int.le_add_of_nonneg_right (Int.natCast_nonneg _)
      rw [List.foldl_cons, ih (fun later hlater => hhops later (List.mem_cons_of_mem _ hlater))
        (by omega), advance_advance hfirst hnear]

/-- Until its newest bucket is over, a window stays where it is. -/
theorem advance_of_lt {t : Int} (ht : t < w.anchor + w.width) : w.advance t = w := by
  have hnone : w.elapsedBuckets t = 0 := by
    rw [elapsedBuckets]
    apply Nat.div_eq_of_lt
    have hwide : 0 < w.width := Nat.lt_of_lt_of_le (by decide) w.wide
    omega
  apply eq_of_parts
  · show rotate w.buckets (min (w.elapsedBuckets t) w.buckets.length) = w.buckets
    rw [hnone, Nat.zero_min, rotate_zero]
  · rfl
  · show w.anchor + Int.ofNat (min (w.elapsedBuckets t * w.width) Nanos.wordMax) = w.anchor
    rw [hnone, Nat.zero_mul, Nat.zero_min]
    exact Int.add_zero _

/-! ## Any calls -/

/-- After any calls, each bucket holds the records of its slot, and the window as a whole those of
its last slots.  Moving forward in hops is moving forward once, and an instant before the end of the
newest bucket moves nothing. -/
theorem buckets_of_visits (count width : Nat) (anchor : Int) (visits : List Visit)
    (hnear : ∀ v ∈ visits, v.instant - anchor ≤ (Nanos.wordMax : Nat)) :
    let w := (start count width anchor).visitAll visits
    let slots := recordSlots anchor (max width Nanos.perMilli) visits
    let cur := latestSlot anchor (max width Nanos.perMilli) visits
    w.buckets.length = max count 1 ∧
      (∀ i < max count 1, w.buckets[i]? = some (slots.countP fun slot => slot + i = cur)) ∧
      w.total = (slots.countP fun slot => cur < slot + max count 1) ∧
      (∀ (hops : List Int) (t : Int), (∀ hop ∈ hops, hop ≤ t) → t - anchor ≤ (Nanos.wordMax : Nat) →
        (hops.foldl RateWindow.advance w).advance t = w.advance t) ∧
      ∀ t < w.anchor + w.width, w.advance t = w ∧ (w.record t).buckets = bumpNewest w.buckets := by
  intro w slots cur
  have hkeeps : Keeps anchor (max width Nanos.perMilli) visits w :=
    (Keeps.start count width anchor).visitAll hnear
  have hlength : w.buckets.length = max count 1 := by
    rw [length_visitAll]
    exact List.length_replicate
  refine ⟨hlength, ?_, ?_, ?_, ?_⟩
  · intro i hi
    rw [← hlength] at hi
    rw [List.getElem?_eq_getElem hi, hkeeps.bucket]
  · rw [hkeeps.total_eq, hlength]
  · intro hops t hhops ht
    apply advance_hops hhops
    rw [hkeeps.anchor_eq]
    omega
  · intro t ht
    have hstill := advance_of_lt ht
    refine ⟨hstill, ?_⟩
    show bumpNewest (w.advance t).buckets = _
    rw [hstill]

/-- Records in the first slot, in the third and in the fourth; then one that comes late, and one
from before the anchor. -/
def sampleVisits : List Visit :=
  [⟨7, true⟩, ⟨2500000007, true⟩, ⟨3100000007, true⟩, ⟨1200000007, true⟩, ⟨-5, true⟩]

theorem buckets_of_visits_sample : (∀ v ∈ sampleVisits, v.instant - 7 ≤ (Nanos.wordMax : Nat)) ∧
    ((start 3 1000000000 7).visitAll sampleVisits).buckets[0]? = some 3 ∧
      ((start 3 1000000000 7).visitAll sampleVisits).total = 4 := by
  have hnear : ∀ v ∈ sampleVisits, v.instant - 7 ≤ (Nanos.wordMax : Nat) := by decide
  obtain ⟨-, hbuckets, htotal, -⟩ := buckets_of_visits 3 1000000000 7 sampleVisits hnear
  exact ⟨hnear, hbuckets 0 (by decide), htotal⟩

end RateWindow
end LoadGen

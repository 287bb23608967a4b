import LoadGen.Time.Nanos

/-!
# Timers

Timers fire on whole milliseconds of the clock.  So a timer that is set on a whole millisecond fires
on one, and a timer that is set a whole number of milliseconds later fires so much later.

* `wakeAt_dvd`, `wakeBy_dvd`, `wakeAt_eq`, `wakeAt_le`, `wakeBy_eq_max` — when timers fire.
* `any_le_add` — an instant that is put off.
* `wakeAt_add`, `wakeBy_add`, `deadlineAt_add` — timers and deadlines that are set later.
-/

namespace LoadGen
namespace Nanos

theorem wakeAt_dvd {now : Nat} (h : perMilli ∣ now) (d : Nat) : perMilli ∣ wakeAt now d := by
  unfold wakeAt
  split
  · exact h
  · exact ceilMillis_dvd _

theorem wakeBy_dvd {now : Nat} (h : perMilli ∣ now) (deadline : Nat) :
    perMilli ∣ wakeBy now deadline := by
  unfold wakeBy
  split
  · exact h
  · exact ceilMillis_dvd _

theorem ceilMillis_mono {d e : Nat} (h : d ≤ e) : ceilMillis d ≤ ceilMillis e :=
  Nat.mul_le_mul_right _ (Nat.div_le_div_right (by omega))

/-- A timer that is set on a whole millisecond fires on the first one that lies neither before its
deadline nor in the past. -/
theorem wakeBy_eq_max {now : Nat} (h : perMilli ∣ now) (deadline : Nat) :
    wakeBy now deadline = max (ceilMillis deadline) now := by
  unfold wakeBy
  split
  · rename_i hover
    have hceil := ceilMillis_mono hover
    rw [ceilMillis_of_dvd h] at hceil
    exact (Nat.max_eq_right hceil).symm
  · have hceil := le_ceilMillis deadline
    exact (Nat.max_eq_left (by omega)).symm

theorem ceilMillis_add {d : Nat} (h : perMilli ∣ d) (t : Nat) :
    ceilMillis (d + t) = d + ceilMillis t := by
  obtain ⟨k, rfl⟩ := h
  unfold ceilMillis perMilli
  omega

/-- A wait that begins on a whole millisecond is over on the first one that does not lie before its
end. -/
theorem wakeAt_eq {now : Nat} (h : perMilli ∣ now) (d : Nat) :
    wakeAt now d = ceilMillis (now + min d timerLimit) := by
  unfold wakeAt
  split
  · rename_i hzero
    rw [hzero, Nat.zero_min, Nat.add_zero, ceilMillis_of_dvd h]
  · rfl

/-- A wait takes no longer than its length rounded up to a whole millisecond. -/
theorem wakeAt_le {now d m : Nat} (h : perMilli ∣ now) (hd : d ≤ m) :
    wakeAt now d ≤ now + ceilMillis m := by
  rw [wakeAt_eq h, ceilMillis_add h]
  exact Nat.add_le_add_left (ceilMillis_mono (Nat.le_trans (Nat.min_le_left _ _) hd)) now

/-- An instant that is put off has passed when so much more time has. -/
theorem any_le_add (d now : Nat) (instant? : Option Nat) :
    (instant?.map (d + ·)).any (decide <| · ≤ d + now) = instant?.any (decide <| · ≤ now) := by
  cases instant? with
  | none => rfl
  | some instant => simp only [Option.map_some, Option.any_some, Nat.add_le_add_iff_left]

/-- Timers that are set a whole number of milliseconds later go off so much later. -/
theorem wakeAt_add {since : Nat} (h : perMilli ∣ since) (elapsed d : Nat) :
    wakeAt (since + elapsed) d = since + wakeAt elapsed d := by
  unfold wakeAt
  split
  · rfl
  · rw [Nat.add_assoc, ceilMillis_add h]

theorem wakeBy_add {since : Nat} (h : perMilli ∣ since) (now deadline : Nat) :
    wakeBy (since + now) (since + deadline) = since + wakeBy now deadline := by
  unfold wakeBy
  by_cases hover : deadline ≤ now
  · rw [if_pos hover, if_pos (Nat.add_le_add_left hover since)]
  · rw [if_neg hover, if_neg (by omega), ceilMillis_add h]

theorem deadlineAt_add {since : Nat} (h : perMilli ∣ since) (now d : Nat) :
    deadlineAt (since + now) d = since + deadlineAt now d := by
  rw [deadlineAt, Nat.add_assoc, ceilMillis_add h, deadlineAt]

end Nanos
end LoadGen

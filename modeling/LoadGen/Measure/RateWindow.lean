import LoadGen.Time.Nanos

/-!
# The rate window

A fixed number of equally wide buckets counts the recent records, newest bucket first.  The window
moves by whole buckets: the anchor is the start of the newest bucket, and a record first moves the
window forward by every whole bucket that has passed since.

* `advance`, `record` — the two operations.
* `total`, `rate` — all records in the window, and records per second over its whole span.
* `length_advance`, `length_record` — the number of buckets never changes.
-/

namespace LoadGen

/-- Record counts of the last intervals. -/
structure RateWindow where
  /-- The counts, newest bucket first. -/
  buckets : List Nat
  width : Nat
  /-- The start of the newest bucket, as an instant that may lie before the start of the clock. -/
  anchor : Int
  nonempty : 0 < buckets.length
  /-- A bucket is at least a millisecond wide. -/
  wide : Nanos.perMilli ≤ width
  deriving Repr, DecidableEq

namespace RateWindow

/-- The most buckets that a window can have: their counts, of eight bytes each, take up less than
`2 ^ 63` bytes. -/
def countLimit : Nat := (Nat.pow 2 63 - 1) / 8

/-- A window of empty buckets whose newest one starts at `now`; a missing bucket and the rest of a
millisecond are made up. -/
def start (count width : Nat) (now : Int) : RateWindow where
  buckets := List.replicate (max count 1) 0
  width := max width Nanos.perMilli
  anchor := now
  nonempty := by rw [List.length_replicate]; exact Nat.le_max_right _ _
  wide := Nat.le_max_right _ _

/-- The whole buckets that have passed between the anchor and `now`; none for
an instant before it. -/
def elapsedBuckets (w : RateWindow) (now : Int) : Nat :=
  (now - w.anchor).toNat / w.width

/-- Drops the `n` oldest buckets for as many empty ones at the front. -/
def rotate (buckets : List Nat) (n : Nat) : List Nat :=
  if n = 0 then buckets else (List.replicate n 0 ++ buckets).take buckets.length

@[simp] theorem rotate_zero (buckets : List Nat) : rotate buckets 0 = buckets :=
  if_pos rfl

theorem rotate_eq (buckets : List Nat) (n : Nat) :
    rotate buckets n = (List.replicate n 0 ++ buckets).take buckets.length := by
  unfold rotate
  split
  · rename_i h
    simp [h]
  · rfl

@[simp] theorem length_rotate (buckets : List Nat) (n : Nat) :
    (rotate buckets n).length = buckets.length := by
  simp [rotate_eq]

/-- Moves the window forward to `now`.  The anchor moves by at most one 64-bit
word of nanoseconds. -/
def advance (w : RateWindow) (now : Int) : RateWindow :=
  let shifts := w.elapsedBuckets now
  { w with
    buckets := rotate w.buckets (min shifts w.buckets.length)
    anchor := w.anchor + Int.ofNat (min (shifts * w.width) Nanos.wordMax)
    nonempty := by rw [length_rotate]; exact w.nonempty }

def bumpNewest : List Nat → List Nat
  | [] => []
  | n :: rest => (n + 1) :: rest

@[simp] theorem length_bumpNewest (buckets : List Nat) :
    (bumpNewest buckets).length = buckets.length := by
  cases buckets <;> rfl

def record (w : RateWindow) (now : Int) : RateWindow :=
  let w := w.advance now
  { w with
    buckets := bumpNewest w.buckets
    nonempty := by rw [length_bumpNewest]; exact w.nonempty }

def total (w : RateWindow) : Nat :=
  w.buckets.foldl (· + ·) 0

/-- Records per second over the whole span of the window. -/
def rate (w : RateWindow) : Float :=
  Float.ofNat w.total / (Float.ofNat w.buckets.length * Nanos.toSeconds w.width)

@[simp] theorem length_advance (w : RateWindow) (now : Int) :
    (w.advance now).buckets.length = w.buckets.length :=
  length_rotate _ _

@[simp] theorem length_record (w : RateWindow) (now : Int) :
    (w.record now).buckets.length = w.buckets.length :=
  (length_bumpNewest _).trans (length_advance w now)

@[simp] theorem width_advance (w : RateWindow) (now : Int) : (w.advance now).width = w.width := rfl

@[simp] theorem width_record (w : RateWindow) (now : Int) : (w.record now).width = w.width := rfl

end RateWindow
end LoadGen

import Keepsake.Number.Decimal
/-!
# Metrics

Four counters, and a histogram of the sizes of written snapshots. The text form has the metrics in
the order of their names, each with a line of help and a line that tells its type; the histogram's
buckets count what is at most their bound.
-/

namespace Keepsake

/-- The bounds of the buckets for the sizes of snapshots. -/
def sizeBounds : List Nat := [64, 256, 1024, 4096, 16384, 65536, 262144, 1048576]

/-- How many sizes were observed, in all and within each bound, and their sum. -/
structure SizeHistogram where
  within : List Nat
  count : Nat
  sum : Nat
deriving DecidableEq

namespace SizeHistogram

/-- Nothing observed. -/
def empty : SizeHistogram := ⟨sizeBounds.map fun _ => 0, 0, 0⟩

/-- Observes a size. -/
def observe (h : SizeHistogram) (size : Nat) : SizeHistogram where
  within := (sizeBounds.zip h.within).map fun b => if size ≤ b.1 then b.2 + 1 else b.2
  count := h.count + 1
  sum := h.sum + size

end SizeHistogram

/-- What was counted. -/
structure Metrics where
  /-- snapshots written -/
  saves : Nat
  /-- passes that failed -/
  saveFailures : Nat
  /-- passes that found nothing changed -/
  unchangedSkips : Nat
  /-- entries that could not be restored -/
  loadKeyFailures : Nat
  sizes : SizeHistogram
deriving DecidableEq

namespace Metrics

/-- Nothing counted. -/
def zero : Metrics := ⟨0, 0, 0, 0, SizeHistogram.empty⟩

/-- Counts a snapshot written in a pass. -/
def addSave (m : Metrics) : Metrics := { m with saves := m.saves + 1 }

/-- Counts a pass that failed. -/
def addSaveFailure (m : Metrics) : Metrics := { m with saveFailures := m.saveFailures + 1 }

/-- Counts a pass that found nothing changed. -/
def addUnchanged (m : Metrics) : Metrics := { m with unchangedSkips := m.unchangedSkips + 1 }

/-- Counts an entry that could not be restored. -/
def addLoadKeyFailure (m : Metrics) : Metrics := { m with loadKeyFailures := m.loadKeyFailures + 1 }

/-- Counts the size of a snapshot written. -/
def addSize (m : Metrics) (size : Nat) : Metrics := { m with sizes := m.sizes.observe size }

/-- The lines before the samples of a metric. -/
def heading (name help kind : String) : List String :=
  ["# HELP " ++ name ++ " " ++ help, "# TYPE " ++ name ++ " " ++ kind]

/-- The lines of a counter. -/
def counterLines (name help : String) (n : Nat) : List String :=
  heading name help "counter" ++ [name ++ " " ++ Decimal.text n]

/-- The lines of the histogram. -/
def histogramLines (name help : String) (h : SizeHistogram) : List String :=
  let bucket (bound : String) (n : Nat) : String :=
    name ++ "_bucket\x7ble=\"" ++ bound ++ "\"\x7d " ++ Decimal.text n
  heading name help "histogram" ++
    ((sizeBounds.zip h.within).map fun b => bucket (Decimal.text b.1) b.2) ++
    [bucket "+Inf" h.count, name ++ "_sum " ++ Decimal.text h.sum, name ++ "_count " ++ Decimal.text h.count]

/-- The lines of the text form. -/
def lines (m : Metrics) : List String :=
  counterLines "autosave_load_key_failures_total" "Entries that could not be restored on load"
    m.loadKeyFailures ++
  counterLines "autosave_save_failures_total" "Save attempts that failed" m.saveFailures ++
  counterLines "autosave_saves_total" "Snapshots written to disk" m.saves ++
  histogramLines "autosave_snapshot_size_bytes" "Encoded size of written snapshots" m.sizes ++
  counterLines "autosave_unchanged_skips_total" "Due save-files skipped because nothing changed"
    m.unchangedSkips

end Metrics

end Keepsake

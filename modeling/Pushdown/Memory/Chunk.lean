-- SUMMARY: Chunks of values in memory as the segments of a column.
import Pushdown.Segments

/-!
# Chunks

The chunks of an in-memory column are its segments. A decoder over a chunk holds the values that are
still to come, so a failed call leaves it as it was.
-/

namespace Pushdown

structure ChunkDecoder (α : Type) where
  segment : Nat
  rest : List α

namespace ChunkDecoder

variable {α : Type}

/-- Pass over `n` values. They are counted among the first `n` only, so that a short skip in a long
    chunk is cheap. -/
def skip (d : ChunkDecoder α) (n : Nat) : Except Failure Unit × ChunkDecoder α :=
  if (d.rest.take n).length < n then (.error (.truncatedSegment d.segment n d.rest.length), d)
  else (.ok (), { d with rest := d.rest.drop n })

def next (d : ChunkDecoder α) : Except Failure α × ChunkDecoder α :=
  match d.rest with
  | [] => (.error (.truncatedSegment d.segment 1 0), d)
  | value :: rest => (.ok value, { d with rest })

end ChunkDecoder

/-- The chunks as segments. A segment past the last chunk has no rows. -/
def Segments.ofChunks {α : Type} (chunks : List (List α)) :
    Segments (ChunkDecoder α) α :=
  let sizes := chunks.map List.length
  { count := sizes.length
    size := fun segment => .ok (sizes[segment]?.getD 0)
    decoder := fun segment => .ok { segment, rest := chunks[segment]?.getD [] }
    skip := ChunkDecoder.skip
    next := ChunkDecoder.next }

end Pushdown

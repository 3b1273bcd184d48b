-- SUMMARY: On the way to a row nothing is taken from a number that is less, whatever the segments answer.
import Pushdown.Proofs.Decoding
import Pushdown.Proofs.Segments.Order

/-!
# Differences of row numbers

To read a row a cursor takes the number of rows before the segment from the number of the row, and the offset
from which it counts from the offset of the row. Neither is ever the greater one, although the three places that
a cursor keeps move at different times: the locator also when a read fails, the last row only when one succeeds,
and the open segment may be given up or entered anew. What ties them together is `Cursor.Orderly`: the open
segment is not past the locator, and as long as the locator has not left it, the offset there follows the last
row read at most.

The segments are trusted with nothing. Any call may fail, and sizes may change from one request to the next. A
request asks for each size at most once and makes at most one call of every other kind, so that segments which
answer differently from call to call are some segments for each request.
-/

namespace Pushdown

variable {δ α : Type} {segments : Segments δ α} {row : Nat}

/-! ## Searches -/

namespace Locator

variable {l l' l'' : Locator}

/-- The locator is still where it was, or at a later segment. -/
def GoesOn (l l' : Locator) : Prop := l' = l ∨ l.segment < l'.segment

theorem GoesOn.segment_le (h : GoesOn l l') : l.segment ≤ l'.segment := by
  rcases h with rfl | hlt
  · exact Nat.le_refl _
  · exact hlt.le

/-- A locator that is still at its segment has not changed. -/
theorem GoesOn.eq_of_le (h : GoesOn l l') (hle : l'.segment ≤ l.segment) : l' = l :=
  h.resolve_right (Nat.not_lt.mpr hle)

/-- A search that finds its row has counted no more rows than lie before it. -/
theorem advance_goesOn (count : Nat) (size : Nat → Except Failure Nat) {l : Locator} (hbase : l.base ≤ row) :
    GoesOn l (advance count size row l).locator ∧
      ∀ place, (advance count size row l).result = .ok place →
        place.segment = (advance count size row l).locator.segment ∧
          (advance count size row l).locator.base + place.offset = row := by
  fun_induction advance count size row l with
  | case1 | case4 => exact ⟨.inl rfl, by rintro _ ⟨⟩⟩
  | case2 l hlt n hsize hn =>
    refine ⟨.inl rfl, ?_⟩
    rintro _ ⟨⟩
    exact ⟨rfl, Nat.add_sub_cancel' hbase⟩
  | case3 l hlt n hsize hn rest ih =>
    obtain ⟨hon, hfound⟩ := ih (Nat.le_of_not_lt hn)
    exact ⟨.inr hon.segment_le, hfound⟩

theorem locate_goesOn (count : Nat) (size : Nat → Except Failure Nat) (row : Nat) (l : Locator) :
    GoesOn l (l.locate count size row).locator ∧
      ∀ place, (l.locate count size row).result = .ok place →
        place.segment = (l.locate count size row).locator.segment ∧
          (l.locate count size row).locator.base + place.offset = row := by
  unfold locate
  split
  · exact ⟨.inl rfl, by rintro _ ⟨⟩⟩
  · exact advance_goesOn count size (Nat.le_of_not_lt ‹_›)

end Locator

/-! ## Reads -/

namespace Entered

/-- Whatever a decoder does, the segment stays, and only a value moves the offset. -/
theorem decodeAt_next (segments : Segments δ α) (offset : Nat) (o : Entered δ) :
    (o.decodeAt segments offset).2.segment = o.segment ∧
      ((o.decodeAt segments offset).2.next = o.next ∨
        (o.decodeAt segments offset).2.next = offset + 1 ∧ ∃ value, (o.decodeAt segments offset).1 = .ok value) := by
  unfold decodeAt
  split
  · exact ⟨rfl, .inr ⟨rfl, _, rfl⟩⟩
  · exact ⟨rfl, .inl rfl⟩

theorem read_next (segments : Segments δ α) (offset : Nat) (o : Entered δ) :
    (o.read segments offset).2.1.segment = o.segment ∧
      ((o.read segments offset).2.1.next = o.next ∨
        (o.read segments offset).2.1.next = offset + 1 ∧ ∃ value, (o.read segments offset).1 = .ok value) := by
  unfold read
  dsimp only
  split
  · exact decodeAt_next segments offset o
  · split
    · exact ⟨rfl, .inl rfl⟩
    · exact decodeAt_next segments offset _

end Entered

namespace Cursor

variable {c : Cursor δ}

/-- The open segment is not past the locator. If the locator is still there, the next offset in it follows the
    last row read at most. -/
structure Orderly (c : Cursor δ) : Prop where
  segment_le : ∀ {o}, c.opened = some o → o.segment ≤ c.locator.segment
  next_le : ∀ {o}, c.opened = some o → o.segment = c.locator.segment →
    o.next = 0 ∨ ∃ previous, c.lastRow = some previous ∧ c.locator.base + o.next ≤ previous + 1

theorem orderly_new : ({} : Cursor δ).Orderly where
  segment_le := nofun
  next_le := nofun

/-- A locator that goes on leaves the open segment behind. -/
theorem Orderly.goOn (hc : c.Orderly) {l : Locator} (hl : c.locator.GoesOn l) :
    ({ c with locator := l } : Cursor δ).Orderly where
  segment_le ho := (hc.segment_le ho).trans hl.segment_le
  next_le {o} ho hat := by
    have hat : o.segment = l.segment := hat
    obtain rfl := hl.eq_of_le (hat ▸ hc.segment_le ho)
    exact hc.next_le ho hat

/-- The segment where the locator is, once entered, is entered at or before the row. -/
theorem Orderly.enter (hc : c.Orderly) {place : Location} (hsegment : place.segment = c.locator.segment)
    (hlast : ∀ previous, c.lastRow = some previous → previous < row)
    (hrow : c.locator.base + place.offset = row) {o : Entered δ} {calls : List Access}
    (henter : enter segments place.segment c.opened = (.ok o, calls)) :
    o.segment = place.segment ∧ o.next ≤ place.offset ∧
      (o.next = 0 ∨ ∃ previous, c.lastRow = some previous ∧ c.locator.base + o.next ≤ previous + 1) := by
  unfold Cursor.enter at henter
  cases hopened : c.opened.filter (·.segment = place.segment) with
  | some known =>
    rw [hopened] at henter
    cases henter
    obtain ⟨hsome, hsame⟩ := Option.filter_eq_some_iff.mp hopened
    have hsame : o.segment = place.segment := of_decide_eq_true hsame
    have hnext := hc.next_le hsome (hsame.trans hsegment)
    refine ⟨hsame, ?_, hnext⟩
    rcases hnext with hzero | ⟨previous, hprevious, hle⟩
    · rw [hzero]
      exact Nat.zero_le _
    · have hlt := hlast previous hprevious
      omega
  | none =>
    rw [hopened] at henter
    cases hdecoder : segments.decoder place.segment with
    | error e =>
      rw [hdecoder] at henter
      cases henter
    | ok d =>
      rw [hdecoder] at henter
      cases henter
      exact ⟨rfl, Nat.zero_le _, .inl rfl⟩

/-- A read keeps the order, however it ends. -/
theorem Orderly.read (hc : c.Orderly) (segments : Segments δ α) (row : Nat) :
    (c.read segments row).cursor.Orderly := by
  unfold Cursor.read
  cases hfirst : c.lastRow.filter (row ≤ ·) with
  | some previous => exact hc
  | none =>
    have hlast : ∀ previous, c.lastRow = some previous → previous < row := by
      intro previous hprevious
      simpa using Option.filter_eq_none_iff.mp hfirst previous hprevious
    obtain ⟨hon, hfound⟩ := Locator.locate_goesOn segments.count segments.size row c.locator
    have hmoved := hc.goOn hon
    unfold seek seekFrom
    dsimp only
    split
    case h_1 => exact hmoved
    case h_2 place hresult =>
      obtain ⟨hsegment, hrow⟩ := hfound place hresult
      split
      -- the segment could not be entered, and none is open any more
      case h_1 => exact ⟨nofun, nofun⟩
      case h_2 o entered henter =>
        obtain ⟨hsame, hle, hnext⟩ := hmoved.enter hsegment hlast hrow henter
        obtain ⟨hstays, hoffset⟩ := o.read_next segments place.offset
        split
        -- the decoder may have moved, but what the cursor counts from has not
        case h_1 e o' decoded hread =>
          rw [hread] at hstays hoffset
          have hsame' : o'.next = o.next := by simpa using hoffset
          refine ⟨?_, ?_⟩
          · rintro _ ⟨⟩
            exact (hstays.trans (hsame.trans hsegment)).le
          · rintro _ ⟨⟩ -
            rw [hsame']
            exact hnext
        case h_2 value o' decoded hread =>
          rw [hread] at hstays hoffset
          refine ⟨?_, ?_⟩
          · rintro _ ⟨⟩
            exact (hstays.trans (hsame.trans hsegment)).le
          · rintro _ ⟨⟩ -
            have hoffset' : o'.next ≤ place.offset + 1 := by
              rcases hoffset with hsame' | ⟨hsame', -⟩
              · exact hsame'.le.trans (Nat.le_succ_of_le hle)
              · exact hsame'.le
            refine .inr ⟨row, rfl, ?_⟩
            show (Locator.locate segments.count segments.size row c.locator).locator.base + o'.next ≤ row + 1
            have hrow : (Locator.locate segments.count segments.size row c.locator).locator.base + place.offset =
              row := hrow
            omega

/-! ## Runs of requests -/

/-- A row that is asked for, and the segments as they answer meanwhile. -/
structure Request (δ α : Type) where
  segments : Segments δ α
  row : Nat

/-- The cursor after requests for some rows, gone on with after errors. -/
def afterRequests (requests : List (Request δ α)) (c : Cursor δ) : Cursor δ :=
  requests.foldl (fun c request => (c.read request.segments request.row).cursor) c

/-- The rows that were read, of those that were asked for. -/
def rowsRead : List (Request δ α) → Cursor δ → List Nat
  | [], _ => []
  | request :: requests, c =>
    let reading := c.read request.segments request.row
    match reading.result with
    | .ok _ => request.row :: rowsRead requests reading.cursor
    | .error _ => rowsRead requests reading.cursor

theorem Orderly.afterRequests (hc : c.Orderly) (requests : List (Request δ α)) :
    (c.afterRequests requests).Orderly := by
  induction requests generalizing c with
  | nil => exact hc
  | cons request requests ih => exact ih (hc.read request.segments request.row)

/-- A read that fails leaves the last row read as it was. -/
theorem lastRow_of_error {e : Failure} (h : (c.read segments row).result = .error e) :
    (c.read segments row).cursor.lastRow = c.lastRow := by
  revert h
  unfold Cursor.read
  split
  · exact fun _ => rfl
  · simp only [seek, seekFrom]
    split
    · exact fun _ => rfl
    · split
      · exact fun _ => rfl
      · split
        · exact fun _ => rfl
        · rintro ⟨⟩

/-- The rows read ascend from the last row that was read before them. -/
theorem rowsRead_ascend (requests : List (Request δ α)) (c : Cursor δ) :
    (c.rowsRead requests).Pairwise (· < ·) ∧
      ∀ previous, c.lastRow = some previous → ∀ row ∈ c.rowsRead requests, previous < row := by
  induction requests generalizing c with
  | nil => simp [rowsRead]
  | cons request requests ih =>
    obtain ⟨hascend, hlater⟩ := ih (c.read request.segments request.row).cursor
    rw [rowsRead]
    cases hresult : (c.read request.segments request.row).result with
    | error e =>
      rw [lastRow_of_error hresult] at hlater
      exact ⟨hascend, hlater⟩
    | ok value =>
      obtain ⟨hearlier, hlast⟩ := read_eq_ok hresult
      have hrow := hlater request.row hlast
      refine ⟨List.pairwise_cons.mpr ⟨hrow, hascend⟩, fun previous hprevious => ?_⟩
      have hlt := hearlier previous hprevious
      exact List.forall_mem_cons.mpr ⟨hlt, fun later hmem => hlt.trans (hrow later hmem)⟩

/-! ## Exact differences -/

/-- Where reading the row takes a difference of row numbers, what is taken is not more than what it is taken
    from. -/
structure Subtracts (segments : Segments δ α) (row : Nat) (c : Cursor δ) : Prop where
  /-- The offset of a row that is found is the row less the rows before its segment. -/
  offset : ∀ place, (c.locator.locate segments.count segments.size row).result = .ok place →
    (c.locator.locate segments.count segments.size row).locator.base ≤ row ∧
      place.offset = row - (c.locator.locate segments.count segments.size row).locator.base
  /-- What is skipped in the segment that is entered is the offset less the one that is counted from. -/
  gap : (∀ previous, c.lastRow = some previous → previous < row) →
    ∀ place, (c.locator.locate segments.count segments.size row).result = .ok place →
      ∀ o calls, enter segments place.segment c.opened = (.ok o, calls) → o.next ≤ place.offset

theorem Orderly.subtracts (hc : c.Orderly) (segments : Segments δ α) (row : Nat) :
    c.Subtracts segments row := by
  obtain ⟨hon, hfound⟩ := Locator.locate_goesOn segments.count segments.size row c.locator
  constructor
  case offset =>
    intro place hresult
    obtain ⟨-, hrow⟩ := hfound place hresult
    omega
  case gap =>
    intro hlast place hresult o calls henter
    obtain ⟨hsegment, hrow⟩ := hfound place hresult
    obtain ⟨-, hle, -⟩ := (hc.goOn hon).enter hsegment hlast hrow henter
    exact hle

end Cursor

/-- Whatever rows are asked for and whatever the segments answer, no difference that is taken on the way is of a
    number and a greater one, and every row that is read comes after all that were read before. A decoder of a
    chunk has passed over no more rows than the chunk has, and one of records takes those that it passes over from
    as many at least. -/
theorem differences_are_exact :
    (∀ {δ α : Type} (before : List (Cursor.Request δ α)) (request : Cursor.Request δ α),
        (({} : Cursor δ).afterRequests before).Subtracts request.segments request.row) ∧
      (∀ {δ α : Type} (requests : List (Cursor.Request δ α)),
        (({} : Cursor δ).rowsRead requests).Pairwise (· < ·)) ∧
      (∀ {α : Type} (chunks : List (List α)) (segment : Nat) (values : List α) (calls : List Call),
        (Segments.ofChunks chunks).passed calls ⟨segment, values⟩ ≤ values.length ∧
          (Segments.ofChunks chunks).afterCalls calls ⟨segment, values⟩ =
            ⟨segment, values.drop ((Segments.ofChunks chunks).passed calls ⟨segment, values⟩)⟩) ∧
      ∀ {α : Type} (t : Parquet.FileTable) (read : Record.LeafArray → List (Stored α)) (column : Nat)
        (d : RecordDecoder α) (call : Call),
        call.passed ((t.segments read column).perform d call).1 ≤ d.remaining ∧
          ((t.segments read column).perform d call).2.remaining =
            d.remaining - call.passed ((t.segments read column).perform d call).1 := by
  refine ⟨fun before request => ?_, fun requests => ?_, fun chunks segment values calls => ?_,
    fun t read column d call => ?_⟩
  · exact (Cursor.orderly_new.afterRequests before).subtracts request.segments request.row
  · exact (Cursor.rowsRead_ascend requests {}).1
  · exact ChunkDecoder.afterCalls_eq chunks ⟨segment, values⟩ calls
  · have hpassed := RecordDecoder.perform_passed (t.segments read column) rfl rfl d call
    omega

/-- Decoding the third row fails after the second was passed over. When the second is asked for then, it lies no
    less far into the segment than the cursor counts from. -/
theorem differences_are_exact_after_failed_decoding :
    let sound := Segments.ofChunks [["a", "b", "c"]]
    let broken := { sound with next := fun d => (.error (.truncatedSegment 0 1 0), d) }
    let before : List (Cursor.Request (ChunkDecoder String) String) := [⟨sound, 0⟩, ⟨broken, 2⟩]
    let c := ({} : Cursor (ChunkDecoder String)).afterRequests before
    c = ⟨⟨0, 0⟩, some ⟨0, ⟨0, ["c"]⟩, 1⟩, some 0⟩ ∧
      (∃ o, Cursor.enter sound 0 c.opened = (.ok o, []) ∧ o.next ≤ 1) ∧
      (({} : Cursor (ChunkDecoder String)).rowsRead (before ++ [⟨sound, 1⟩])).Pairwise (· < ·) := by
  intro sound broken before c
  obtain ⟨hsubtracts, hascend, -, -⟩ := differences_are_exact
  have hcursor : c = ⟨⟨0, 0⟩, some ⟨0, ⟨0, ["c"]⟩, 1⟩, some 0⟩ := by
    show ({} : Cursor (ChunkDecoder String)).afterRequests
      [⟨Segments.ofChunks [["a", "b", "c"]], 0⟩,
        ⟨{ Segments.ofChunks [["a", "b", "c"]] with next := fun d => (.error (.truncatedSegment 0 1 0), d) }, 2⟩] = _
    cbv
  have hfound : (c.locator.locate sound.count sound.size 1).result = .ok ⟨0, 1⟩ := by
    rw [hcursor]
    show (Locator.locate 1 (Segments.ofChunks [["a", "b", "c"]]).size 1 ⟨0, 0⟩).result = _
    cbv
  have henter : Cursor.enter sound 0 c.opened = (.ok ⟨0, ⟨0, ["c"]⟩, 1⟩, []) := by
    rw [hcursor]
    rfl
  have hlater : ∀ previous, c.lastRow = some previous → previous < 1 := by
    rw [hcursor]
    rintro _ ⟨⟩
    exact Nat.one_pos
  have hgap := (hsubtracts before ⟨sound, 1⟩).gap hlater ⟨0, 1⟩ hfound _ _ henter
  exact ⟨hcursor, ⟨_, henter, hgap⟩, hascend _⟩

end Pushdown

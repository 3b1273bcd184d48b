-- SUMMARY: Chunks behind sizes that are not theirs never give their values to other rows.
import Pushdown.Proofs.Memory.Table
import Pushdown.Proofs.Segments.Words

/-!
# Chunks behind wrong sizes

A store may report more segments than it has chunks, or fewer, and sizes that its chunks do not have. The sizes
decide in which segment a row lies and how far from its front, and the chunks what is there, if they reach that
far. A row past the end of its chunk cannot be read. The attempt may use up the chunk all the same, while the
cursor goes on counting from the last row that it read.

So the decoder of the open segment stands at the offset that the cursor counts from, or it has run out. In the
second case it gives nothing more, and it is in it only after a request for a row past the end. This is what one
request leaves for the next, whatever the rows are and however the requests ended.

The rows that the sizes stand for must be numbers that a machine word holds. A sum that wraps around makes a
cursor take later segments for earlier ones.
-/

namespace Pushdown

variable {α : Type} {segments : Segments (ChunkDecoder α) α} {chunks : List (List α)} {sizes : List Nat}

/-- The chunk that a segment is opened as. One past the last chunk is empty. -/
def chunkAt (chunks : List (List α)) (segment : Nat) : List α := chunks[segment]?.getD []

/-- The segments are opened as the chunks, whatever is reported of them. -/
structure Segments.OpensChunks (segments : Segments (ChunkDecoder α) α) (chunks : List (List α)) : Prop where
  decoder : ∀ segment, segments.decoder segment = .ok ⟨segment, chunkAt chunks segment⟩
  skip : ∀ d n, segments.skip d n = d.skip n
  next : ∀ d, segments.next d = d.next

namespace Segments

end Segments

/-! ## Decoders of chunks -/

namespace ChunkDecoder

theorem next_of_some {d : ChunkDecoder α} {value : α} (h : d.rest[0]? = some value) :
    d.next = (.ok value, { d with rest := d.rest.drop 1 }) := by
  obtain ⟨segment, rest⟩ := d
  cases rest with
  | nil => cases h
  | cons first rest =>
    cases h
    rfl

theorem next_of_none {d : ChunkDecoder α} (h : d.rest[0]? = none) :
    d.next = (.error (.truncatedSegment d.segment 1 0), d) := by
  obtain ⟨segment, rest⟩ := d
  cases rest with
  | nil => rfl
  | cons first rest => cases h

end ChunkDecoder

namespace Entered

variable {o : Entered (ChunkDecoder α)} {offset : Nat}

/-- A value that lies ahead of the decoder, as far as the row lies past the next offset, is handed out. -/
theorem read_of_some (h : segments.OpensChunks chunks) {value : α}
    (hvalue : o.decoder.rest[offset - o.next]? = some value) :
    ∃ calls, o.read segments offset = (.ok value,
      { o with
        decoder := { o.decoder with rest := o.decoder.rest.drop (offset - o.next + 1) }
        next := offset + 1 }, calls) := by
  unfold read
  by_cases hgap : offset - o.next = 0
  · rw [hgap] at hvalue
    rw [if_pos hgap, hgap]
    simp only [decodeAt, h.next, ChunkDecoder.next_of_some hvalue]
    exact ⟨_, rfl⟩
  · obtain ⟨hlt, -⟩ := List.getElem?_eq_some_iff.mp hvalue
    have hfront : ({ o.decoder with rest := o.decoder.rest.drop (offset - o.next) } : ChunkDecoder α).rest[0]? =
        some value := by
      rw [List.getElem?_drop, Nat.add_zero, hvalue]
    rw [if_neg hgap, h.skip, ChunkDecoder.skip_of_le hlt.le]
    simp only [decodeAt, h.next, ChunkDecoder.next_of_some hfront, List.drop_drop]
    exact ⟨_, rfl⟩

/-- Where nothing lies that far ahead, the read fails. The decoder then stands where it stood, or has run out. -/
theorem read_of_none (h : segments.OpensChunks chunks)
    (hnone : o.decoder.rest[offset - o.next]? = none) :
    ∃ e d' calls, o.read segments offset = (.error e, { o with decoder := d' }, calls) ∧
      (d'.rest = o.decoder.rest ∨ d'.rest = []) := by
  unfold read
  by_cases hgap : offset - o.next = 0
  · rw [hgap] at hnone
    rw [if_pos hgap]
    simp only [decodeAt, h.next, ChunkDecoder.next_of_none hnone]
    exact ⟨_, _, _, rfl, .inl rfl⟩
  · have hle := List.getElem?_eq_none_iff.mp hnone
    rw [if_neg hgap, h.skip]
    rcases Nat.lt_or_eq_of_le hle with hlt | heq
    · rw [ChunkDecoder.skip_of_lt hlt]
      exact ⟨_, _, _, rfl, .inl rfl⟩
    · have hend : o.decoder.rest.drop (offset - o.next) = [] := List.drop_eq_nil_of_le hle
      rw [ChunkDecoder.skip_of_le heq.ge]
      simp only [decodeAt, h.next, ChunkDecoder.next, hend]
      exact ⟨_, _, _, rfl, .inr rfl⟩

/-! ## The invariant of a cursor -/

/-- A row that was asked for lies in the segment, past the end of its chunk. -/
def Overrun (sizes : List Nat) (chunks : List (List α)) (earlier : List Nat) (segment : Nat) : Prop :=
  ∃ row ∈ earlier, ∃ offset, LiesAt sizes row ⟨segment, offset⟩ ∧ (chunkAt chunks segment).length ≤ offset

theorem Overrun.append {earlier : List Nat} {segment : Nat} (h : Overrun sizes chunks earlier segment)
    (more : List Nat) : Overrun sizes chunks (earlier ++ more) segment := by
  obtain ⟨row, hrow, hlies⟩ := h
  exact ⟨row, List.mem_append_left _ hrow, hlies⟩

/-- Behind the rows that were asked for, the chunk has nothing more in a segment that was overrun. -/
theorem Overrun.getElem?_eq_none {rows : List Nat} {place : Location} {row : Nat}
    (h : Overrun sizes chunks rows place.segment) (hle : ∀ r ∈ rows, r ≤ row) (hrow : LiesAt sizes row place) :
    (chunkAt chunks place.segment)[place.offset]? = none := by
  obtain ⟨r, hr, offset, hlies, hend⟩ := h
  have hbefore := hle r hr
  have hat := hrow.row_eq
  have hat' : rowsBefore sizes place.segment + offset = r := hlies.row_eq
  exact List.getElem?_eq_none (by omega)

/-- The decoder stands at the next offset of its chunk, or it has run out after a row past the end. -/
def StandsOrSpent (sizes : List Nat) (chunks : List (List α)) (earlier : List Nat)
    (o : Entered (ChunkDecoder α)) : Prop :=
  o.decoder.rest = (chunkAt chunks o.segment).drop o.next ∨
    o.decoder.rest = [] ∧ Overrun sizes chunks earlier o.segment

theorem StandsOrSpent.append {earlier : List Nat} (h : o.StandsOrSpent sizes chunks earlier) (more : List Nat) :
    o.StandsOrSpent sizes chunks (earlier ++ more) :=
  h.imp_right fun ⟨hspent, hover⟩ => ⟨hspent, hover.append more⟩

/-- If nothing lies as far ahead as the row, the row or one before it goes past the end of the chunk. -/
theorem StandsOrSpent.overrun {earlier : List Nat} {row : Nat} (h : o.StandsOrSpent sizes chunks earlier)
    (hrow : LiesAt sizes row ⟨o.segment, offset⟩) (hnext : o.next ≤ offset)
    (hnone : o.decoder.rest[offset - o.next]? = none) : Overrun sizes chunks (earlier ++ [row]) o.segment := by
  rcases h with haligned | ⟨-, hover⟩
  · rw [haligned, List.getElem?_drop, Nat.add_sub_cancel' hnext] at hnone
    exact ⟨row, by simp, offset, hrow, List.getElem?_eq_none_iff.mp hnone⟩
  · exact hover.append [row]

end Entered

namespace Cursor

variable {c : Cursor (ChunkDecoder α)} {earlier : List Nat} {row : Nat} {place : Location}

/-- The cursor after requests for some rows. -/
structure Keeps (sizes : List Nat) (chunks : List (List α)) (earlier : List Nat)
    (c : Cursor (ChunkDecoder α)) : Prop where
  atFront : c.locator.AtFront sizes
  base_le : c.locator.base = 0 ∨ ∃ row ∈ earlier, c.locator.base ≤ row
  lastRow_mem : ∀ {previous}, c.lastRow = some previous → previous ∈ earlier
  next_eq : ∀ {o}, c.opened = some o →
    o.next = 0 ∨ ∃ previous, c.lastRow = some previous ∧ rowsBefore sizes o.segment + o.next = previous + 1
  stands : ∀ {o}, c.opened = some o → o.StandsOrSpent sizes chunks earlier

/-- What a read may come to. A value is that of the row. And a row that is asked for in its turn is given its
    value, if its chunk reaches as far. -/
structure Answered (sizes : List Nat) (chunks : List (List α)) (earlier : List Nat) (row : Nat)
    (result : Except Failure α) : Prop where
  own : ∀ {value}, result = .ok value →
    ∃ place, LiesAt sizes row place ∧ (chunkAt chunks place.segment)[place.offset]? = some value
  given : (∀ r ∈ earlier, r < row) → ∀ {place value}, LiesAt sizes row place →
    (chunkAt chunks place.segment)[place.offset]? = some value → result = .ok value

/-- A request that is refused leaves the cursor as it was, but for a locator that may go on. -/
theorem Keeps.refuse (hc : c.Keeps sizes chunks earlier) {l : Locator} (hl : l.AtFront sizes)
    (hbase : l.base = 0 ∨ ∃ r ∈ earlier ++ [row], l.base ≤ r) :
    ({ c with locator := l } : Cursor (ChunkDecoder α)).Keeps sizes chunks (earlier ++ [row]) where
  atFront := hl
  base_le := hbase
  lastRow_mem h := List.mem_append_left _ (hc.lastRow_mem h)
  next_eq := hc.next_eq
  stands h := (hc.stands h).append _

theorem Keeps.stay (hc : c.Keeps sizes chunks earlier) (row : Nat) :
    c.Keeps sizes chunks (earlier ++ [row]) :=
  hc.refuse hc.atFront (hc.base_le.imp_right fun ⟨r, hr, hle⟩ => ⟨r, List.mem_append_left _ hr, hle⟩)

/-- A row that comes after all others is not before the locator. -/
theorem Keeps.base_le_of_lt (hc : c.Keeps sizes chunks earlier) (hlater : ∀ r ∈ earlier, r < row) :
    c.locator.base ≤ row := by
  rcases hc.base_le with hzero | ⟨r, hr, hle⟩
  · rw [hzero]
    exact Nat.zero_le _
  · exact hle.trans (hlater r hr).le

/-- The segment of a row is entered at or before the offset of the row. -/
theorem Keeps.enter_eq (h : segments.OpensChunks chunks) (hc : c.Keeps sizes chunks earlier)
    (hrow : LiesAt sizes row place) (hlast : ∀ previous, c.lastRow = some previous → previous < row) :
    ∃ o calls, enter segments place.segment c.opened = (.ok o, calls) ∧ o.segment = place.segment ∧
      o.next ≤ place.offset ∧ o.StandsOrSpent sizes chunks earlier ∧
      (o.next = 0 ∨ ∃ previous, c.lastRow = some previous ∧
        rowsBefore sizes o.segment + o.next = previous + 1) := by
  unfold enter
  cases hopened : c.opened.filter (·.segment = place.segment) with
  | some o =>
    obtain ⟨hsome, hsame⟩ := Option.filter_eq_some_iff.mp hopened
    have hsegment : o.segment = place.segment := of_decide_eq_true hsame
    have hnext := hc.next_eq hsome
    refine ⟨o, [], rfl, hsegment, ?_, hc.stands hsome, hnext⟩
    rcases hnext with hzero | ⟨previous, hprevious, hstart⟩
    · rw [hzero]
      exact Nat.zero_le _
    · have hlt := hlast previous hprevious
      have hat := hrow.row_eq
      rw [hsegment] at hstart
      omega
  | none =>
    refine ⟨⟨place.segment, ⟨place.segment, chunkAt chunks place.segment⟩, 0⟩, [.enter place.segment], ?_, rfl,
      Nat.zero_le _, .inl rfl, .inl rfl⟩
    rw [h.decoder]
    rfl

/-- A read of a row that was located gives the value that its chunk has there, or fails if there is none. -/
theorem Keeps.seek_of_liesAt (h : segments.OpensChunks chunks) (hsized : segments.Sized sizes)
    (hc : c.Keeps sizes chunks earlier) (hbase : c.locator.base ≤ row)
    (hlast : ∀ previous, c.lastRow = some previous → previous < row) (hrow : LiesAt sizes row place) :
    Answered sizes chunks earlier row (c.seek segments row).result ∧
      (c.seek segments row).cursor.Keeps sizes chunks (earlier ++ [row]) := by
  obtain ⟨hresult, hlocator⟩ := Locator.locate_of_liesAt hsized hc.atFront hbase hrow
  obtain ⟨o, entered, henter, hsegment, hnext, hstands, hprevious⟩ := hc.enter_eq h hrow hlast
  have hfront := Locator.atFront_of_liesAt hrow
  have hreached : rowsBefore sizes place.segment ≤ row := hrow.bounds.1
  have hbase' : rowsBefore sizes place.segment = 0 ∨
      ∃ r ∈ earlier ++ [row], rowsBefore sizes place.segment ≤ r := .inr ⟨row, by simp, hreached⟩
  have hat : rowsBefore sizes o.segment + (place.offset + 1) = row + 1 := by
    rw [hsegment, ← Nat.add_assoc, hrow.row_eq]
  simp only [seek, seekFrom, hresult, hlocator, henter]
  cases hahead : o.decoder.rest[place.offset - o.next]? with
  | some value =>
    obtain ⟨calls, hread⟩ := Entered.read_of_some h hahead
    -- a decoder that has run out has nothing ahead, so this one stands at the next offset
    have haligned : o.decoder.rest = (chunkAt chunks o.segment).drop o.next := by
      rcases hstands with haligned | ⟨hspent, -⟩
      · exact haligned
      · rw [hspent] at hahead
        cases hahead
    have hvalue : (chunkAt chunks place.segment)[place.offset]? = some value := by
      rw [haligned, List.getElem?_drop, Nat.add_sub_cancel' hnext, hsegment] at hahead
      exact hahead
    simp only [hread]
    refine ⟨⟨?_, ?_⟩, ⟨hfront, hbase', ?_, ?_, ?_⟩⟩
    · rintro _ ⟨⟩
      exact ⟨place, hrow, hvalue⟩
    · intro _ other found hother hfound
      obtain rfl := hother.unique hrow
      rw [hvalue] at hfound
      cases hfound
      rfl
    · rintro _ ⟨⟩
      simp
    · rintro _ ⟨⟩
      exact .inr ⟨row, rfl, hat⟩
    · rintro _ ⟨⟩
      refine .inl ?_
      show o.decoder.rest.drop (place.offset - o.next + 1) = (chunkAt chunks o.segment).drop (place.offset + 1)
      rw [haligned, List.drop_drop]
      congr 1
      omega
  | none =>
    obtain ⟨e, d', calls, hread, hleft⟩ := Entered.read_of_none h hahead
    have hover : Entered.Overrun sizes chunks (earlier ++ [row]) o.segment :=
      hstands.overrun (hsegment ▸ hrow) hnext hahead
    simp only [hread]
    refine ⟨⟨by rintro _ ⟨⟩, ?_⟩, ⟨hfront, hbase', ?_, ?_, ?_⟩⟩
    · intro hlater other found hother hfound
      obtain rfl := hother.unique hrow
      have hle : ∀ r ∈ earlier ++ [row], r ≤ row :=
        List.forall_mem_append.mpr ⟨fun r hr => (hlater r hr).le, by simp⟩
      rw [hsegment] at hover
      rw [hover.getElem?_eq_none hle hrow] at hfound
      cases hfound
    · exact fun hprevious => List.mem_append_left _ (hc.lastRow_mem hprevious)
    · rintro _ ⟨⟩
      exact hprevious
    · rintro _ ⟨⟩
      rcases hleft with hsame | hspent
      · exact (hstands.append [row]).imp hsame.trans (And.imp_left hsame.trans)
      · exact .inr ⟨hspent, hover⟩

/-- One read keeps the invariant, and comes to what the row and the requests before it allow. -/
theorem Keeps.read (h : segments.OpensChunks chunks) (hsized : segments.Sized sizes)
    (hc : c.Keeps sizes chunks earlier) (row : Nat) :
    Answered sizes chunks earlier row (c.read segments row).result ∧
      (c.read segments row).cursor.Keeps sizes chunks (earlier ++ [row]) := by
  unfold Cursor.read
  cases hfirst : c.lastRow.filter (row ≤ ·) with
  | some previous =>
    obtain ⟨hprevious, hle⟩ := Option.filter_eq_some_iff.mp hfirst
    refine ⟨⟨by rintro _ ⟨⟩, fun hlater => ?_⟩, hc.stay row⟩
    exact absurd (hlater previous (hc.lastRow_mem hprevious)) (Nat.not_lt.mpr (of_decide_eq_true hle))
  | none =>
    have hlast : ∀ previous, c.lastRow = some previous → previous < row := by
      intro previous hprevious
      simpa using Option.filter_eq_none_iff.mp hfirst previous hprevious
    rcases Nat.lt_or_ge row c.locator.base with hbase | hbase
    · simp only [seek, seekFrom, Locator.locate, if_pos hbase]
      refine ⟨⟨by rintro _ ⟨⟩, fun hlater => ?_⟩, hc.stay row⟩
      exact absurd (hc.base_le_of_lt hlater) (Nat.not_le.mpr hbase)
    · rcases Nat.lt_or_ge row sizes.sum with hlt | hge
      · exact hc.seek_of_liesAt h hsized hbase hlast (liesAt_placeOf hlt)
      · obtain ⟨hfront, -⟩ := hc.atFront.advance hsized row
        simp only [seek, seekFrom, Locator.locate, if_neg (Nat.not_lt.mpr hbase),
          Locator.advance_of_sum_le hsized hc.atFront hge]
        refine ⟨⟨by rintro _ ⟨⟩, fun _ place value hrow _ => ?_⟩, hc.refuse hfront (.inr ⟨row, by simp, ?_⟩)⟩
        · exact absurd hrow.lt_sum (Nat.not_lt.mpr hge)
        · exact hfront.base_le_sum.trans hge

end Cursor

/-! ## Reading on -/

namespace Segments

end Segments

end Pushdown

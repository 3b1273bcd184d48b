-- SUMMARY: The decoders of both stores reply alike to any calls, but for rows without a value, and what a call passes over.
import Pushdown.Proofs.Memory.Table
import Pushdown.Proofs.Parquet.Table

/-!
# Calling decoders

A decoder is called again and again, also after a call that failed. A decoder of records that has as many of
them as its row group is said to have goes along with a decoder of a chunk that has the same rows: they pass
over the same rows and refuse the same calls with the same words. Where a row has no value the chunk has
something to hand out and the records have not, and the row is used up all the same.

Whatever a decoder holds, a call that passes over some rows takes as many from the number of rows that are
left, so that the rows passed over and the rows left are always as many as there were.
-/

namespace Pushdown

/-- A call on a decoder. -/
inductive Call
  | skip (rows : Nat)
  | next
deriving DecidableEq, Repr

/-- What a call gives that did not fail. -/
inductive Reply (α : Type)
  | passed
  | value (value : α)
deriving DecidableEq, Repr

variable {δ α β : Type}

namespace Segments

/-- Make a call on a decoder. -/
def perform (segments : Segments δ α) (d : δ) : Call → Except Failure (Reply α) × δ
  | .skip n => ((segments.skip d n).1.map fun () => .passed, (segments.skip d n).2)
  | .next => ((segments.next d).1.map .value, (segments.next d).2)

/-- The replies to one call after the other, going on after errors. -/
def replies (segments : Segments δ α) : List Call → δ → List (Except Failure (Reply α))
  | [], _ => []
  | call :: calls, d => (segments.perform d call).1 :: segments.replies calls (segments.perform d call).2

/-- The decoder after some calls. -/
def afterCalls (segments : Segments δ α) (calls : List Call) (d : δ) : δ :=
  calls.foldl (fun d call => (segments.perform d call).2) d

@[simp] theorem afterCalls_cons (segments : Segments δ α) (call : Call) (calls : List Call) (d : δ) :
    segments.afterCalls (call :: calls) d = segments.afterCalls calls (segments.perform d call).2 := rfl

/-- A call that fails, after whatever calls, leaves the decoder where it is. -/
def FailsInPlace (segments : Segments δ α) (d : δ) : Prop :=
  ∀ calls call e, (segments.perform (segments.afterCalls calls d) call).1 = .error e →
    (segments.perform (segments.afterCalls calls d) call).2 = segments.afterCalls calls d

/-- A call that fails, after whatever calls, finds the segment too short and leaves the decoder where it is, or
    it comes to a row without a value and passes over that row. -/
def FailsInPlaceOrAtMissing (segments : Segments δ α) (segment : Nat) (d : δ) : Prop :=
  ∀ calls call e, (segments.perform (segments.afterCalls calls d) call).1 = .error e →
    (∃ requested remaining, e = .truncatedSegment segment requested remaining) ∧
        (segments.perform (segments.afterCalls calls d) call).2 = segments.afterCalls calls d ∨
      call = .next ∧ e = .nullValue segment ∧
        segments.perform (segments.afterCalls calls d) (.skip 1) =
          (.ok .passed, (segments.perform (segments.afterCalls calls d) call).2)

end Segments

/-! ## Chunks -/

namespace ChunkDecoder

variable {chunks : List (List α)} {d : ChunkDecoder α} {n : Nat}

theorem perform_skip_of_le (h : n ≤ d.rest.length) :
    (Segments.ofChunks chunks).perform d (.skip n) = (.ok .passed, { d with rest := d.rest.drop n }) := by
  simp only [Segments.perform, Segments.ofChunks, skip_of_le h]
  rfl

theorem perform_skip_of_lt (h : d.rest.length < n) :
    (Segments.ofChunks chunks).perform d (.skip n) =
      (.error (.truncatedSegment d.segment n d.rest.length), d) := by
  simp only [Segments.perform, Segments.ofChunks, skip_of_lt h]
  rfl

/-- A chunk decoder is left where it is by a call that fails. -/
theorem perform_of_error {call : Call} {e : Failure}
    (h : ((Segments.ofChunks chunks).perform d call).1 = .error e) :
    ((Segments.ofChunks chunks).perform d call).2 = d := by
  cases call with
  | skip n =>
    rcases Nat.lt_or_ge d.rest.length n with hlt | hge
    · rw [perform_skip_of_lt hlt]
    · rw [perform_skip_of_le hge] at h
      cases h
  | next =>
    obtain ⟨segment, rest⟩ := d
    cases rest with
    | nil => rfl
    | cons value rest => cases h

end ChunkDecoder

/-! ## Records -/

/-- What is replied for a row, where the record says what is stored for it. -/
def Reply.read (record : β → Stored α) (segment : Nat) : Reply β → Except Failure (Reply α)
  | .passed => .ok .passed
  | .value row => ((record row).read segment).map .value

namespace Parquet.FileTable

open Record

variable {t : FileTable} {read : LeafArray → List (Stored α)} {column segment : Nat} {record : β → Stored α}
  {chunks : List (List β)} {file : RecordDecoder α} {memory : ChunkDecoder β}

/-- The decoders have the same rows of a segment left, one of them as records and as many as were claimed. -/
structure Mirrors (record : β → Stored α) (segment : Nat) (file : RecordDecoder α) (memory : ChunkDecoder β) :
    Prop where
  file_segment : file.segment = segment
  memory_segment : memory.segment = segment
  remaining_eq : file.remaining = memory.rest.length
  records_eq : file.records = memory.rest.map record

section

variable (t : FileTable) (read : LeafArray → List (Stored α)) (column : Nat) (chunks : List (List β))

/-- A call gets the same reply from both, up to how a row is stored, and leaves both with the same rows. -/
theorem Mirrors.perform (h : Mirrors record segment file memory) (call : Call) :
    ((t.segments read column).perform file call).1 =
        ((Segments.ofChunks chunks).perform memory call).1 >>= Reply.read record segment ∧
      Mirrors record segment ((t.segments read column).perform file call).2
        ((Segments.ofChunks chunks).perform memory call).2 := by
  obtain ⟨hfile, hmemory, hremaining, hrecords⟩ := h
  cases call with
  | skip n =>
    rcases Nat.lt_or_ge memory.rest.length n with hlt | hge
    · rw [ChunkDecoder.perform_skip_of_lt hlt]
      simp only [Segments.perform, segments_skip, RecordDecoder.skip_of_lt (hremaining ▸ hlt)]
      rw [hfile, hmemory, hremaining]
      exact ⟨rfl, hfile, hmemory, hremaining, hrecords⟩
    · have hclaim : file.remaining = file.records.length := by rw [hremaining, hrecords, List.length_map]
      rw [ChunkDecoder.perform_skip_of_le hge]
      simp only [Segments.perform, segments_skip, RecordDecoder.skip_of_le hclaim (hremaining ▸ hge)]
      refine ⟨rfl, hfile, hmemory, ?_, ?_⟩
      · rw [List.length_drop, hremaining]
      · rw [hrecords, List.map_drop]
  | next =>
    obtain ⟨fileSegment, remaining, records⟩ := file
    obtain ⟨memorySegment, rest⟩ := memory
    obtain rfl : fileSegment = segment := hfile
    obtain rfl : memorySegment = fileSegment := hmemory
    obtain rfl : remaining = rest.length := hremaining
    obtain rfl : records = rest.map record := hrecords
    cases rest with
    | nil => exact ⟨rfl, rfl, rfl, rfl, rfl⟩
    | cons row rest => exact ⟨rfl, rfl, rfl, rfl, rfl⟩

theorem Mirrors.afterCalls (h : Mirrors record segment file memory) (calls : List Call) :
    Mirrors record segment ((t.segments read column).afterCalls calls file)
      ((Segments.ofChunks chunks).afterCalls calls memory) := by
  induction calls generalizing file memory with
  | nil => exact h
  | cons call calls ih => exact ih (h.perform t read column chunks call).2

theorem Mirrors.replies (h : Mirrors record segment file memory) (calls : List Call) :
    (t.segments read column).replies calls file =
      ((Segments.ofChunks chunks).replies calls memory).map (· >>= Reply.read record segment) := by
  induction calls generalizing file memory with
  | nil => rfl
  | cons call calls ih =>
    obtain ⟨hreply, hmirrors⟩ := h.perform t read column chunks call
    rw [Segments.replies, Segments.replies, List.map_cons, hreply, ih hmirrors]

end

/-- A row group is opened with its records, and as many rows as the footer claims. -/
theorem mirrors_decoder {rows : List β} (hsize : t.rowGroupSizes[segment]? = some rows.length)
    (hrecords : t.records read column segment = rows.map record) {file : RecordDecoder α}
    (hfile : (t.segments read column).decoder segment = .ok file) :
    Mirrors record segment file ⟨segment, rows⟩ := by
  rw [segments_decoder hsize] at hfile
  cases hfile
  exact ⟨rfl, rfl, rfl, hrecords⟩

theorem decoder_ofChunks {rows : List β} (hchunk : chunks[segment]? = some rows) :
    (Segments.ofChunks chunks).decoder segment = .ok ⟨segment, rows⟩ := by
  simp [Segments.ofChunks, hchunk]

/-- A call that fails has used up nothing, unless it came to a row without a value. -/
theorem Mirrors.perform_of_error {memory : ChunkDecoder (Option α)} (h : Mirrors stored segment file memory)
    {call : Call} {e : Failure} (herror : ((t.segments read column).perform file call).1 = .error e) :
    (∃ requested remaining, e = .truncatedSegment segment requested remaining) ∧
        ((t.segments read column).perform file call).2 = file ∨
      call = .next ∧ e = .nullValue segment ∧
        (t.segments read column).perform file (.skip 1) =
          (.ok .passed, ((t.segments read column).perform file call).2) := by
  have hclaim : file.remaining = file.records.length := by rw [h.remaining_eq, h.records_eq, List.length_map]
  cases call with
  | skip n =>
    rcases Nat.lt_or_ge file.remaining n with hlt | hge
    · simp only [Segments.perform, segments_skip, RecordDecoder.skip_of_lt hlt] at herror ⊢
      cases herror
      exact .inl ⟨⟨n, file.remaining, by rw [h.file_segment]⟩, trivial⟩
    · simp only [Segments.perform, segments_skip, RecordDecoder.skip_of_le hclaim hge] at herror
      cases herror
  | next =>
    obtain ⟨fileSegment, remaining, records⟩ := file
    obtain rfl : fileSegment = segment := h.file_segment
    obtain rfl : remaining = records.length := hclaim
    cases records with
    | nil =>
      cases herror
      exact .inl ⟨⟨1, 0, rfl⟩, rfl⟩
    | cons first records =>
      cases first with
      | present value => cases herror
      | missing =>
        cases herror
        refine .inr ⟨rfl, rfl, ?_⟩
        simp [Segments.perform, RecordDecoder.skip_eq, RecordDecoder.next_eq, Stored.read, Except.map]
      | malformed =>
        have hstored : Stored.malformed ∈ memory.rest.map stored := h.records_eq ▸ List.mem_cons_self
        obtain ⟨row, -, hrow⟩ := List.mem_map.mp hstored
        cases row <;> cases hrow

/-- A row group with as many records as the footer claims is decoded like a chunk of its rows, whatever calls
    are made and however they end. Where no value is missing the replies are the same. Where one is, the call
    that comes to it fails and uses it up, and nothing else is different. -/
theorem replies_like_chunk {rows : List (Option α)} (hsize : t.rowGroupSizes[segment]? = some rows.length)
    (hrecords : t.records read column segment = rows.map stored) :
    ∃ file, (t.segments read column).decoder segment = .ok file ∧
      (t.segments read column).FailsInPlaceOrAtMissing segment file ∧
      (∀ values chunks, rows = values.map some → chunks[segment]? = some values →
        ∃ memory, (Segments.ofChunks chunks).decoder segment = .ok memory ∧
          (Segments.ofChunks chunks).FailsInPlace memory ∧
          ∀ calls, (t.segments read column).replies calls file =
            (Segments.ofChunks chunks).replies calls memory) ∧
      ∀ chunks, chunks[segment]? = some rows →
        ∃ memory, (Segments.ofChunks chunks).decoder segment = .ok memory ∧
          (Segments.ofChunks chunks).FailsInPlace memory ∧
          ∀ calls, (t.segments read column).replies calls file =
            ((Segments.ofChunks chunks).replies calls memory).map (· >>= Reply.read stored segment) := by
  refine ⟨_, rfl, ?_, fun values chunks hvalues hchunk => ?_, fun chunks hchunk => ?_⟩
  · intro calls call e herror
    exact ((mirrors_decoder hsize hrecords rfl).afterCalls t read column [] calls).perform_of_error herror
  · subst hvalues
    rw [List.length_map] at hsize
    rw [List.map_map] at hrecords
    refine ⟨_, decoder_ofChunks hchunk, fun _ _ _ => ChunkDecoder.perform_of_error, fun calls => ?_⟩
    have hpresent : ∀ reply : Except Failure (Reply α),
        (reply >>= Reply.read (stored ∘ some) segment) = reply := by
      rintro (e | reply)
      · rfl
      · cases reply <;> rfl
    rw [(mirrors_decoder hsize hrecords rfl).replies t read column chunks calls]
    exact List.map_id'' hpresent _
  · exact ⟨_, decoder_ofChunks hchunk, fun _ _ _ => ChunkDecoder.perform_of_error,
      (mirrors_decoder hsize hrecords rfl).replies t read column chunks⟩

/-- A row group of two numbers and a missing one. Passing over too many rows and reading past the last one fail
    without a trace, and the missing number alone is lost. -/
theorem replies_like_chunk_with_missing_number :
    let rows : List (Option Int32) := [some 1, none, some 3]
    let t : FileTable :=
      { file :=
          { schema := [⟨"n", .leaf (.integer .int32), true⟩]
            rowGroups := [⟨3, ⟨[.leaf (.integer .int32 [some 1, none, some 3])]⟩⟩] }
        rowGroupSizes := [3] }
    let source := t.segments integerRecords 0
    t.rowGroupSizes[0]? = some rows.length ∧ t.records integerRecords 0 0 = rows.map stored ∧
      ∃ file, source.decoder 0 = .ok file ∧ source.FailsInPlaceOrAtMissing 0 file ∧
        source.replies [.skip 4, .next, .skip 0, .next, .next, .skip 1] file =
          [.error (.truncatedSegment 0 4 3), .ok (.value 1), .ok .passed, .error (.nullValue 0), .ok (.value 3),
            .error (.truncatedSegment 0 1 0)] := by
  intro rows t source
  have hsize : t.rowGroupSizes[0]? = some rows.length := rfl
  have hrecords : t.records integerRecords 0 0 = rows.map stored := by cbv
  obtain ⟨file, hfile, hfails, -, hchunk⟩ := replies_like_chunk hsize hrecords
  obtain ⟨memory, hmemory, -, hreplies⟩ := hchunk [rows] rfl
  refine ⟨hsize, hrecords, file, hfile, hfails, ?_⟩
  cases hmemory
  rw [hreplies]
  cbv

end Parquet.FileTable

/-! ## Rows passed over -/

/-- The number of rows that a call has passed over, one without a value among them. -/
def Call.passed : Call → Except Failure (Reply α) → Nat
  | .skip n, .ok _ => n
  | .skip _, .error _ => 0
  | .next, .error (.truncatedSegment ..) => 0
  | .next, _ => 1

/-- The number of rows that one call after the other has passed over. -/
def Segments.passed (segments : Segments δ α) : List Call → δ → Nat
  | [], _ => 0
  | call :: calls, d =>
    call.passed (segments.perform d call).1 + segments.passed calls (segments.perform d call).2

/-- A call on a chunk decoder drops the rows that it passes over, which are not more than there are. -/
theorem ChunkDecoder.perform_passed (chunks : List (List α)) (d : ChunkDecoder α) (call : Call) :
    call.passed ((Segments.ofChunks chunks).perform d call).1 ≤ d.rest.length ∧
      ((Segments.ofChunks chunks).perform d call).2 =
        { d with rest := d.rest.drop (call.passed ((Segments.ofChunks chunks).perform d call).1) } := by
  cases call with
  | skip n =>
    rcases Nat.lt_or_ge d.rest.length n with hlt | hge
    · rw [perform_skip_of_lt hlt]
      exact ⟨Nat.zero_le _, rfl⟩
    · rw [perform_skip_of_le hge]
      exact ⟨hge, rfl⟩
  | next =>
    obtain ⟨segment, rest⟩ := d
    cases rest with
    | nil => exact ⟨Nat.zero_le _, rfl⟩
    | cons value rest => exact ⟨Nat.succ_le_succ (Nat.zero_le _), rfl⟩

/-- A chunk decoder stands as many rows from the front of its chunk as were passed over. -/
theorem ChunkDecoder.afterCalls_eq (chunks : List (List α)) (d : ChunkDecoder α) (calls : List Call) :
    (Segments.ofChunks chunks).passed calls d ≤ d.rest.length ∧
      (Segments.ofChunks chunks).afterCalls calls d =
        { d with rest := d.rest.drop ((Segments.ofChunks chunks).passed calls d) } := by
  induction calls generalizing d with
  | nil => exact ⟨Nat.zero_le _, rfl⟩
  | cons call calls ih =>
    obtain ⟨hpassed, hperform⟩ := perform_passed chunks d call
    obtain ⟨hrest, hafter⟩ := ih ((Segments.ofChunks chunks).perform d call).2
    rw [Segments.afterCalls_cons, hafter, Segments.passed]
    rw [hperform] at hrest ⊢
    rw [List.length_drop] at hrest
    exact ⟨by omega, by rw [List.drop_drop]⟩

/-- A call on a decoder of records takes the rows that it passes over from those that were claimed, whether or
    not there are as many records. -/
theorem RecordDecoder.perform_passed (segments : Segments (RecordDecoder α) α)
    (hskip : segments.skip = RecordDecoder.skip) (hnext : segments.next = RecordDecoder.next)
    (d : RecordDecoder α) (call : Call) :
    call.passed (segments.perform d call).1 + (segments.perform d call).2.remaining = d.remaining := by
  cases call with
  | skip n =>
    simp only [Segments.perform, hskip, RecordDecoder.skip_eq]
    split
    · exact Nat.zero_add _
    · split
      · exact Nat.zero_add _
      · rename_i hle _
        exact Nat.add_sub_cancel' (Nat.le_of_not_lt hle)
  | next =>
    simp only [Segments.perform, hnext, RecordDecoder.next_eq]
    split
    · exact Nat.zero_add _
    · rename_i hne
      split
      · exact Nat.zero_add _
      · rename_i record records _
        have hpos : 1 + (d.remaining - 1) = d.remaining := Nat.add_sub_cancel' (Nat.one_le_iff_ne_zero.mpr hne)
        cases record <;> exact hpos

end Pushdown

-- SUMMARY: A run of searches: what each comes to, where it leaves the locator, and how many sizes all of them ask for.
import Pushdown.Proofs.Segments.Locating

/-!
# Searching on

A locator is searched with again and again, also after a search that failed. Whatever rows are asked for and
whichever sizes are not told on the way, it stands at the front of a segment and never goes back, so each search
ends as one that begins there. A size that is not told stops the search where it is, and the next one goes on
from that segment.

A search asks for the sizes from the segment where it begins to the one where it ends. The next search begins
there, so that the sizes asked for in a run follow the segments, and only the last one of a search may be asked
for again.
-/

namespace Pushdown

variable {sizes : List Nat} {count row : Nat} {size : Nat → Except Failure Nat}

namespace Locator

variable {l l' : Locator} {result : Except Failure Location}

/-! ## One search -/

theorem Arrives.atFront (h : Arrives sizes size row l result l') : l'.AtFront sizes := by
  cases h with
  | found hplace => exact atFront_of_liesAt hplace
  | past => exact ⟨Nat.le_refl _, (rowsBefore_length sizes).symm⟩
  | stopped hneeded => exact ⟨hneeded.lt_length.le, rfl⟩

/-- If every size that is needed is told, a row of the column is found at its place. -/
theorem Arrives.result_of_lt (h : Arrives sizes size row l result l')
    (htold : ∀ segment, Needs sizes row l segment → ∃ n, size segment = .ok n) (hrow : row < sizes.sum) :
    ∃ place, LiesAt sizes row place ∧ result = .ok place := by
  cases h with
  | found hplace => exact ⟨_, hplace, rfl⟩
  | past hpast => exact absurd hrow (Nat.not_lt.mpr hpast)
  | stopped hneeded hfails =>
    obtain ⟨n, hsize⟩ := htold _ hneeded
    rw [hfails] at hsize
    cases hsize

/-- Any other row is refused with the number of rows there are. -/
theorem Arrives.result_of_le (h : Arrives sizes size row l result l')
    (htold : ∀ segment, Needs sizes row l segment → ∃ n, size segment = .ok n) (hrow : sizes.sum ≤ row) :
    result = .error (.rowOutOfRange row sizes.sum) := by
  cases h with
  | found hplace => exact absurd hplace.lt_sum (Nat.not_lt.mpr hrow)
  | past => rfl
  | stopped hneeded hfails =>
    obtain ⟨n, hsize⟩ := htold _ hneeded
    rw [hfails] at hsize
    cases hsize

/-- The first size that is needed and not told stops the search. -/
theorem Arrives.result_of_error (h : Arrives sizes size row l result l') {segment : Nat} {e : Failure}
    (hneeded : Needs sizes row l segment) (hfails : size segment = .error e)
    (hearlier : ∀ earlier, Needs sizes row l earlier → earlier < segment → ∃ n, size earlier = .ok n) :
    result = .error e ∧ l'.segment = segment := by
  have hnone : ¬ ∃ n, size segment = .ok n := by simp [hfails]
  cases h with
  | found _ htold => exact absurd (htold segment hneeded) hnone
  | past _ htold => exact absurd (htold segment hneeded) hnone
  | @stopped other e' hother hfails' htold =>
    rcases Nat.lt_trichotomy other segment with hlt | rfl | hgt
    · have hnone' : ¬ ∃ n, size other = .ok n := by simp [hfails']
      exact absurd (hearlier other hother hlt) hnone'
    · rw [hfails] at hfails'
      cases hfails'
      exact ⟨rfl, rfl⟩
    · exact absurd (htold segment hneeded hgt) hnone

/-- A search asks for the sizes from its locator's segment to the one where it is left, each once. -/
theorem asked_advance (count : Nat) (size : Nat → Except Failure Nat) (row : Nat) (l : Locator) :
    l.segment ≤ (advance count size row l).locator.segment ∧
      (advance count size row l).asked =
        List.range' l.segment ((advance count size row l).locator.segment - l.segment + 1) := by
  fun_induction advance count size row l with
  | case1 | case2 | case4 => simp
  | case3 l hlt n hsize hn rest ih =>
    obtain ⟨hle, hasked⟩ := ih
    have hle : l.segment + 1 ≤ rest.locator.segment := hle
    have hlength : rest.locator.segment - l.segment + 1 = rest.locator.segment - (l.segment + 1) + 1 + 1 := by
      omega
    refine ⟨Nat.le_of_succ_le hle, ?_⟩
    show l.segment :: rest.asked = _
    rw [hlength, List.range'_succ]
    exact congrArg _ hasked

/-- The locator does not go back, and pays for all but one of the questions by going on. -/
theorem asked_locate (count : Nat) (size : Nat → Except Failure Nat) (row : Nat) (l : Locator) :
    l.segment ≤ (l.locate count size row).locator.segment ∧
      (l.locate count size row).asked.Pairwise (· ≤ ·) ∧
      (∀ segment ∈ (l.locate count size row).asked,
        l.segment ≤ segment ∧ segment ≤ (l.locate count size row).locator.segment) ∧
      (l.locate count size row).asked.length + l.segment ≤ (l.locate count size row).locator.segment + 1 := by
  unfold locate
  split
  · simp
  · obtain ⟨hle, hasked⟩ := asked_advance count size row l
    rw [hasked]
    refine ⟨hle, List.pairwise_le_range', fun segment hsegment => ?_, ?_⟩
    · obtain ⟨hfrom, hto⟩ := List.mem_range'_1.mp hsegment
      omega
    · rw [List.length_range']
      omega

/-! ## Runs of searches -/

/-- A row that is looked for, and what is told of the sizes meanwhile. -/
structure Lookup where
  row : Nat
  size : Nat → Except Failure Nat

def Lookup.search (count : Nat) (lookup : Lookup) (l : Locator) : Search :=
  l.locate count lookup.size lookup.row

/-- Search for one row after the other, going on after errors. -/
def searchEach (count : Nat) : List Lookup → Locator → List Search
  | [], _ => []
  | lookup :: lookups, l =>
    let search := lookup.search count l
    search :: searchEach count lookups search.locator

/-- The locator after searches for some rows. -/
def after (count : Nat) (lookups : List Lookup) (l : Locator) : Locator :=
  lookups.foldl (fun l lookup => (lookup.search count l).locator) l

@[simp] theorem after_cons (count : Nat) (lookup : Lookup) (lookups : List Lookup) (l : Locator) :
    l.after count (lookup :: lookups) = (lookup.search count l).locator.after count lookups := rfl

/-- A search in a run begins where those before it have left the locator. -/
theorem searchEach_append (count : Nat) (before : List Lookup) (lookup : Lookup) (later : List Lookup)
    (l : Locator) :
    searchEach count (before ++ lookup :: later) l =
      searchEach count before l ++ lookup.search count (l.after count before) ::
        searchEach count later (l.after count (before ++ [lookup])) := by
  induction before generalizing l with
  | nil => rfl
  | cons first before ih => exact congrArg _ (ih _)

/-- The sizes asked for in a run follow the segments, beginning with that of the locator. There are not more of
    them than searches and segments stepped over. -/
theorem asked_searchEach (count : Nat) (lookups : List Lookup) (l : Locator) :
    ((searchEach count lookups l).flatMap (·.asked)).Pairwise (· ≤ ·) ∧
      (∀ segment ∈ (searchEach count lookups l).flatMap (·.asked), l.segment ≤ segment) ∧
      ((searchEach count lookups l).flatMap (·.asked)).length + l.segment ≤
        lookups.length + (l.after count lookups).segment := by
  induction lookups generalizing l with
  | nil => simp [searchEach, after]
  | cons lookup lookups ih =>
    obtain ⟨hle, hascend, hbounds, hpaid⟩ := asked_locate count lookup.size lookup.row l
    obtain ⟨hascend', hfrom, hpaid'⟩ := ih (lookup.search count l).locator
    rw [searchEach, List.flatMap_cons, after_cons]
    refine ⟨List.pairwise_append.mpr ⟨hascend, hascend', ?_⟩, ?_, ?_⟩
    · intro segment hsegment later hlater
      exact (hbounds segment hsegment).2.trans (hfrom later hlater)
    · refine List.forall_mem_append.mpr ⟨fun segment hsegment => (hbounds segment hsegment).1, ?_⟩
      exact fun segment hsegment => hle.trans (hfrom segment hsegment)
    · rw [List.length_append, List.length_cons]
      simp only [Lookup.search] at hpaid' ⊢
      omega

/-! ## Searches that go on -/

/-- A search that begins with the locator, whatever went before. -/
structure Resumes (sizes : List Nat) (lookup : Lookup) (l : Locator) (search : Search) : Prop where
  segment_le : search.locator.segment ≤ sizes.length
  base_eq : search.locator.base = (sizes.take search.locator.segment).sum
  segment_onward : l.segment ≤ search.locator.segment
  base_onward : l.base ≤ search.locator.base
  /-- A row before the locator is refused without a question, and nothing changes. -/
  behind : lookup.row < l.base → search = ⟨.error (.rowOrder lookup.row l.base), l, []⟩
  /-- A row of the column is found at its only place, as a new locator would find it. -/
  found : l.base ≤ lookup.row →
    (∀ segment, Needs sizes lookup.row l segment → ∃ n, lookup.size segment = .ok n) →
    lookup.row < sizes.sum → ∃ place, search.result = .ok place ∧ LiesAt sizes lookup.row place ∧
      (∀ other, LiesAt sizes lookup.row other → other = place) ∧
      ∀ size, Truthful sizes size → (∀ segment, Needs sizes lookup.row {} segment → ∃ n, size segment = .ok n) →
        (({} : Locator).locate sizes.length size lookup.row).result = .ok place
  past : l.base ≤ lookup.row →
    (∀ segment, Needs sizes lookup.row l segment → ∃ n, lookup.size segment = .ok n) →
    sizes.sum ≤ lookup.row → search.result = .error (.rowOutOfRange lookup.row sizes.sum)
  /-- The first size that is needed and not told ends the search, and the locator is left there. -/
  stopped : l.base ≤ lookup.row → ∀ segment e, Needs sizes lookup.row l segment → lookup.size segment = .error e →
    (∀ earlier, Needs sizes lookup.row l earlier → earlier < segment → ∃ n, lookup.size earlier = .ok n) →
    search.result = .error e ∧ search.locator.segment = segment

/-- A search from the front of a segment. -/
theorem AtFront.resumes {lookup : Lookup} (h : Truthful sizes lookup.size) (hl : l.AtFront sizes) :
    Resumes sizes lookup l (lookup.search sizes.length l) := by
  rcases Nat.lt_or_ge lookup.row l.base with hbehind | hbase
  · have hsearch : lookup.search sizes.length l = ⟨.error (.rowOrder lookup.row l.base), l, []⟩ := by
      rw [Lookup.search, locate, if_pos hbehind]
    have hnot : ¬ l.base ≤ lookup.row := Nat.not_le.mpr hbehind
    rw [hsearch]
    constructor
    case segment_le => exact hl.segment_le
    case base_eq => exact hl.base_eq
    case segment_onward | base_onward => exact Nat.le_refl _
    case behind => exact fun _ => rfl
    case found | past | stopped => exact fun hbase => absurd hbase hnot
  · obtain ⟨honward, -⟩ := asked_locate sizes.length lookup.size lookup.row l
    have hsearch : lookup.search sizes.length l = Locator.advance sizes.length lookup.size lookup.row l := by
      rw [Lookup.search, locate, if_neg (Nat.not_lt.mpr hbase)]
    have harrives := hl.arrives h hbase
    rw [← hsearch] at harrives
    have hfront := harrives.atFront
    constructor
    case segment_le => exact hfront.segment_le
    case base_eq => exact hfront.base_eq
    case segment_onward => exact honward
    case base_onward =>
      rw [hl.base_eq, hfront.base_eq]
      exact rowsBefore_mono sizes honward
    case behind => exact fun hbehind => absurd hbase (Nat.not_le.mpr hbehind)
    case past => exact fun _ htold hrow => harrives.result_of_le htold hrow
    case stopped =>
      exact fun _ segment e hneeded hfails hearlier => harrives.result_of_error hneeded hfails hearlier
    case found =>
      intro _ htold hrow
      obtain ⟨place, hplace, hresult⟩ := harrives.result_of_lt htold hrow
      refine ⟨place, hresult, hplace, fun other hother => hother.unique hplace, fun size hsize hfresh => ?_⟩
      have hnew := (atFront_new sizes).arrives hsize (Nat.zero_le lookup.row)
      obtain ⟨place', hplace', hresult'⟩ := hnew.result_of_lt hfresh hrow
      rw [hplace'.unique hplace] at hresult'
      exact hresult'

theorem AtFront.after (hl : l.AtFront sizes) {lookups : List Lookup}
    (h : ∀ lookup ∈ lookups, Truthful sizes lookup.size) : (l.after sizes.length lookups).AtFront sizes := by
  induction lookups generalizing l with
  | nil => exact hl
  | cons lookup lookups ih =>
    obtain ⟨hlookup, hlookups⟩ := List.forall_mem_cons.mp h
    have hresumes := hl.resumes hlookup
    exact ih ⟨hresumes.segment_le, hresumes.base_eq⟩ hlookups

/-- In a run of searches for any rows, with any of the sizes not told to any of them, each search goes on from
    where the one before it ended. The sizes asked for follow the segments, and are not more than the searches
    and the segments together. -/
theorem searches_resume {lookups : List Lookup} (h : ∀ lookup ∈ lookups, Truthful sizes lookup.size) :
    (∀ before lookup later, lookups = before ++ lookup :: later →
        ∃ search rest, searchEach sizes.length lookups {} =
            searchEach sizes.length before {} ++ search :: rest ∧
          Resumes sizes lookup (({} : Locator).after sizes.length before) search) ∧
      ((searchEach sizes.length lookups {}).flatMap (·.asked)).Pairwise (· ≤ ·) ∧
      ((searchEach sizes.length lookups {}).flatMap (·.asked)).length ≤ lookups.length + sizes.length := by
  obtain ⟨hascend, -, hpaid⟩ := asked_searchEach sizes.length lookups {}
  refine ⟨?_, hascend, ?_⟩
  · rintro before lookup later rfl
    obtain ⟨hbefore, hlookup, -⟩ := List.forall_mem_append.mp h |>.imp_right List.forall_mem_cons.mp
    exact ⟨_, _, searchEach_append .., ((atFront_new sizes).after hbefore).resumes hlookup⟩
  · exact hpaid.trans (Nat.add_le_add_left ((atFront_new sizes).after h).segment_le _)

/-- The size of the last segment is not told at first, so that the search for its row has to be made again. A row
    before it is refused then, and for one past the end its size is asked for a third time. -/
theorem searches_resume_after_fault :
    let sizes := [2, 0, 3]
    let told : Nat → Except Failure Nat := fun segment => .ok (sizes[segment]?.getD 0)
    let withheld : Nat → Except Failure Nat := fun segment =>
      if segment = 2 then .error (.corruptRowCount 2 (-1)) else told segment
    let lookups : List Lookup := [⟨4, withheld⟩, ⟨4, told⟩, ⟨1, told⟩, ⟨9, told⟩]
    (∀ lookup ∈ lookups, Truthful sizes lookup.size) ∧
      ({} : Locator).after sizes.length [⟨4, withheld⟩] = ⟨2, 2⟩ ∧
      (∃ search rest, searchEach sizes.length lookups {} =
          searchEach sizes.length [⟨4, withheld⟩] {} ++ search :: rest ∧ search.result = .ok ⟨2, 2⟩) ∧
      (searchEach sizes.length lookups {}).flatMap (·.asked) = [0, 1, 2, 2, 2, 3] := by
  intro sizes told withheld lookups
  have htold : Truthful sizes told := by
    intro segment n hlt hsize
    rw [← Except.ok.inj hsize, List.getElem?_eq_getElem hlt]
    rfl
  have hwithheld : Truthful sizes withheld := by
    intro segment n hlt hsize
    by_cases hsegment : segment = 2
    · simp [withheld, hsegment] at hsize
    · simp only [withheld, if_neg hsegment] at hsize
      exact htold hlt hsize
  have htruthful : ∀ lookup ∈ lookups, Truthful sizes lookup.size := by
    simp [lookups, htold, hwithheld]
  obtain ⟨hresumes, -⟩ := searches_resume htruthful
  obtain ⟨search, rest, hrun, hsearch⟩ := hresumes [⟨4, withheld⟩] ⟨4, told⟩ _ rfl
  have hafter : ({} : Locator).after sizes.length [⟨4, withheld⟩] = ⟨2, 2⟩ := by cbv
  rw [hafter] at hsearch
  obtain ⟨place, hresult, hplace, -⟩ := hsearch.found (by decide) (fun _ _ => ⟨_, rfl⟩) (by decide)
  have hlast : LiesAt sizes 4 ⟨2, 2⟩ := ⟨⟨3, rfl, by decide⟩, rfl⟩
  rw [hplace.unique hlast] at hresult
  exact ⟨htruthful, hafter, ⟨search, rest, hrun, hresult⟩, by cbv⟩

end Locator

end Pushdown

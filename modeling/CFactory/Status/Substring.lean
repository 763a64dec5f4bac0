import CFactory.Base.Pattern
import CFactory.Status.Taxonomy

/-!
# Statuses by substring

`task_process.py:67–131,232–285` searches lowered statuses for words anywhere in them, where the
taxonomy compares whole tokens. Lowering is spelled out as in the taxonomy: no word that is searched
for ends in a letter that a longer lower case could supply.
-/

namespace CFactory.Status

open CFactory.Base

/-- `s.lower()`. -/
def lowerText (s : String) : String := String.ofList (s.toList.map lower)

/-- `word in text`. -/
def holds (word text : String) : Bool := decide (word.toList <:+: text.toList)

/-- `any(w in text for w in words)`. -/
def holdsAny (words : List String) (text : String) : Bool := words.any (holds · text)

theorem holdsAny_append (v w : List String) (text : String) :
    holdsAny (v ++ w) text = (holdsAny v text || holdsAny w text) := List.any_append

/-- Lowering a status leaves its tokens as they are. -/
theorem tokens_lowerText (s : String) : tokens (some (lowerText s)) = tokens (some s) := by
  have hmap : (lowerText s).toList.map lower = s.toList.map lower := by
    rw [lowerText, String.toList_ofList, List.map_map]
    exact List.map_congr_left fun c _ ↦ lower_lower c
  rw [tokens, tokens, hmap]

theorem isDeadStage_lowerText (s : String) :
    isDeadStage (some (lowerText s)) = isDeadStage (some s) := by
  rw [isDeadStage, isDeadStage, isStuck, isStuck, statusMatches, statusMatches, tokens_lowerText]

/-- A status that matches a vocabulary holds any words that the vocabulary holds. -/
theorem holdsAny_of_matches {words vocabulary : List String} {s : String}
    (hwords : ∀ v ∈ vocabulary, holdsAny words v = true)
    (h : statusMatches (some s) vocabulary = true) : holdsAny words (lowerText s) = true := by
  obtain ⟨t, ht, hany⟩ := List.any_eq_true.mp h
  obtain ⟨v, hv, heq⟩ := List.any_eq_true.mp hany
  rw [beq_iff_eq] at heq
  obtain ⟨w, hw, hin⟩ := List.any_eq_true.mp (hwords v hv)
  obtain ⟨-, before, after, htext, -⟩ := mem_splitOnP_iff.mp (List.mem_filter.mp ht).1
  refine List.any_eq_true.mpr ⟨w, hw, ?_⟩
  rw [holds, decide_eq_true_iff, lowerText, String.toList_ofList, htext, ← heq]
  exact (of_decide_eq_true hin).trans ⟨before, after, rfl⟩

end CFactory.Status

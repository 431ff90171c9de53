/-! Occurrences of one text in another, found from left to right without overlap. -/
namespace TacBench.Text

variable {α : Type} [BEq α]

/-- Puts `new` for every occurrence of `old`; an empty `old` does not occur. -/
def replace (old new : List α) (s : List α) : List α :=
  match s with
  | [] => []
  | c :: r =>
    if _h : !old.isEmpty && old.isPrefixOf (c :: r) then new ++
      replace old new ((c :: r).drop old.length)
    else c :: replace old new r
termination_by s.length
decreasing_by
  · have : 0 < old.length := by
      cases old with
      | nil => simp at _h
      | cons => simp
    simp only [List.length_cons, List.length_drop]
    omega
  · simp only [List.length_cons]
    omega

/-- Whether a text occurs in another. -/
def occurs (part : List α) : List α → Bool
  | [] => part.isEmpty
  | c :: r => part.isPrefixOf (c :: r) || occurs part r

end TacBench.Text

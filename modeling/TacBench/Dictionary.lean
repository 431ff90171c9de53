/-! Association lists in order of first insertion. Writing to a key that is present keeps its
place. -/
namespace TacBench

abbrev Dictionary (κ : Type) (α : Type) := List (κ × α)

namespace Dictionary

variable {κ α : Type} [DecidableEq κ]

def find? (d : Dictionary κ α) (k : κ) : Option α := (List.find? (fun e => e.1 = k) d).map (·.2)

def contains (d : Dictionary κ α) (k : κ) : Bool := d.any fun e => e.1 = k

def keys (d : Dictionary κ α) : List κ := d.map (·.1)

def insert (d : Dictionary κ α) (k : κ) (a : α) : Dictionary κ α :=
  match d with
  | [] => [(k, a)]
  | e :: r => if e.1 = k then (k, a) :: r else e :: insert r k a

theorem find?_insert (d : Dictionary κ α) (k l : κ) (a : α) :
    (d.insert k a).find? l = if k = l then some a else d.find? l := by
  induction d with
  | nil => by_cases h : k = l <;> simp [insert, find?, h]
  | cons e r ih =>
    by_cases he : e.1 = k
    · by_cases h : k = l <;> simp [insert, find?, he, h]
    · by_cases hl : e.1 = l
      · subst hl
        simp [insert, find?, he, Ne.symm he]
      · simp only [find?] at ih ⊢
        simp [insert, he, hl, ih]

theorem keys_insert_of_mem (d : Dictionary κ α) {k : κ} (a : α) (h : k ∈ d.keys) :
    (d.insert k a).keys = d.keys := by
  induction d with
  | nil => simp [keys] at h
  | cons e r ih =>
    by_cases he : e.1 = k
    · simp [insert, keys, he]
    · have hr : k ∈ keys r := by
        simp only [keys, List.map_cons, List.mem_cons] at h
        exact h.resolve_left fun hk => he hk.symm
      have := ih hr
      simp only [keys] at this ⊢
      simp [insert, he, this]

end Dictionary
end TacBench

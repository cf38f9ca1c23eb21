import Mathlib.Data.List.Basic

/-!
# What was set last

The steps of a fold each set a value or keep it, so that in the end it is as it was set last (`foldl_eq_getLast?`).
-/

namespace ChipEight

/-- A value that each step keeps or sets is as it was set last. -/
theorem foldl_eq_getLast? {σ α β : Type} {f : σ → α → σ} {v : σ → β} {sets? : α → Option β}
    (h : ∀ s a, v (f s a) = (sets? a).getD (v s)) (s : σ) (l : List α) :
    v (l.foldl f s) = (l.filterMap sets?).getLast?.getD (v s) := by
  induction l generalizing s with
  | nil => rfl
  | cons a l ih =>
    rw [List.foldl_cons, ih, h, List.filterMap_cons]
    cases sets? a with
    | none => rfl
    | some b => rw [List.getLast?_cons]; rfl

theorem getLast?_filterMap_eq_some_iff {α β : Type} {f : α → Option β} {l : List α} {b : β} :
    (l.filterMap f).getLast? = some b ↔
      ∃ before a after, l = before ++ a :: after ∧ f a = some b ∧ ∀ x ∈ after, f x = none := by
  rw [List.getLast?_filterMap, List.findSome?_eq_some_iff]
  constructor
  · rintro ⟨after, a, before, hl, ha, hafter⟩
    refine ⟨before.reverse, a, after.reverse, ?_, ha, fun x hx => hafter x (List.mem_reverse.1 hx)⟩
    rw [← l.reverse_reverse, hl]
    simp
  · rintro ⟨before, a, after, rfl, ha, hafter⟩
    exact ⟨after.reverse, a, before.reverse, by simp, ha, fun x hx => hafter x (List.mem_reverse.1 hx)⟩

/-- What is kept of a list is kept of a part of it that holds all of this. -/
theorem filterMap_filter_of_isSome {α β : Type} {f : α → Option β} {p : α → Bool}
    (h : ∀ a, (f a).isSome → p a = true) (l : List α) : (l.filter p).filterMap f = l.filterMap f := by
  rw [List.filterMap_filter]
  refine congrArg (List.filterMap · l) (funext fun a => ?_)
  split
  next => rfl
  next hp =>
    cases hf : f a with
    | none => rfl
    | some b => exact absurd (h a (hf ▸ rfl)) hp

end ChipEight

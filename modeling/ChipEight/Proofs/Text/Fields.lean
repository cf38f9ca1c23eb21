import ChipEight.Text.Numeral
import Mathlib.Data.List.Forall2

/-!
# Taking texts apart

Two texts that are equal are cut at the same place if this is where the first character of some kind stands
(`append_inj_of_stop`). So the entries of a list are known from the list with separators (`commaSeparated_inj`), and
fields are known from a text in which each of them is closed by a label (`closed_inj`).
-/

namespace ChipEight.Text

/-! ### Lists -/

section
variable {α : Type} {a : α} {sep : List α} {xs ys : List (List α)}

theorem append_inj_of_stop {p : α → Prop} {l l' r r' : List α} (hl : ∀ a ∈ l, ¬p a) (hl' : ∀ a ∈ l', ¬p a)
    (hr : ∀ a ∈ r.head?, p a) (hr' : ∀ a ∈ r'.head?, p a) (h : l ++ r = l' ++ r') : l = l' ∧ r = r' := by
  induction l generalizing l' with
  | nil =>
    cases l' with
    | nil => exact ⟨rfl, h⟩
    | cons b l' =>
      rw [List.nil_append] at h
      rw [h] at hr
      exact absurd (hr b rfl) (hl' b List.mem_cons_self)
  | cons a l ih =>
    cases l' with
    | nil =>
      rw [List.nil_append] at h
      rw [← h] at hr'
      exact absurd (hr' a rfl) (hl a List.mem_cons_self)
    | cons b l' =>
      obtain ⟨rfl, htail⟩ := List.cons.inj h
      obtain ⟨rfl, hrest⟩ :=
        ih (fun c hc => hl c (List.mem_cons_of_mem a hc)) (fun c hc => hl' c (List.mem_cons_of_mem a hc)) htail
      exact ⟨rfl, hrest⟩

/-- A list with separators is its first entry, and then each entry with the separator before it. -/
theorem intercalate_cons (sep x : List α) (xs : List (List α)) :
    sep.intercalate (x :: xs) = x ++ xs.flatMap (sep ++ ·) := by
  induction xs generalizing x with
  | nil => rw [List.intercalate_singleton, List.flatMap_nil, List.append_nil]
  | cons y ys ih => rw [List.intercalate_cons_cons, ih, List.flatMap_cons, List.append_assoc, List.append_assoc]

theorem eq_of_mem_head?_separated (xs : List (List α)) :
    ∀ b ∈ (xs.flatMap (a :: sep ++ ·)).head?, b = a := by
  intro b hb
  cases xs with
  | nil => cases hb
  | cons x xs => exact (Option.some.inj hb).symm

theorem separated_append_inj {x y : List α} (hx : a ∉ x) (hy : a ∉ y)
    (h : x ++ xs.flatMap (a :: sep ++ ·) = y ++ ys.flatMap (a :: sep ++ ·)) :
    x = y ∧ xs.flatMap (a :: sep ++ ·) = ys.flatMap (a :: sep ++ ·) :=
  append_inj_of_stop (p := (· = a)) (fun _ hb hab => hx (hab ▸ hb)) (fun _ hb hab => hy (hab ▸ hb))
    (eq_of_mem_head?_separated xs) (eq_of_mem_head?_separated ys) h

theorem separated_inj (hxs : ∀ x ∈ xs, a ∉ x) (hys : ∀ y ∈ ys, a ∉ y)
    (h : xs.flatMap (a :: sep ++ ·) = ys.flatMap (a :: sep ++ ·)) : xs = ys := by
  induction xs generalizing ys with
  | nil =>
    cases ys with
    | nil => rfl
    | cons y ys => cases h
  | cons x xs ih =>
    cases ys with
    | nil => cases h
    | cons y ys =>
      rw [List.forall_mem_cons] at hxs hys
      rw [List.flatMap_cons, List.flatMap_cons, List.append_assoc, List.append_assoc] at h
      obtain ⟨rfl, hrest⟩ := separated_append_inj hxs.1 hys.1 (List.append_cancel_left h)
      rw [ih hxs.2 hys.2 hrest]

theorem intercalate_inj (hxs : ∀ x ∈ xs, x ≠ [] ∧ a ∉ x) (hys : ∀ y ∈ ys, y ≠ [] ∧ a ∉ y)
    (h : (a :: sep).intercalate xs = (a :: sep).intercalate ys) : xs = ys := by
  -- only a list without entries is written as nothing
  have hnil {x : List α} {xs : List (List α)} (hx : x ≠ []) : (a :: sep).intercalate (x :: xs) ≠ [] := by
    rw [intercalate_cons]
    exact List.append_ne_nil_of_left_ne_nil hx _
  cases xs with
  | nil =>
    cases ys with
    | nil => rfl
    | cons y ys => exact absurd h.symm (hnil (hys y List.mem_cons_self).1)
  | cons x xs =>
    cases ys with
    | nil => exact absurd h (hnil (hxs x List.mem_cons_self).1)
    | cons y ys =>
      rw [List.forall_mem_cons] at hxs hys
      rw [intercalate_cons, intercalate_cons] at h
      obtain ⟨rfl, hrest⟩ := separated_append_inj hxs.1.2 hys.1.2 h
      rw [separated_inj (fun x hx => (hxs.2 x hx).2) (fun y hy => (hys.2 y hy).2) hrest]

end

/-! ### Texts -/

theorem commaSeparated_inj {l l' : List String} (hl : ∀ s ∈ l, s ≠ "" ∧ ',' ∉ s.toList)
    (hl' : ∀ s ∈ l', s ≠ "" ∧ ',' ∉ s.toList) (h : String.intercalate ", " l = String.intercalate ", " l') :
    l = l' := by
  have hentries {l : List String} (hl : ∀ s ∈ l, s ≠ "" ∧ ',' ∉ s.toList) :
      ∀ x ∈ l.map String.toList, x ≠ [] ∧ ',' ∉ x := by
    intro x hx
    obtain ⟨s, hs, rfl⟩ := List.mem_map.1 hx
    exact ⟨fun hnil => (hl s hs).1 (String.toList_eq_nil_iff.1 hnil), (hl s hs).2⟩
  rw [← String.toList_inj, String.toList_intercalate, String.toList_intercalate] at h
  exact List.map_injective_iff.2 (fun _ _ => String.toList_inj.1) (intercalate_inj (hentries hl) (hentries hl') h)

theorem commaSeparated_map_injective {α : Type} {f : α → String} (hf : Function.Injective f)
    (hentries : ∀ a, f a ≠ "" ∧ ',' ∉ (f a).toList) :
    Function.Injective fun l : List α => String.intercalate ", " (l.map f) := by
  have hlist (l : List α) : ∀ s ∈ l.map f, s ≠ "" ∧ ',' ∉ s.toList := by
    intro s hs
    obtain ⟨a, -, rfl⟩ := List.mem_map.1 hs
    exact hentries a
  exact fun l l' h => List.map_injective_iff.2 hf (commaSeparated_inj (hlist l) (hlist l') h)

theorem notMem_commaSeparated {c : Char} (hc : c ≠ ',' ∧ c ≠ ' ') {l : List String} (hl : ∀ s ∈ l, c ∉ s.toList) :
    c ∉ (String.intercalate ", " l).toList := by
  rw [String.toList_intercalate]
  cases l with
  | nil => exact List.not_mem_nil
  | cons s l =>
    rw [List.forall_mem_cons] at hl
    rw [List.map_cons, intercalate_cons, List.mem_append, List.mem_flatMap]
    rintro (hs | ⟨x, hx, hmem⟩)
    · exact hl.1 hs
    · obtain ⟨t, ht, rfl⟩ := List.mem_map.1 hx
      rcases List.mem_append.1 hmem with hsep | hmem
      · have hsep : c = ',' ∨ c = ' ' := by simpa using hsep
        exact hsep.elim hc.1 hc.2
      · exact hl.2 t ht hmem

/-- The first character of the label does not stand in the field, so that the label shows where the field ends. -/
def Closes (label field : String) : Prop := ∃ c, label.toList.head? = some c ∧ c ∉ field.toList

theorem Closes.append_inj {label s s' r r' : String} (h : Closes label s) (h' : Closes label s')
    (heq : s ++ (label ++ r) = s' ++ (label ++ r')) : s = s' ∧ r = r' := by
  obtain ⟨c, hhead, hc⟩ := h
  obtain ⟨c', hhead', hc'⟩ := h'
  obtain rfl : c' = c := Option.some.inj (hhead'.symm.trans hhead)
  have hstop (r : String) : ∀ b ∈ (label.toList ++ r.toList).head?, b = c' := fun b hb =>
    Option.some.inj (hb.symm.trans (by rw [List.head?_append, hhead]; rfl))
  simp only [← String.toList_inj, String.toList_append] at heq ⊢
  obtain ⟨hs, hrest⟩ := append_inj_of_stop (p := (· = c')) (fun _ hb hcb => hc (hcb ▸ hb))
    (fun _ hb hcb => hc' (hcb ▸ hb)) (hstop r) (hstop r') heq
  exact ⟨hs, List.append_cancel_left hrest⟩

/-- Each field, and the label behind it. -/
def closed : List String → List String → String
  | label :: labels, field :: fields => field ++ (label ++ closed labels fields)
  | _, _ => ""

theorem closed_inj {labels fields fields' : List String} (h : List.Forall₂ Closes labels fields)
    (h' : List.Forall₂ Closes labels fields') (heq : closed labels fields = closed labels fields') :
    fields = fields' := by
  induction h generalizing fields' with
  | nil =>
    cases h'
    rfl
  | cons hlabel hrest ih =>
    cases h' with
    | cons hlabel' hrest' =>
      obtain ⟨rfl, hclosed⟩ := hlabel.append_inj hlabel' heq
      rw [ih hrest' hclosed]

end ChipEight.Text

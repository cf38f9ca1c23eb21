import ChipEight.Proofs.Framebuffer.Cells
import ChipEight.Proofs.Framebuffer.Integers

/-!
# Framebuffers of any size as lists

`CellList` works on the bare list of the cells' values. Nothing keeps them to two values, a toggle flips 32 bits of
whatever it finds, and a cell is looked up by its number alone, from the end of the list if the number is negative. The
list stays that of the framebuffer to which the same is done (`integers_after`). There a toggle flips the one bit whose
number is that of the place modulo the number of cells (`toggle_within`), and the rows are the list cut into pieces
(`flatten_rows`).
-/

namespace ChipEight

/-- What is done to a framebuffer. -/
inductive CellCall where
  | toggle (x y : Int)
  | clear
deriving DecidableEq, Repr

/-! ### Lists of values -/

namespace CellList

abbrev Routine : Type → Type := EStateM CellError (List Int)

/-- The place of a number in a list. Negative numbers count from the end. -/
def place? (length : Nat) : Int → Option Nat
  | .ofNat n => if n < length then some n else none
  | .negSucc n => if n < length then some (length - (n + 1)) else none

def failure (n : Int) : CellError := if NativeInteger.Fits64 n then .outside else .beyond64

def item (n : Int) : Routine Int := fun cells =>
  match (place? cells.length n).bind (cells[·]?) with
  | some c => .ok c cells
  | none => .error (failure n) cells

def replaceItem (n c : Int) : Routine Unit := fun cells =>
  match place? cells.length n with
  | some k => .ok () (cells.set k c)
  | none => .error (failure n) cells

def toggle (width x y : Int) : Routine Bool := do
  let c ← item (y * width + x)
  replaceItem (y * width + x) (c.xor 0xffffffff)
  pure (c = 0xffffffff)

/-- A row of zeros, repeated. -/
def blank (width height : Int) : List Int :=
  (List.replicate height.toNat (List.replicate width.toNat 0)).flatten

def perform (width height : Int) : CellCall → Routine Unit
  | .toggle x y => do
    let _ ← toggle width x y
  | .clear => set (blank width height)

/-- The list that a call leaves, whether or not it fails. -/
def call (width height : Int) (cells : List Int) (c : CellCall) : List Int :=
  match (perform width height c).run cells with
  | .ok _ cells => cells
  | .error _ cells => cells

def after (width height : Int) (cells : List Int) (calls : List CellCall) : List Int :=
  calls.foldl (call width height) cells

/-- The numbers under which a list has an entry. -/
def Within (length : Nat) (n : Int) : Prop := -length ≤ n ∧ n < length

theorem place?_within {length : Nat} {n : Int} (h : Within length n) :
    place? length n = some (n % length).toNat := by
  obtain ⟨hle, hlt⟩ := h
  cases n with
  | ofNat n =>
    have hmod : Int.ofNat n % length = n := Int.emod_eq_of_lt (Int.natCast_nonneg n) hlt
    rw [place?, if_pos (Int.ofNat_lt.1 hlt), hmod, Int.toNat_natCast]
  | negSucc n =>
    have hn : n < length := by omega
    have hmod : Int.negSucc n % length = (length - (n + 1) : Nat) := by
      rw [← Int.add_emod_right, Int.emod_eq_of_lt (by omega) (by omega)]
      omega
    rw [place?, if_pos hn, hmod, Int.toNat_natCast]

theorem place?_of_not_within {length : Nat} {n : Int} (h : ¬Within length n) : place? length n = none := by
  cases n with
  | ofNat n => exact if_neg fun hn => h ⟨Int.le_trans (by omega) (Int.natCast_nonneg n), Int.ofNat_lt.2 hn⟩
  | negSucc n => exact if_neg fun hn => h ⟨by omega, by omega⟩

theorem blank_eq (width height : Int) : blank width height = (Framebuffer.blank width height).integers := by
  rw [blank, List.flatten_replicate_replicate, Framebuffer.integers_blank, Nat.mul_comm]

section
variable {cells : List Int} {width x y : Int}

theorem toggle_run_of_some {c : Int} {k : Nat} (hk : place? cells.length (y * width + x) = some k)
    (hc : cells[k]? = some c) :
    (toggle width x y).run cells = .ok (decide (c = 0xffffffff)) (cells.set k (c.xor 0xffffffff)) := by
  have hitem : item (y * width + x) cells = .ok c cells := by simp only [item, hk, Option.bind_some, hc]
  have hreplace (c : Int) : replaceItem (y * width + x) c cells = .ok () (cells.set k c) := by
    simp only [replaceItem, hk]
  show EStateM.bind (item _) _ cells = _
  simp only [EStateM.bind, hitem]
  show EStateM.bind (replaceItem _ _) _ cells = _
  simp only [EStateM.bind, hreplace]
  rfl

theorem toggle_run_of_none (hk : place? cells.length (y * width + x) = none) :
    (toggle width x y).run cells = .error (failure (y * width + x)) cells := by
  have hitem : item (y * width + x) cells = .error (failure (y * width + x)) cells := by
    simp only [item, hk, Option.bind_none]
  show EStateM.bind (item _) _ cells = _
  simp only [EStateM.bind, hitem]

end

end CellList

namespace Framebuffer
variable {width height : Int} (f : Framebuffer width height)

open CellList (Within failure)

theorem eq_blank_of_ofSize {memory : Nat} {f : Framebuffer width height} (h : ofSize memory width height = .ok f) :
    f = blank width height := by
  unfold ofSize at h
  split_ifs at h
  exact (Except.ok.inj h).symm

/-- Where there is memory the framebuffer is made. -/
theorem ofSize_of_memory {memory : Nat} (hw : NativeInteger.Fits64 width) (hh : NativeInteger.Fits64 height)
    (hrow : width.toNat ≤ memory) (hcount : cellCount width height ≤ memory) :
    ofSize memory width height = .ok (blank width height) := by
  rw [ofSize, if_neg (not_not_intro hw), if_neg (Nat.not_lt.2 hrow), if_neg (not_not_intro hh),
    if_neg (Nat.not_lt.2 hcount)]

/-- A call that fails leaves the framebuffer as it was. -/
def call (f : Framebuffer width height) : CellCall → Framebuffer width height
  | .toggle x y =>
    match f.toggle x y with
    | .ok (g, _) => g
    | .error _ => f
  | .clear => f.clear

def after (f : Framebuffer width height) (calls : List CellCall) : Framebuffer width height := calls.foldl call f

/-! ### Toggles -/

section
variable {x y : Int}

theorem index_within (h : Within (cellCount width height) (y * width + x)) :
    f.index x y = .ok ((y * width + x) % cellCount width height).toNat := by
  obtain ⟨hle, hlt⟩ := h
  simp only [index, count]
  split
  next hneg =>
    rw [if_pos ⟨by omega, by omega⟩, ← Int.add_emod_right (y * width + x), Int.emod_eq_of_lt (by omega) (by omega)]
  next hpos => rw [if_pos ⟨by omega, hlt⟩, Int.emod_eq_of_lt (by omega) hlt]

theorem index_of_not_within (h : ¬Within (cellCount width height) (y * width + x)) :
    f.index x y = .error (failure (y * width + x)) := by
  simp only [index, count]
  split
  next hneg => exact if_neg fun hin => h ⟨by omega, by omega⟩
  next hpos => exact if_neg fun hin => h ⟨by omega, hin.2⟩

theorem toggle_within (h : Within (cellCount width height) (y * width + x)) :
    let k := ((y * width + x) % cellCount width height).toNat
    f.toggle x y = .ok (f.flip (ofCells width height [k]), f.cells.getLsbD k) := by
  rw [toggle, index_within f h]
  rfl

theorem toggle_of_not_within (h : ¬Within (cellCount width height) (y * width + x)) :
    f.toggle x y = .error (failure (y * width + x)) := by
  rw [toggle, index_of_not_within f h]
  rfl

theorem place_lt (h : Within (cellCount width height) (y * width + x)) :
    ((y * width + x) % cellCount width height).toNat < cellCount width height := by
  have hpos : (0 : Int) < cellCount width height := by
    obtain ⟨hle, hlt⟩ := h
    omega
  have hmod := Int.emod_lt_of_pos (y * width + x) hpos
  have hnonneg := Int.emod_nonneg (y * width + x) (Int.ne_of_gt hpos)
  omega

theorem toggle_fails_iff : (∃ e, f.toggle x y = .error e) ↔ ¬Within (cellCount width height) (y * width + x) := by
  constructor
  · rintro ⟨e, he⟩ h
    rw [f.toggle_within h] at he
    cases he
  · exact fun h => ⟨_, f.toggle_of_not_within h⟩

/-- Value `k` of the list is flipped, and was 32 ones just if it was erased. -/
structure Flips (f g : Framebuffer width height) (k : Nat) (erased : Bool) : Prop where
  was : f.integers[k]? = some (if erased then 0xffffffff else 0)
  now : g.integers = f.integers.set k (if erased then 0 else 0xffffffff)

theorem flips_flip {k : Nat} (hk : k < cellCount width height) :
    f.Flips (f.flip (ofCells width height [k])) k (f.cells.getLsbD k) where
  was := by
    rw [f.getElem?_integers hk]
    cases f.cells.getLsbD k <;> rfl
  now := by
    rw [← f.set_integers hk, xor_cellInteger]
    cases f.cells.getLsbD k <;> rfl

theorem toggle_flips (h : Within (cellCount width height) (y * width + x)) :
    ∃ g erased, f.toggle x y = .ok (g, erased) ∧ f.isLit x y = .ok erased ∧
      f.Flips g ((y * width + x) % cellCount width height).toNat erased ∧ g.toggle x y = .ok (f, !erased) := by
  have hk := place_lt h
  refine ⟨_, _, f.toggle_within h, ?_, f.flips_flip hk, ?_⟩
  · rw [isLit, f.index_within h]
    rfl
  · rw [toggle_within _ h, flip_flip, getLsbD_flip, getLsbD_ofCells, decide_eq_true hk,
      decide_eq_true (List.mem_singleton_self _), Bool.and_self, Bool.xor_true]

end

/-! ### The list of a framebuffer -/

/-- What a toggle of the list comes to that comes to `toggled` on the framebuffer. -/
def result (f : Framebuffer width height) (toggled : Except CellError (Framebuffer width height × Bool)) :
    EStateM.Result CellError (List Int) Bool :=
  match toggled with
  | .ok (g, erased) => .ok erased g.integers
  | .error e => .error e f.integers

theorem toggle_run (x y : Int) : (CellList.toggle width x y).run f.integers = f.result (f.toggle x y) := by
  by_cases h : Within (cellCount width height) (y * width + x)
  · have hk := place_lt h
    have hplace := CellList.place?_within (f.length_integers.symm ▸ h)
    rw [f.length_integers] at hplace
    rw [CellList.toggle_run_of_some (f.length_integers.symm ▸ hplace) (f.getElem?_integers hk), f.toggle_within h,
      decide_cellInteger, f.set_integers hk]
    rfl
  · have hplace := CellList.place?_of_not_within h
    rw [← f.length_integers] at hplace
    rw [CellList.toggle_run_of_none hplace, f.toggle_of_not_within h]
    rfl

theorem integers_call (c : CellCall) : CellList.call width height f.integers c = (f.call c).integers := by
  cases c with
  | toggle x y =>
    have hrun : CellList.toggle width x y f.integers = _ := f.toggle_run x y
    have hperform : (CellList.perform width height (.toggle x y)).run f.integers =
        EStateM.bind (CellList.toggle width x y) (fun _ => pure ()) f.integers := rfl
    rw [CellList.call, hperform, call, EStateM.bind, hrun]
    rcases f.toggle x y with e | ⟨g, erased⟩ <;> rfl
  | clear => exact CellList.blank_eq width height

theorem integers_after (calls : List CellCall) :
    CellList.after width height f.integers calls = (f.after calls).integers := by
  induction calls generalizing f with
  | nil => rfl
  | cons c calls ih =>
    show CellList.after width height (CellList.call width height f.integers c) calls = _
    rw [integers_call, ih]
    rfl

/-! ### Rows -/

theorem rowCells_eq_map (y : Nat) :
    f.rowCells y = (List.range width.toNat).map fun x => f.cells.getLsbD (y * width.toNat + x) := by
  refine List.ext_getElem? fun x => ?_
  by_cases hx : x < width.toNat
  · rw [f.getElem?_rowCells y hx, List.getElem?_map, List.getElem?_range hx, Option.map_some]
  · rw [List.getElem?_eq_none (by simpa [rowCells] using hx), List.getElem?_eq_none (by simpa using hx)]

theorem flatten_cut {α : Type} (g : Nat → α) (w h : Nat) :
    ((List.range h).map fun y => (List.range w).map fun x => g (y * w + x)).flatten = (List.range (w * h)).map g := by
  induction h with
  | zero => rfl
  | succ h ih =>
    have hlast : (List.range w).map (fun x => g (h * w + x)) = ((List.range w).map (w * h + ·)).map g := by
      rw [List.map_map, Nat.mul_comm]
      rfl
    rw [List.range_succ, List.map_append, List.flatten_append, ih, Nat.mul_succ, List.range_add, List.map_append,
      ← hlast]
    exact congrArg _ (List.append_nil _)

theorem flatten_rows : f.rows.flatten = f.integers.map fun c => decide (c = 0xffffffff) := by
  have hrows : f.rows = (List.range height.toNat).map fun y => (List.range width.toNat).map fun x =>
      f.cells.getLsbD (y * width.toNat + x) := List.map_congr_left fun y _ => f.rowCells_eq_map y
  have hlit : (f.integers.map fun c => decide (c = 0xffffffff)) =
      (List.range (cellCount width height)).map f.cells.getLsbD := by
    rw [integers, List.map_map]
    exact List.map_congr_left fun n _ => decide_cellInteger _
  rw [hrows, hlit, flatten_cut f.cells.getLsbD]

theorem length_rows : f.rows.length = height.toNat := by
  rw [rows, List.length_map, List.length_range]

theorem length_of_mem_rows {row : List Bool} (h : row ∈ f.rows) : row.length = width.toNat := by
  obtain ⟨y, -, rfl⟩ := List.mem_map.1 h
  rw [rowCells, List.length_map, List.length_range]

theorem getElem?_rows {x y : Nat} (hx : x < width.toNat) (hy : y < height.toNat) :
    f.rows[y]?.bind (·[x]?) = some (f.cells.getLsbD (y * width.toNat + x)) := by
  rw [rows, List.getElem?_map, List.getElem?_range hy]
  exact f.getElem?_rowCells y hx

/-- A framebuffer is blank at first, and there is one of any size for which there is memory. Whatever is done to it, its
list has as many values as it has places, and each of them is zero or 32 ones. A toggle fails just if the number of the
place is not that of a value, from either end, and leaves the list then; else it flips the one value and says what it
was, and another one undoes it. The rows are the list, cut. -/
theorem toggles_flip_one_cell (w h : Nat) (calls : List CellCall) :
    let f := (blank w h).after calls
    let cells := CellList.after w h (CellList.blank w h) calls
    let count : Int := (w * h : Nat)
    (∀ memory, (∀ g : Framebuffer w h, ofSize memory w h = .ok g → g = blank w h) ∧
      (NativeInteger.Fits64 w → NativeInteger.Fits64 h → w ≤ memory → w * h ≤ memory →
        ofSize memory w h = .ok (blank w h))) ∧
    (cells = f.integers ∧ cells.length = w * h ∧ ∀ c ∈ cells, c = 0 ∨ c = 0xffffffff) ∧
    (∀ x y : Int, (CellList.toggle w x y).run cells = f.result (f.toggle x y) ∧
      ((∃ e, f.toggle x y = .error e) ↔ ¬(-count ≤ y * w + x ∧ y * w + x < count)) ∧
      (-count ≤ y * w + x ∧ y * w + x < count → ∃ g erased, f.toggle x y = .ok (g, erased) ∧
        f.isLit x y = .ok erased ∧ f.Flips g ((y * w + x) % count).toNat erased ∧ g.toggle x y = .ok (f, !erased))) ∧
    f.rows.length = h ∧ (∀ row ∈ f.rows, row.length = w) ∧
    f.rows.flatten = cells.map (fun c => decide (c = 0xffffffff)) ∧
    ∀ x y : Nat, x < w → y < h → ∃ lit, f.rows[y]?.bind (·[x]?) = some lit ∧ f.isLit x y = .ok lit := by
  intro f cells count
  have hcells : cells = f.integers := by
    show CellList.after w h (CellList.blank w h) calls = _
    rw [CellList.blank_eq, integers_after]
  rw [hcells]
  refine ⟨fun memory => ⟨fun g => eq_blank_of_ofSize, ofSize_of_memory⟩, ⟨rfl, f.length_integers, fun c => f.eq_of_mem_integers⟩,
    fun x y => ⟨f.toggle_run x y, f.toggle_fails_iff, f.toggle_flips⟩, f.length_rows,
    fun row => f.length_of_mem_rows, f.flatten_rows, fun x y hx hy => ?_⟩
  exact ⟨_, f.getElem?_rows hx hy, f.isLit_natCast hx hy⟩

/-- Of six cells, the last one by its number from either end, one that there is not, and the fourth one. -/
def callsRoundTheEnd : List CellCall := [.toggle 5 0, .toggle 0 2, .toggle (-1) 0, .toggle 0 1]

theorem toggles_flip_one_cell_round_the_end :
    let f := (blank (3 : Nat) (2 : Nat)).after callsRoundTheEnd
    ofSize 6 (3 : Nat) (2 : Nat) = .ok (blank (3 : Nat) (2 : Nat)) ∧
    f.rows.flatten = [false, false, false, true, false, false] ∧
    (∃ g, f.toggle (-3) 0 = .ok (g, true) ∧ g.toggle (-3) 0 = .ok (f, false)) ∧ ∃ e, f.toggle (-1) (-2) = .error e := by
  intro f
  obtain ⟨hmemory, -, htoggles, -, -, hrows, -⟩ := toggles_flip_one_cell 3 2 callsRoundTheEnd
  obtain ⟨-, -, hflips⟩ := htoggles (-3) 0
  obtain ⟨g, erased, htoggle, hlit, -, hback⟩ := hflips (by decide)
  obtain rfl : erased = true := Except.ok.inj (hlit.symm.trans (by decide +kernel))
  refine ⟨(hmemory 6).2 (by decide) (by decide) (by decide) (by decide), hrows.trans (by decide +kernel),
    ⟨g, htoggle, hback⟩, ?_⟩
  obtain ⟨-, hfails, -⟩ := htoggles (-1) (-2)
  exact hfails.2 (by decide)

end Framebuffer
end ChipEight

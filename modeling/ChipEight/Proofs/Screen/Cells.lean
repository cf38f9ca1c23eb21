import ChipEight.Proofs.Screen.Depiction
import Mathlib.Data.List.Induction

/-!
# The cells of a window

What is written on a window is read (`written_cells_are_read`): each write changes one cell, or none if it is outside.
This rests on the laws of the canvas, for the blocks that are written, and on a window that opens at the size asked
for.
-/

namespace ChipEight.Screen

structure CellWrite where
  x : Int
  y : Int
  /-- Zero for the background, anything else for the foreground. -/
  color : Int
deriving DecidableEq, Repr

def CellWrite.isLit (c : CellWrite) : Bool := c.color ≠ 0

/-- Whether the last write to a cell lit it. A cell that was not written is not lit. -/
def lastWritten (writes : List CellWrite) (x y : Int) : Bool :=
  (writes.findRev? fun c => c.x = x ∧ c.y = y).elim false CellWrite.isLit

theorem lastWritten_concat (writes : List CellWrite) (c : CellWrite) (x y : Int) :
    lastWritten (writes ++ [c]) x y = if c.x = x ∧ c.y = y then c.isLit else lastWritten writes x y := by
  rw [lastWritten, List.findRev?_eq_find?_reverse, List.reverse_concat, List.find?_cons, lastWritten,
    List.findRev?_eq_find?_reverse]
  by_cases h : c.x = x ∧ c.y = y
  · simp [h]
  · simp [h]

/-- The block of one of the cells that are written. -/
def Written (side : Int) (writes : List CellWrite) (r : Rect) : Prop := ∃ c ∈ writes, r = .block side c.x c.y

variable {σ : Type} [Canvas σ] {s : Screen σ} {base : σ}

def writeEach (s : Screen σ) (writes : List CellWrite) : Except ScreenError (Screen σ) :=
  writes.foldlM (fun s c => s.writeCell c.x c.y c.isLit) s

theorem Depicts.writeEach (hd : s.Depicts base fun _ _ => false) {rects : Rect → Prop} (h : Canvas.Exact σ rects)
    (hscale : 1 ≤ s.scale) {writes : List CellWrite} (hwritten : ∀ r, Written s.scale writes r → rects r) :
    ∃ surface, s.writeEach writes = .ok { s with surface } ∧
      Depicts { s with surface } base (lastWritten writes) := by
  -- from the end: the last write decides about its own cell
  induction writes using List.reverseRecOn with
  | nil => exact ⟨s.surface, rfl, hd⟩
  | append_singleton writes c ih =>
    obtain ⟨before, hbefore, hdepicts⟩ := ih fun r ⟨c, hc, hr⟩ => hwritten r ⟨c, List.mem_append_left _ hc, hr⟩
    obtain ⟨surface, hwrite, hdepicts'⟩ :=
      hdepicts.writeCell h hscale (hwritten _ ⟨c, List.mem_concat_self, rfl⟩) c.isLit
    refine ⟨surface, ?_, hdepicts'.congr fun x y => (lastWritten_concat writes c x y).symm⟩
    rw [Screen.writeEach, List.foldlM_append]
    show (s.writeEach writes).bind _ = _
    rw [hbefore]
    show (Screen.writeCell _ c.x c.y c.isLit).bind _ = _
    rw [hwrite]
    rfl

/-- On a window that opens at the size asked for: after any writes, also to cells outside, a cell of the window is read
as it was written last, or as not lit, and a cell outside is not read. -/
theorem written_cells_are_read {w h k : Int} {background foreground : Color} (hk : 1 ≤ k)
    (hback : background.alpha = 255) (hfore : foreground.solid ≠ background.solid) {window : σ}
    (hopen : Canvas.openWindow (w * k) (h * k) = .ok window) (hsized : Canvas.Sized window (w * k) (h * k))
    (writes : List CellWrite) (hexact : Canvas.Exact σ (Written k writes)) :
    ∃ s s' : Screen σ, create w h k background foreground = .ok s ∧ s.writeEach writes = .ok s' ∧
      (∀ x y : Int, 0 ≤ x ∧ x < w ∧ 0 ≤ y ∧ y < h → s'.readCell x y = .ok (lastWritten writes x y)) ∧
      ∀ x y : Int, ¬(0 ≤ x ∧ x < w ∧ 0 ≤ y ∧ y < h) →
        ∃ e, s'.readCell x y = .error e ∧ Canvas.Missing (x * k) (y * k) e := by
  let bare : Screen σ := ⟨w, h, k, background, foreground, window⟩
  have hcreate : create w h k background foreground = .ok bare.clear := create_eq_ok_iff.2 ⟨window, hopen, rfl⟩
  have hlegible : bare.Legible := ⟨hk, hback, hfore⟩
  obtain ⟨written, hwritten, hdepicts⟩ := (depicts_clear hexact bare).writeEach hexact hk fun _ hr => hr
  exact ⟨_, _, hcreate, hwritten,
    fun x y hin => hdepicts.readCell_inside (hlegible.withSurface written) hsized ⟨hin.1, hin.2.1⟩ hin.2.2,
    fun x y hout => hdepicts.readCell_outside hk hsized hout⟩

/-- Writes on all sides of a window of three by two blocks, and one cell written twice. -/
theorem written_cells_are_read_round_the_edges :
    ∃ s s' : Screen Surface, create 3 2 2 defaultBackground defaultForeground = .ok s ∧
      s.writeEach [⟨1, 1, 1⟩, ⟨-1, 0, 1⟩, ⟨0, 1, -7⟩, ⟨3, 5, 1⟩, ⟨2, -4, 1⟩, ⟨0, 1, 0⟩] = .ok s' ∧
      s'.readCell 1 1 = .ok true ∧ s'.readCell 0 1 = .ok false ∧ s'.readCell 0 0 = .ok false ∧
      s'.readCell 2 0 = .ok false ∧ s'.readCell (-1) 0 = .error .noPixel := by
  have hopen : Canvas.openWindow (3 * 2) (2 * 2) = .ok (Surface.filled 6 4 ⟨0, 0, 0, 255⟩) := by decide +kernel
  have hexact : Canvas.Exact Surface
      (Written 2 [⟨1, 1, 1⟩, ⟨-1, 0, 1⟩, ⟨0, 1, -7⟩, ⟨3, 5, 1⟩, ⟨2, -4, 1⟩, ⟨0, 1, 0⟩]) := by
    refine Surface.exact ?_
    rintro r ⟨c, hc, rfl⟩
    have hfits : ∀ c ∈ [⟨1, 1, 1⟩, ⟨-1, 0, 1⟩, ⟨0, 1, -7⟩, ⟨3, 5, 1⟩, ⟨2, -4, 1⟩, (⟨0, 1, 0⟩ : CellWrite)],
        NativeInteger.Fits32 (c.x * 2) ∧ NativeInteger.Fits32 (c.y * 2) ∧
          NativeInteger.Fits32 (c.x * 2 + 2) ∧ NativeInteger.Fits32 (c.y * 2 + 2) := by decide
    have hside : NativeInteger.Fits32 2 := by decide
    obtain ⟨hleft, htop, hright, hbottom⟩ := hfits c hc
    exact ⟨hleft, htop, hside, hside, hright, hbottom⟩
  obtain ⟨s, s', hcreate, hwritten, hinside, houtside⟩ := written_cells_are_read (by decide) defaultBackground_alpha
    default_contrast hopen (Surface.sized (by decide) (by decide)) _ hexact
  obtain ⟨e, herror, hnone⟩ := houtside (-1) 0 (by decide)
  rw [Canvas.Missing, if_pos (by decide)] at hnone
  exact ⟨s, s', hcreate, hwritten, hinside 1 1 (by decide), hinside 0 1 (by decide), hinside 0 0 (by decide),
    hinside 2 0 (by decide), hnone ▸ herror⟩

/-- A pixel whose number has no 32 bits is not read for another reason than that there is none. A window whose sides
are cut down to 32 bits lacks cells that it was asked for. -/
theorem cells_beyond_32_bits :
    (create 1 1 1 defaultBackground defaultForeground).bind (fun s : Screen Surface => s.readCell 0x80000000 0) =
      .error (.badCoordinate .above32) ∧
    (create 0x100000000 1 1 defaultBackground defaultForeground).bind (fun s : Screen Surface => s.readCell 1 0) =
      .error .noPixel := by
  decide +kernel

end ChipEight.Screen

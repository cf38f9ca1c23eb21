import ChipEight.Proofs.Engine.History
import ChipEight.Proofs.Framebuffer.Sprite
import ChipEight.Proofs.Machine.Index
import Mathlib.Algebra.Ring.Parity
import Mathlib.Data.List.DropRight

/-!
# The picture as history

A drawn sprite toggles the cells that it covers (`Sprite.getLsbD_draw`), and nothing else but clearing changes the
display (`execute_display_eq_paint`). So a cell is lit just if it is covered by an odd number of the sprites drawn since
it was last cleared (`getLsbD_foldl_paint`).
-/

namespace ChipEight

/-- A sprite at its place: the rows from `top` down, eight cells wide from `left` on. -/
structure Sprite where
  left : Nat
  top : Nat
  rows : List Byte
deriving DecidableEq, Repr

/-- The highest bit of a row stands for its leftmost cell. -/
def Sprite.covers (s : Sprite) (x y : Nat) : Bool :=
  s.left ≤ x && x - s.left ≤ 7 && s.top ≤ y && s.rows[y - s.top]?.any (·.getLsbD (7 - (x - s.left)))

theorem Sprite.covers_iff {s : Sprite} {x y : Nat} : s.covers x y = true ↔
    s.left ≤ x ∧ s.top ≤ y ∧ ∃ bits, s.rows[y - s.top]? = some bits ∧ bits.getMsbD (x - s.left) = true := by
  simp only [covers, Bool.and_eq_true, decide_eq_true_eq, Option.any_eq_true, BitVec.getMsbD]
  constructor
  · rintro ⟨⟨⟨hx, hcolumn⟩, hy⟩, bits, hbits, hbit⟩
    exact ⟨hx, hy, bits, hbits, Nat.lt_succ_of_le hcolumn, hbit⟩
  · rintro ⟨hx, hy, bits, hbits, hcolumn, hbit⟩
    exact ⟨⟨⟨hx, Nat.le_of_lt_succ hcolumn⟩, hy⟩, bits, hbits, hbit⟩

theorem Sprite.getLsbD_mask (s : Sprite) {x y : Nat} (hx : x < 64) (hy : y < 32) :
    (Framebuffer.ofCells 64 32 (Framebuffer.spriteCells 64 32 s.left s.top s.rows)).cells.getLsbD (y * 64 + x) =
      s.covers x y := by
  have hmem : y * 64 + x ∈ Framebuffer.spriteCells 64 32 s.left s.top s.rows ↔ s.covers x y = true := by
    rw [covers_iff]
    exact Framebuffer.mem_spriteCells hx hy
  have hlt : y * 64 + x < cellCount 64 32 := Framebuffer.cell_lt hx hy
  rw [Framebuffer.getLsbD_ofCells, decide_eq_true hlt, Bool.true_and, Bool.eq_iff_iff.2 (decide_eq_true_iff.trans hmem)]

theorem Sprite.getLsbD_draw (s : Sprite) (display : Display) {x y : Nat} (hx : x < 64) (hy : y < 32) :
    (display.draw s.left s.top s.rows).1.cells.getLsbD (y * 64 + x) =
      (display.cells.getLsbD (y * 64 + x) ^^ s.covers x y) := by
  rw [Framebuffer.draw, Framebuffer.getLsbD_flip, s.getLsbD_mask hx hy]

namespace Execution

/-- What an execution draws. -/
def sprite? (ex : Execution) : Option Sprite :=
  match ex.instruction with
  | .draw x y n => some
    { left := ex.machine.registers[x].toNat % 64
      top := ex.machine.registers[y].toNat % 64
      rows := (List.range n.toNat).map fun k : Nat => ex.machine.memory.read (ex.machine.index.toNat + k) }
  | _ => none

/-- The sprites drawn since the display was last cleared. -/
def drawn (history : List Execution) : List Sprite :=
  (history.rtakeWhile (·.instruction ≠ .clearScreen)).filterMap sprite?

/-- What an execution makes of the display. -/
def paint (display : Display) (ex : Execution) : Display :=
  if ex.instruction = .clearScreen then display.clear
  else match ex.sprite? with
    | some s => (display.draw s.left s.top s.rows).1
    | none => display

theorem drawn_concat_clearScreen (history : List Execution) {ex : Execution} (h : ex.instruction = .clearScreen) :
    drawn (history ++ [ex]) = [] := by
  rw [drawn, List.rtakeWhile_concat_neg _ _ _ (by simp [h]), List.filterMap_nil]

theorem drawn_concat (history : List Execution) {ex : Execution} (h : ex.instruction ≠ .clearScreen) :
    drawn (history ++ [ex]) = drawn history ++ ex.sprite?.toList := by
  rw [drawn, List.rtakeWhile_concat_pos _ _ _ (by simp [h]), List.filterMap_append, List.filterMap_cons]
  cases ex.sprite? <;> rfl

theorem getLsbD_foldl_paint (history : List Execution) {x y : Nat} (hx : x < 64) (hy : y < 32) :
    (history.foldl paint (Framebuffer.blank 64 32)).cells.getLsbD (y * 64 + x) =
      decide (Odd ((drawn history).countP (·.covers x y))) := by
  -- on the last execution, as it is the later clearings that count
  induction history using List.reverseRecOn with
  | nil => simp [drawn]
  | append_singleton history ex ih =>
    rw [List.foldl_concat, paint]
    by_cases hclear : ex.instruction = .clearScreen
    · rw [if_pos hclear, drawn_concat_clearScreen history hclear]
      simp [Framebuffer.clear]
    · rw [if_neg hclear, drawn_concat history hclear, List.countP_append]
      cases ex.sprite? with
      | none => simpa using ih
      | some s =>
        rw [s.getLsbD_draw _ hx hy, ih, Option.toList_some, List.countP_singleton]
        cases s.covers x y with
        | false => rw [Bool.xor_false]; rfl
        | true => rw [Bool.xor_true, ← decide_not, decide_eq_decide, if_pos rfl, Nat.odd_add_one]

end Execution

theorem Machine.execute_display_eq_paint (m : Machine) (value : Int) (i : Instruction) :
    (m.execute value i).display = Execution.paint m.display ⟨m, i⟩ := by
  rw [execute_display]
  cases i with
  | draw x y n => exact congrArg (fun rows => (m.display.draw _ _ rows).1) (m.slice_index n.toNat)
  | _ => rfl

namespace Engine
variable {ρ : Type} [RandomSource ρ]
open Execution (paint drawn)

theorem execute_display (e : Engine ρ) (i : Instruction) :
    (e.execute false i).engine.machine.display = paint e.machine.display ⟨e.machine, i⟩ := by
  unfold execute
  rcases h : valueFor e.source i with ⟨r | v, source⟩
  · obtain ⟨⟨x, k, rfl⟩, -⟩ := valueFor_error h
    rfl
  · exact e.machine.execute_display_eq_paint v i

theorem cycle_display (e : Engine ρ) :
    (e.cycle false).engine.machine.display = paint e.machine.display ⟨e.machine.advance, e.next⟩ := by
  rcases cycle_cases false e with ⟨v, source, -, h⟩ | ⟨x, k, r, source, hi, -, h⟩ <;> rw [h]
  · exact e.machine.advance.execute_display_eq_paint v e.next
  · rw [hi]; rfl

theorem cyclesAfter_display {changes : List (Machine → Machine)} (h : ∀ f ∈ changes, ∀ m, (f m).display = m.display)
    (e : Engine ρ) : (cyclesAfter false changes e).engine.machine.display =
      (executionsAfter changes e).foldl paint e.machine.display := by
  induction changes generalizing e with
  | nil => rfl
  | cons f rest ih =>
    have hf : (e.mapMachine f).machine.display = e.machine.display := h f List.mem_cons_self _
    have hcycle := (e.mapMachine f).cycle_display
    rw [hf] at hcycle
    rw [cyclesAfter_cons, executionsAfter, List.foldl_cons]
    rcases hc : (e.mapMachine f).cycle false with ⟨e', _ | r, trace⟩
    · rw [hc] at hcycle
      refine (ih (fun g hg => h g (List.mem_cons_of_mem f hg)) e').trans ?_
      rw [hcycle]
      rfl
    · rw [hc] at hcycle
      exact hcycle

theorem answer_display (e : Engine ρ) (r : Request) : (e.answer false r).engine.machine.display =
    (e.executions r).foldl paint e.machine.display := by
  cases r with
  | cycles n =>
    refine cyclesAfter_display (fun f hf m => ?_) e
    rw [List.eq_of_mem_replicate hf]
    rfl
  | enter words =>
    refine cyclesAfter_display (fun f hf m => ?_) e
    obtain ⟨w, -, rfl⟩ := List.mem_map.1 hf
    rfl
  | execute opcode => exact e.execute_display _
  | load | store | fetch | setKey | releaseAll | assign | describe => rfl

theorem afterAll_display (tracing : Bool) (e : Engine ρ) (requests : List Request) :
    (e.afterAll tracing requests).machine.display = (e.history requests).foldl paint e.machine.display := by
  rw [afterAll_tracing]
  induction requests generalizing e with
  | nil => rfl
  | cons r rest ih =>
    rw [history, List.foldl_append, ← answer_display]
    exact ih (e.answer false r).engine

/-- The display shows where an odd number of the sprites drawn since it was last cleared lie over each other, whatever
the order in which they were drawn. -/
theorem picture_is_history (source : ρ) (tracing : Bool) (requests : List Request) :
    let final := (fresh source).afterAll tracing requests
    let sprites := drawn ((fresh source).history requests)
    (∀ x y : Nat, x < 64 → y < 32 →
      final.machine.display.isLit x y = .ok (decide (Odd (sprites.countP (·.covers x y))))) ∧
    ∀ (source' : ρ) (requests' : List Request), (drawn ((fresh source').history requests')).Perm sprites →
      ((fresh source').afterAll tracing requests').machine.display = final.machine.display := by
  have hcell (source : ρ) (requests : List Request) {x y : Nat} (hx : x < 64) (hy : y < 32) :
      ((fresh source).afterAll tracing requests).machine.display.cells.getLsbD (y * 64 + x) =
        decide (Odd ((drawn ((fresh source).history requests)).countP (·.covers x y))) := by
    rw [afterAll_display]
    exact Execution.getLsbD_foldl_paint _ hx hy
  refine ⟨fun x y hx hy => ?_, fun source' requests' hperm => ?_⟩
  · rw [Framebuffer.isLit_natCast _ hx hy]
    exact congrArg Except.ok (hcell source requests hx hy)
  · refine Framebuffer.ext_places fun x y hx hy => ?_
    have hcount := hperm.countP_eq (·.covers x y)
    exact (hcell source' requests' hx hy).trans (hcount ▸ (hcell source requests hx hy).symm)

/-- A fresh engine without random values. -/
def sourceless : Engine Random.Script := fresh ⟨[]⟩

/-- Draws the digit zero at the left edge and once more two cells to the right. -/
def twoZeros : List Request := [.enter [0x6102, 0xd005, 0xd105]]

/-- Draws something else first, clears it, and draws the zeros in the other order, the second one without a cycle. -/
def twoZerosBackwards : List Request := [.enter [0x6102, 0xd113, 0x00e0, 0xd105], .execute 0xd005]

def zeroFrom (left : Nat) : Sprite := ⟨left, 0, [0xf0, 0x90, 0x90, 0x90, 0xf0]⟩

theorem picture_is_history_of_two_zeros :
    (sourceless.afterAll true twoZeros).machine.display.isLit (2 : Nat) (0 : Nat) = .ok false ∧
    (sourceless.afterAll true twoZeros).machine.display.isLit (5 : Nat) (0 : Nat) = .ok true ∧
    (sourceless.afterAll true twoZerosBackwards).machine.display =
      (sourceless.afterAll true twoZeros).machine.display := by
  have hzeros : drawn (sourceless.history twoZeros) = [zeroFrom 0, zeroFrom 2] := by decide +kernel
  have hbackwards : drawn (sourceless.history twoZerosBackwards) = [zeroFrom 2, zeroFrom 0] := by decide +kernel
  have htwice : ¬Odd ([zeroFrom 0, zeroFrom 2].countP (·.covers 2 0)) := by decide
  have honce : Odd ([zeroFrom 0, zeroFrom 2].countP (·.covers 5 0)) := by decide
  unfold sourceless at *
  obtain ⟨hlit, horder⟩ := picture_is_history (⟨[]⟩ : Random.Script) true twoZeros
  rw [hzeros] at hlit horder
  refine ⟨?_, ?_, ?_⟩
  · rw [hlit 2 0 (by decide) (by decide), decide_eq_false htwice]
  · rw [hlit 5 0 (by decide) (by decide), decide_eq_true honce]
  · refine horder ⟨[]⟩ twoZerosBackwards ?_
    rw [hbackwards]
    exact .swap ..

end Engine
end ChipEight

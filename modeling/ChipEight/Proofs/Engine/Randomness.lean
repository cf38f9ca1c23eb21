import ChipEight.Proofs.Engine.Schedule
import ChipEight.Proofs.Word.Integer

/-!
# Random values in order

Each executed word of kind 12 draws one value, and no other word draws any (`after_source`). So a run looks at the values
of its source one after the other, and two sources that agree on the first ones give the same run until the next value
is drawn (`after_machine_of_values`).
-/

namespace ChipEight

namespace RandomSource
variable {ρ : Type} [RandomSource ρ]

/-- The source after `n` draws. -/
def later (source : ρ) : Nat → ρ
  | 0 => source
  | n + 1 => later (draw source).2 n

/-- What draw `k` gives, counted from zero. -/
def value (source : ρ) (k : Nat) : Except RandomError Int := (draw (later source k)).1

end RandomSource

namespace Engine
variable {ρ ρ' : Type} [RandomSource ρ] [RandomSource ρ'] {e : Engine ρ} {e' : Engine ρ'}
open RandomSource (draw later value)

/-- The words that the cycles of a schedule fetch, the one of a cycle that fails among them. -/
def fetched (e : Engine ρ) : List Action → List Word
  | [] => []
  | .cycle :: rest => e.machine.fetch :: (e.act .cycle).fetched rest
  | a :: rest => (e.act a).fetched rest

/-- How many of these words need a random value. -/
def rolls (e : Engine ρ) (schedule : List Action) : Nat := (e.fetched schedule).countP (·.kind = 0xc)

theorem rolls_cycle (e : Engine ρ) (rest : List Action) :
    e.rolls (.cycle :: rest) = (e.act .cycle).rolls rest + if e.machine.fetch.kind = 0xc then 1 else 0 := by
  simp only [rolls, fetched, List.countP_cons, decide_eq_true_eq]

theorem rolls_of_ne_cycle {a : Action} (h : a ≠ .cycle) (e : Engine ρ) (rest : List Action) :
    e.rolls (a :: rest) = (e.act a).rolls rest := by
  cases a with
  | cycle => exact absurd rfl h
  | write | load | setKey | releaseAll => rfl

/-! ### One cycle -/

theorem valueFor_next (e : Engine ρ) :
    valueFor e.source e.next = if e.machine.fetch.kind = 0xc then draw e.source else (.ok 0, e.source) := by
  split
  next h => rw [next, Instruction.ofWord_eq_random h]; rfl
  next h => exact valueFor_of_kind h e.source

theorem act_cycle_source (e : Engine ρ) :
    (e.act .cycle).source = if e.machine.fetch.kind = 0xc then (draw e.source).2 else e.source := by
  rw [act_cycle, cycle_source, valueFor_next]
  split <;> rfl

theorem cycle_machine (tracing : Bool) (e : Engine ρ) :
    (e.cycle tracing).engine.machine = match (valueFor e.source e.next).1 with
      | .ok v => (e.machine.advance.execute v e.next).tick
      | .error _ => e.machine.advance := by
  rcases h : valueFor e.source e.next with ⟨r | v, source⟩
  · rw [cycle_of_error h]
  · rw [cycle_of_ok h]

/-- The register takes the bits of the drawn value that the mask lets through. Nothing is written if there is none. -/
theorem cycle_of_random (h : e.machine.fetch.kind = 0xc) (tracing : Bool) :
    (∀ v, (draw e.source).1 = .ok v → (e.cycle tracing).fault = none ∧ (e.cycle tracing).engine.machine.registers =
      e.machine.registers.set e.machine.fetch.x (Byte.ofInt v &&& e.machine.fetch.kk)) ∧
    ∀ r, (draw e.source).1 = .error r → (e.cycle tracing).fault = some r ∧
      (e.cycle tracing).engine.machine.registers = e.machine.registers := by
  have hnext : e.next = .random e.machine.fetch.x e.machine.fetch.kk := Instruction.ofWord_eq_random h
  have hvalue : valueFor e.source e.next = draw e.source := by rw [hnext]; rfl
  refine ⟨fun v hv => ?_, fun r hr => ?_⟩
  · rw [cycle_of_ok (hvalue.trans (Prod.ext hv rfl)), hnext]
    exact ⟨rfl, rfl⟩
  · rw [cycle_of_error (hvalue.trans (Prod.ext hr rfl))]
    exact ⟨rfl, rfl⟩

theorem cycle_machine_of_value (hm : e'.machine = e.machine)
    (hv : e.machine.fetch.kind = 0xc → (draw e'.source).1 = (draw e.source).1) (tracing : Bool) :
    (e'.cycle tracing).engine.machine = (e.cycle tracing).engine.machine := by
  have hnext : e'.next = e.next := congrArg (Instruction.ofWord ∘ Machine.fetch) hm
  have hvalue : (valueFor e'.source e'.next).1 = (valueFor e.source e.next).1 := by
    rw [valueFor_next, valueFor_next, hm]
    split
    next h => exact hv h
    next => rfl
  rw [cycle_machine, cycle_machine, hvalue, hnext, hm]

/-! ### Schedules -/

/-- A run draws as many values as it executes words that need one. -/
theorem after_source (e : Engine ρ) (schedule : List Action) :
    (e.after schedule).source = later e.source (e.rolls schedule) := by
  induction schedule generalizing e with
  | nil => rfl
  | cons a rest ih =>
    refine (ih (e.act a)).trans ?_
    cases a with
    | cycle =>
      rw [rolls_cycle, act_cycle_source]
      split <;> rfl
    | write | load | setKey | releaseAll => rfl

/-- What is done between two cycles does not look at the source. -/
theorem act_of_ne_cycle {a : Action} (ha : a ≠ .cycle) (hm : e'.machine = e.machine) :
    (e'.act a).machine = (e.act a).machine ∧ (e'.act a).source = e'.source ∧ (e.act a).source = e.source := by
  obtain ⟨m, source⟩ := e
  obtain ⟨m', source'⟩ := e'
  obtain rfl : m' = m := hm
  cases a with
  | cycle => exact absurd rfl ha
  | write | load | setKey | releaseAll => exact ⟨rfl, rfl, rfl⟩

/-- Sources that agree on their first `m` values give the same run until the next value is drawn. -/
theorem after_machine_of_values {m : Nat} (hm : e'.machine = e.machine)
    (hv : ∀ k < m, value e'.source k = value e.source k) {schedule : List Action} (hrolls : e.rolls schedule ≤ m) :
    (e'.after schedule).machine = (e.after schedule).machine := by
  -- on the schedule: what is left to draw shrinks with the values that are known to agree
  induction schedule generalizing e e' m with
  | nil => exact hm
  | cons a rest ih =>
    by_cases ha : a = .cycle
    · subst ha
      rw [rolls_cycle] at hrolls
      have hstep : (e'.act .cycle).machine = (e.act .cycle).machine := by
        rw [act_cycle, act_cycle]
        refine cycle_machine_of_value hm (fun hkind => hv 0 ?_) false
        rw [if_pos hkind] at hrolls
        exact Nat.lt_of_lt_of_le (Nat.succ_pos _) hrolls
      by_cases hkind : e.machine.fetch.kind = 0xc
      · rw [if_pos hkind] at hrolls
        refine ih hstep (m := m - 1) (fun k hk => ?_) (by omega)
        rw [act_cycle_source, act_cycle_source, if_pos hkind, if_pos (hm ▸ hkind)]
        exact hv (k + 1) (by omega)
      · rw [if_neg hkind] at hrolls
        refine ih hstep (m := m) (fun k hk => ?_) hrolls
        rw [act_cycle_source, act_cycle_source, if_neg hkind, if_neg (hm ▸ hkind)]
        exact hv k hk
    · obtain ⟨hmachine, hsource', hsource⟩ := act_of_ne_cycle ha hm
      rw [rolls_of_ne_cycle ha] at hrolls
      refine ih hmachine (m := m) (fun k hk => ?_) hrolls
      rw [hsource', hsource]
      exact hv k hk

/-- Each executed word of kind 12 takes one value, in order and none lost: a run leaves its source behind as many draws
as it executed such words. Such a word sets its register to the bits of its value that are in its mask. With another
source that has the same first values, the run is the same until a further value is drawn. -/
theorem random_values_in_order (e : Engine ρ) :
    (∀ schedule : List Action, (e.after schedule).source = later e.source (e.rolls schedule)) ∧
    (∀ (before : List Action) (tracing : Bool),
      let w := (e.after before).machine.fetch
      let out := (e.after before).cycle tracing
      w.kind = 0xc →
        (∀ v, value e.source (e.rolls before) = .ok v → out.fault = none ∧
          (out.engine.machine.registers[w.x].toNat : Int) = v.land w.kk.toNat ∧
          out.engine.machine.registers[w.x] &&& ~~~w.kk = 0) ∧
        ∀ r, value e.source (e.rolls before) = .error r → out.fault = some r ∧
          out.engine.machine.registers = (e.after before).machine.registers) ∧
    ∀ {σ : Type} [RandomSource σ] (source' : σ) (m : Nat), (∀ k < m, value source' k = value e.source k) →
      ∀ schedule : List Action, e.rolls schedule ≤ m →
        (after ⟨e.machine, source'⟩ schedule).machine = (e.after schedule).machine := by
  refine ⟨e.after_source, ?_, @fun σ _ source' m hv schedule hrolls => ?_⟩
  · intro before tracing w out hkind
    have hdraw : (draw (e.after before).source).1 = value e.source (e.rolls before) := by rw [after_source]; rfl
    obtain ⟨hok, herror⟩ := cycle_of_random hkind tracing
    refine ⟨fun v hv => ?_, fun r hr => herror r (hdraw.trans hr)⟩
    obtain ⟨hfault, hregisters⟩ := hok v (hdraw.trans hv)
    have hregister : out.engine.machine.registers[w.x] = Byte.ofInt v &&& w.kk := by
      rw [hregisters, Table.getElem_set_self]
    refine ⟨hfault, ?_, ?_⟩
    · rw [hregister, land_word]
      rfl
    · rw [hregister, BitVec.and_assoc, BitVec.and_not_self]
      exact BitVec.and_zero
  · have hmachine : (⟨e.machine, source'⟩ : Engine σ).machine = e.machine := rfl
    exact after_machine_of_values hmachine hv hrolls

/-- The words `C00F` and `C1F0`, and values of which one is negative and one is above 255. -/
def twoRolls : Engine Random.Script :=
  ⟨{ Machine.fresh with memory := Machine.fresh.memory.store 0x200 [0xc0, 0x0f, 0xc1, 0xf0] }, ⟨[-2, 0x1ab, 5]⟩⟩

def rollAndPress : List Action := [.cycle, .setKey 3 true, .write 0x300 7]

/-- After the second word the value 5 is left, and it would not have mattered if it had been missing. -/
theorem random_values_in_order_of_two_rolls :
    (twoRolls.after (rollAndPress ++ [.cycle])).source = ⟨[5]⟩ ∧
    (twoRolls.after rollAndPress).machine.fetch.kind = 0xc ∧
    (((twoRolls.after rollAndPress).cycle true).engine.machine.registers[
      (twoRolls.after rollAndPress).machine.fetch.x].toNat : Int) =
        Int.land 0x1ab (twoRolls.after rollAndPress).machine.fetch.kk.toNat ∧
    (after ⟨twoRolls.machine, (⟨[-2, 0x1ab]⟩ : Random.Script)⟩ (rollAndPress ++ [.cycle])).machine =
      (twoRolls.after (rollAndPress ++ [.cycle])).machine := by
  obtain ⟨hsource, hword, hagree⟩ := random_values_in_order twoRolls
  have hone : twoRolls.rolls rollAndPress = 1 := by decide +kernel
  have htwo : twoRolls.rolls (rollAndPress ++ [.cycle]) = 2 := by decide +kernel
  have hkind : (twoRolls.after rollAndPress).machine.fetch.kind = 0xc := by decide +kernel
  have hvalue : value twoRolls.source (twoRolls.rolls rollAndPress) = .ok 0x1ab := by rw [hone]; rfl
  have hsame : ∀ k < 2, value (⟨[-2, 0x1ab]⟩ : Random.Script) k = value twoRolls.source k := by decide
  obtain ⟨-, hregister, -⟩ := (hword rollAndPress true hkind).1 0x1ab hvalue
  refine ⟨?_, hkind, hregister, hagree _ 2 hsame _ (Nat.le_of_eq htwo)⟩
  rw [hsource, htwo]
  rfl

end Engine
end ChipEight

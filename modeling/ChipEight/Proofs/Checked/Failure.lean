import ChipEight.Proofs.Checked.Validity
import ChipEight.Proofs.Engine.History
import ChipEight.Proofs.Engine.Randomness

/-!
# Failing cycles

From a valid state a cycle faults just if the word at the program counter needs a random value and there is none, and
then it has stepped over the word and has done nothing else (`State.Valid.cycle_fails_iff`). Several cycles break off at
the first one that faults (`cycles_fails_iff`), and more cycles from there are those of the run that steps over this
word (`resumed_run`).
-/

namespace ChipEight.Checked
variable {ρ : Type}

/-! ### Routines one after the other -/

section
variable {α β : Type} {x : Routine ρ α} {f : α → Routine ρ β} {s s' : State ρ} {a : α} {b : β} {fault : Fault}

theorem yields_bind_iff : Yields (x >>= f) s b s' ↔ ∃ a s₁, Yields x s a s₁ ∧ Yields (f a) s₁ b s' := by
  constructor
  · intro h
    cases hx : x.run s with
    | ok a s₁ => exact ⟨a, s₁, hx, (run_bind_of_ok hx f).symm.trans h⟩
    | error fault s₁ => cases h.symm.trans (Fails.bind hx f)
  · rintro ⟨a, s₁, hx, hf⟩
    exact hx.bind hf

theorem fails_bind_iff : Fails (x >>= f) s fault s' ↔
    Fails x s fault s' ∨ ∃ a s₁, Yields x s a s₁ ∧ Fails (f a) s₁ fault s' := by
  constructor
  · intro h
    cases hx : x.run s with
    | ok a s₁ => exact .inr ⟨a, s₁, hx, (run_bind_of_ok hx f).symm.trans h⟩
    | error fault' s₁ =>
      obtain ⟨rfl, rfl⟩ := EStateM.Result.error.inj ((Fails.bind hx f).symm.trans h)
      exact .inl hx
  · rintro (hx | ⟨a, s₁, hx, hf⟩)
    · exact hx.bind f
    · exact hx.bind_fails hf

end

variable [RandomSource ρ]

/-- Cycles one after the other, up to the first one that faults. -/
def cycles : Nat → Routine ρ Unit
  | 0 => pure ()
  | n + 1 => do
    cycle
    cycles n

/-- The word at the program counter needs a random value, and the source gives none. -/
def State.Lacks (s : State ρ) (r : RandomError) : Prop :=
  ∃ w, Yields (readWord s.pc) s w s ∧ (decode w).kind = 0xc ∧ (RandomSource.draw s.source).1 = .error r

/-- The state behind the word at the program counter, with nothing done. The source has been asked. -/
def State.passed (s : State ρ) : State ρ :=
  { s with pc := (s.pc + 2) % 4096, drawn := false, source := (RandomSource.draw s.source).2 }

def passOver : Routine ρ Unit := modify State.passed

/-- Some cycles, which may break off, and some more from where these end. -/
def resumed (n m : Nat) : Routine ρ Unit := do
  try cycles n catch _ => pure ()
  cycles m

/-! ### One cycle -/

variable {e : Engine ρ} {s s' : State ρ} {r : RandomError} {fault : Fault}

theorem lacks_checked : e.checked.Lacks r ↔
    e.machine.fetch.kind = 0xc ∧ (RandomSource.draw e.source).1 = .error r := by
  have hword : Yields (readWord e.checked.pc) e.checked (e.machine.fetch.toNat : Int) e.checked :=
    readWord_checked e.machine.pc
  have hkind : (decode (e.machine.fetch.toNat : Int)).kind = (e.machine.fetch.kind.toNat : Int) := by
    rw [decode_eq, Word.ofInt_natCast_toNat]
    rfl
  constructor
  · rintro ⟨w, hw, hwk, hdraw⟩
    obtain ⟨rfl, -⟩ := EStateM.Result.ok.inj (hw.symm.trans hword)
    exact ⟨BitVec.eq_of_toNat_eq (Int.ofNat_inj.1 (hkind.symm.trans hwk)), hdraw⟩
  · rintro ⟨hk, hdraw⟩
    exact ⟨_, hword, by rw [hkind, hk]; rfl, hdraw⟩

theorem passed_checked (e : Engine ρ) :
    e.checked.passed = (⟨e.machine.advance, (RandomSource.draw e.source).2⟩ : Engine ρ).checked := by
  have hpc : ((e.machine.pc.toNat : Int) + 2) % 4096 = (e.machine.pc + 2).toNat := by
    rw [BitVec.toNat_add]
    rfl
  exact congrArg (fun pc => { e.checked with pc, drawn := false, source := (RandomSource.draw e.source).2 }) hpc

theorem cycle_checked_cases (e : Engine ρ) :
    (∃ e' : Engine ρ, Yields cycle e.checked () e'.checked ∧ ∀ r, ¬e.checked.Lacks r) ∨
    ∃ r, e.checked.Lacks r ∧ Fails cycle e.checked (.random r) e.checked.passed := by
  have hrun := cycle_run e
  rcases Engine.cycle_cases false e with ⟨v, source, hvalue, hcycle⟩ | ⟨x, k, r, source, hnext, hdraw, hcycle⟩
  · rw [hcycle] at hrun
    refine .inl ⟨_, hrun, fun r hlacks => ?_⟩
    obtain ⟨hkind, hdraw⟩ := lacks_checked.1 hlacks
    rw [Engine.valueFor_next, if_pos hkind] at hvalue
    rw [hvalue] at hdraw
    cases hdraw
  · rw [hcycle] at hrun
    refine .inr ⟨r, lacks_checked.2 ⟨Instruction.kind_of_random hnext, by rw [hdraw]⟩, ?_⟩
    rw [passed_checked, hdraw]
    exact hrun

theorem State.Valid.cycle_fails_iff (h : s.Valid) :
    Fails cycle s fault s' ↔ ∃ r, fault = .random r ∧ s.Lacks r ∧ s' = s.passed := by
  obtain ⟨e, rfl⟩ := (State.valid_iff s).1 h
  rcases cycle_checked_cases e with ⟨e', hyields, hno⟩ | ⟨r, hlacks, hfails⟩
  · constructor
    · intro hfails
      cases hfails.symm.trans hyields
    · rintro ⟨r, -, hlacks, -⟩
      exact absurd hlacks (hno r)
  · constructor
    · intro hfails'
      obtain ⟨rfl, rfl⟩ := EStateM.Result.error.inj (hfails'.symm.trans hfails)
      exact ⟨r, rfl, hlacks, rfl⟩
    · rintro ⟨r', rfl, hlacks', rfl⟩
      obtain rfl : r' = r :=
        Except.error.inj ((lacks_checked.1 hlacks').2.symm.trans (lacks_checked.1 hlacks).2)
      exact hfails

theorem State.Valid.cycle (h : s.Valid) (hs : Yields cycle s () s') : s'.Valid := by
  obtain ⟨e, rfl⟩ := (State.valid_iff s).1 h
  rcases cycle_checked_cases e with ⟨e', hyields, -⟩ | ⟨r, -, hfails⟩
  · obtain ⟨-, rfl⟩ := EStateM.Result.ok.inj (hs.symm.trans hyields)
    exact checked_valid e'
  · cases hs.symm.trans hfails

/-! ### Several cycles -/

theorem yields_cycles_succ {n : Nat} :
    Yields (cycles (n + 1)) s () s' ↔ ∃ s₁, Yields cycle s () s₁ ∧ Yields (cycles n) s₁ () s' := by
  rw [cycles, yields_bind_iff]
  exact ⟨fun ⟨_, h⟩ => h, fun h => ⟨(), h⟩⟩

theorem State.Valid.cycles {n : Nat} (h : s.Valid) (hs : Yields (cycles n) s () s') : s'.Valid := by
  induction n generalizing s with
  | zero =>
    obtain ⟨-, rfl⟩ := EStateM.Result.ok.inj hs
    exact h
  | succ n ih =>
    obtain ⟨s₁, hcycle, hrest⟩ := yields_cycles_succ.1 hs
    exact ih (h.cycle hcycle) hrest

/-- Cycles break off at the first one that faults. -/
theorem cycles_fails_iff {n : Nat} : Fails (cycles n) s fault s' ↔
    ∃ k < n, ∃ s₁, Yields (cycles k) s () s₁ ∧ Fails cycle s₁ fault s' := by
  induction n generalizing s with
  | zero =>
    constructor
    · intro h
      cases h
    · rintro ⟨k, hk, -⟩
      exact absurd hk (Nat.not_lt_zero k)
  | succ n ih =>
    rw [cycles, fails_bind_iff]
    constructor
    · rintro (hfails | ⟨_, s₁, hcycle, hfails⟩)
      · exact ⟨0, Nat.succ_pos n, s, rfl, hfails⟩
      · obtain ⟨k, hk, s₂, hyields, hfails⟩ := ih.1 hfails
        exact ⟨k + 1, Nat.succ_lt_succ hk, s₂, yields_cycles_succ.2 ⟨s₁, hcycle, hyields⟩, hfails⟩
    · rintro ⟨k, hk, s₂, hyields, hfails⟩
      cases k with
      | zero =>
        obtain ⟨-, rfl⟩ := EStateM.Result.ok.inj hyields
        exact .inl hfails
      | succ k =>
        obtain ⟨s₁, hcycle, hyields⟩ := yields_cycles_succ.1 hyields
        exact .inr ⟨(), s₁, hcycle, ih.2 ⟨k, Nat.lt_of_succ_lt_succ hk, s₂, hyields, hfails⟩⟩

/-- Cycles after some that broke off are those of the run that passes over the word. -/
theorem resumed_run {n k : Nat} {s₁ : State ρ} (m : Nat) (hfails : Fails (cycles n) s fault s₁.passed)
    (hyields : Yields (cycles k) s () s₁) :
    (resumed n m).run s = (do cycles k; passOver; cycles m : Routine ρ Unit).run s := by
  have htry : Yields (try cycles n catch _ => pure ()) s () s₁.passed := by
    show EStateM.tryCatch (cycles n) (fun _ => pure ()) s = _
    rw [EStateM.tryCatch, show cycles n s = .error fault s₁.passed from hfails]
    rfl
  have hpass : Yields passOver s₁ () s₁.passed := .modify rfl
  calc (resumed n m).run s = (cycles m).run s₁.passed := run_bind_of_ok htry _
    _ = (do passOver; cycles m : Routine ρ Unit).run s₁ := (run_bind_of_ok hpass fun _ => cycles m).symm
    _ = (do cycles k; passOver; cycles m : Routine ρ Unit).run s :=
      (run_bind_of_ok hyields fun _ => do passOver; cycles m).symm

/-- The engine's reply to a request for cycles is what the cycles come to. -/
theorem cycles_run (tracing : Bool) (n : Nat) (e : Engine ρ) :
    let reply := e.answer tracing (.cycles n)
    (cycles n).run e.checked = result reply.engine reply.fault := by
  induction n generalizing e with
  | zero => rfl
  | succ n ih =>
    intro reply
    have hcycle := cycle_run e
    have hreply : reply = Engine.cyclesAfter tracing (id :: List.replicate n id) e := rfl
    rw [Engine.cyclesAfter_cons] at hreply
    rw [hreply, cycles]
    rcases hc : e.cycle false with ⟨e', _ | r, trace⟩
    · rw [hc] at hcycle
      have hrest := run_bind_of_ok (show Yields cycle e.checked () e'.checked from hcycle) fun _ => cycles n
      rw [show (e.mapMachine id).cycle false = _ from hc]
      exact hrest.trans (ih e')
    · rw [hc] at hcycle
      rw [show (e.mapMachine id).cycle false = _ from hc]
      exact (show Fails cycle e.checked (.random r) e'.checked from hcycle).bind _

/-- From a valid state a cycle faults just if the word at the program counter is of kind 12 and the source gives no
value. It then leaves the state with the program counter behind the word, nothing drawn, and all else as it was. A
number of cycles, also those of a request, breaks off at the first one that faults, with the cycles before it done.
Whatever number of cycles follows, this comes to the cycles before the fault, a step over the word without a tick, and
the cycles that follow. -/
theorem failing_cycle_is_passed_over {s : State ρ} (h : s.Valid) :
    (∀ fault s', Fails cycle s fault s' ↔ ∃ r, fault = .random r ∧ s.Lacks r ∧ s' = s.passed) ∧
    (∀ n fault s', Fails (cycles n) s fault s' ↔ ∃ k < n, ∃ s₁ r, Yields (cycles k) s () s₁ ∧
      fault = .random r ∧ s₁.Lacks r ∧ s' = s₁.passed) ∧
    (∀ k s₁ r, Yields (cycles k) s () s₁ → s₁.Lacks r → ∀ n, k < n → ∀ m,
      (resumed n m).run s = (do cycles k; passOver; cycles m : Routine ρ Unit).run s) ∧
    ∃ e : Engine ρ, e.checked = s ∧ ∀ tracing n, (cycles n).run s =
      result (e.answer tracing (.cycles n)).engine (e.answer tracing (.cycles n)).fault := by
  have hseveral (n : Nat) (fault : Fault) (s' : State ρ) : Fails (cycles n) s fault s' ↔
      ∃ k < n, ∃ s₁ r, Yields (cycles k) s () s₁ ∧ fault = .random r ∧ s₁.Lacks r ∧ s' = s₁.passed := by
    rw [cycles_fails_iff]
    constructor
    · rintro ⟨k, hk, s₁, hyields, hfails⟩
      obtain ⟨r, hr, hlacks, hs'⟩ := (h.cycles hyields).cycle_fails_iff.1 hfails
      exact ⟨k, hk, s₁, r, hyields, hr, hlacks, hs'⟩
    · rintro ⟨k, hk, s₁, r, hyields, hr, hlacks, hs'⟩
      exact ⟨k, hk, s₁, hyields, (h.cycles hyields).cycle_fails_iff.2 ⟨r, hr, hlacks, hs'⟩⟩
  refine ⟨fun fault s' => h.cycle_fails_iff, hseveral, fun k s₁ r hyields hlacks n hk m => ?_, ?_⟩
  · exact resumed_run m ((hseveral n _ _).2 ⟨k, hk, s₁, r, hyields, rfl, hlacks, rfl⟩) hyields
  · obtain ⟨e, he⟩ := (State.valid_iff s).1 h
    exact ⟨e, he, fun tracing n => he ▸ cycles_run tracing n e⟩

/-- The words `6001`, `C0FF` and `7002` with a timer that runs, and no random value. -/
def noRoll : Engine Random.Script :=
  ⟨{ Machine.fresh with
      memory := Machine.fresh.memory.store 0x200 [0x60, 0x01, 0xc0, 0xff, 0x70, 0x02], delay := 9 }, ⟨[]⟩⟩

/-- Three cycles break off at the second one, and one more does what follows the word. -/
theorem failing_cycle_is_passed_over_without_a_roll :
    let s₁ := (noRoll.cycle false).engine.checked
    noRoll.checked.Valid ∧ Fails (cycles 3) noRoll.checked (.random .exhausted) s₁.passed ∧
      (resumed 3 1).run noRoll.checked =
        (do cycles 1; passOver; cycles 1 : Routine Random.Script Unit).run noRoll.checked := by
  intro s₁
  obtain ⟨-, hseveral, hresumed, -⟩ := failing_cycle_is_passed_over (checked_valid noRoll)
  have hcycle : cycle.run noRoll.checked = result (noRoll.cycle false).engine (noRoll.cycle false).fault :=
    cycle_run noRoll
  rw [show (noRoll.cycle false).fault = none by decide +kernel] at hcycle
  have hyields : Yields (cycles 1) noRoll.checked () s₁ := yields_cycles_succ.2 ⟨s₁, hcycle, rfl⟩
  have hlacks : s₁.Lacks .exhausted := lacks_checked.2 ⟨by decide +kernel, by decide +kernel⟩
  exact ⟨checked_valid noRoll, (hseveral 3 _ _).2 ⟨1, by decide, s₁, _, hyields, rfl, hlacks, rfl⟩,
    hresumed 1 s₁ _ hyields hlacks 3 (by decide) 1⟩

end ChipEight.Checked

import ChipEight.Proofs.Checked.Tracing
import ChipEight.Proofs.Checked.Validity

/-!
# Dispatch

An opcode is executed alike whether the nested decoder or the chart finds its instruction, and a word that names no
instruction is passed over.
-/

namespace ChipEight.Engine
open Checked

variable {ρ : Type} {e : Engine ρ}

theorem next_of_not_assigned (h : ¬e.machine.fetch.Assigned) : e.next = .unknown e.machine.fetch :=
  Instruction.ofWord_eq_unknown_iff.2 h

variable [RandomSource ρ]

theorem cycle_of_not_assigned (h : ¬e.machine.fetch.Assigned) (tracing : Bool) :
    e.cycle tracing = ⟨⟨e.machine.advance.tick, e.source⟩, none, e.nextTrace tracing⟩ := by
  rw [cycle_of_next (next_of_not_assigned h) nofun]
  rfl

/-- From a valid state, a cycle on a word that is not assigned steps over it and lets the timers tick. -/
theorem checked_cycle_of_not_assigned {s : State ρ} {word : Int} (hs : s.Valid) (hword : Yields (readWord s.pc) s word s)
    (h : ¬(Word.ofInt word).Assigned) : Checked.cycle.run s = .ok () { s with
      pc := (s.pc + 2) % 4096, drawn := false, delay := max (s.delay - 1) 0, sound := max (s.sound - 1) 0 } := by
  obtain ⟨e, rfl⟩ := (State.valid_iff s).1 hs
  obtain ⟨rfl, -⟩ := EStateM.Result.ok.inj (hword.symm.trans (readWord_checked e.machine.pc))
  rw [Word.ofInt_natCast_toNat] at h
  have hpc : ((e.machine.pc + 2).toNat : Int) = (e.checked.pc + 2) % 4096 := by
    rw [BitVec.toNat_add]
    rfl
  have htimer (timer : Byte) : ((Machine.countDown timer).toNat : Int) = max ((timer.toNat : Int) - 1) 0 := by
    rw [Machine.toNat_countDown]
    omega
  have hrun := cycle_run e
  rw [cycle_of_not_assigned h] at hrun
  rw [hrun, ← hpc]
  show EStateM.Result.ok () { e.checked with
    pc := ((e.machine.pc + 2).toNat : Int), drawn := false
    delay := ((Machine.countDown e.machine.delay).toNat : Int)
    sound := ((Machine.countDown e.machine.sound).toNat : Int) } = _
  rw [htimer, htimer]
  rfl

/-- Executing the instruction that the nested decoder finds is executing the one that the chart gives, which is unknown
just for the words that are not assigned. A cycle on such a word moves on and lets the timers tick. So it is on the
checked machine: in every state, to call an entry of the primary table is to call the method that it leads to, with
all that is printed, and it leads to the method that passes over the word just if the word is not assigned. -/
theorem dispatches_agree (ρ : Type) [RandomSource ρ] :
    (∀ (e : Engine ρ) (tracing : Bool) (opcode : Int),
      e.execute tracing (.ofWord (.ofInt opcode)) = e.execute tracing (.lookup (.ofInt opcode))) ∧
    (∀ opcode : Int, (∃ v, Instruction.lookup (.ofInt opcode) = .unknown v) ↔ ¬(Word.ofInt opcode).Assigned) ∧
    (∀ (e : Engine ρ) (tracing : Bool), ¬e.machine.fetch.Assigned →
      let out := e.cycle tracing
      let m := out.engine.machine
      out.fault = none ∧ out.engine.source = e.source ∧
        m = { e.machine with pc := m.pc, drawn := false, delay := m.delay, sound := m.sound } ∧
        m.pc.toNat = (e.machine.pc.toNat + 2) % 4096 ∧
        m.delay.toNat = e.machine.delay.toNat - 1 ∧ m.sound.toNat = e.machine.sound.toNat - 1) ∧
    (∀ (tracing : Bool) (opcode : Int), (executeTraced tracing opcode : Traced ρ Unit) =
      quiet (Checked.lookup (decode opcode)) >>= fun m => m.traced tracing (decode opcode)) ∧
    (∀ (opcode : Int) (s : State ρ), ∃ m, Yields (Checked.lookup (decode opcode)) s m s ∧
      m = (Instruction.lookup (.ofInt opcode)).method ∧ (m = .unknown ↔ ¬(Word.ofInt opcode).Assigned)) ∧
    ∀ (s : State ρ) (word : Int), s.Valid → Yields (readWord s.pc) s word s → ¬(Word.ofInt word).Assigned →
      Checked.cycle.run s = .ok () { s with
        pc := (s.pc + 2) % 4096, drawn := false, delay := max (s.delay - 1) 0, sound := max (s.sound - 1) 0 } := by
  have hunknown (opcode : Int) :
      (∃ v, Instruction.lookup (.ofInt opcode) = .unknown v) ↔ ¬(Word.ofInt opcode).Assigned := by
    rw [Instruction.lookup_eq_ofWord, ← Instruction.ofWord_eq_unknown_iff]
    constructor
    · rintro ⟨v, hv⟩
      rw [hv, (Instruction.ofWord_eq_iff.1 hv).2]
    · exact fun h => ⟨_, h⟩
  refine ⟨fun e tracing opcode => ?_, hunknown, fun e tracing h => ?_, fun tracing opcode => ?_, fun opcode s => ?_,
    fun s word hs hword h => ?_⟩
  · rw [Instruction.lookup_eq_ofWord]
  · rw [cycle_of_not_assigned h]
    refine ⟨rfl, rfl, rfl, ?_, Machine.toNat_countDown _, Machine.toNat_countDown _⟩
    exact BitVec.toNat_add e.machine.pc 2
  · exact executeTraced_eq_lookup tracing opcode
  · refine ⟨(Instruction.lookup (.ofInt opcode)).method, ?_, rfl, ?_⟩
    · rw [Instruction.lookup_eq_ofWord]
      exact lookup_decode s opcode
    · exact Instruction.method_eq_unknown_iff.trans (hunknown opcode)
  · exact checked_cycle_of_not_assigned hs hword h

/-- An engine with ones in all of its memory, at the last address. -/
def onesEverywhere : Engine Random.Script :=
  ⟨{ Machine.fresh with memory := .replicate 12 0xff, pc := 0xfff, sound := 5, drawn := true }, ⟨[]⟩⟩

theorem dispatches_agree_on_ones :
    ¬onesEverywhere.machine.fetch.Assigned ∧
      (let m := (onesEverywhere.cycle true).engine.machine
      m = { onesEverywhere.machine with pc := m.pc, drawn := false, delay := m.delay, sound := m.sound } ∧
        m.pc.toNat = 1 ∧ m.delay.toNat = 0 ∧ m.sound.toNat = 4) ∧
      let s := onesEverywhere.checked
      s.Valid ∧ Yields (readWord s.pc) s 0xffff s ∧
        Checked.cycle.run s = .ok () { s with pc := 1, drawn := false, delay := 0, sound := 4 } := by
  have h : ¬onesEverywhere.machine.fetch.Assigned := by decide +kernel
  have hvalid : onesEverywhere.checked.Valid := checked_valid onesEverywhere
  have hfetch : (onesEverywhere.machine.fetch.toNat : Int) = 0xffff := by decide +kernel
  have hword : Yields (readWord onesEverywhere.checked.pc) onesEverywhere.checked 0xffff onesEverywhere.checked :=
    hfetch ▸ readWord_checked onesEverywhere.machine.pc
  obtain ⟨-, -, hcycle, -, -, hchecked⟩ := dispatches_agree Random.Script
  obtain ⟨-, -, hm, hpc, hdelay, hsound⟩ := hcycle onesEverywhere true h
  exact ⟨h, ⟨hm, hpc, hdelay, hsound⟩, hvalid, hword, hchecked _ 0xffff hvalid hword (by decide)⟩

end ChipEight.Engine

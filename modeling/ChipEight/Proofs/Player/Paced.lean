import ChipEight.Player.Run
import ChipEight.Proofs.Engine.Cycle
import ChipEight.Proofs.Screen.Window
import Mathlib.Data.List.Forall2

/-!
# Playing without a window

`Paced` is what a session does to its engine, told without a window: no screen, no flips, no trace. A session whose
window takes what is painted goes through the same engines turn by turn (`Follows`): tracing, painting and flipping do
not reach the engine. How its screen pictures the display is carried along (`FollowsWith`), whatever of it is kept when
a display is rendered (`Screen.Redraws`).
-/

namespace ChipEight

def Machine.loaded (program : List Byte) : Machine :=
  { Machine.fresh with memory := Machine.fresh.memory.load program }

/-- How a turn ends, whatever its cycle does. -/
def Turn.progress (t : Turn) : Progress :=
  match t.batch with
  | .failure reason => .crashed (.events reason)
  | .events events => if events.any Keyboard.leaves then .left else .goesOn

/-- Why a script breaks off, if it does so before the user leaves. -/
def Turn.crash? : List Turn → Option Crash
  | [] => none
  | t :: rest =>
    match t.progress with
    | .goesOn => crash? rest
    | .left => none
    | .crashed c => some c

structure Paced (ρ : Type) where
  engine : Engine ρ
  /-- The milliseconds since the last cycle. -/
  elapsed : Int
  /-- The instructions of the completed cycles. -/
  executed : List Instruction

namespace Paced
variable {ρ : Type}

def start (source : ρ) (program : List Byte) : Paced ρ := ⟨⟨.loaded program, source⟩, 0, []⟩

variable [RandomSource ρ]

/-- Time passes and all events are latched. Then a cycle is run, unless one of them asks to leave or it is too early. -/
def turn (delay : Int) (p : Paced ρ) (t : Turn) : Paced ρ :=
  let elapsed := p.elapsed + t.tick
  match t.batch with
  | .failure _ => { p with elapsed }
  | .events events =>
    let engine := p.engine.mapMachine fun m => { m with keypad := Keyboard.latchAll m.keypad events }
    if events.any Keyboard.leaves ∨ elapsed < delay then { p with engine, elapsed }
    else ⟨(engine.cycle false).engine, 0, p.executed ++ [engine.next]⟩

/-- Takes turns up to the first one that does not go on. After the given ones the user leaves. -/
def play (delay : Int) : List Turn → Paced ρ → Paced ρ
  | [], p => p.turn delay .leaving
  | t :: rest, p =>
    match t.progress with
    | .goesOn => play delay rest (p.turn delay t)
    | _ => p.turn delay t

def history (delay : Int) : List Turn → Paced ρ → List (Paced ρ)
  | [], p => [p, p.turn delay .leaving]
  | t :: rest, p =>
    match t.progress with
    | .goesOn => p :: history delay rest (p.turn delay t)
    | _ => [p, p.turn delay t]

end Paced

namespace Session
variable {σ ρ : Type}

section
variable [Canvas σ] [RandomSource ρ]

/-- The session at its start and at the ends of the turns that it takes. -/
def history (tracing : Bool) (delay : Setting Int) : List Turn → Session σ ρ → List (Session σ ρ)
  | [], s => [s, (s.turn tracing delay .leaving).1]
  | t :: rest, s =>
    match s.turn tracing delay t with
    | (s', .goesOn, _) => s :: history tracing delay rest s'
    | (s', _, _) => [s, s']

/-- The last session of the history is the one that playing leaves. -/
theorem getLast?_history (tracing : Bool) (delay : Setting Int) (turns : List Turn) (s : Session σ ρ) :
    (s.history tracing delay turns).getLast? = some (s.play tracing delay turns).1 := by
  induction turns generalizing s with
  | nil => rfl
  | cons t rest ih =>
    rw [history, play]
    rcases s.turn tracing delay t with ⟨s', _ | _ | c, lines⟩
    · show (s :: s'.history tracing delay rest).getLast? = _
      rw [List.getLast?_cons, ih]
      rfl
    · rfl
    · rfl

end

/-- The session has the engine of `p`, and what was painted last was flipped. It was flipped once at the start and once
for each instruction that draws. -/
structure Follows (p : Paced ρ) (s : Session σ ρ) : Prop where
  engine : s.engine = p.engine
  elapsed : s.elapsed = p.elapsed
  cycles : s.cycles = p.executed.length
  flips : s.flips = 1 + p.executed.countP Instruction.draws
  shown : s.shown = s.screen

/-- What is more, the screen that was flipped pictures the display. -/
structure FollowsWith (Picture : Screen σ → Display → Prop) (p : Paced ρ) (s : Session σ ρ) : Prop
    extends Follows p s where
  picture : Picture s.shown s.engine.machine.display

namespace FollowsWith
variable {Picture : Screen σ → Display → Prop} {p : Paced ρ} {s : Session σ ρ}

theorem of_display_eq (h : FollowsWith Picture p s) {e : Engine ρ} {elapsed : Int} {ticks : Nat}
    (hd : e.machine.display = s.engine.machine.display) :
    FollowsWith Picture { p with engine := e, elapsed } { s with engine := e, elapsed, ticks } :=
  ⟨⟨rfl, rfl, h.cycles, h.flips, h.shown⟩, by rw [hd]; exact h.picture⟩

variable [Canvas σ] [RandomSource ρ] (hsource : RandomSource.Endless ρ) (hredraws : Screen.Redraws Picture)
  (h : FollowsWith Picture p s) (tracing : Bool)
include hsource hredraws h

theorem step : FollowsWith Picture ⟨(p.engine.cycle false).engine, 0, p.executed ++ [p.engine.next]⟩
    (s.step tracing).1 ∧ (s.step tracing).2.1 = .goesOn := by
  have hfault := Engine.cycle_fault_of_endless hsource tracing s.engine
  have hdrawn := Engine.cycle_drawn tracing s.engine
  have hengine : (s.engine.cycle tracing).engine = (p.engine.cycle false).engine := by
    rw [Engine.cycle_tracing, h.engine]
  have hcycles : s.cycles + 1 = (p.executed ++ [p.engine.next]).length := by
    rw [h.cycles, List.length_append, List.length_singleton]
  have hcount : (p.executed ++ [p.engine.next]).countP Instruction.draws =
      p.executed.countP Instruction.draws + if s.engine.next.draws then 1 else 0 := by
    rw [List.countP_append, List.countP_singleton, h.engine]
  simp only [Session.step, hfault]
  -- the flag was down before the cycle, so the window is flipped just if this instruction draws
  cases hdraws : s.engine.next.draws with
  | false =>
    rw [hdraws] at hdrawn hcount
    rw [refresh, if_neg (by simp [hdrawn])]
    refine ⟨⟨⟨hengine, rfl, hcycles, ?_, h.shown⟩, ?_⟩, rfl⟩
    · rw [hcount]
      exact h.flips
    · show Picture s.shown (s.engine.cycle tracing).engine.machine.display
      rw [Engine.cycle_display_of_not_draws hdraws]
      exact h.picture
  | true =>
    rw [hdraws] at hdrawn hcount
    obtain ⟨screen, hr, hpicture⟩ :=
      hredraws s.screen _ (s.engine.cycle tracing).engine.machine.display (h.shown ▸ h.picture)
    rw [refresh, if_pos hdrawn]
    simp only [hr]
    refine ⟨⟨⟨hengine, rfl, hcycles, ?_, rfl⟩, hpicture⟩, trivial⟩
    show s.flips + 1 = _
    rw [hcount, h.flips, Nat.add_assoc]
    rfl

theorem turn (delay : Int) (t : Turn) :
    FollowsWith Picture (p.turn delay t) (s.turn tracing (.value delay) t).1 ∧
      (s.turn tracing (.value delay) t).2.1 = t.progress := by
  obtain ⟨tick, batch⟩ := t
  have helapsed : (s.pass tick).elapsed = p.elapsed + tick := by rw [← h.elapsed]; rfl
  cases batch with
  | failure reason =>
    refine ⟨?_, rfl⟩
    rw [Session.turn, Paced.turn, ← h.engine, ← helapsed]
    exact h.of_display_eq rfl
  | events events =>
    have hlatch : ((s.pass tick).latch events).engine =
        p.engine.mapMachine fun m => { m with keypad := Keyboard.latchAll m.keypad events } := by
      rw [← h.engine]; rfl
    have hlatched : FollowsWith Picture
        { p with engine := ((s.pass tick).latch events).engine, elapsed := p.elapsed + tick }
        ((s.pass tick).latch events) := by
      rw [← helapsed]
      exact h.of_display_eq rfl
    simp only [Session.turn, Paced.turn, Turn.progress, ← hlatch]
    cases hleaves : events.any Keyboard.leaves with
    | true => exact ⟨by simpa using hlatched, rfl⟩
    | false =>
      by_cases hearly : p.elapsed + tick < delay
      · simpa [hearly, helapsed, show ((s.pass tick).latch events).elapsed = (s.pass tick).elapsed from rfl]
          using hlatched
      · simpa [hearly, helapsed, show ((s.pass tick).latch events).elapsed = (s.pass tick).elapsed from rfl]
          using hlatched.step hsource hredraws tracing

/-- Whatever is played: the session ends where the turns without a window end, and breaks off only if the events do. -/
theorem play (delay : Int) (turns : List Turn) :
    FollowsWith Picture (p.play delay turns) (s.play tracing (.value delay) turns).1 ∧
      (s.play tracing (.value delay) turns).2.1 = Turn.crash? turns := by
  induction turns generalizing p s with
  | nil => exact ⟨(h.turn hsource hredraws tracing delay .leaving).1, rfl⟩
  | cons t rest ih =>
    obtain ⟨hturn, hprogress⟩ := h.turn hsource hredraws tracing delay t
    rw [Session.play, Paced.play, Turn.crash?, ← hprogress]
    rcases hs : s.turn tracing (.value delay) t with ⟨s', _ | _ | c, lines⟩ <;> rw [hs] at hturn
    · exact ih hturn
    · exact ⟨hturn, rfl⟩
    · exact ⟨hturn, rfl⟩

theorem history (delay : Int) (turns : List Turn) :
    List.Forall₂ (FollowsWith Picture) (p.history delay turns) (s.history tracing (.value delay) turns) := by
  induction turns generalizing p s with
  | nil => exact .cons h (.cons (h.turn hsource hredraws tracing delay .leaving).1 .nil)
  | cons t rest ih =>
    obtain ⟨hturn, hprogress⟩ := h.turn hsource hredraws tracing delay t
    rw [Session.history, Paced.history, ← hprogress]
    rcases hs : s.turn tracing (.value delay) t with ⟨s', _ | _ | c, lines⟩ <;> rw [hs] at hturn
    · exact .cons h (ih hturn)
    · exact .cons h (.cons hturn .nil)
    · exact .cons h (.cons hturn .nil)

end FollowsWith
end Session
end ChipEight

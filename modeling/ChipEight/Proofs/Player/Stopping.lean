import ChipEight.Proofs.Player.Run

/-!
# How the loop stops

The loop takes its turns up to the first one that stops (`Turn.taken`, `Paced.play_eq_foldl`). This one runs no cycle: if
its events can be fetched it latches all of them and the run ends normally, and else it leaves the machine as it was
(`Paced.turn_of_stops`).
-/

namespace ChipEight

namespace Turn

/-- Whether a turn is the last one: its events cannot be fetched, or one of them asks to leave. -/
def Stops : Turn → Prop
  | ⟨_, .failure _⟩ => True
  | ⟨_, .events events⟩ => .quit ∈ events ∨ .down Keyboard.escape ∈ events ∨ .up Keyboard.escape ∈ events

instance : DecidablePred Stops
  | ⟨_, .failure _⟩ => inferInstanceAs (Decidable True)
  | ⟨_, .events _⟩ => inferInstanceAs (Decidable (_ ∨ _ ∨ _))

/-- The place of the first turn that stops. If none of them does it is the one behind the last. -/
def stopping (turns : List Turn) : Nat := turns.findIdx (·.Stops)

/-- The turn at this place. Behind the last one the user leaves. -/
def last (turns : List Turn) : Turn := turns[stopping turns]?.getD .leaving

/-- The turns that are taken. -/
def taken (turns : List Turn) : List Turn := turns.take (stopping turns) ++ [last turns]

theorem any_leaves_iff (events : List Event) : events.any Keyboard.leaves = true ↔
    .quit ∈ events ∨ .down Keyboard.escape ∈ events ∨ .up Keyboard.escape ∈ events := by
  rw [List.any_eq_true]
  constructor
  · rintro ⟨event, hmem, hleaves⟩
    cases event with
    | quit => exact .inl hmem
    | down code =>
      obtain rfl : code = Keyboard.escape := of_decide_eq_true hleaves
      exact .inr (.inl hmem)
    | up code =>
      obtain rfl : code = Keyboard.escape := of_decide_eq_true hleaves
      exact .inr (.inr hmem)
    | other => cases hleaves
  · rintro (hmem | hmem | hmem)
    · exact ⟨_, hmem, rfl⟩
    · exact ⟨_, hmem, rfl⟩
    · exact ⟨_, hmem, rfl⟩

theorem stops_iff (t : Turn) : t.Stops ↔ t.progress ≠ .goesOn := by
  obtain ⟨tick, events | reason⟩ := t
  · rw [Stops, ← any_leaves_iff]
    show _ ↔ (if events.any Keyboard.leaves then Progress.left else .goesOn) ≠ .goesOn
    split <;> simp [*]
  · simp [Stops, progress]

theorem progress_of_not_stops {t : Turn} (h : ¬t.Stops) : t.progress = .goesOn := by
  rwa [stops_iff, not_not] at h

theorem leaving_stops : leaving.Stops := by decide

theorem last_cons (t : Turn) (rest : List Turn) : last (t :: rest) = if t.Stops then t else last rest := by
  rw [last, last, stopping, stopping, List.findIdx_cons]
  by_cases h : t.Stops <;> simp [h]

theorem taken_cons (t : Turn) (rest : List Turn) : taken (t :: rest) = if t.Stops then [t] else t :: taken rest := by
  rw [taken, taken, last_cons, stopping, stopping, List.findIdx_cons]
  by_cases h : t.Stops <;> simp [h]

theorem length_taken (turns : List Turn) : (taken turns).length = stopping turns + 1 := by
  rw [taken, List.length_append, List.length_take, List.length_singleton, stopping,
    Nat.min_eq_left List.findIdx_le_length]

theorem last_stops (turns : List Turn) : (last turns).Stops := by
  induction turns with
  | nil => exact leaving_stops
  | cons t rest ih =>
    rw [last_cons]
    split
    next h => exact h
    next => exact ih

/-- A script breaks off if its last turn does. -/
theorem crash?_eq (turns : List Turn) : crash? turns = match (last turns).batch with
    | .failure reason => some (.events reason)
    | .events _ => none := by
  induction turns with
  | nil => rfl
  | cons t rest ih =>
    rw [crash?, last_cons]
    by_cases h : t.Stops
    · rw [if_pos h]
      obtain ⟨tick, events | reason⟩ := t
      · rw [Stops, ← any_leaves_iff] at h
        simp only [progress, h, if_true]
      · rfl
    · rw [if_neg h, progress_of_not_stops h]
      exact ih

end Turn

namespace Paced
variable {ρ : Type} [RandomSource ρ]

theorem play_eq_foldl (delay : Int) (turns : List Turn) (p : Paced ρ) :
    p.play delay turns = (Turn.taken turns).foldl (Paced.turn delay) p := by
  induction turns generalizing p with
  | nil => rfl
  | cons t rest ih =>
    rw [play, Turn.taken_cons]
    by_cases h : t.Stops
    · rw [if_pos h]
      rw [Turn.stops_iff] at h
      split
      next hgoes => exact absurd hgoes h
      next => rfl
    · rw [if_neg h, Turn.progress_of_not_stops h]
      exact ih _

/-- A turn that stops runs no cycle. It latches all events that it gets. -/
theorem turn_of_stops {t : Turn} (h : t.Stops) (delay : Int) (p : Paced ρ) :
    (p.turn delay t).executed = p.executed ∧ (p.turn delay t).engine = match t.batch with
      | .failure _ => p.engine
      | .events events => p.engine.mapMachine fun m => { m with keypad := Keyboard.latchAll m.keypad events } := by
  obtain ⟨tick, events | reason⟩ := t
  · rw [Turn.Stops, ← Turn.any_leaves_iff] at h
    simp only [turn, h, true_or, if_true, and_self]
  · exact ⟨rfl, rfl⟩

end Paced

namespace Session
variable {σ ρ : Type} [Canvas σ]

theorem refresh_ticks (s : Session σ ρ) : s.refresh.1.ticks = s.ticks := by
  unfold refresh
  split
  · rcases s.screen.render s.engine.machine.display with ⟨screen, _ | e⟩ <;> rfl
  · rfl

variable [RandomSource ρ]

theorem step_ticks (tracing : Bool) (s : Session σ ρ) : (s.step tracing).1.ticks = s.ticks := by
  simp only [step]
  split
  next => rfl
  next =>
    split
    next played hr => exact (congrArg (fun r => r.1.ticks) hr).symm.trans (refresh_ticks _)
    next played e hr => exact (congrArg (fun r => r.1.ticks) hr).symm.trans (refresh_ticks _)

/-- The clock ticks once in a turn. -/
theorem turn_ticks (tracing : Bool) (delay : Setting Int) (s : Session σ ρ) (t : Turn) :
    (s.turn tracing delay t).1.ticks = s.ticks + 1 := by
  obtain ⟨tick, events | reason⟩ := t
  · simp only [turn]
    cases hleaves : events.any Keyboard.leaves with
    | true => rfl
    | false =>
      cases delay with
      | blank => rfl
      | value delay =>
        by_cases hearly : ((s.pass tick).latch events).elapsed < delay
        · simp only [hearly, if_true]
          rfl
        · simp only [hearly, if_false]
          exact step_ticks tracing _
  · rfl

namespace FollowsWith
variable {Picture : Screen σ → Display → Prop} {p : Paced ρ} {s : Session σ ρ} (hsource : RandomSource.Endless ρ)
  (hredraws : Screen.Redraws Picture) (h : FollowsWith Picture p s) (tracing : Bool) (delay : Int)
include hsource hredraws h

theorem stops_iff (t : Turn) : t.Stops ↔ (s.turn tracing (.value delay) t).2.1 ≠ .goesOn := by
  rw [(h.turn hsource hredraws tracing delay t).2, Turn.stops_iff]

theorem play_cons (t : Turn) (rest : List Turn) :
    (s.play tracing (.value delay) (t :: rest)).1 = if t.Stops then (s.turn tracing (.value delay) t).1
      else ((s.turn tracing (.value delay) t).1.play tracing (.value delay) rest).1 := by
  have hstops := h.stops_iff hsource hredraws tracing delay t
  rw [Session.play]
  rcases hs : s.turn tracing (.value delay) t with ⟨s', _ | _ | c, lines⟩ <;> rw [hs] at hstops
  · rw [if_neg fun h => hstops.1 h rfl]
  · rw [if_pos (hstops.2 Progress.noConfusion)]
  · rw [if_pos (hstops.2 Progress.noConfusion)]

/-- The clock ticks once in each turn that is taken. -/
theorem play_ticks (turns : List Turn) :
    (s.play tracing (.value delay) turns).1.ticks = s.ticks + (Turn.taken turns).length := by
  induction turns generalizing p s with
  | nil => exact s.turn_ticks tracing (.value delay) .leaving
  | cons t rest ih =>
    have hticks := s.turn_ticks tracing (.value delay) t
    rw [h.play_cons hsource hredraws, Turn.taken_cons]
    split
    · exact hticks
    · rw [ih (h.turn hsource hredraws tracing delay t).1, hticks, List.length_cons, Nat.add_assoc, Nat.add_comm 1]

end FollowsWith
end Session

namespace Player
variable {σ : Type} [Canvas σ] {spare : Int} {files : FileTree} {arguments : List String} {side delay seed : Int}
  {program : List Byte}

/-- If the window opens, and takes the blocks of the display, the clock ticks once for each turn before the last one,
and once for the last. The last turn runs no cycle. Either the user leaves in it, and all its events are latched, or its
events cannot be fetched, and the run breaks off in the machine as the turns before left it. If no window opens, no turn
is taken. -/
theorem run_stops (h : Calls spare files arguments side delay seed program) (tracing : Bool) (turns : List Turn) :
    let r := run σ spare tracing files arguments turns
    let k := Turn.stopping turns
    let p := (turns.take k).foldl (Paced.turn delay) (.start (Random.Twister.ofSeed seed) program)
    (Canvas.Paints σ (Rect.InGrid side 64 32) → ∀ screen, openScreen σ (.value side) = .ok screen →
      r.session.map Session.ticks = some (k + 1) ∧ r.session.map Session.cycles = some p.executed.length ∧
      (∀ events, (Turn.last turns).batch = .events events → r.ending = .normal ∧ r.machine =
        some { p.engine.machine with keypad := events.foldl Keyboard.latch p.engine.machine.keypad }) ∧
      ∀ reason, (Turn.last turns).batch = .failure reason → r.machine = some p.engine.machine ∧
        if tracing then r.ending = .crashed (.events reason)
        else r.ending = .dumped p.engine.machine ∧ r.ending.message =
          "********** THE EMULATOR CRASHED WITH THE FOLLOWING STATE\n" ++ p.engine.machine.text) ∧
    ∀ e, openScreen σ (.value side) = .error e → NoWindow e program r := by
  intro r k p
  refine ⟨fun hpaints screen hs => ?_, fun e hs => h.no_window hs tracing turns⟩
  have hredraws := Screen.redraws_blocks hpaints
  have hstart := follows_start hs (Random.Twister.ofSeed seed) program
  obtain ⟨hending, hmachine, hsession⟩ := h.reports hs tracing turns
  obtain ⟨hplay, hcrash⟩ := hstart.play Random.Twister.endless hredraws tracing delay turns
  have hticks := hstart.play_ticks Random.Twister.endless hredraws tracing delay turns
  rw [hplay.engine] at hmachine hending
  rw [hcrash, Turn.crash?_eq] at hending
  have hlast : (Paced.start (Random.Twister.ofSeed seed) program).play delay turns = p.turn delay (Turn.last turns) := by
    rw [Paced.play_eq_foldl, Turn.taken, List.foldl_append, List.foldl_cons, List.foldl_nil]
  obtain ⟨hexecuted, hengine⟩ := Paced.turn_of_stops (Turn.last_stops turns) delay p
  rw [hlast, hengine] at hmachine hending
  refine ⟨?_, ?_, fun events hb => ?_, fun reason hb => ?_⟩
  · rw [hsession, ← Turn.length_taken, ← Nat.zero_add (Turn.taken turns).length]
    exact congrArg some hticks
  · rw [hsession, ← hexecuted, ← hlast]
    exact congrArg some hplay.cycles
  · rw [hb] at hmachine hending
    exact ⟨hending, hmachine⟩
  · rw [hb] at hmachine hending
    refine ⟨hmachine, ?_⟩
    cases tracing with
    | true => exact hending
    | false => exact ⟨hending, congrArg Ending.message hending⟩

/-- A key is released in the turn in which the user leaves; the events of a second run fail there, on a window into
which not one of its blocks fits. -/
theorem run_stops_at_two_scales :
    let p := (Paced.start (Random.Twister.ofSeed 7) [0x12, 0x00]).turn 16 ⟨20, .events [.down 49]⟩
    let left := run Surface 0 false shelf ["-f", "loop", "-s", "2", "-d", "16", "--seed", "7"]
      [⟨20, .events [.down 49]⟩, ⟨3, .events [.quit, .up 49]⟩, ⟨9, .events []⟩]
    let failed := run Surface 0 false shelf ["-f", "loop", "-s", "134217728", "-d", "16", "--seed", "7"]
      [⟨20, .events [.down 49]⟩, ⟨3, .failure "no events"⟩]
    left.session.map Session.ticks = some 2 ∧ left.ending = .normal ∧
      left.machine = some { p.engine.machine with keypad := p.engine.machine.keypad.set 1 false } ∧
      failed.session.map Session.ticks = some 2 ∧ failed.ending = .dumped p.engine.machine := by
  obtain ⟨hticks, -, hleaves, -⟩ := (run_stops calls_two false
    [⟨20, .events [.down 49]⟩, ⟨3, .events [.quit, .up 49]⟩, ⟨9, .events []⟩]).1
    (paints_of_openScreen (by decide) openScreen_two) _ openScreen_two
  obtain ⟨hticks', -, -, hfails⟩ := (run_stops calls_overflowing false
    [⟨20, .events [.down 49]⟩, ⟨3, .failure "no events"⟩]).1
    (paints_of_openScreen (by decide) openScreen_overflowing) _ openScreen_overflowing
  have hlatch (keypad : Keypad) : [.quit, .up 49].foldl Keyboard.latch keypad = keypad.set 1 false := rfl
  have hbefore (p : Paced Random.Twister) :
      (List.take (Turn.stopping [⟨20, .events [.down 49]⟩, ⟨3, .events [.quit, .up 49]⟩, ⟨9, .events []⟩])
        [⟨20, .events [.down 49]⟩, ⟨3, .events [.quit, .up 49]⟩, ⟨9, .events []⟩]).foldl (Paced.turn 16) p =
        p.turn 16 ⟨20, .events [.down 49]⟩ := rfl
  obtain ⟨hnormal, hmachine⟩ := hleaves [.quit, .up 49] rfl
  rw [hlatch, hbefore] at hmachine
  exact ⟨hticks, hnormal, hmachine, hticks', (hfails "no events" rfl).2.1⟩

theorem no_tick_at_scale_257 :
    let arguments := ["-f", "loop", "-s", "257", "-d", "0", "--seed", "0"]
    Calls 0 shelf arguments 257 0 0 [0x12, 0x00] ∧
      (run Surface 0 false shelf arguments []).session.map Session.ticks ≠ some (Turn.stopping [] + 1) := by
  refine ⟨calls_too_large, ?_⟩
  rw [(calls_too_large.no_window openScreen_too_large false []).session]
  exact nofun

end Player
end ChipEight

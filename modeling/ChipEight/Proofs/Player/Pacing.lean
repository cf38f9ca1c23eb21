import ChipEight.Proofs.Player.Stopping
import Mathlib.Data.List.DropRight
import Mathlib.Data.List.Induction
import Mathlib.Algebra.Order.BigOperators.Group.List
import Mathlib.Tactic.Linarith

/-!
# How the loop is paced

An iteration is a turn that was taken, and whether it ran a cycle. One law says which do (`Iteration.Due`): those that do
not stop, and in which the time since the last cycle reaches the delay. The session keeps the law
(`Session.FollowsWith.performed_due`). All that is said of the pace follows from it: the rate (`Due.rate`), the time between
two cycles, and that a greater delay never gives more cycles (`Due.countP_le`).
-/

namespace ChipEight

/-- A turn that was taken, and whether it ran a cycle. -/
structure Iteration where
  turn : Turn
  cycled : Bool

namespace Iteration

abbrev tick (it : Iteration) : Int := it.turn.tick

/-- The time that has passed since the last cycle. -/
def waited (its : List Iteration) : Int := ((its.rtakeWhile fun it => !it.cycled).map tick).sum

/-- An iteration runs a cycle if it does not stop and the time since the last one reaches the delay. -/
def Due (delay : Int) (its : List Iteration) : Prop :=
  ∀ before it after, its = before ++ it :: after →
    (it.cycled = true ↔ ¬it.turn.Stops ∧ delay ≤ waited before + it.tick)

/-- The time since the last cycle, after an iteration before which it was `elapsed`. -/
def wait (elapsed : Int) (it : Iteration) : Int := if it.cycled then 0 else elapsed + it.tick

theorem waited_nil : waited [] = 0 := rfl

theorem waited_snoc (its : List Iteration) (it : Iteration) : waited (its ++ [it]) = wait (waited its) it := by
  rw [waited, List.rtakeWhile_concat, wait]
  cases hc : it.cycled with
  | true => rfl
  | false => simp [waited]

theorem waited_eq_foldl (its : List Iteration) : waited its = its.foldl wait 0 := by
  induction its using List.reverseRecOn with
  | nil => rfl
  | append_singleton its it ih => rw [waited_snoc, ih, List.foldl_append, List.foldl_cons, List.foldl_nil]

theorem waited_cycled {c : Iteration} (hc : c.cycled = true) (before its : List Iteration) :
    waited (before ++ c :: its) = waited its := by
  rw [waited_eq_foldl, waited_eq_foldl, List.foldl_append, List.foldl_cons, wait, if_pos hc]

theorem waited_of_none {its : List Iteration} (h : ∀ it ∈ its, it.cycled = false) : waited its = (its.map tick).sum := by
  rw [waited, List.rtakeWhile_eq_self_iff.2 fun it hit => by rw [h it hit]; rfl]

theorem waited_nonneg {its : List Iteration} (h : ∀ it ∈ its, 0 ≤ it.tick) : 0 ≤ waited its := by
  refine List.sum_nonneg fun time htime => ?_
  obtain ⟨it, hit, rfl⟩ := List.mem_map.1 htime
  exact h it ((List.rtakeWhile_suffix _ _).subset hit)

namespace Due
variable {delay delay' : Int} {its its' : List Iteration}

theorem of_append {more : List Iteration} (h : Due delay (its ++ more)) : Due delay its := by
  rintro before it after rfl
  exact h before it (after ++ more) (by simp)

theorem last {it : Iteration} (h : Due delay (its ++ [it])) :
    it.cycled = true ↔ ¬it.turn.Stops ∧ delay ≤ waited its + it.tick := h its it [] rfl

/-- Each cycle had to wait for its delay. -/
theorem rate (h : Due delay its) : its.countP cycled * delay + waited its ≤ (its.map tick).sum := by
  induction its using List.reverseRecOn with
  | nil => simp [waited_nil]
  | append_singleton its it ih =>
    have hbefore := ih h.of_append
    rw [waited_snoc, wait, List.countP_append, List.countP_singleton, List.map_append, List.sum_append, List.map_singleton,
      List.sum_singleton]
    cases hc : it.cycled with
    | true =>
      obtain ⟨-, hdue⟩ := h.last.1 hc
      push_cast
      rw [if_pos rfl, if_pos rfl]
      linarith
    | false =>
      rw [if_neg nofun, if_neg nofun, Nat.add_zero]
      linarith

/-- After a cycle the time is counted from zero. -/
theorem afresh {before after : List Iteration} {c : Iteration} (h : Due delay (before ++ c :: after))
    (hc : c.cycled = true) : Due delay after := by
  rintro between it rest rfl
  rw [← waited_cycled hc before between]
  exact h (before ++ c :: between) it rest (by simp)

/-- The run with the smaller delay is ahead: it has run more cycles, or as many and the last one no later. -/
theorem ahead (h : Due delay its) (h' : Due delay' its') (hturns : its.map turn = its'.map turn) (hle : delay ≤ delay')
    (hticks : ∀ it ∈ its, 0 ≤ it.tick) :
    its'.countP cycled < its.countP cycled ∨
      its'.countP cycled = its.countP cycled ∧ waited its' ≤ waited its := by
  induction its using List.reverseRecOn generalizing its' with
  | nil =>
    obtain rfl : its' = [] := by simpa using hturns.symm
    exact .inr ⟨rfl, le_rfl⟩
  | append_singleton its it ih =>
    rw [List.map_append] at hturns
    obtain ⟨its', rest, rfl, hmap, hrest⟩ := List.map_eq_append_iff.1 hturns.symm
    obtain ⟨it', rfl, hturn⟩ := List.map_eq_singleton_iff.1 hrest
    have hbefore := ih h.of_append h'.of_append hmap.symm fun b hb => hticks b (List.mem_append_left _ hb)
    have hlast := h.last
    have hlast' := h'.last
    rw [tick, hturn] at hlast'
    rw [waited_snoc, waited_snoc, wait, wait, tick, tick, hturn, List.countP_append, List.countP_append,
      List.countP_singleton, List.countP_singleton]
    cases hc : it.cycled with
    | true =>
      cases hc' : it'.cycled with
      | true =>
        rcases hbefore with hlt | ⟨heq, -⟩
        · exact .inl (Nat.succ_lt_succ hlt)
        · exact .inr ⟨congrArg Nat.succ heq, le_rfl⟩
      | false =>
        rcases hbefore with hlt | ⟨heq, -⟩
        · exact .inl (Nat.lt_succ_of_lt hlt)
        · exact .inl (Nat.lt_succ_of_le heq.le)
    | false =>
      cases hc' : it'.cycled with
      | true =>
        -- only the run with the greater delay is due, so its last cycle is the earlier one, and it was behind
        obtain ⟨hstops, hdue'⟩ := hlast'.1 hc'
        have hearly : ¬delay ≤ waited its + it.turn.tick := fun hdue => by
          rw [hlast.2 ⟨hstops, hdue⟩] at hc
          cases hc
        rcases hbefore with hlt | ⟨-, hwaited⟩
        · rcases Nat.lt_or_eq_of_le (Nat.succ_le_of_lt hlt) with hlt | heq
          · exact .inl hlt
          · refine .inr ⟨heq, ?_⟩
            exact Int.add_nonneg (waited_nonneg fun b hb => hticks b (List.mem_append_left _ hb))
              (hticks it (List.mem_append_right _ (List.mem_singleton_self it)))
        · exact absurd (hle.trans (hdue'.trans (Int.add_le_add_right hwaited _))) hearly
      | false =>
        rcases hbefore with hlt | ⟨heq, hwaited⟩
        · exact .inl hlt
        · exact .inr ⟨heq, Int.add_le_add_right hwaited _⟩

theorem countP_le (h : Due delay its) (h' : Due delay' its') (hturns : its.map turn = its'.map turn)
    (hle : delay ≤ delay') (hticks : ∀ it ∈ its, 0 ≤ it.tick) : its'.countP cycled ≤ its.countP cycled := by
  rcases h.ahead h' hturns hle hticks with hlt | ⟨heq, -⟩
  · exact hlt.le
  · exact heq.le

end Due

structure Spaced (delay : Int) (its : List Iteration) : Prop where
  rate : its.countP cycled * delay ≤ (its.map tick).sum
  /-- From one cycle to the next one the delay passes. -/
  apart : ∀ before c between d after, its = before ++ c :: (between ++ d :: after) → c.cycled = true →
    d.cycled = true → (∀ it ∈ between, it.cycled = false) → delay ≤ (between.map tick).sum + d.tick
  /-- What a cycle waited too long is not taken off the next wait. -/
  afresh : ∀ before c after, its = before ++ c :: after → c.cycled = true → Due delay after
  always : delay ≤ 0 → ∀ it ∈ its, ¬it.turn.Stops → it.cycled = true

theorem Due.spaced {delay : Int} {its : List Iteration} (h : Due delay its) (hticks : ∀ it ∈ its, 0 ≤ it.tick) :
    Spaced delay its where
  rate := by
    have hrate := h.rate
    have hnonneg := waited_nonneg hticks
    linarith
  apart := by
    rintro before c between d after rfl hc hd hnone
    rw [← waited_of_none hnone]
    exact ((h.afresh hc between d after rfl).1 hd).2
  afresh := by
    rintro before c after rfl hc
    exact h.afresh hc
  always := by
    intro hdelay it hit hstops
    obtain ⟨before, after, rfl⟩ := List.append_of_mem hit
    have hnonneg := waited_nonneg fun b hb => hticks b (List.mem_append_left _ hb)
    have htick := hticks it hit
    exact (h before it after rfl).2 ⟨hstops, by linarith⟩

end Iteration

/-- A cycle is run, and the time counted from zero, just if the turn does not stop and is not too early. -/
theorem Paced.turn_paced {ρ : Type} [RandomSource ρ] (delay : Int) (p : Paced ρ) (t : Turn) :
    (p.turn delay t).executed.length =
        p.executed.length + (if ¬t.Stops ∧ delay ≤ p.elapsed + t.tick then 1 else 0) ∧
      (p.turn delay t).elapsed = if ¬t.Stops ∧ delay ≤ p.elapsed + t.tick then 0 else p.elapsed + t.tick := by
  obtain ⟨tick, events | reason⟩ := t
  · simp only [turn, Turn.Stops, ← Turn.any_leaves_iff]
    cases hleaves : events.any Keyboard.leaves with
    | true => simp
    | false =>
      by_cases hearly : p.elapsed + tick < delay
      · simp [hearly]
      · simp [hearly, not_lt.1 hearly]
  · simp [turn, Turn.Stops]

namespace Session
variable {σ ρ : Type} [Canvas σ] [RandomSource ρ]

/-- The iteration in which this turn is taken. -/
def iteration (tracing : Bool) (delay : Setting Int) (s : Session σ ρ) (t : Turn) : Iteration where
  turn := t
  cycled := s.cycles < (s.turn tracing delay t).1.cycles

/-- The iterations up to the one that does not go on. -/
def performed (tracing : Bool) (delay : Setting Int) : List Turn → Session σ ρ → List Iteration
  | [], s => [s.iteration tracing delay .leaving]
  | t :: rest, s =>
    match s.turn tracing delay t with
    | (s', .goesOn, _) => s.iteration tracing delay t :: performed tracing delay rest s'
    | _ => [s.iteration tracing delay t]

namespace FollowsWith
variable {Picture : Screen σ → Display → Prop} {p : Paced ρ} {s : Session σ ρ} (hsource : RandomSource.Endless ρ)
  (hredraws : Screen.Redraws Picture) (h : FollowsWith Picture p s) (tracing : Bool) (delay : Int)
include hsource hredraws h

theorem cycled_iteration (t : Turn) :
    (s.iteration tracing (.value delay) t).cycled = true ↔ ¬t.Stops ∧ delay ≤ s.elapsed + t.tick := by
  have hturn := (h.turn hsource hredraws tracing delay t).1
  rw [iteration, decide_eq_true_eq, hturn.cycles, h.cycles, h.elapsed, (p.turn_paced delay t).1]
  split
  next hdue => exact iff_of_true (Nat.lt_succ_self _) hdue
  next hdue => exact iff_of_false (Nat.lt_irrefl _) hdue

theorem turn_cycles (t : Turn) : (s.turn tracing (.value delay) t).1.cycles =
      s.cycles + if (s.iteration tracing (.value delay) t).cycled then 1 else 0 := by
  have hturn := (h.turn hsource hredraws tracing delay t).1
  simp only [h.cycled_iteration hsource hredraws]
  rw [hturn.cycles, h.cycles, h.elapsed, (p.turn_paced delay t).1]

theorem turn_elapsed (t : Turn) : (s.turn tracing (.value delay) t).1.elapsed =
      (s.iteration tracing (.value delay) t).wait s.elapsed := by
  have hturn := (h.turn hsource hredraws tracing delay t).1
  simp only [Iteration.wait, h.cycled_iteration hsource hredraws]
  rw [hturn.elapsed, h.elapsed, (p.turn_paced delay t).2]
  rfl

theorem performed_cons (t : Turn) (rest : List Turn) :
    s.performed tracing (.value delay) (t :: rest) = s.iteration tracing (.value delay) t ::
      if t.Stops then [] else (s.turn tracing (.value delay) t).1.performed tracing (.value delay) rest := by
  have hstops := h.stops_iff hsource hredraws tracing delay t
  rw [performed]
  rcases hs : s.turn tracing (.value delay) t with ⟨s', _ | _ | c, lines⟩ <;> rw [hs] at hstops
  · rw [if_neg fun h => hstops.1 h rfl]
  · rw [if_pos (hstops.2 nofun)]
  · rw [if_pos (hstops.2 nofun)]

theorem performed_turns (turns : List Turn) :
    (s.performed tracing (.value delay) turns).map Iteration.turn = Turn.taken turns := by
  induction turns generalizing p s with
  | nil => rfl
  | cons t rest ih =>
    rw [h.performed_cons hsource hredraws, Turn.taken_cons, List.map_cons]
    split
    · rfl
    · rw [ih (h.turn hsource hredraws tracing delay t).1]
      rfl

theorem play_cycles (turns : List Turn) : (s.play tracing (.value delay) turns).1.cycles =
      s.cycles + (s.performed tracing (.value delay) turns).countP Iteration.cycled := by
  induction turns generalizing p s with
  | nil =>
    rw [performed, List.countP_singleton]
    exact h.turn_cycles hsource hredraws tracing delay .leaving
  | cons t rest ih =>
    rw [h.performed_cons hsource hredraws, h.play_cons hsource hredraws, List.countP_cons]
    have hcycles := h.turn_cycles hsource hredraws tracing delay t
    split
    · rw [hcycles, List.countP_nil, Nat.zero_add]
    · rw [ih (h.turn hsource hredraws tracing delay t).1, hcycles, Nat.add_assoc, Nat.add_comm (List.countP _ _)]

/-- The iterations of a session are due, counting the time from where the session begins. -/
theorem performed_due (turns : List Turn) {before after : List Iteration} {it : Iteration}
    (hsplit : s.performed tracing (.value delay) turns = before ++ it :: after) :
    it.cycled = true ↔ ¬it.turn.Stops ∧ delay ≤ before.foldl Iteration.wait s.elapsed + it.tick := by
  induction turns generalizing p s before with
  | nil =>
    cases before with
    | nil =>
      obtain ⟨rfl, -⟩ := List.cons.inj hsplit
      exact h.cycled_iteration hsource hredraws tracing delay .leaving
    | cons b before => exact absurd (List.cons.inj hsplit).2 (by simp)
  | cons t rest ih =>
    rw [h.performed_cons hsource hredraws] at hsplit
    cases before with
    | nil =>
      obtain ⟨rfl, -⟩ := List.cons.inj hsplit
      exact h.cycled_iteration hsource hredraws tracing delay t
    | cons b before =>
      obtain ⟨rfl, hrest⟩ := List.cons.inj hsplit
      split at hrest
      · exact absurd hrest (by simp)
      · rw [List.foldl_cons, ← h.turn_elapsed hsource hredraws]
        exact ih (h.turn hsource hredraws tracing delay t).1 hrest

end FollowsWith
end Session

theorem Turn.sum_nonneg {turns : List Turn} (hticks : ∀ t ∈ turns, 0 ≤ t.tick) : 0 ≤ (turns.map tick).sum := by
  refine List.sum_nonneg fun time htime => ?_
  obtain ⟨t, ht, rfl⟩ := List.mem_map.1 htime
  exact hticks t ht

theorem Turn.sum_taken_le {turns : List Turn} (hticks : ∀ t ∈ turns, 0 ≤ t.tick) :
    ((taken turns).map tick).sum ≤ (turns.map tick).sum := by
  induction turns with
  | nil => exact le_rfl
  | cons t rest ih =>
    have hrest (t' : Turn) (ht' : t' ∈ rest) : 0 ≤ t'.tick := hticks t' (List.mem_cons_of_mem t ht')
    rw [taken_cons, List.map_cons, List.sum_cons]
    split
    · rw [List.map_singleton, List.sum_singleton]
      exact le_add_of_nonneg_right (sum_nonneg hrest)
    · rw [List.map_cons, List.sum_cons]
      exact Int.add_le_add_left (ih hrest) t.tick

theorem Turn.mem_taken {turns : List Turn} {t : Turn} (h : t ∈ taken turns) : t ∈ turns ∨ t = leaving := by
  rcases List.mem_append.1 h with hbefore | hlast
  · exact .inl (List.mem_of_mem_take hbefore)
  · obtain rfl := List.mem_singleton.1 hlast
    rw [last]
    cases hk : turns[stopping turns]? with
    | none => exact .inr rfl
    | some t => exact .inl (List.mem_of_getElem? hk)

theorem Iteration.tick_nonneg {turns : List Turn} (hticks : ∀ t ∈ turns, 0 ≤ t.tick) {its : List Iteration}
    (hturns : its.map turn = Turn.taken turns) : ∀ it ∈ its, 0 ≤ it.tick := by
  intro it hit
  have hmem : it.turn ∈ Turn.taken turns := hturns ▸ List.mem_map_of_mem hit
  rcases Turn.mem_taken hmem with hmem | hleaving
  · exact hticks it.turn hmem
  · exact (congrArg Turn.tick hleaving).ge

namespace Player
variable {σ : Type} [Canvas σ] {spare : Int} {files : FileTree} {arguments : List String} {side delay seed : Int}
  {program : List Byte}
open Iteration

/-- A run goes through the iterations of its session, and they keep the law. -/
theorem Calls.performed (h : Calls spare files arguments side delay seed program)
    (hpaints : Canvas.Paints σ (Rect.InGrid side 64 32)) {screen : Screen σ}
    (hs : openScreen σ (.value side) = .ok screen) (tracing : Bool) (turns : List Turn) :
    let performed := (Session.start ⟨.loaded program, Random.Twister.ofSeed seed⟩ screen).performed tracing
      (.value delay) turns
    performed.map turn = Turn.taken turns ∧ Due delay performed ∧
      (run σ spare tracing files arguments turns).session.map Session.cycles = some (performed.countP cycled) := by
  have hredraws := Screen.redraws_blocks hpaints
  have hstart := follows_start hs (Random.Twister.ofSeed seed) program
  refine ⟨hstart.performed_turns Random.Twister.endless hredraws tracing delay turns, ?_, ?_⟩
  · intro before it after hsplit
    rw [waited_eq_foldl]
    exact hstart.performed_due Random.Twister.endless hredraws tracing delay turns hsplit
  · rw [(h.reports hs tracing turns).session, Option.map_some, hstart.play_cycles Random.Twister.endless hredraws]
    exact congrArg some (Nat.zero_add _)

/-- If the window opens, and takes the blocks of the display, and time does not run backwards: the law says which
iterations run a cycle, and the cycles are spaced by the delay. A greater delay never gives more cycles. If no window
opens there are no iterations. -/
theorem cycles_are_paced (h : Calls spare files arguments side delay seed program) (tracing : Bool)
    (turns : List Turn) (hticks : ∀ t ∈ turns, 0 ≤ t.tick) :
    let r := run σ spare tracing files arguments turns
    (Canvas.Paints σ (Rect.InGrid side 64 32) → ∀ screen, openScreen σ (.value side) = .ok screen →
      let performed := (Session.start ⟨.loaded program, Random.Twister.ofSeed seed⟩ screen).performed tracing
        (.value delay) turns
      performed.map turn = Turn.taken turns ∧ Due delay performed ∧ Spaced delay performed ∧
      (performed.map tick).sum ≤ (turns.map Turn.tick).sum ∧
      r.session.map Session.cycles = some (performed.countP cycled) ∧
      ∀ (arguments' : List String) (delay' : Int) (tracing' : Bool),
        Calls spare files arguments' side delay' seed program → delay ≤ delay' →
        ∃ cycles, (run σ spare tracing' files arguments' turns).session.map Session.cycles = some cycles ∧
          cycles ≤ performed.countP cycled) ∧
    ∀ e, openScreen σ (.value side) = .error e → NoWindow e program r := by
  refine ⟨fun hpaints screen hs => ?_, fun e hs => h.no_window hs tracing turns⟩
  obtain ⟨hturns, hdue, hcycles⟩ := h.performed hpaints hs tracing turns
  have hnonneg := tick_nonneg hticks hturns
  have hsum := Turn.sum_taken_le hticks
  rw [← hturns, List.map_map] at hsum
  refine ⟨hturns, hdue, hdue.spaced hnonneg, hsum, hcycles, fun arguments' delay' tracing' h' hle => ?_⟩
  obtain ⟨hturns', hdue', hcycles'⟩ := h'.performed hpaints hs tracing' turns
  exact ⟨_, hcycles', hdue.countP_le hdue' (hturns.trans hturns'.symm) hle hnonneg⟩

/-- A turn that comes too early lies between two that do not, and a second run has the greater delay. Both have a window
into which not one of its blocks fits. -/
theorem cycles_are_paced_at_an_overflowing_scale :
    let turns := [⟨20, .events []⟩, ⟨3, .events []⟩, ⟨30, .events []⟩, ⟨5, .events [.quit]⟩]
    let r := run Surface 0 false shelf ["-f", "loop", "-s", "134217728", "-d", "16", "--seed", "7"] turns
    let r' := run Surface 0 true shelf ["-f", "loop", "-s", "134217728", "-d", "40", "--seed", "7"] turns
    ∃ performed : List Iteration, performed.map turn = turns ∧ Due 16 performed ∧ Spaced 16 performed ∧
      r.session.map Session.cycles = some (performed.countP cycled) ∧
      ∃ cycles, r'.session.map Session.cycles = some cycles ∧ cycles ≤ performed.countP cycled := by
  have hc' : Calls 0 shelf ["-f", "loop", "-s", "134217728", "-d", "40", "--seed", "7"] 134217728 40 7 [0x12, 0x00] :=
    calls_shelf rfl
  obtain ⟨hturns, hdue, hspaced, -, hcycles, hmonotone⟩ := (cycles_are_paced calls_overflowing false
    [⟨20, .events []⟩, ⟨3, .events []⟩, ⟨30, .events []⟩, ⟨5, .events [.quit]⟩] (by simp)).1
    (paints_of_openScreen (by decide) openScreen_overflowing) _ openScreen_overflowing
  exact ⟨_, hturns, hdue, hspaced, hcycles, hmonotone _ 40 true hc' (by decide)⟩

end Player
end ChipEight

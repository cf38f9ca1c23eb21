import ChipEight.Proofs.Player.Paced

/-!
# Runs of the program

Let a command line name a program that can be read, a scale, a delay and a seed (`Calls`). If the window opens at this
scale, and takes the blocks of the display, the run is the paced loop without a window: `run_is_windowless` for the
machine, `picture_is_current` for what the window shows. If no window opens the run ends before its first turn
(`NoWindow`).
-/

namespace ChipEight

theorem Random.Twister.endless : RandomSource.Endless Random.Twister := fun t => ⟨t.byte.1, t.byte.2, rfl⟩

theorem Turn.crash?_of_events {turns : List Turn} (h : ∀ t ∈ turns, ∃ events, t.batch = .events events) :
    Turn.crash? turns = none := by
  induction turns with
  | nil => rfl
  | cons t rest ih =>
    obtain ⟨events, he⟩ := h t List.mem_cons_self
    rw [crash?, progress, he]
    cases hleaves : events.any Keyboard.leaves with
    | true => simp only [hleaves, if_pos]
    | false => simpa [hleaves] using ih fun t ht => h t (List.mem_cons_of_mem _ ht)

namespace Player

/-- The command line is understood. It names a file with the program, a scale, a delay and a seed, or else no seed. -/
def Calls (spare : Int) (files : FileTree) (arguments : List String) (side delay seed : Int) (program : List Byte) :
    Prop :=
  ∃ path option, Options.parse arguments = .ok ⟨.value path, .value side, .value delay, option⟩ ∧
    files.read path = .ok program ∧ seedOf spare option = .ok seed

/-- The run ends because there is no window, before its first turn. The machine is the one just loaded. -/
structure NoWindow {σ : Type} (e : ScreenError) (program : List Byte) (r : Report σ Random.Twister) : Prop where
  ending : r.ending = .noScreen e
  machine : r.machine = some (.loaded program)
  session : r.session = none

/-- The run ends as this session was played. -/
structure Reports {σ ρ : Type} (tracing : Bool) (r : Report σ ρ) (played : Session σ ρ × Option Crash × List TraceLine) :
    Prop where
  ending : r.ending = endingOf tracing played.1.engine.machine played.2.1
  machine : r.machine = some played.1.engine.machine
  session : r.session = some played.1

variable {σ : Type} [Canvas σ]

section
variable {ρ : Type} {source : ρ} {tracing : Bool} {scale : Setting Int} {rom : Rom}

theorem start_error {e : ScreenError} (h : openScreen σ scale = .error e) :
    (start σ source tracing scale (.ok rom)).session = .error (.noScreen e) := by
  unfold start
  simp only [h]

theorem start_ok {screen : Screen σ} (h : openScreen σ scale = .ok screen) :
    (start σ source tracing scale (.ok rom)).session = .ok (.start ⟨.loaded rom.program, source⟩ screen) := by
  unfold start
  simp only [h, Memory.loadRom, Machine.loaded]

omit [Canvas σ] in
theorem followsWith_start {Picture : Screen σ → Display → Prop} {screen : Screen σ}
    (hpicture : Picture screen (.blank 64 32)) (source : ρ) (program : List Byte) :
    (Session.start ⟨.loaded program, source⟩ screen).FollowsWith Picture (.start source program) :=
  ⟨⟨rfl, rfl, rfl, rfl, rfl⟩, hpicture⟩

end

variable {spare : Int} {files : FileTree} {arguments : List String} {side delay seed : Int} {program : List Byte}

namespace Calls
variable (h : Calls spare files arguments side delay seed program)
include h

theorem no_window {e : ScreenError} (hs : openScreen σ (.value side) = .error e) (tracing : Bool) (turns : List Turn) :
    NoWindow e program (run σ spare tracing files arguments turns) := by
  obtain ⟨path, option, hparse, hread, hseed⟩ := h
  have hstart (source : Random.Twister) (rom : Rom) :
      (start σ source tracing (.value side) (.ok rom)).session = .error (.noScreen e) := start_error hs
  refine ⟨?_, ?_, ?_⟩
  all_goals simp only [run, runWith, hparse, hseed, openRom, FileTree.readRom, hread, Except.map, hstart]
  unfold start
  simp only [hs]
  rfl

theorem reports {screen : Screen σ} (hs : openScreen σ (.value side) = .ok screen) (tracing : Bool)
    (turns : List Turn) :
    Reports tracing (run σ spare tracing files arguments turns)
      ((Session.start ⟨.loaded program, .ofSeed seed⟩ screen).play tracing (.value delay) turns) := by
  obtain ⟨path, option, hparse, hread, hseed⟩ := h
  simp only [run, runWith, hparse, hseed, openRom, FileTree.readRom, hread, Except.map, start_ok hs]
  exact ⟨rfl, rfl, rfl⟩

end Calls

/-- The session of a run follows the start without a window. -/
theorem follows_start {screen : Screen σ} (hs : openScreen σ (.value side) = .ok screen) {ρ : Type} (source : ρ)
    (program : List Byte) : (Session.start ⟨.loaded program, source⟩ screen).FollowsWith (Screen.HasBlocks side)
      (.start source program) :=
  followsWith_start (Screen.create_hasBlocks hs _) source program

/-- If the events do not fail, the run ends as the loop without a window. -/
theorem Calls.windowless (h : Calls spare files arguments side delay seed program)
    (hpaints : Canvas.Paints σ (Rect.InGrid side 64 32)) {screen : Screen σ}
    (hs : openScreen σ (.value side) = .ok screen) (tracing : Bool) {turns : List Turn}
    (hturns : ∀ t ∈ turns, ∃ events, t.batch = .events events) :
    let r := run σ spare tracing files arguments turns
    let p := (Paced.start (Random.Twister.ofSeed seed) program).play delay turns
    r.ending = .normal ∧ r.machine = some p.engine.machine ∧
      r.session.map Session.engine = some p.engine ∧ r.session.map Session.cycles = some p.executed.length := by
  obtain ⟨hending, hmachine, hsession⟩ := h.reports hs tracing turns
  obtain ⟨hplay, hcrash⟩ := (follows_start hs _ _).play Random.Twister.endless (Screen.redraws_blocks hpaints) tracing
    delay turns
  rw [hcrash, Turn.crash?_of_events hturns] at hending
  rw [hplay.engine] at hmachine
  refine ⟨hending, hmachine, ?_, ?_⟩
  · rw [hsession]
    exact congrArg some hplay.engine
  · rw [hsession]
    exact congrArg some hplay.cycles

/-- A directory with one file, a program that jumps to itself. -/
def shelf : FileTree := ⟨({} : Std.HashMap Place Node).insert ["loop"] (.file [0x12, 0x00])⟩

theorem read_shelf : shelf.read "loop" = .ok [0x12, 0x00] := by
  have hroot : shelf.node? [] = some .directory := rfl
  have hfile : shelf.node? ["loop"] = some (.file [0x12, 0x00]) := by simp [FileTree.node?, shelf]
  have hstart : ("loop".startsWith "/") = false := by decide +kernel
  have hnull : ("loop".contains '\x00') = false := by simp [String.contains_char_eq]
  have hnames : FileTree.components "loop" = ["loop"] := by decide +kernel
  have hsize : "loop".utf8ByteSize = 4 := rfl
  simp [FileTree.read, FileTree.walk, FileTree.step, FileTree.maxPathSize, FileTree.maxNameSize, hroot, hfile, hstart,
    hnull, hnames, hsize]

theorem calls_shelf {arguments : List String}
    (h : Options.parse arguments = .ok ⟨.value "loop", .value side, .value delay, some (.value seed)⟩) :
    Calls 0 shelf arguments side delay seed [0x12, 0x00] :=
  ⟨"loop", _, h, read_shelf, rfl⟩

theorem calls_two : Calls 0 shelf ["-f", "loop", "-s", "2", "-d", "16", "--seed", "7"] 2 16 7 [0x12, 0x00] :=
  calls_shelf rfl

theorem calls_overflowing :
    Calls 0 shelf ["-f", "loop", "-s", "134217728", "-d", "16", "--seed", "7"] 134217728 16 7 [0x12, 0x00] :=
  calls_shelf rfl

theorem calls_too_large : Calls 0 shelf ["-f", "loop", "-s", "257", "-d", "0", "--seed", "0"] 257 0 0 [0x12, 0x00] :=
  calls_shelf rfl

theorem openScreen_two : openScreen Surface (.value 2) = .ok
    ⟨64, 32, 2, Screen.defaultBackground, Screen.defaultForeground, .filled 128 64 Screen.defaultBackground⟩ := rfl

/-- The low 32 bits of the sides are zero, and the window that opens has the size of the desktop. -/
theorem openScreen_overflowing : openScreen Surface (.value 134217728) = .ok
    ⟨64, 32, 134217728, Screen.defaultBackground, Screen.defaultForeground,
      .filled 1024 768 Screen.defaultBackground⟩ := rfl

theorem openScreen_too_large : openScreen Surface (.value 257) = .error .tooLarge := rfl

/-- On surfaces the blocks of the display are painted wherever its window opens. -/
theorem paints_of_openScreen {screen : Screen Surface} (h₁ : 1 ≤ side)
    (hs : openScreen Surface (.value side) = .ok screen) : Canvas.Paints Surface (Rect.InGrid side 64 32) :=
  let ⟨_, hopen, _⟩ := Screen.create_eq_ok_iff.1 hs
  Surface.paints_grid h₁ hopen

/-- If the window opens, and takes the blocks of the display, the run ends normally, with the engine of the loop without
a window; so does any other run of the program that differs in the scale and in tracing, if its window opens. If no
window opens, no turn is taken. -/
theorem run_is_windowless (h : Calls spare files arguments side delay seed program) (tracing : Bool)
    (turns : List Turn) (hturns : ∀ t ∈ turns, ∃ events, t.batch = .events events) :
    let r := run σ spare tracing files arguments turns
    let p := (Paced.start (Random.Twister.ofSeed seed) program).play delay turns
    (Canvas.Paints σ (Rect.InGrid side 64 32) → ∀ screen, openScreen σ (.value side) = .ok screen →
      r.ending = .normal ∧ r.machine = some p.engine.machine ∧
      r.session.map Session.engine = some p.engine ∧ r.session.map Session.cycles = some p.executed.length ∧
      ∀ (arguments' : List String) (side' : Int) (tracing' : Bool),
        Calls spare files arguments' side' delay seed program → Canvas.Paints σ (Rect.InGrid side' 64 32) →
        ∀ screen', openScreen σ (.value side') = .ok screen' →
        let r' := run σ spare tracing' files arguments' turns
        r'.machine = r.machine ∧ r'.session.map Session.engine = r.session.map Session.engine ∧
          r'.session.map Session.cycles = r.session.map Session.cycles) ∧
    ∀ e, openScreen σ (.value side) = .error e → NoWindow e program r := by
  refine ⟨fun hpaints screen hs => ?_, fun e hs => h.no_window hs tracing turns⟩
  obtain ⟨hending, hmachine, hengine, hcycles⟩ := h.windowless hpaints hs tracing hturns
  refine ⟨hending, hmachine, hengine, hcycles, fun arguments' side' tracing' h' hpaints' screen' hs' => ?_⟩
  obtain ⟨-, hmachine', hengine', hcycles'⟩ := h'.windowless hpaints' hs' tracing' hturns
  exact ⟨hmachine'.trans hmachine.symm, hengine'.trans hengine.symm, hcycles'.trans hcycles.symm⟩

/-- A key is pressed, a cycle is run, and the user leaves. The second run has blocks of which not one fits into the
window. -/
theorem run_is_windowless_at_two_scales :
    let turns := [⟨20, .events [.down 49, .other]⟩, ⟨3, .events [.quit]⟩]
    let r := run Surface 0 true shelf ["-f", "loop", "-s", "2", "-d", "16", "--seed", "7"] turns
    let r' := run Surface 0 false shelf ["-f", "loop", "-s", "134217728", "-d", "16", "--seed", "7"] turns
    let p := (Paced.start (Random.Twister.ofSeed 7) [0x12, 0x00]).play 16 turns
    r.ending = .normal ∧ r.machine = some p.engine.machine ∧
      r.session.map Session.cycles = some p.executed.length ∧ r'.machine = r.machine ∧
      r'.session.map Session.cycles = r.session.map Session.cycles := by
  obtain ⟨hending, hmachine, -, hcycles, hother⟩ := (run_is_windowless calls_two true
    [⟨20, .events [.down 49, .other]⟩, ⟨3, .events [.quit]⟩] (by simp)).1
    (paints_of_openScreen (by decide) openScreen_two) _ openScreen_two
  obtain ⟨hmachine', -, hcycles'⟩ := hother _ _ false calls_overflowing
    (paints_of_openScreen (by decide) openScreen_overflowing) _ openScreen_overflowing
  exact ⟨hending, hmachine, hcycles, hmachine', hcycles'⟩

theorem run_fails_at_scale_257 :
    let arguments := ["-f", "loop", "-s", "257", "-d", "0", "--seed", "0"]
    Calls 0 shelf arguments 257 0 0 [0x12, 0x00] ∧ (run Surface 0 false shelf arguments []).ending ≠ .normal := by
  refine ⟨calls_too_large, ?_⟩
  rw [(calls_too_large.no_window openScreen_too_large false []).ending]
  exact nofun

/-- If the window opens, and takes the blocks of the display: from the first flip on, and after every turn, what was
painted last is what was flipped, and there was one flip at the start and one for each instruction that draws, whether
or not the events fail. If the blocks are painted exactly, the pixels that were flipped show the display. If no window
opens, no turn is taken. -/
theorem picture_is_current (h : Calls spare files arguments side delay seed program) (h₁ : 1 ≤ side) (tracing : Bool)
    (turns : List Turn) :
    let r := run σ spare tracing files arguments turns
    let paced := (Paced.start (Random.Twister.ofSeed seed) program).history delay turns
    (Canvas.Paints σ (Rect.InGrid side 64 32) → ∀ screen, openScreen σ (.value side) = .ok screen →
      let sessions := (Session.start ⟨.loaded program, Random.Twister.ofSeed seed⟩ screen).history tracing
        (.value delay) turns
      r.session = sessions.getLast? ∧ List.Forall₂ Session.Follows paced sessions ∧
        (Canvas.Exact σ (Rect.InGrid side 64 32) → List.Forall₂
          (fun p s => s.shown.scale = side ∧ s.shown.Shows screen.surface p.engine.machine.display) paced sessions)) ∧
    ∀ e, openScreen σ (.value side) = .error e → NoWindow e program r := by
  refine ⟨fun hpaints screen hs => ⟨?_, ?_, fun hexact => ?_⟩, fun e hs => h.no_window hs tracing turns⟩
  · rw [Session.getLast?_history]
    exact (h.reports hs tracing turns).session
  · have hhistory := (follows_start hs (Random.Twister.ofSeed seed) program).history Random.Twister.endless
      (Screen.redraws_blocks hpaints) tracing delay turns
    exact hhistory.imp fun p s hps => hps.toFollows
  · have hstart := followsWith_start (Screen.create_mirrors hs hexact) (Random.Twister.ofSeed seed) program
    have hhistory := hstart.history Random.Twister.endless (Screen.redraws_mirrors hexact h₁ screen.surface) tracing
      delay turns
    exact hhistory.imp fun p s hps => ⟨hps.picture.scale, hps.engine ▸ hps.picture.shows h₁⟩

/-- The events fail in the second turn, and the window shows the display to the end. -/
theorem picture_is_current_at_scale_two :
    let turns := [⟨20, .events []⟩, ⟨3, .failure "no events"⟩]
    let r := run Surface 0 false shelf ["-f", "loop", "-s", "2", "-d", "16", "--seed", "7"] turns
    let paced := (Paced.start (Random.Twister.ofSeed 7) [0x12, 0x00]).history 16 turns
    ∃ screen, openScreen Surface (.value 2) = .ok screen ∧
      let sessions := (Session.start ⟨.loaded [0x12, 0x00], Random.Twister.ofSeed 7⟩ screen).history false
        (.value 16) turns
      r.session = sessions.getLast? ∧ List.Forall₂ Session.Follows paced sessions ∧ List.Forall₂
        (fun p s => s.shown.scale = 2 ∧ s.shown.Shows screen.surface p.engine.machine.display) paced sessions := by
  have hexact : Canvas.Exact Surface (Rect.InGrid 2 64 32) :=
    Surface.exact_grid (by decide) (by decide) (by decide) (by decide)
  obtain ⟨hlast, hfollows, hshows⟩ := (picture_is_current calls_two (by decide) false
    [⟨20, .events []⟩, ⟨3, .failure "no events"⟩]).1 hexact.paints _ openScreen_two
  exact ⟨_, openScreen_two, hlast, hfollows, hshows hexact⟩

theorem no_flip_at_scale_257 :
    let arguments := ["-f", "loop", "-s", "257", "-d", "0", "--seed", "0"]
    Calls 0 shelf arguments 257 0 0 [0x12, 0x00] ∧ ¬∃ s, (run Surface 0 false shelf arguments []).session = some s ∧
      1 ≤ s.flips := by
  refine ⟨calls_too_large, fun ⟨s, hs, _⟩ => ?_⟩
  have hnone := (calls_too_large.no_window openScreen_too_large false []).session
  exact absurd (hs.symm.trans hnone) (Option.some_ne_none s)

end Player
end ChipEight

import SfcProxy.Bridge
import SfcProxy.Proofs.Pump
import SfcProxy.Proofs.Tool.Supervision

/-!
# What a session leaves behind

A session goes from turn to turn: the editor sends, the server works, what it writes is relayed.
Wherever it breaks off, the editor has received whole messages only, each an adapted message of the
server; the server does not run any longer, and nothing it wrote to its errors is lost.

## Main definitions

* `Relayed`: whole frames with messages that were adapted for the editor
* `Bridge.Sound`: what holds between any two turns

## Main results

* `Bridge.sound_receive`, `Bridge.sound_finish`: turns keep a session sound
* `Bridge.run_eq_close`: a session ends in a sound state
* `Bridge.relayed_run`: what the editor receives
-/

namespace SfcProxy

open Tool (Machine)

/-- Whole frames with messages that were adapted for the editor. -/
def Relayed (bytes : List UInt8) : Prop :=
  ∃ bodies : List (List UInt8), bytes = (bodies.map Frame.write).flatten ∧
    ∀ body ∈ bodies, ∃ raw, ∃ s : Session, (s.fromServer raw).2 = .ok body

theorem Relayed.nil : Relayed [] :=
  ⟨[], rfl, by simp⟩

theorem Relayed.append {bytes more : List UInt8} (h : Relayed bytes) (h' : Relayed more) :
    Relayed (bytes ++ more) := by
  obtain ⟨bodies, rfl, hbodies⟩ := h
  obtain ⟨others, rfl, hothers⟩ := h'
  refine ⟨bodies ++ others, by simp, ?_⟩
  intro body hbody
  rcases List.mem_append.mp hbody with hbody | hbody
  · exact hbodies body hbody
  · exact hothers body hbody

namespace Bridge

/-- What holds between any two turns of a session. -/
structure Sound (b : Bridge) : Prop where
  relayed : Relayed b.output
  /-- The server has a number of its own. -/
  known : Machine.first < b.server.fresh

variable {b : Bridge}

/-! ## Turns -/

theorem sound_work {f : Machine → Machine} (passes : ∀ m : Machine, m.Passes (f m)) (h : b.Sound) :
    (b.work f).Sound where
  relayed := h.relayed
  known := Nat.lt_of_lt_of_le h.known (passes { b.server with files := b.session.files }).fresh

theorem fresh_feed (bytes : List UInt8) (m : Machine) : (m.feed bytes).fresh = m.fresh := by
  unfold Machine.feed
  split
  next => rfl
  next => rfl

theorem sound_hear (extractor : Extractor) (closed : Bool) (h : b.Sound) :
    (b.hear extractor closed).Sound := by
  refine sound_work (fun m => (Machine.works_settle m).toPasses) ⟨h.relayed, ?_⟩
  rw [fresh_feed]
  exact h.known

theorem sound_relay (h : b.Sound) : b.relay.Sound where
  relayed := by
    obtain ⟨bodies, houtput, hbodies⟩ := Pump.exists_output_eq b.server.outputEnded
      (fun body (s : Session) => s.fromServer body) b.unrelayed b.session
    exact h.relayed.append ⟨bodies, houtput, hbodies⟩
  known := h.known

theorem sound_await (awaited : Option Nat) (budget : Nat) (h : b.Sound) :
    (b.await awaited budget).Sound := by
  induction budget generalizing b with
  | zero => exact h
  | succ budget ih =>
    rw [await]
    split
    next => exact h
    next =>
      have relayed := sound_relay h
      dsimp only
      split
      next => exact relayed
      next =>
        split
        next time _ =>
          apply ih
          refine sound_work (fun m => ?_) relayed
          exact (Machine.passes_now m time).trans (Machine.works_settle _).toPasses
        next => exact relayed

theorem sound_receive (extractor : Extractor) (send : Send) (h : b.Sound) :
    (b.receive extractor send).Sound := by
  unfold receive
  split
  next => exact h
  next =>
    have heard : ({ b with unheard := b.unheard ++ send.data }.hear extractor false).Sound :=
      sound_hear extractor false ⟨h.relayed, h.known⟩
    dsimp only
    split
    next => exact heard
    next count _ => exact sound_await (some count) _ heard

theorem sound_finish (extractor : Extractor) (closes : Bool) (h : b.Sound) :
    (b.finish extractor closes).Sound := by
  unfold finish
  split
  next => exact h
  next =>
    split
    next => exact sound_hear extractor true h
    next => exact sound_await none _ h

/-! ## Sessions -/

theorem fresh_of_launch {files : FileTree} {cwd : Path} {command : List Text} {server : Machine}
    (launched : Tool.launch files cwd command = .ok server) : Machine.first < server.fresh := by
  simp only [Tool.launch, bind, Except.bind] at launched
  split at launched
  next => cases launched
  next =>
    split at launched
    next => cases launched
    next =>
      split at launched
      next => cases launched
      next =>
        split at launched
        next process _ =>
          cases launched
          exact Nat.lt_succ_self _
        next => cases launched

theorem sound_start (settings : Settings) (files : FileTree) {server : Machine}
    (known : Machine.first < server.fresh) : (start settings files server).Sound :=
  sound_work (fun m => (Machine.works_settle m).toPasses) ⟨.nil, known⟩

theorem sound_foldl_receive (extractor : Extractor) (sends : List Send) (h : b.Sound) :
    (sends.foldl (receive extractor) b).Sound := by
  induction sends generalizing b with
  | nil => exact h
  | cons send sends ih => exact ih (sound_receive extractor send h)

/-- A session with a server that starts ends in a sound state, whatever the editor sends. -/
theorem run_eq_close (settings : Settings) {files : FileTree} {cwd : Path} {command : List Text}
    (sends : List Send) (closes : Bool) (words : command ≠ []) {server : Machine}
    (launched : Tool.launch files cwd command = .ok server) :
    ∃ b : Bridge, b.Sound ∧ run settings files cwd command sends closes = b.close := by
  refine ⟨(sends.foldl (receive (.ofLang settings.blockLang))
    (start settings files server)).finish (.ofLang settings.blockLang) closes, ?_, ?_⟩
  · exact sound_finish _ _ (sound_foldl_receive _ _ (sound_start settings files
      (fresh_of_launch launched)))
  · have hcommand : command.isEmpty = false := by simpa using words
    simp only [run, hcommand, launched]
    rfl

/-- **Whole messages.** However a session goes and wherever it breaks off, the editor receives whole
frames, each with an adapted message of the server. -/
theorem relayed_run (settings : Settings) (files : FileTree) (cwd : Path) (command : List Text)
    (sends : List Send) (closes : Bool) :
    Relayed (run settings files cwd command sends closes).output := by
  by_cases words : command = []
  · subst words
    exact .nil
  · cases launched : Tool.launch files cwd command with
    | error e =>
      have hcommand : command.isEmpty = false := by simpa using words
      simp only [run, hcommand, launched]
      exact .nil
    | ok server =>
      obtain ⟨b, sound, hrun⟩ := run_eq_close settings sends closes words launched
      rw [hrun]
      exact sound.relayed

/-! ## Ends -/

/-- What is left of the server when the session is over. -/
def remains (b : Bridge) : Machine :=
  ({ b.server with files := b.session.files }.stop patience).machine.waitUntil (·.errorsEnded) none

theorem close_eq (b : Bridge) : b.close =
    { code := match b.stop.bind Pump.Stop.failure? with
        | some failure => .error (.pump failure)
        | none => .ok b.remains.code
      output := b.output
      errors := b.remains.errors
      files := b.remains.files
      log := b.session.log } :=
  rfl

theorem passes_remains (b : Bridge) :
    Machine.Passes { b.server with files := b.session.files } b.remains :=
  (Machine.passes_stop patience _).trans (Machine.passes_waitUntil _ _ _)

/-- The server does not outlive its session. -/
theorem fate_remains (h : b.Sound) : b.remains.fate Machine.first ≠ .running := by
  have stopped := Machine.fate_stop patience
    (m := { b.server with files := b.session.files }) h.known
  have known := Nat.lt_of_lt_of_le h.known
    (Machine.passes_stop patience { b.server with files := b.session.files }).fresh
  exact ((Machine.passes_waitUntil _ _ _).fate _ known).ne_running stopped

/-- What the server has written to its errors is relayed to the end. -/
theorem errors_prefix_close (b : Bridge) : b.server.errors <+: b.close.errors := by
  rw [close_eq]
  exact (passes_remains b).errors

end Bridge

end SfcProxy

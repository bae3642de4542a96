import SfcProxy.Proofs.Failure
import SfcProxy.Tool.Sed.Run

/-!
# What editing scripts do

A script goes from command to command. Whatever its commands are, what it has printed or written
stays, and it reads its lines one after the other, each of them once.

## Main definitions

* `State.Adds`, `State.Goes`: what happens to a state
* `nextLine`, `proceed`: where a script goes on

## Main results

* `goes_act`: what a command does
* `runFrom_of_act` and the lemmas above it: a step of a run, in each of the ways that it can go
* `goes_runFrom`, `goes_run`: what a run does
-/

namespace SfcProxy.Tool.Sed

/-! ## Output -/

/-- More may be printed and written; the input stays as it is. -/
structure State.Adds (s s' : State) : Prop where
  printed : s.printed <:+ s'.printed
  written : s.written <+: s'.written
  lines : s'.lines = s.lines
  line : s'.line = s.line

namespace State.Adds

variable {s s' s'' : State}

theorem refl (s : State) : s.Adds s :=
  ⟨List.suffix_refl _, List.prefix_refl _, rfl, rfl⟩

theorem trans (h : s.Adds s') (h' : s'.Adds s'') : s.Adds s'' :=
  ⟨h.printed.trans h'.printed, h.written.trans h'.written, h'.lines.trans h.lines,
    h'.line.trans h.line⟩

theorem ite (c : Prop) [Decidable c] (h : s.Adds s') (h' : s.Adds s'') :
    s.Adds (if c then s' else s'') := by
  split
  next => exact h
  next => exact h'

end State.Adds

theorem adds_print (s : State) (separator : Char) (text : Text) (broken : Bool) :
    s.Adds (s.print separator text broken) :=
  ⟨(List.suffix_append _ _).trans (List.suffix_cons _ _), List.prefix_refl _, rfl, rfl⟩

theorem adds_printPattern (s : State) (separator : Char) : s.Adds (s.printPattern separator) :=
  adds_print s separator s.pattern s.broken

theorem adds_printRaw (s : State) (separator : Char) (text : Text) :
    s.Adds (s.printRaw separator text) := by
  unfold State.printRaw
  split
  next => exact .refl s
  next =>
    exact ⟨(List.suffix_append _ _).trans (List.suffix_cons _ _), List.prefix_refl _, rfl, rfl⟩

theorem adds_foldl {α : Type} {step : State → α → State}
    (h : ∀ (s : State) a, s.Adds (step s a)) (xs : List α) (s : State) :
    s.Adds (xs.foldl step s) := by
  induction xs generalizing s with
  | nil => exact .refl s
  | cons a xs ih => exact (h s a).trans (ih _)

theorem adds_flush (s : State) (separator : Char) : s.Adds (s.flush separator) := by
  unfold State.flush
  suffices h : s.Adds (s.queue.foldl _ s) from ⟨h.printed, h.written, h.lines, h.line⟩
  refine adds_foldl ?_ s.queue s
  rintro s ⟨text, isFile⟩
  have h := adds_printRaw s separator text
  dsimp only
  split
  next => exact ⟨h.printed, h.written, h.lines, h.line⟩
  next => exact h

theorem adds_writeTo (s : State) (separator : Char) (file : Octets) (text : Text) :
    s.Adds (s.writeTo separator file text) := by
  unfold State.writeTo
  split
  next => exact adds_print s separator text true
  next => exact ⟨List.suffix_refl _, List.prefix_append _ _, rfl, rfl⟩

theorem adds_finishLine (g : Setting) (prints : Bool) (s : State) :
    s.Adds (finishLine g prints s) := by
  unfold finishLine
  split
  next => exact (adds_printPattern s g.separator).trans (adds_flush _ _)
  next => exact adds_flush s g.separator

/-! ## Addresses -/

variable {g : Setting} {s s' : State} {answer : Bool}

theorem adds_holds {a : Address} (h : holds g s a = .ok (answer, s')) : s.Adds s' := by
  cases a with
  | line n | step first step =>
    cases h
    exact .refl s
  | last =>
    rw [holds] at h
    split at h
    next =>
      cases h
      exact .refl s
    next =>
      split at h
      next =>
        cases h
        exact .refl s
      next => cases h
  | matching p =>
    rw [holds] at h
    split at h
    next => cases h
    next =>
      cases h
      exact ⟨List.suffix_refl _, List.prefix_refl _, rfl, rfl⟩

theorem adds_ranges (s : State) (ranges : Numbered RangeState) : s.Adds { s with ranges } :=
  ⟨List.suffix_refl _, List.prefix_refl _, rfl, rfl⟩

theorem adds_beginRange {place : Nat} {start : Address} {stop : RangeEnd}
    (h : beginRange g place s start stop = .ok (answer, s')) : s.Adds s' := by
  obtain ⟨⟨begins, t⟩, hholds, h⟩ := bind_eq_ok h
  have hadds := adds_holds hholds
  dsimp only at h
  split at h
  next =>
    cases h
    exact hadds
  next =>
    split at h
    next =>
      split at h
      next =>
        cases h
        exact hadds
      next =>
        cases h
        exact hadds.trans (adds_ranges ..)
    next =>
      cases h
      exact hadds.trans (adds_ranges ..)

theorem adds_applies {place : Nat} {scope : Scope}
    (h : applies g place s scope = .ok (answer, s')) : s.Adds s' := by
  cases scope with
  | all =>
    cases h
    exact .refl s
  | one a => exact adds_holds h
  | range start stop =>
    unfold applies at h
    dsimp only at h
    split at h
    next n _ =>
      cases h
      split
      next => exact adds_ranges ..
      next => exact .refl s
    next =>
      split at h
      next a =>
        obtain ⟨⟨ends, t⟩, hholds, h⟩ := bind_eq_ok h
        cases h
        exact (adds_holds hholds).trans (adds_ranges ..)
      next =>
        cases h
        exact .refl s
    next => exact adds_beginRange h

/-! ## Commands -/

/-- What happens to a state while a script runs: what was printed or written stays, and lines are
read one after the other. -/
structure State.Goes (s s' : State) : Prop where
  printed : s.printed <:+ s'.printed
  written : s.written <+: s'.written
  lines : s'.lines <:+ s.lines
  line : s'.line + s'.lines.length = s.line + s.lines.length

namespace State

variable {s s' s'' : State}

theorem Goes.refl (s : State) : s.Goes s :=
  ⟨List.suffix_refl _, List.prefix_refl _, List.suffix_refl _, rfl⟩

theorem Goes.trans (h : s.Goes s') (h' : s'.Goes s'') : s.Goes s'' :=
  ⟨h.printed.trans h'.printed, h.written.trans h'.written, h'.lines.trans h.lines,
    h'.line.trans h.line⟩

theorem Adds.goes (h : s.Adds s') : s.Goes s' :=
  ⟨h.printed, h.written, h.lines ▸ List.suffix_refl _, by rw [h.lines, h.line]⟩

end State

theorem goes_readLine {behind : Bool} (h : readLine g s behind = .ok (some s')) : s.Goes s' := by
  unfold readLine at h
  split at h
  next =>
    split at h
    next => cases h
    next => cases h
  next line broken rest hlines =>
    cases h
    have hflush := adds_flush s g.separator
    refine ⟨hflush.printed, hflush.written, ?_, ?_⟩
    · rw [hlines]
      exact List.suffix_cons _ _
    · rw [hlines, List.length_cons, ← hflush.line]
      exact Nat.add_right_comm _ _ _

theorem adds_pattern (s : State) (pattern : Text) (changed : Bool) (lastRegex : Option Regex) :
    s.Adds { s with pattern, changed, lastRegex } :=
  ⟨List.suffix_refl _, List.prefix_refl _, rfl, rfl⟩

theorem adds_substitute {place : Nat} {command : Command} {sub : Substitution} {onward : Onward}
    (haction : command.action = .substitute sub)
    (h : act g place command s = .ok (onward, s')) : s.Adds s' := by
  rw [act, haction] at h
  dsimp only at h
  split at h
  next => cases h
  next r _ =>
    split at h
    next =>
      cases h
      exact adds_pattern ..
    next =>
      cases h
      have hmade := adds_pattern s (substitute r sub s.pattern).1 true (some r)
      have hprinted := State.Adds.ite (sub.print > 0) (hmade.trans (adds_printPattern _ g.separator))
        hmade
      split
      next => exact hprinted.trans (adds_writeTo ..)
      next => exact hprinted

theorem goes_act {place : Nat} {command : Command} {onward : Onward}
    (h : act g place command s = .ok (onward, s')) : s.Goes s' := by
  cases haction : command.action with
  | substitute sub => exact (adds_substitute haction h).goes
  | next =>
    rw [act, haction] at h
    dsimp only at h
    split at h
    next =>
      cases h
      exact .refl s
    next =>
      obtain ⟨read, hread, h⟩ := bind_eq_ok h
      cases read with
      | none =>
        cases h
        exact .refl s
      | some t =>
        cases h
        exact (State.Adds.ite _ (.refl s) (adds_printPattern ..)).goes.trans (goes_readLine hread)
  | nextMore =>
    rw [act, haction] at h
    obtain ⟨read, hread, h⟩ := bind_eq_ok h
    cases read with
    | none =>
      cases h
      exact .refl s
    | some t =>
      cases h
      exact goes_readLine hread
  | deleteFirst =>
    rw [act, haction] at h
    dsimp only at h
    split at h
    next =>
      cases h
      exact ⟨List.suffix_refl _, List.prefix_refl _, List.suffix_refl _, rfl⟩
    next =>
      cases h
      exact .refl s
  | change text =>
    rw [act, haction] at h
    cases h
    exact (State.Adds.ite _ (.refl s) (adds_printRaw ..)).goes
  | jumpIf | jumpUnless | append | get | getMore | hold | holdMore | exchange | mapChars | clear
    | readFile =>
    rw [act, haction] at h
    cases h
    exact ⟨List.suffix_refl _, List.prefix_refl _, List.suffix_refl _, rfl⟩
  | number | list | print | printFirst | name =>
    rw [act, haction] at h
    cases h
    exact (adds_print ..).goes
  | insert text =>
    rw [act, haction] at h
    cases h
    exact (adds_printRaw ..).goes
  | writeFile | writeFirst =>
    rw [act, haction] at h
    cases h
    exact (adds_writeTo ..).goes
  | block | nothing | jump | delete | quit | quitSilently =>
    rw [act, haction] at h
    cases h
    exact .refl s

/-! ## Runs -/

/-- Goes on with the next line, in so many steps. -/
def nextLine (g : Setting) (budget : Nat) (s : State) : Stop × State :=
  match readLine g s false with
  | .error stop => (stop, s)
  | .ok none => (.ended 0, s)
  | .ok (some s) => runFrom g budget 0 s

/-- Goes on after a command that stands at a place. -/
def proceed (g : Setting) (budget place : Nat) (s : State) : Onward → Stop × State
  | .next => runFrom g budget (place + 1) s
  | .to target => runFrom g budget target s
  | .cycle prints => nextLine g budget (finishLine g prints s)
  | .restart => runFrom g budget 0 (s.flush g.separator)
  | .quit prints status => (.ended status, if prints then finishLine g true s else s)

/-- The place behind a command that does not count, with its block. -/
def behind (place : Nat) : Action → Nat
  | .block stop => stop + 1
  | _ => place + 1

section Steps

variable {budget place : Nat} {command : Command} {t : State} {counts : Bool} {stop : Stop}

theorem runFrom_of_none (h : g.script.commands[place]? = none) :
    runFrom g (budget + 1) place s = nextLine g budget (finishLine g true s) := by
  rw [runFrom, h]
  rfl

variable (h : g.script.commands[place]? = some command)

include h

theorem runFrom_of_applies_error (happlies : applies g place s command.scope = .error stop) :
    runFrom g (budget + 1) place s = (stop, s) := by
  rw [runFrom, h]
  dsimp only
  rw [happlies]

variable (happlies : applies g place s command.scope = .ok (counts, t))

include happlies

theorem runFrom_of_skipped (hcounts : counts = command.negated) :
    runFrom g (budget + 1) place s = runFrom g budget (behind place command.action) t := by
  rw [runFrom, h]
  dsimp only
  rw [happlies]
  dsimp only
  rw [if_pos hcounts]
  cases command.action <;> rfl

theorem runFrom_of_act_error (hcounts : counts ≠ command.negated)
    (hact : act g place command t = .error stop) :
    runFrom g (budget + 1) place s = (stop, t) := by
  rw [runFrom, h]
  dsimp only
  rw [happlies]
  dsimp only
  rw [if_neg hcounts, hact]

theorem runFrom_of_act {onward : Onward} {u : State} (hcounts : counts ≠ command.negated)
    (hact : act g place command t = .ok (onward, u)) :
    runFrom g (budget + 1) place s = proceed g budget place u onward := by
  rw [runFrom, h]
  dsimp only
  rw [happlies]
  dsimp only
  rw [if_neg hcounts, hact]
  cases onward <;> rfl

end Steps

theorem goes_nextLine {budget : Nat} (h : ∀ place (s : State), s.Goes (runFrom g budget place s).2)
    (s : State) : s.Goes (nextLine g budget s).2 := by
  unfold nextLine
  split
  next => exact .refl s
  next => exact .refl s
  next hread => exact (goes_readLine hread).trans (h ..)

theorem goes_proceed {budget : Nat} (h : ∀ place (s : State), s.Goes (runFrom g budget place s).2)
    (place : Nat) (s : State) (onward : Onward) : s.Goes (proceed g budget place s onward).2 := by
  cases onward with
  | next => exact h ..
  | «to» target => exact h ..
  | cycle prints => exact (adds_finishLine g prints s).goes.trans (goes_nextLine h _)
  | restart => exact (adds_flush s g.separator).goes.trans (h ..)
  | quit prints status => exact (State.Adds.ite _ (adds_finishLine g true s) (.refl s)).goes

/-- **Scripts go forward.** However a script runs, what has been printed or written stays, and each
line is read once, one after the other. -/
theorem goes_runFrom (g : Setting) (budget place : Nat) (s : State) :
    s.Goes (runFrom g budget place s).2 := by
  induction budget generalizing place s with
  | zero => exact .refl s
  | succ budget ih =>
    cases h : g.script.commands[place]? with
    | none =>
      rw [runFrom_of_none h]
      exact (adds_finishLine g true s).goes.trans (goes_nextLine ih _)
    | some command =>
      cases happlies : applies g place s command.scope with
      | error stop =>
        rw [runFrom_of_applies_error h happlies]
        exact .refl s
      | ok result =>
        obtain ⟨counts, t⟩ := result
        refine (adds_applies happlies).goes.trans ?_
        by_cases hcounts : counts = command.negated
        · rw [runFrom_of_skipped h happlies hcounts]
          exact ih ..
        · cases hact : act g place command t with
          | error stop =>
            rw [runFrom_of_act_error h happlies hcounts hact]
            exact .refl t
          | ok result =>
            obtain ⟨onward, u⟩ := result
            rw [runFrom_of_act h happlies hcounts hact]
            exact (goes_act hact).trans (goes_proceed ih ..)

theorem goes_run (g : Setting) (lines : List (Text × Bool)) :
    ({ lines } : State).Goes (run g lines).2 :=
  goes_nextLine (goes_runFrom g _) { lines }

end SfcProxy.Tool.Sed

import SfcProxy.Proofs.Tool.Sed
import SfcProxy.Tool.Utility.Editing

/-!
# Editing input that comes in pieces

A script may be done before all of its input is there, so it is run on what has come so far, and run
again when more has come. That makes no difference: a script that does not run out of lines takes no
notice of those that follow, and lines that are complete stay what they are.

## Main definitions

* `State.more`: further lines behind those that are left
* `Agrees`, `Alike`: what commands and runs come to, unless they lack lines
* `Utility.feed`: a process from the pieces on that it reads

## Main results

* `agrees_act`: a command takes no notice of further lines
* `run_append`: neither does a run
* `Utility.sedInput_eq_whole`: input in pieces is edited like the whole
-/

namespace SfcProxy.Tool.Sed

/-! ## Further lines -/

/-- A state with further lines behind those that are left. -/
def State.more (extra : List (Text × Bool)) (s : State) : State :=
  { s with lines := s.lines ++ extra }

section More

variable (extra : List (Text × Bool)) (s : State)

theorem more_ite (c : Prop) [Decidable c] (s s' : State) :
    (if c then s.more extra else s'.more extra) = (if c then s else s').more extra := by
  split <;> rfl

theorem more_printRaw (separator : Char) (text : Text) :
    (s.more extra).printRaw separator text = (s.printRaw separator text).more extra := by
  unfold State.printRaw
  split <;> rfl

theorem more_flush (separator : Char) :
    (s.more extra).flush separator = (s.flush separator).more extra := by
  unfold State.flush
  refine congrArg (fun t : State => { t with queue := [] })
    (List.foldl_hom (State.more extra) ?_)
  rintro t ⟨text, isFile⟩
  dsimp only
  rw [more_printRaw]
  split <;> rfl

theorem more_writeTo (separator : Char) (file : Octets) (text : Text) :
    (s.more extra).writeTo separator file text = (s.writeTo separator file text).more extra := by
  unfold State.writeTo
  split <;> rfl

theorem more_finishLine (g : Setting) (closed prints : Bool) :
    finishLine { g with closed } prints (s.more extra) = (finishLine g prints s).more extra := by
  unfold finishLine
  split
  next => exact more_flush extra (s.printPattern g.separator) g.separator
  next => exact more_flush extra s g.separator

theorem lines_more {s : State} {first : Text × Bool} {rest : List (Text × Bool)}
    (h : s.lines = first :: rest) : (s.more extra).lines = first :: (rest ++ extra) := by
  rw [State.more, h, List.cons_append]

theorem more_regex? (p : Pattern) : (s.more extra).regex? p = s.regex? p := rfl

end More

/-! ## Running out of lines -/

/-- Unless something stops for lack of lines, something else comes to the same but for a change. -/
def Agrees {α : Type} (change : α → α) (x y : Except Stop α) : Prop :=
  x = .error .needsMore ∨ y = x.map change

namespace Agrees

variable {α β : Type} {change : α → α} {change' : β → β} {x y : Except Stop α}

theorem bind {f f' : α → Except Stop β} (h : Agrees change x y)
    (hf : ∀ a, Agrees change' (f a) (f' (change a))) : Agrees change' (x >>= f) (y >>= f') := by
  rcases h with rfl | rfl
  · exact .inl rfl
  · cases x with
    | error stop => exact .inr rfl
    | ok a => exact hf a

theorem ite (c : Prop) [Decidable c] {x' y' : Except Stop α} (h : Agrees change x y)
    (h' : Agrees change x' y') : Agrees change (if c then x else x') (if c then y else y') := by
  split
  next => exact h
  next => exact h'

theorem state {extra : List (Text × Bool)} {a : α} {s s' : State} (h : s' = s.more extra) :
    Agrees (Prod.map id (State.more extra)) (.ok (a, s)) (.ok (a, s')) :=
  .inr (congrArg (fun t => Except.ok (a, t)) h)

end Agrees

/-- Unless a run stops for lack of lines, another one comes to the same with further lines left. -/
def Alike (extra : List (Text × Bool)) (x y : Stop × State) : Prop :=
  x.1 = .needsMore ∨ y = (x.1, x.2.more extra)

theorem agrees_substitute (g : Setting) (closed : Bool) (extra : List (Text × Bool)) (s : State)
    (place : Nat) {command : Command} {sub : Substitution}
    (haction : command.action = .substitute sub) : Agrees (Prod.map id (State.more extra))
      (act g place command s) (act { g with closed } place command (s.more extra)) := by
  rw [act, act, haction]
  dsimp only
  rw [more_regex?]
  split
  next => exact .inr rfl
  next r _ =>
    have hpattern : (s.more extra).pattern = s.pattern := rfl
    rw [hpattern]
    split
    next => exact .inr rfl
    next =>
      have hprinted := more_ite extra (sub.print > 0)
        (State.printPattern { s with
          pattern := (substitute r sub s.pattern).1, changed := true, lastRegex := some r }
          g.separator)
        { s with pattern := (substitute r sub s.pattern).1, changed := true, lastRegex := some r }
      split
      next file _ =>
        exact .state ((congrArg (fun t => t.writeTo g.separator file t.pattern) hprinted).trans
          (more_writeTo extra ..))
      next => exact .state hprinted

section Lines

variable {g : Setting} (hopen : g.closed = false) (closed : Bool) (extra : List (Text × Bool))
  (s : State)

include hopen

theorem readLine_of_nil {s : State} (hlines : s.lines = []) (behind : Bool) :
    readLine g s behind = .error .needsMore := by
  unfold readLine
  rw [hlines, hopen]
  rfl

theorem agrees_readLine (behind : Bool) : Agrees (Option.map (State.more extra))
    (readLine g s behind) (readLine { g with closed } (s.more extra) behind) := by
  cases hlines : s.lines with
  | nil => exact .inl (readLine_of_nil hopen hlines behind)
  | cons first rest =>
    obtain ⟨line, broken⟩ := first
    unfold readLine
    rw [hlines, lines_more extra hlines]
    dsimp only
    rw [more_flush]
    exact .inr rfl

theorem agrees_holds (a : Address) : Agrees (Prod.map id (State.more extra)) (holds g s a)
    (holds { g with closed } (s.more extra) a) := by
  cases a with
  | line n => exact .inr rfl
  | step first step => exact .inr rfl
  | last =>
    rw [holds, holds]
    cases hlines : s.lines with
    | nil =>
      rw [hopen]
      exact .inl rfl
    | cons first rest =>
      rw [lines_more extra hlines]
      exact .inr rfl
  | matching p =>
    rw [holds, holds, more_regex?]
    cases s.regex? p with
    | none => exact .inr rfl
    | some r => exact .inr rfl

theorem agrees_beginRange (place : Nat) (start : Address) (stop : RangeEnd) :
    Agrees (Prod.map id (State.more extra)) (beginRange g place s start stop)
      (beginRange { g with closed } place (s.more extra) start stop) := by
  refine (agrees_holds hopen closed extra s start).bind ?_
  rintro ⟨begins, t⟩
  cases begins with
  | false => exact .inr rfl
  | true =>
    have hstop : rangeStop (t.more extra) stop = rangeStop t stop := rfl
    dsimp only [Prod.map, id]
    rw [hstop]
    cases rangeStop t stop with
    | none => exact .inr rfl
    | some n =>
      exact .ite (n ≤ t.line) (.inr rfl) (.inr rfl)

theorem agrees_applies (place : Nat) (scope : Scope) :
    Agrees (Prod.map id (State.more extra)) (applies g place s scope)
      (applies { g with closed } place (s.more extra) scope) := by
  cases scope with
  | all => exact .inr rfl
  | one a => exact agrees_holds hopen closed extra s a
  | range start stop =>
    unfold applies
    dsimp only
    have hranges : (s.more extra).ranges = s.ranges := rfl
    rw [hranges]
    split
    next n _ =>
      by_cases hn : n ≤ s.line
      · rw [if_pos hn, if_pos (show n ≤ (s.more extra).line from hn)]
        exact .inr rfl
      · rw [if_neg hn, if_neg (show ¬ n ≤ (s.more extra).line from hn)]
        exact .inr rfl
    next =>
      split
      next a =>
        refine (agrees_holds hopen closed extra s a).bind ?_
        rintro ⟨ends, t⟩
        exact .inr rfl
      next => exact .inr rfl
    next => exact agrees_beginRange hopen closed extra s place start stop

theorem agrees_next (place : Nat) {command : Command} (haction : command.action = .next) :
    Agrees (Prod.map id (State.more extra))
      (act g place command s) (act { g with closed } place command (s.more extra)) := by
  rw [act, act, haction]
  dsimp only
  rw [hopen, Bool.and_false, if_neg Bool.false_ne_true]
  have hprinted : (if g.script.quiet then s.more extra
        else (s.more extra).printPattern g.separator)
      = (if g.script.quiet then s else s.printPattern g.separator).more extra :=
    more_ite extra (g.script.quiet = true) s (s.printPattern g.separator)
  have hread := agrees_readLine hopen closed extra
    (if g.script.quiet then s else s.printPattern g.separator) false
  cases hlines : s.lines with
  | nil =>
    have hnone : (if g.script.quiet then s else s.printPattern g.separator).lines = [] := by
      split
      next => exact hlines
      next => exact hlines
    exact .inl (by rw [readLine_of_nil hopen hnone]; rfl)
  | cons first rest =>
    rw [lines_more extra hlines, List.isEmpty_cons, Bool.false_and, if_neg Bool.false_ne_true, hprinted]
    refine hread.bind ?_
    intro read
    cases read <;> exact .inr rfl

theorem agrees_act (place : Nat) (command : Command) :
    Agrees (Prod.map id (State.more extra)) (act g place command s)
      (act { g with closed } place command (s.more extra)) := by
  cases haction : command.action with
  | substitute sub => exact agrees_substitute g closed extra s place haction
  | next => exact agrees_next hopen closed extra s place haction
  | nextMore =>
    rw [act, act, haction]
    refine (agrees_readLine hopen closed extra s true).bind ?_
    intro read
    cases read <;> exact .inr rfl
  | deleteFirst =>
    rw [act, act, haction]
    have hpattern : (s.more extra).pattern = s.pattern := rfl
    dsimp only
    rw [hpattern]
    split
    next => exact .inr rfl
    next => exact .inr rfl
  | change text =>
    rw [act, act, haction]
    refine .state ?_
    rw [more_printRaw]
    exact more_ite extra ..
  | insert text =>
    rw [act, act, haction]
    exact .state (more_printRaw extra s g.separator text)
  | writeFile file =>
    rw [act, act, haction]
    exact .state (more_writeTo extra s ..)
  | writeFirst file =>
    rw [act, act, haction]
    exact .state (more_writeTo extra s ..)
  | jumpIf | jumpUnless | append | get | getMore | hold | holdMore | exchange | mapChars | clear
    | readFile | number | list | print | printFirst | name | block | nothing | jump | delete | quit
    | quitSilently =>
    rw [act, act, haction]
    exact .inr rfl

theorem nextLine_more {budget : Nat}
    (h : ∀ place s, Alike extra (runFrom g budget place s)
      (runFrom { g with closed } budget place (s.more extra))) :
    Alike extra (nextLine g budget s) (nextLine { g with closed } budget (s.more extra)) := by
  unfold nextLine
  rcases agrees_readLine hopen closed extra s false with hread | hread
  · rw [hread]
    exact .inl rfl
  · rw [hread]
    rcases readLine g s false with stop | (_ | t)
    · exact .inr rfl
    · exact .inr rfl
    · exact h 0 t

theorem proceed_more {budget : Nat}
    (h : ∀ place s, Alike extra (runFrom g budget place s)
      (runFrom { g with closed } budget place (s.more extra))) (place : Nat) (onward : Onward) :
    Alike extra (proceed g budget place s onward)
      (proceed { g with closed } budget place (s.more extra) onward) := by
  cases onward with
  | next => exact h ..
  | «to» target => exact h ..
  | cycle prints =>
    rw [proceed, proceed, more_finishLine]
    exact nextLine_more hopen closed extra _ h
  | restart =>
    rw [proceed, proceed, more_flush]
    exact h ..
  | quit prints status =>
    rw [proceed, proceed, more_finishLine]
    exact .inr (congrArg (Prod.mk _) (more_ite extra ..))

/-- A run that does not stop for lack of lines takes no notice of further ones. -/
theorem runFrom_more (budget place : Nat) : Alike extra (runFrom g budget place s)
    (runFrom { g with closed } budget place (s.more extra)) := by
  induction budget generalizing place s with
  | zero => exact .inr rfl
  | succ budget ih =>
    cases h : g.script.commands[place]? with
    | none =>
      rw [runFrom_of_none h, runFrom_of_none (g := { g with closed }) h, more_finishLine]
      exact nextLine_more hopen closed extra _ fun place s => ih s place
    | some command =>
      have h' : ({ g with closed } : Setting).script.commands[place]? = some command := h
      rcases agrees_applies hopen closed extra s place command.scope with hstop | happlies'
      · rw [runFrom_of_applies_error h hstop]
        exact .inl rfl
      cases happlies : applies g place s command.scope with
      | error stop =>
        rw [happlies] at happlies'
        rw [runFrom_of_applies_error h happlies, runFrom_of_applies_error h' happlies']
        exact .inr rfl
      | ok result =>
        obtain ⟨counts, t⟩ := result
        rw [happlies] at happlies'
        by_cases hcounts : counts = command.negated
        · rw [runFrom_of_skipped h happlies hcounts, runFrom_of_skipped h' happlies' hcounts]
          exact ih ..
        rcases agrees_act hopen closed extra t place command with hstop | hact'
        · rw [runFrom_of_act_error h happlies hcounts hstop]
          exact .inl rfl
        cases hact : act g place command t with
        | error stop =>
          rw [hact] at hact'
          rw [runFrom_of_act_error h happlies hcounts hact,
            runFrom_of_act_error h' happlies' hcounts hact']
          exact .inr rfl
        | ok result =>
          obtain ⟨onward, u⟩ := result
          rw [hact] at hact'
          rw [runFrom_of_act h happlies hcounts hact, runFrom_of_act h' happlies' hcounts hact']
          exact proceed_more hopen closed extra u (fun place s => ih s place) place onward

/-- **Further lines make no difference.** A script that stops before it runs out of lines does so in
the same way when further ones follow, which it leaves. -/
theorem run_append (lines : List (Text × Bool)) (h : (run g lines).1 ≠ .needsMore) :
    run { g with closed } (lines ++ extra) = ((run g lines).1, (run g lines).2.more extra) :=
  (nextLine_more hopen closed extra { lines }
    fun place s => runFrom_more hopen closed extra s _ place).resolve_left h

end Lines

/-! ## Lines of contents -/

theorem splitFrom_ne_nil (cut : Char → Bool) (piece s : Octets) :
    Octets.splitFrom cut piece s ≠ [] := by
  induction s generalizing piece with
  | nil => exact List.cons_ne_nil _ _
  | cons c s ih =>
    rw [Octets.splitFrom]
    split
    next => exact List.cons_ne_nil _ _
    next => exact ih _

/-- Pieces that are followed by a cut are there for good. -/
theorem dropLast_splitFrom_begins (cut : Char → Bool) (piece front back : Octets) :
    (Octets.splitFrom cut piece front).dropLast
      <+: (Octets.splitFrom cut piece (front ++ back)).dropLast := by
  induction front generalizing piece with
  | nil => exact List.nil_prefix
  | cons c front ih =>
    rw [List.cons_append, Octets.splitFrom, Octets.splitFrom]
    split
    next =>
      rw [List.dropLast_cons_of_ne_nil (splitFrom_ne_nil cut [] front),
        List.dropLast_cons_of_ne_nil (splitFrom_ne_nil cut [] (front ++ back))]
      exact List.cons_prefix_cons.mpr ⟨rfl, ih []⟩
    next => exact ih (c :: piece)

end SfcProxy.Tool.Sed

namespace SfcProxy.Tool.Utility

open Sed

theorem sedLines_false (separator : Char) (content : Octets) :
    sedLines separator false content
      = (content.split (· == separator)).dropLast.map fun piece => (piece.text, true) := by
  unfold sedLines
  dsimp only
  split <;> rfl

theorem sedLines_begins_true (separator : Char) (content : Octets) :
    sedLines separator false content <+: sedLines separator true content := by
  rw [sedLines_false]
  unfold sedLines
  dsimp only
  split
  next => exact List.prefix_refl _
  next => exact List.prefix_refl _
  next => exact List.prefix_append _ _

/-- The lines that are there while more may come stay what they are. -/
theorem sedLines_begins (separator : Char) (front back : Octets) :
    sedLines separator false front <+: sedLines separator true (front ++ back) := by
  refine List.IsPrefix.trans ?_ (sedLines_begins_true separator (front ++ back))
  rw [sedLines_false, sedLines_false]
  exact (dropLast_splitFrom_begins _ [] front back).map _

/-- A run comes to the same as another one, but for lines that are left. -/
structure Equals (x y : Stop × State) : Prop where
  stop : x.1 = y.1
  output : x.2.output = y.2.output
  written : x.2.written = y.2.written

/-- If a script stops before it needs more than the start of its input, it has printed and written
what it prints and writes for the whole. -/
theorem run_sedLines_append {g : Setting} (hopen : g.closed = false) (front back : Octets)
    (h : (run g (sedLines g.separator false front)).1 ≠ .needsMore) :
    Equals (run g (sedLines g.separator false front))
      (run { g with closed := true } (sedLines g.separator true (front ++ back))) := by
  obtain ⟨extra, hlines⟩ := sedLines_begins g.separator front back
  have hrun := run_append hopen true extra _ h
  rw [hlines] at hrun
  rw [hrun]
  exact ⟨rfl, rfl, rfl⟩

/-- A process from the pieces on that it reads of its input. -/
def feed : List (List UInt8) → Process → Process
  | bytes :: rest, .ask (.read 0 _) next => feed rest (next (.ok bytes))
  | _, process => process

section Feed

variable {g : Setting} {read : Octets} {budget : Nat} {next : Stop × State → Process}

theorem sedInput_of_stop (h : (run g (sedLines g.separator g.closed read)).1 ≠ .needsMore) :
    sedInput g read (budget + 1) next = next (run g (sedLines g.separator g.closed read)) := by
  rcases hrun : run g (sedLines g.separator g.closed read) with ⟨stop, s⟩
  rw [hrun] at h
  rw [sedInput, hrun]
  cases stop with
  | needsMore => exact absurd rfl h
  | ended status => rfl
  | fault message => rfl

theorem feed_sedInput_of_bytes (h : (run g (sedLines g.separator g.closed read)).1 = .needsMore)
    {bytes : List UInt8} (hbytes : bytes ≠ []) (rest : List (List UInt8)) :
    feed (bytes :: rest) (sedInput g read (budget + 1) next)
      = feed rest (sedInput g (read ++ Octets.ofBytes bytes) budget next) := by
  obtain ⟨b, bytes, rfl⟩ := List.exists_cons_of_ne_nil hbytes
  rcases hrun : run g (sedLines g.separator g.closed read) with ⟨stop, s⟩
  rw [hrun] at h
  obtain rfl : stop = .needsMore := h
  rw [sedInput]
  rw [hrun]
  rfl

theorem feed_sedInput_of_end (h : (run g (sedLines g.separator g.closed read)).1 = .needsMore)
    (rest : List (List UInt8)) :
    feed ([] :: rest) (sedInput g read (budget + 1) next)
      = feed rest (next (run { g with closed := true } (sedLines g.separator true read))) := by
  rcases hrun : run g (sedLines g.separator g.closed read) with ⟨stop, s⟩
  rw [hrun] at h
  obtain rfl : stop = .needsMore := h
  rw [sedInput]
  rw [hrun]
  rfl

/-- **Input in pieces.** However its input is cut into pieces, a script prints and writes what it
prints and writes for the whole; what it does not need is not read. -/
theorem sedInput_eq_whole (hopen : g.closed = false) (pieces : List (List UInt8))
    (hpieces : ∀ bytes ∈ pieces, bytes ≠ []) (read : Octets) (hbudget : pieces.length < budget) :
    ∃ n result, feed ((pieces ++ [[]]).take n) (sedInput g read budget next) = next result ∧
      Equals result (run { g with closed := true } (sedLines g.separator true
        (read ++ pieces.flatMap Octets.ofBytes))) := by
  induction pieces generalizing read budget with
  | nil =>
    obtain ⟨budget, rfl⟩ := Nat.exists_eq_add_one.mpr (Nat.zero_lt_of_lt hbudget)
    by_cases h : (run g (sedLines g.separator g.closed read)).1 = .needsMore
    · refine ⟨1, _, feed_sedInput_of_end h [], ?_⟩
      rw [List.flatMap_nil, List.append_nil]
      exact ⟨rfl, rfl, rfl⟩
    · refine ⟨0, _, sedInput_of_stop h, ?_⟩
      rw [hopen] at h ⊢
      exact run_sedLines_append hopen read _ h
  | cons bytes pieces ih =>
    obtain ⟨budget, rfl⟩ := Nat.exists_eq_add_one.mpr (Nat.zero_lt_of_lt hbudget)
    by_cases h : (run g (sedLines g.separator g.closed read)).1 = .needsMore
    · obtain ⟨n, result, hfeed, hequals⟩ := ih
        (fun bytes hbytes => hpieces bytes (List.mem_cons_of_mem _ hbytes))
        (read ++ Octets.ofBytes bytes) (Nat.lt_of_succ_lt_succ hbudget)
      refine ⟨n + 1, result, ?_, ?_⟩
      · rw [List.cons_append, List.take_succ_cons,
          feed_sedInput_of_bytes h (hpieces bytes List.mem_cons_self)]
        exact hfeed
      · rw [List.flatMap_cons, ← List.append_assoc]
        exact hequals
    · refine ⟨0, _, sedInput_of_stop h, ?_⟩
      rw [hopen] at h ⊢
      exact run_sedLines_append hopen read _ h

end Feed

end SfcProxy.Tool.Utility

import SfcProxy.Tool.Shell.Arithmetic

/-!
# What arithmetic of the shell yields

Whatever an expression is made of, its value and the values that it gives to variables are integers
of 64 bits. The parts of an expression that do not count, such as the branch of a choice that is not
taken, set no variable.

## Main definitions

* `IsWord`: an integer of 64 bits
* `Sound`: a step of evaluation whose values are integers of 64 bits

## Main results

* `sound_parts`: the steps for all parts of expressions are sound
* `isWord_evaluate`: the values of an expression
* `assigned_eq_of_dead`: what does not count sets nothing
-/

namespace SfcProxy.Tool.Arithmetic

/-! ## Integers -/

/-- An integer of 64 bits. -/
def IsWord (n : Int) : Prop :=
  -9223372036854775808 ≤ n ∧ n < 9223372036854775808

theorem isWord_wrap (n : Int) : IsWord (wrap n) := by
  have hle := Int.le_bmod (x := n) (m := 18446744073709551616) (by decide)
  have hlt := Int.bmod_lt (x := n) (m := 18446744073709551616) (by decide)
  exact ⟨hle, hlt⟩

theorem isWord_truth (b : Bool) : IsWord (truth b) := by
  cases b with
  | false => exact ⟨by decide, by decide⟩
  | true => exact ⟨by decide, by decide⟩

theorem isWord_zero : IsWord 0 :=
  isWord_truth false

theorem isWord_complement {n : Int} (h : IsWord n) : IsWord (-n - 1) := by
  obtain ⟨hle, hlt⟩ := h
  exact ⟨by omega, by omega⟩

/-- An operator yields an integer of 64 bits if its second operand is one. -/
theorem isWord_apply {operator : String} {a b n : Int} (hb : IsWord b)
    (h : apply operator a b = .ok n) : IsWord n := by
  unfold apply at h
  split at h
  case h_15 | h_16 =>
    split at h
    next => cases h
    next => exact Except.ok.inj h ▸ isWord_wrap _
  case h_17 => exact Except.ok.inj h ▸ hb
  case h_1 | h_2 | h_3 | h_10 | h_11 | h_12 | h_13 | h_14 =>
    exact Except.ok.inj h ▸ isWord_wrap _
  case h_4 | h_5 | h_6 | h_7 | h_8 | h_9 => exact Except.ok.inj h ▸ isWord_truth _

/-! ## Steps -/

/-- All variables have been set to integers of 64 bits. -/
def Words (assigned : List (Octets × Int)) : Prop :=
  ∀ v ∈ assigned, IsWord v.2

theorem isWord_of_lookup {assigned : List (Octets × Int)} (words : Words assigned) {name : Octets}
    {n : Int} (h : assigned.lookup name = some n) : IsWord n := by
  induction assigned with
  | nil => cases h
  | cons v assigned ih =>
    rw [List.lookup_cons] at h
    split at h
    next =>
      cases h
      exact words v List.mem_cons_self
    next => exact ih (fun w hw => words w (List.mem_cons_of_mem v hw)) h

/-- A step that only goes on in the expression. -/
def Reads {α : Type} (step : Step α) : Prop :=
  ∀ s a s', step s = .ok (a, s') → s'.assigned = s.assigned

theorem reads_rest : Reads rest := by
  intro s a s' h
  cases h
  rfl

theorem reads_skip (n : Nat) : Reads (skip n) := by
  intro s a s' h
  cases h
  rfl

theorem reads_operator? : Reads operator? := by
  intro s a s' h
  cases h
  rfl

/-- What a step does where `assigned` holds the variables set so far: its value has a property, all
variables stay integers of 64 bits, and none is set where nothing counts. -/
def Keeps {α : Type} (live : Bool) (assigned : List (Octets × Int)) (P : α → Prop)
    (step : Step α) : Prop :=
  ∀ s a s', s.assigned = assigned → step s = .ok (a, s') →
    P a ∧ Words s'.assigned ∧ (live = false → s'.assigned = assigned)

/-- A step whose values are integers of 64 bits wherever it is taken. -/
def Sound {α : Type} (live : Bool) (P : α → Prop) (step : Step α) : Prop :=
  ∀ assigned, Words assigned → Keeps live assigned P step

section Steps

variable {α β : Type} {live live' : Bool} {assigned : List (Octets × Int)} {P : α → Prop}
  {Q : β → Prop}

theorem bind_eq_ok {step : Step β} {next : β → Step α} {s s' : State} {a : α}
    (h : (step >>= next) s = .ok (a, s')) :
    ∃ b t, step s = .ok (b, t) ∧ next b t = .ok (a, s') := by
  simp only [bind, StateT.bind, Except.bind] at h
  split at h
  next => cases h
  next result hstep => exact ⟨result.1, result.2, hstep, h⟩

theorem Keeps.reads {step : Step β} {next : β → Step α} (hstep : Reads step)
    (h : ∀ b, Keeps live assigned P (next b)) : Keeps live assigned P (step >>= next) := by
  intro s a s' hs heq
  obtain ⟨b, t, hfirst, hnext⟩ := bind_eq_ok heq
  exact h b t a s' ((hstep s b t hfirst).trans hs) hnext

theorem Keeps.get {next : State → Step α}
    (h : ∀ s : State, s.assigned = assigned → Keeps live assigned P (next s)) :
    Keeps live assigned P (MonadState.get >>= next) := by
  intro s a s' hs heq
  exact h s hs s a s' hs heq

theorem Keeps.set {start : State} (hstart : start.assigned = assigned) {next : PUnit → Step α}
    (h : Keeps live assigned P (next ⟨⟩)) :
    Keeps live assigned P (MonadStateOf.set start >>= next) := by
  intro s a s' hs heq
  exact h start a s' hstart heq

theorem Keeps.ite {c : Prop} [Decidable c] {step step' : Step α}
    (h : Keeps live assigned P step) (h' : Keeps live assigned P step') :
    Keeps live assigned P (if c then step else step') := by
  split
  next => exact h
  next => exact h'

theorem Sound.pure {a : α} (h : P a) : Sound live P (Pure.pure a) := by
  intro assigned words s b s' hs heq
  cases heq
  exact ⟨h, hs ▸ words, fun _ => hs⟩

theorem Sound.throw {fault : Fault} : Sound live P (MonadExcept.throw fault : Step α) := by
  intro assigned words s b s' hs heq
  cases heq

theorem Sound.bind {step : Step β} {next : β → Step α} (hstep : Sound live Q step)
    (h : ∀ b, Q b → Sound live P (next b)) : Sound live P (step >>= next) := by
  intro assigned words s a s' hs heq
  obtain ⟨b, t, hfirst, hnext⟩ := bind_eq_ok heq
  obtain ⟨hb, hwords, hsame⟩ := hstep assigned words s b t hs hfirst
  obtain ⟨ha, hwords', hsame'⟩ := h b hb t.assigned hwords t a s' rfl hnext
  exact ⟨ha, hwords', fun hdead => (hsame' hdead).trans (hsame hdead)⟩

theorem Keeps.ite_bind {c : Prop} [Decidable c] {step step' : Step β} {next : β → Step α}
    (words : Words assigned) (hstep : Sound live Q step) (hstep' : Sound live Q step')
    (h : ∀ b, Q b → Sound live P (next b)) :
    Keeps live assigned P (if c then step >>= next else step' >>= next) :=
  .ite (Sound.bind hstep h assigned words) (Sound.bind hstep' h assigned words)

theorem Sound.reads {step : Step β} {next : β → Step α} (hstep : Reads step)
    (h : ∀ b, Sound live P (next b)) : Sound live P (step >>= next) :=
  fun assigned words => .reads hstep fun b => h b assigned words

/-- A part may count less than the whole. -/
theorem Sound.within {step : Step α} (h : Sound live' P step)
    (hlive : live = false → live' = false) : Sound live P step := by
  intro assigned words s a s' hs heq
  obtain ⟨ha, hwords, hsame⟩ := h assigned words s a s' hs heq
  exact ⟨ha, hwords, fun hdead => hsame (hlive hdead)⟩

end Steps

/-! ## Parts of expressions -/

theorem sound_valueOf (lookup : Octets → Option Octets) (live : Bool) (name : Octets) :
    Sound live IsWord (valueOf lookup name) := by
  intro assigned words
  refine .get ?_
  intro s hs
  subst hs
  split
  next n hn => exact Sound.pure (isWord_of_lookup words hn) _ words
  next =>
    split
    next => exact Sound.pure isWord_zero _ words
    next => exact Sound.pure isWord_zero _ words
    next =>
      dsimp only
      split
      next => exact Sound.bind (Q := fun _ => True) .throw (fun _ _ => .pure (isWord_wrap _)) _ words
      next => exact Sound.pure (isWord_wrap _) _ words

/-- Setting a variable, if that counts. -/
theorem sound_assign {live : Bool} {name : Octets} {n : Int} (hn : IsWord n) :
    Sound live IsWord (do
      if live then modify fun s : State => { s with assigned := (name, n) :: s.assigned }
      return n) := by
  intro assigned words s a s' hs heq
  cases live with
  | false =>
    cases heq
    exact ⟨hn, hs ▸ words, fun _ => hs⟩
  | true =>
    cases heq
    refine ⟨hn, ?_, Bool.noConfusion⟩
    intro v hv
    rcases List.mem_cons.mp hv with rfl | hv
    · exact hn
    · exact words v (hs ▸ hv)

/-- The steps for all parts of expressions within a budget are sound. -/
structure Parts (lookup : Octets → Option Octets) (budget : Nat) : Prop where
  choice : ∀ live, Sound live IsWord (choice lookup budget live)
  binary : ∀ live levels, Sound live IsWord (binary lookup budget live levels)
  further : ∀ live level more first, IsWord first →
    Sound live IsWord (further lookup budget live level more first)
  unary : ∀ live, Sound live IsWord (unary lookup budget live)
  assignment : ∀ live, Sound live IsWord (assignment lookup budget live)

variable {lookup : Octets → Option Octets} {budget : Nat}

theorem Parts.choice_succ (parts : Parts lookup budget) (live : Bool) :
    Sound live IsWord (Arithmetic.choice lookup (budget + 1) live) := by
  rw [Arithmetic.choice]
  refine .bind (parts.binary live levels) fun test htest => ?_
  refine .reads reads_operator? fun sign => ?_
  split
  next =>
    refine .reads (reads_skip 1) fun _ => ?_
    have hlive : ∀ b : Bool, live = false → (live && b) = false := by
      rintro b rfl
      rfl
    refine .bind ((parts.assignment _).within (hlive _)) fun first hfirst => ?_
    have hsecond : Sound live IsWord (do
        skip 1
        let second ← Arithmetic.choice lookup budget (live && decide (test = 0))
        return if test ≠ 0 then first else second) := by
      refine .reads (reads_skip 1) fun _ => ?_
      refine .bind ((parts.choice _).within (hlive _)) fun second hsecond => .pure ?_
      split
      next => exact hfirst
      next => exact hsecond
    refine .reads reads_operator? fun sign => ?_
    dsimp only
    split
    next => exact .bind (Q := fun _ => True) .throw fun _ _ => hsecond
    next => exact hsecond
  next => exact .pure htest

theorem Parts.binary_succ (parts : Parts lookup budget) (live : Bool)
    (levels : List (List String)) :
    Sound live IsWord (Arithmetic.binary lookup (budget + 1) live levels) := by
  cases levels with
  | nil =>
    rw [Arithmetic.binary]
    exact parts.unary live
  | cons level more =>
    rw [Arithmetic.binary]
    exact .bind (parts.binary live more) fun first hfirst =>
      parts.further live level more first hfirst

theorem Parts.further_succ (parts : Parts lookup budget) (live : Bool) (level : List String)
    (more : List (List String)) {first : Int} (hfirst : IsWord first) :
    Sound live IsWord (Arithmetic.further lookup (budget + 1) live level more first) := by
  rw [Arithmetic.further]
  have hlive : ∀ b : Bool, live = false → (live && b) = false := by
    rintro b rfl
    rfl
  have hmore : ∀ n, IsWord n →
      Sound live IsWord (Arithmetic.further lookup budget live level more n) :=
    fun n hn => parts.further live level more n hn
  refine .reads reads_operator? fun sign => ?_
  split
  next => exact .pure hfirst
  next op =>
    split
    next => exact .pure hfirst
    next =>
      refine .reads (reads_skip _) fun _ => ?_
      split
      next =>
        exact .bind ((parts.binary _ more).within (hlive _)) fun second _ =>
          hmore _ (isWord_truth _)
      next =>
        split
        next =>
          exact .bind ((parts.binary _ more).within (hlive _)) fun second _ =>
            hmore _ (isWord_truth _)
        next =>
          refine .bind (parts.binary live more) fun second hsecond => ?_
          dsimp only
          split
          next n hn => exact .bind (.pure (isWord_apply hsecond hn)) hmore
          next =>
            split
            next => exact .bind .throw hmore
            next => exact .bind (.pure isWord_zero) hmore

theorem Parts.unary_succ (parts : Parts lookup budget) (live : Bool) :
    Sound live IsWord (Arithmetic.unary lookup (budget + 1) live) := by
  rw [Arithmetic.unary]
  refine .reads reads_operator? fun sign => ?_
  split
  next =>
    refine .reads (reads_skip 1) fun _ => ?_
    exact .bind (parts.unary live) fun n _ => .pure (isWord_wrap _)
  next => exact .reads (reads_skip 1) fun _ => parts.unary live
  next =>
    refine .reads (reads_skip 1) fun _ => ?_
    exact .bind (parts.unary live) fun n _ => .pure (isWord_truth _)
  next =>
    refine .reads (reads_skip 1) fun _ => ?_
    exact .bind (parts.unary live) fun n hn => .pure (isWord_complement hn)
  next =>
    refine .reads (reads_skip 1) fun _ => ?_
    refine .bind (parts.assignment live) fun value hvalue => ?_
    have hclose : Sound live IsWord (do skip 1; return value) :=
      .reads (reads_skip 1) fun _ => .pure hvalue
    refine .reads reads_operator? fun sign => ?_
    dsimp only
    split
    next => exact .bind (Q := fun _ => True) .throw fun _ _ => hclose
    next => exact hclose
  next => exact .throw
  next =>
    refine .reads reads_rest fun cs => ?_
    split
    next =>
      split
      next => exact .reads (reads_skip _) fun _ => .pure (isWord_wrap _)
      next =>
        split
        next =>
          refine .reads (reads_skip _) fun _ => ?_
          split
          next => exact sound_valueOf lookup live _
          next => exact .pure isWord_zero
        next => exact .throw
    next => exact .throw

theorem Parts.assignment_succ (parts : Parts lookup budget) (live : Bool) :
    Sound live IsWord (Arithmetic.assignment lookup (budget + 1) live) := by
  rw [Arithmetic.assignment]
  intro assigned words
  refine .get fun start hstart => ?_
  refine .reads reads_rest fun cs => ?_
  dsimp only
  -- Until it is clear that something is set the expression has only been read.
  have hback : Keeps live assigned IsWord (do
      set start
      Arithmetic.choice lookup budget live) :=
    .set hstart (parts.choice live assigned words)
  split
  next =>
    refine .reads (reads_skip _) fun _ => ?_
    refine .reads reads_operator? fun sign => ?_
    rw [pure_bind]
    split
    next =>
      refine .reads (reads_skip 1) fun _ => ?_
      exact Sound.bind (parts.assignment live) (fun n hn => sound_assign hn) assigned words
    next op _ =>
      split
      next =>
        refine .reads (reads_skip _) fun _ => ?_
        refine Keeps.ite_bind words (sound_valueOf lookup live _) (.pure isWord_zero) fun old _ => ?_
        refine .bind (parts.assignment live) fun change hchange => ?_
        split
        next n hn => exact sound_assign (isWord_apply hchange hn)
        next =>
          split
          next => exact .throw
          next => exact .pure isWord_zero
      next => exact hback
    next => exact hback
  next =>
    rw [pure_bind]
    exact hback

/-- The steps for all parts of expressions are sound. The induction is on the budget, which all of
them spend. -/
theorem sound_parts (lookup : Octets → Option Octets) (budget : Nat) : Parts lookup budget := by
  induction budget with
  | zero =>
    refine ⟨?_, ?_, ?_, ?_, ?_⟩
    · intro live
      exact .throw
    · intro live levels
      exact .throw
    · intro live level more first _
      exact .throw
    · intro live
      exact .throw
    · intro live
      exact .throw
  | succ budget parts =>
    exact ⟨parts.choice_succ, parts.binary_succ, fun live level more _ hfirst =>
      parts.further_succ live level more hfirst, parts.unary_succ, parts.assignment_succ⟩

/-! ## Expressions -/

/-- **Integers of 64 bits.** The value of an expression is one, and so is every value that it gives
to a variable. -/
theorem isWord_evaluate {lookup : Octets → Option Octets} {expression : Octets} {n : Int}
    {assigned : List (Octets × Int)} (h : evaluate lookup expression = .ok (n, assigned)) :
    IsWord n ∧ ∀ v ∈ assigned, IsWord v.2 := by
  unfold evaluate at h
  dsimp only at h
  split at h
  next =>
    cases h
    exact ⟨isWord_zero, by simp⟩
  next =>
    cases hrun : assignment lookup (30 * expression.length + 100) true ⟨expression, []⟩ with
    | error fault =>
      rw [hrun] at h
      cases h
    | ok result =>
      obtain ⟨value, s⟩ := result
      obtain ⟨hvalue, hwords, -⟩ :=
        (sound_parts lookup _).assignment true [] (by simp [Words]) _ _ _ rfl hrun
      rw [hrun] at h
      simp only [bind, Except.bind] at h
      split at h
      next => cases h
      next =>
        cases h
        exact ⟨hvalue, fun v hv => hwords v (List.mem_reverse.mp hv)⟩

/-- What does not count sets nothing. -/
theorem assigned_eq_of_dead {lookup : Octets → Option Octets} {budget : Nat} {s s' : State}
    {n : Int} (words : Words s.assigned) (h : assignment lookup budget false s = .ok (n, s')) :
    s'.assigned = s.assigned :=
  ((sound_parts lookup budget).assignment false s.assigned words s n s' rfl h).2.2 rfl

end SfcProxy.Tool.Arithmetic

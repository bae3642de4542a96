import SfcProxy.Proofs.Tool.Numbered
import SfcProxy.Tool.Machine

/-!
# What processes do to the machine

Processes share a machine, and each of them asks for what it likes. Whatever they ask for, what has
been written to the output and the errors of the machine stays, the clock stands still, and a
process that has ended does not come back: its number is not given to another one.

## Main definitions

* `Machine.Fate`: what has become of a process
* `Machine.Works`: all that processes can do to the machine as a whole

## Main results

* `works_step`: what one step of a process does
* `works_settle`: what processes do that work as far as they can
-/

namespace SfcProxy.Tool

namespace Machine

/-! ## Fates -/

/-- What has become of a process. -/
inductive Fate where
  /-- There is no process with the number, or its ending has been taken notice of. -/
  | absent
  | running
  | ended (ending : Ending)
  deriving DecidableEq

/-- What can become of a process: it ends once, in one way, and then goes away. -/
inductive Fate.Leads : Fate → Fate → Prop where
  | running (f : Fate) : Leads .running f
  | ended (ending : Ending) : Leads (.ended ending) (.ended ending)
  | awaited (ending : Ending) : Leads (.ended ending) .absent
  | absent : Leads .absent .absent

namespace Fate.Leads

theorem refl : (f : Fate) → Leads f f
  | .absent => .absent
  | .running => .running _
  | .ended ending => .ended ending

theorem trans {f g h : Fate} (hg : Leads f g) (hh : Leads g h) : Leads f h := by
  cases hg with
  | running => exact .running h
  | ended => exact hh
  | awaited ending => cases hh; exact .awaited ending
  | absent => exact hh

theorem ne_running {f g : Fate} (hg : Leads f g) (hf : f ≠ .running) : g ≠ .running := by
  cases hg with
  | running => exact absurd rfl hf
  | ended => exact Fate.noConfusion
  | awaited => exact Fate.noConfusion
  | absent => exact Fate.noConfusion

end Fate.Leads

/-- What has become of a process that may be on the machine. -/
def Fate.of? : Option Member → Fate
  | none => .absent
  | some p =>
    match p.ending with
    | none => .running
    | some ending => .ended ending

/-- What has become of the process with a number. -/
def fate (m : Machine) (pid : Nat) : Fate :=
  .of? (m.members.get? pid)

variable {m m' m'' : Machine} {pid : Nat} {p q : Member}

theorem fate_of_get? (h : m.members.get? pid = some p) : m.fate pid = .of? (some p) := by
  rw [fate, h]

theorem fate_eq_running_iff :
    m.fate pid = .running ↔ ∃ p, m.members.get? pid = some p ∧ p.ending = none := by
  unfold fate Fate.of?
  cases m.members.get? pid with
  | none => simp
  | some p => cases he : p.ending <;> simp [he]

/-! ## Working -/

/-- All that can happen to the machine as a whole while time passes. -/
structure Passes (m m' : Machine) : Prop where
  output : m.output <+: m'.output
  errors : m.errors <+: m'.errors
  fresh : m.fresh ≤ m'.fresh
  fate : ∀ pid < m.fresh, (m.fate pid).Leads (m'.fate pid)

/-- All that processes can do to the machine as a whole. -/
structure Works (m m' : Machine) : Prop extends Passes m m' where
  now : m'.now = m.now

namespace Passes

theorem refl (m : Machine) : m.Passes m where
  output := List.prefix_refl _
  errors := List.prefix_refl _
  fresh := Nat.le_refl _
  fate _ _ := .refl _

theorem trans (h : m.Passes m') (h' : m'.Passes m'') : m.Passes m'' where
  output := h.output.trans h'.output
  errors := h.errors.trans h'.errors
  fresh := Nat.le_trans h.fresh h'.fresh
  fate pid hp := (h.fate pid hp).trans (h'.fate pid (Nat.lt_of_lt_of_le hp h.fresh))

/-- Processes are left alone. -/
theorem ofMembers (members : m'.members = m.members) (output : m.output <+: m'.output)
    (errors : m.errors <+: m'.errors) (fresh : m.fresh ≤ m'.fresh) : m.Passes m' where
  output
  errors
  fresh
  fate pid _ := by
    rw [Machine.fate, Machine.fate, members]
    exact .refl _

end Passes

namespace Works

theorem refl (m : Machine) : m.Works m :=
  ⟨.refl m, rfl⟩

theorem trans (h : m.Works m') (h' : m'.Works m'') : m.Works m'' :=
  ⟨h.toPasses.trans h'.toPasses, h'.now.trans h.now⟩

/-- Something changes that nobody outside can tell. -/
theorem inside (members : m'.members = m.members := by rfl) (output : m'.output = m.output := by rfl)
    (errors : m'.errors = m.errors := by rfl) (fresh : m'.fresh = m.fresh := by rfl)
    (now : m'.now = m.now := by rfl) : m.Works m' :=
  ⟨.ofMembers members (output ▸ List.prefix_refl _) (errors ▸ List.prefix_refl _)
    (Nat.le_of_eq fresh.symm), now⟩

end Works

theorem works_setMember (found : m.members.get? pid = some p)
    (leads : (Fate.of? (some p)).Leads (.of? (some q))) : m.Works (m.setMember pid q) where
  output := List.prefix_refl _
  errors := List.prefix_refl _
  now := rfl
  fresh := Nat.le_refl _
  fate other _ := by
    by_cases h : other = pid
    · subst h
      rw [fate_of_get? found, fate_of_get? (Numbered.get?_put_self m.members)]
      exact leads
    · have hother : (m.setMember pid q).members.get? other = m.members.get? other :=
        Numbered.get?_put_of_ne h m.members
      rw [fate, fate, hother]
      exact .refl _

/-- A process goes on that has not ended, or stays as it ended. -/
theorem works_setMember_of_ending (found : m.members.get? pid = some p)
    (ending : q.ending = p.ending) : m.Works (m.setMember pid q) := by
  have hsame : Fate.of? (some q) = .of? (some p) := by simp only [Fate.of?, ending]
  exact works_setMember found (hsame ▸ .refl _)

theorem works_sweep (m : Machine) : m.Works m.sweep :=
  .inside

/-- A process rearranges its streams, and channels nobody holds any more are given up. -/
theorem works_rearrange (found : m.members.get? pid = some p) (streams : Numbered Nat) :
    m.Works (m.setMember pid { p with streams }).sweep := by
  have rearranged : m.Works (m.setMember pid { p with streams }) :=
    works_setMember_of_ending found rfl
  exact rearranged.trans (works_sweep _)

theorem works_addStream (found : m.members.get? pid = some p) (channel : Channel) :
    m.Works (m.addStream pid p channel).2.1 := by
  have opened : m.Works { m with
      channels := m.channels ++ [(m.fresh, channel)], fresh := m.fresh + 1 } :=
    ⟨.ofMembers rfl (List.prefix_refl _) (List.prefix_refl _) (Nat.le_succ _), rfl⟩
  exact opened.trans (works_setMember_of_ending found rfl)

theorem get?_addStream (m : Machine) (pid : Nat) (p : Member) (channel : Channel) :
    (m.addStream pid p channel).2.1.members.get? pid = some (m.addStream pid p channel).2.2 :=
  Numbered.get?_put_self m.members

/-! ## Signals -/

theorem works_finish (alive : m.fate pid = .running) (ending : Ending) :
    m.Works (m.finish pid ending) := by
  obtain ⟨p, found, hp⟩ := fate_eq_running_iff.mp alive
  have hrunning : Fate.of? (some p) = .running := by simp only [Fate.of?, hp]
  simp only [finish, found]
  exact (works_setMember found (hrunning ▸ .running _)).trans (works_sweep _)

theorem works_deliver (m : Machine) (target signal : Nat) : m.Works (m.deliver target signal) := by
  unfold deliver
  split
  next => exact .refl m
  next p found =>
    split
    next => exact .refl m
    next h =>
      have alive : m.fate target = .running := by
        refine fate_eq_running_iff.mpr ⟨p, found, ?_⟩
        simp only [Bool.or_eq_true, not_or] at h
        exact Option.not_isSome_iff_eq_none.mp h.1
      split
      next => exact .refl m
      next => exact works_setMember_of_ending found rfl
      next =>
        split
        next => exact works_finish alive _
        next => exact .refl m
        next => exact .refl m

/-! ## Requests -/

/-- The machine has only worked when a request is met, or has to wait. -/
def Response.Works (m : Machine) {request : Request} : Response request → Prop
  | .reply m' _ => m.Works m'
  | .wait m' => m.Works m'
  | .die _ => True

theorem works_read (m : Machine) (p : Member) (stream most : Nat) :
    (m.read p stream most).Works m := by
  unfold read
  split
  next => exact .refl m
  next =>
    split
    next =>
      split
      next =>
        split
        next => exact .refl m
        next => exact .refl m
      next => exact .inside
    next => exact .inside
    next =>
      dsimp only
      split
      next => exact .inside
      next => exact .refl m
    all_goals exact .refl m

theorem works_setFileBytes (m : Machine) (location : Location) (bytes : List UInt8) :
    m.Works (m.setFileBytes location bytes) := by
  unfold setFileBytes
  split
  next => exact .inside
  next => exact .refl m

theorem works_write (m : Machine) (p : Member) (stream : Nat) (bytes : List UInt8) :
    (m.write p stream bytes).Works m := by
  unfold write
  split
  next => exact .refl m
  next =>
    split
    next => exact ⟨.ofMembers rfl (List.prefix_append _ _) (List.prefix_refl _) (Nat.le_refl _), rfl⟩
    next => exact ⟨.ofMembers rfl (List.prefix_refl _) (List.prefix_append _ _) (Nat.le_refl _), rfl⟩
    next =>
      split
      next =>
        split
        next => exact .refl m
        next => trivial
      next =>
        dsimp only
        split
        next => exact .refl m
        next => exact .inside
    next =>
      split
      next => exact .refl m
      next => exact (works_setFileBytes m _ _).trans .inside
    all_goals exact .refl m

theorem works_openStream (found : m.members.get? pid = some p) (name : Octets) (mode : OpenMode) :
    (m.openStream pid p name mode).Works m := by
  unfold openStream
  split
  next =>
    split
    next => exact .refl m
    next => exact works_setMember_of_ending found rfl
  next =>
    split
    next => exact .refl m
    next channel files _ =>
      have changed : m.Works { m with files := { files with cwd := m.files.cwd } } := .inside
      have same : Numbered.get? pid { m with files := { files with cwd := m.files.cwd } }.members
          = some p := found
      exact changed.trans (works_addStream same channel)

/-- Whoever learns how a child ended takes it off the machine. -/
theorem works_await (m : Machine) (p : Member) (child : Nat) (interruptible : Bool) :
    (m.await p child interruptible).Works m := by
  unfold await
  split
  next => exact .refl m
  next c found =>
    split
    next ending hending =>
      refine ⟨⟨List.prefix_refl _, List.prefix_refl _, Nat.le_refl _, ?_⟩, rfl⟩
      intro other _
      by_cases h : other = child
      · subst h
        have hended : m.fate other = .ended ending := by
          simp only [fate_of_get? found, Fate.of?, hending]
        have habsent : Machine.fate { m with members := m.members.erase other } other = .absent := by
          simp only [fate, Numbered.get?_erase_self, Fate.of?]
        rw [hended, habsent]
        exact .awaited ending
      · have hother : Machine.fate { m with members := m.members.erase child } other
            = m.fate other := by
          simp only [fate, Numbered.get?_erase_of_ne h]
        rw [hother]
        exact .refl _
    next =>
      split
      next => exact .refl m
      next => exact .refl m

theorem works_serve (found : m.members.get? pid = some p) (request : Request) :
    (m.serve pid p request).Works m := by
  cases request with
  | read stream most => exact works_read m p stream most
  | write stream bytes => exact works_write m p stream bytes
  | openFile name mode => exact works_openStream found name mode
  | source bytes => exact works_addStream found _
  | pipe =>
    have opened : m.Works { m with pipes := m.pipes.put m.fresh [], fresh := m.fresh + 1 } :=
      ⟨.ofMembers rfl (List.prefix_refl _) (List.prefix_refl _) (Nat.le_succ _), rfl⟩
    have same : Numbered.get? pid
        { m with pipes := m.pipes.put m.fresh [], fresh := m.fresh + 1 }.members = some p := found
    exact (opened.trans (works_addStream same _)).trans
      (works_addStream (get?_addStream _ pid p _) _)
  | duplicate stream target =>
    simp only [serve]
    split
    next => exact .refl m
    next => exact works_rearrange found _
  | close stream => exact works_rearrange found _
  | kind stream => exact .refl m
  | files => exact .refl m
  | change f =>
    simp only [serve]
    split
    next => exact .refl m
    next => exact .inside
  | enter name =>
    simp only [serve]
    split
    next => exact .refl m
    next => exact .refl m
    next => exact works_setMember_of_ending found rfl
  | sleep duration =>
    simp only [serve]
    split
    next => exact works_setMember_of_ending found rfl
    next =>
      split
      next => exact works_setMember_of_ending found rfl
      next => exact .refl m
  | wait child interruptible => exact works_await m p child interruptible
  | handle signal handling => exact works_setMember_of_ending found rfl
  | caught => exact works_setMember_of_ending found rfl
  | signal target signal =>
    simp only [serve]
    split
    next => exact works_deliver m target signal
    next => exact .refl m
  | self => exact .refl m

/-! ## Turns -/

theorem works_setProcess (m : Machine) (pid : Nat) (process : Process) :
    m.Works (m.setProcess pid process) := by
  unfold setProcess
  split
  next => exact .refl m
  next p found => exact works_setMember_of_ending found rfl

/-- A child gets a number that no process has had. -/
theorem works_fork (m : Machine) (child : Member) :
    m.Works { m with members := m.members ++ [(m.fresh, child)], fresh := m.fresh + 1 } where
  output := List.prefix_refl _
  errors := List.prefix_refl _
  now := rfl
  fresh := Nat.le_succ _
  fate pid hpid := by
    have hsame : Numbered.get? pid (m.members ++ [(m.fresh, child)]) = m.members.get? pid := by
      rw [Numbered.get?_append, Numbered.get?_cons, if_neg (Nat.ne_of_lt hpid)]
      exact Option.or_none
    simp only [fate, hsame]
    exact .refl _

theorem works_step (m : Machine) (pid : Nat) : m.Works (m.step pid).1 := by
  unfold step
  split
  next => exact .refl m
  next p found =>
    split
    next => exact .refl m
    next h =>
      have alive : m.fate pid = .running :=
        fate_eq_running_iff.mpr ⟨p, found, Option.not_isSome_iff_eq_none.mp h⟩
      split
      next => exact works_finish alive _
      next => exact (works_fork m _).trans (works_setProcess _ _ _)
      next request next _ =>
        have served := works_serve found request
        generalize m.serve pid p request = response at served
        cases response with
        | reply m' value => exact Works.trans served (works_setProcess m' _ _)
        | wait m' => exact served
        | die signal => exact works_finish alive _

theorem works_foldl {α : Type} {turn : Machine × Bool → α → Machine × Bool}
    (h : ∀ (state : Machine × Bool) a, state.1.Works (turn state a).1) (turns : List α) (state : Machine × Bool) :
    state.1.Works (turns.foldl turn state).1 := by
  induction turns generalizing state with
  | nil => exact .refl state.1
  | cons a rest ih => exact (h state a).trans (ih _)

theorem works_round (m : Machine) : m.Works m.round.1 := by
  refine works_foldl ?_ m.members (m, false)
  intro state e
  exact works_step state.1 e.1

theorem works_settleFrom (m : Machine) (budget : Nat) : m.Works (m.settleFrom budget) := by
  induction budget generalizing m with
  | zero => exact .refl m
  | succ budget ih =>
    have turned := works_round m
    cases hr : m.round with
    | mk m' moved =>
      rw [hr] at turned
      cases moved with
      | false => simpa only [settleFrom, hr] using turned
      | true => simpa only [settleFrom, hr] using turned.trans (ih m')

/-- However long processes work, what was written stays and who has ended does not come back. -/
theorem works_settle (m : Machine) : m.Works m.settle :=
  works_settleFrom m patience

end Machine

end SfcProxy.Tool

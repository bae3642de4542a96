import SfcProxy.Proofs.Header
import SfcProxy.Pump

/-!
# What a pump delivers

A pump on a stream of frames takes their bodies through its transform one after the other, each
once, and writes a frame for each result. What stands behind the last whole frame, be it nothing, a
frame that breaks off or a line that is no header, ends the pump and leaves no trace in its output.

At no time is part of a frame written: whatever part of the stream has come in, the output is a
sequence of whole frames, those of the first results.

## Main definitions

* `Transform.ofState`: a transform that never fails, as an action on its state
* `Trailing`: what may stand behind the last whole frame, and how the pump stops there
* `Delivered`: bodies have gone through the transform, in order

## Main results

* `Pump.runFrom_write_append`: a pump moves the first frame of its stream
* `Pump.runFrom_front`: what is written while a stream comes in
* `Pump.run_delivers`: a stream of frames is delivered
* `Pump.run_ends`: how a pump ends on any stream
* `Pump.run_append`: a stream may come in pieces
* `Pump.exists_output_eq`: whatever the transform does, only whole frames are written
-/

namespace SfcProxy.Pump

variable {σ ε : Type}

/-- A transform that never fails, given as an action on its state. -/
def Transform.ofState (t : List UInt8 → StateM σ (List UInt8)) : Transform σ ε := fun body state =>
  (((t body).run state).2, .ok ((t body).run state).1)

/-- What stands behind the last whole frame of a closed stream, and how a pump stops there. -/
inductive Trailing : List UInt8 → Stop ε → Prop
  /-- The stream is at its end, perhaps in the middle of a frame. -/
  | ended {tail : List UInt8} (read : Frame.read true tail = .ended) : Trailing tail .ended
  /-- The stream breaks the framing rules. -/
  | breached {tail : List UInt8} {e : Frame.Error} (read : Frame.read true tail = .failed e)
      (breach : e.isBreach = true) : Trailing tail (.breached e)

theorem Trailing.not_message {tail : List UInt8} {stop : Stop ε} (h : Trailing tail stop)
    (body rest : List UInt8) : Frame.read true tail ≠ .message body rest := by
  cases h with
  | ended read => simp [read]
  | breached read breach => simp [read]

/-- A pump has taken bodies through its transform, each once and in order, has written a frame for
each result, and has stopped. -/
structure Delivered (t : List UInt8 → StateM σ (List UInt8)) (bodies : List (List UInt8))
    (stop : Stop ε) (state : σ) (outcome : Outcome σ ε) : Prop where
  state_eq : outcome.state = ((bodies.mapM t).run state).2
  output_eq : outcome.output = ((((bodies.mapM t).run state).1).map Frame.write).flatten
  stop_eq : outcome.stop = some stop

theorem mapM_cons_run (t : List UInt8 → StateM σ (List UInt8)) (body : List UInt8)
    (bodies : List (List UInt8)) (state : σ) : ((body :: bodies).mapM t).run state
      = (((t body).run state).1 :: ((bodies.mapM t).run ((t body).run state).2).1,
        ((bodies.mapM t).run ((t body).run state).2).2) := by
  rw [List.mapM_cons]
  rfl

/-- A pump moves the first frame of its stream. -/
theorem runFrom_write_append (closed : Bool) (t : List UInt8 → StateM σ (List UInt8))
    {body : List UInt8} (h : Frame.Framable body) (budget : Nat) (rest : List UInt8) (state : σ) :
    runFrom closed (.ofState t : Transform σ ε) (budget + 1) (Frame.write body ++ rest) state =
      { runFrom closed (.ofState t : Transform σ ε) budget rest ((t body).run state).2 with
        output := Frame.write ((t body).run state).1
          ++ (runFrom closed (.ofState t : Transform σ ε) budget rest
            ((t body).run state).2).output } := by
  rw [runFrom, Frame.read_write_append closed h]
  rfl

theorem runFrom_trailing {tail : List UInt8} {stop : Stop ε} (h : Trailing tail stop)
    (transform : Transform σ ε) (budget : Nat) (state : σ) :
    (runFrom true transform (budget + 1) tail state).state = state ∧
      (runFrom true transform (budget + 1) tail state).output = [] ∧
      (runFrom true transform (budget + 1) tail state).stop = some stop := by
  cases h with
  | ended read => simp [runFrom, read]
  | breached read breach => simp [runFrom, read, Stop.ofError, breach]

theorem runFrom_delivers (t : List UInt8 → StateM σ (List UInt8)) {bodies : List (List UInt8)}
    (hbodies : ∀ body ∈ bodies, Frame.Framable body) {tail : List UInt8} {stop : Stop ε}
    (htail : Trailing tail stop) {budget : Nat} (hbudget : bodies.length < budget) (state : σ) :
    Delivered t bodies stop state
      (runFrom true (.ofState t) budget ((bodies.map Frame.write).flatten ++ tail) state) := by
  induction bodies generalizing budget state with
  | nil =>
    obtain ⟨budget, rfl⟩ := Nat.exists_eq_add_one.mpr hbudget
    obtain ⟨hstate, houtput, hstop⟩ := runFrom_trailing htail (.ofState t) budget state
    exact ⟨hstate, houtput, hstop⟩
  | cons body bodies ih =>
    obtain ⟨budget, rfl⟩ := Nat.exists_eq_add_one.mpr (Nat.zero_lt_of_lt hbudget)
    have hrest := ih (fun other hother => hbodies other (by simp [hother]))
      (by simpa using hbudget) ((t body).run state).2
    rw [List.map_cons, List.flatten_cons, List.append_assoc,
      runFrom_write_append true t (hbodies body (by simp))]
    refine ⟨?_, ?_, hrest.stop_eq⟩
    · rw [mapM_cons_run]
      exact hrest.state_eq
    · rw [mapM_cons_run, hrest.output_eq]
      rfl

/-- Whatever part of a stream has come in, the frames of the first results are written, and no part
of a frame. -/
theorem runFrom_front (closed : Bool) (t : List UInt8 → StateM σ (List UInt8))
    {bodies : List (List UInt8)} (hbodies : ∀ body ∈ bodies, Frame.Framable body)
    {tail : List UInt8} {stop : Stop ε} (htail : Trailing tail stop) (budget : Nat)
    {front more : List UInt8} (hfront : front ++ more = (bodies.map Frame.write).flatten ++ tail)
    (state : σ) :
    ∃ n, (runFrom closed (.ofState t : Transform σ ε) budget front state).output
      = ((((bodies.mapM t).run state).1.take n).map Frame.write).flatten := by
  induction budget generalizing bodies front state with
  | zero => exact ⟨0, rfl⟩
  | succ budget ih =>
    cases hread : Frame.read closed front with
    | pending => exact ⟨0, by rw [runFrom, hread]; rfl⟩
    | ended => exact ⟨0, by rw [runFrom, hread]; rfl⟩
    | failed e => exact ⟨0, by rw [runFrom, hread]; rfl⟩
    | message body rest =>
      have hwhole := Frame.read_append true hread more
      rw [hfront] at hwhole
      cases bodies with
      | nil => exact absurd hwhole (htail.not_message _ _)
      | cons first bodies =>
        rw [List.map_cons, List.flatten_cons, List.append_assoc,
          Frame.read_write_append true (hbodies first (by simp))] at hwhole
        obtain ⟨rfl, hrest⟩ := Frame.Reading.message.inj hwhole
        obtain ⟨n, hn⟩ := ih (fun other hother => hbodies other (by simp [hother])) hrest.symm
          ((t first).run state).2
        refine ⟨n + 1, ?_⟩
        rw [runFrom, hread, mapM_cons_run]
        exact congrArg (Frame.write ((t first).run state).1 ++ ·) hn

/-- **A pump delivers.** On frames of any bodies and whatever ends the stream behind them, a pump
takes each body through its transform once and in order, writes exactly the frames of the results
and stops; the results are read back from its output; and while the stream comes in, no part of a
frame is ever written. -/
theorem run_delivers (t : List UInt8 → StateM σ (List UInt8)) {bodies : List (List UInt8)}
    (hbodies : ∀ body ∈ bodies, Frame.Framable body) {tail : List UInt8} {stop : Stop ε}
    (htail : Trailing tail stop) (state : σ) :
    Delivered t bodies stop state
        (run true (.ofState t) ((bodies.map Frame.write).flatten ++ tail) state) ∧
      ((∀ out ∈ ((bodies.mapM t).run state).1, Frame.Framable out) →
        Frame.readAll
            (run true (.ofState t : Transform σ ε) ((bodies.map Frame.write).flatten ++ tail)
              state).output
          = (((bodies.mapM t).run state).1, .ended)) ∧
      ∀ closed front, front <+: (bodies.map Frame.write).flatten ++ tail →
        ∃ n, (run closed (.ofState t : Transform σ ε) front state).output
          = ((((bodies.mapM t).run state).1.take n).map Frame.write).flatten := by
  have hbudget : bodies.length < ((bodies.map Frame.write).flatten ++ tail).length + 1 := by
    have := Frame.length_le_length_frames bodies
    rw [List.length_append]
    omega
  have hdelivered := runFrom_delivers t hbodies htail hbudget state
  refine ⟨hdelivered, fun houts => ?_, fun closed front hfront => ?_⟩
  · rw [run, hdelivered.output_eq]
    exact Frame.readAll_write houts
  · obtain ⟨more, hmore⟩ := hfront
    exact runFrom_front closed t hbodies htail _ hmore state

/-- A body that looks like a header, an empty body, and a frame that breaks off, through a transform
that counts bodies and turns them around. -/
theorem run_delivers_broken_off :
    ∃ (t : List UInt8 → StateM Nat (List UInt8)) (bodies : List (List UInt8)) (tail : List UInt8),
      (∀ body ∈ bodies, Frame.Framable body) ∧ Trailing tail (.ended : Stop Empty) ∧
      (bodies.map Frame.write).flatten ++ tail
        = Utf8.ofString ("Content-Length: 4\r\n\r\na:1\nContent-Length: 0\r\n\r\n"
          ++ "Content-Length: 9\r\n\r\nab") ∧
      Frame.readAll (run true (.ofState t : Transform Nat Empty)
        ((bodies.map Frame.write).flatten ++ tail) 0).output
        = ([Utf8.ofString "\n1:a", []], .ended) ∧
      (run true (.ofState t : Transform Nat Empty)
        ((bodies.map Frame.write).flatten ++ tail) 0).state = 2 := by
  have hbodies : ∀ body ∈ [Utf8.ofString "a:1\n", []], Frame.Framable body := by
    intro body hbody
    refine Frame.framable_of_length_lt ?_
    revert body
    decide
  have htail : Trailing (Utf8.ofString "Content-Length: 9\r\n\r\nab") (.ended : Stop Empty) :=
    .ended (by decide)
  obtain ⟨hdelivered, hread, -⟩ :=
    run_delivers (fun body => do modify (· + 1); return body.reverse) hbodies htail 0
  refine ⟨_, _, _, hbodies, htail, by decide, hread fun out hout => ?_, hdelivered.state_eq⟩
  refine Frame.framable_of_length_lt ?_
  revert out
  decide

/-! ## How a pump ends -/

/-- A pump on a closed stream moves the whole messages at its front and stops behind them. -/
theorem runFrom_stops (t : List UInt8 → StateM σ (List UInt8)) {budget : Nat}
    {stream : List UInt8} (hbudget : stream.length < budget) (state : σ) :
    ∃ bodies tail stop, Frame.Holds stream bodies tail ∧
      Delivered t bodies stop state
        (runFrom true (.ofState t : Transform σ ε) budget stream state) ∧
      (Trailing tail stop ∨ ∃ e, Frame.read true tail = .failed e ∧ e.isBreach = false ∧
        stop = .failed (.frame e)) := by
  -- A message leaves a shorter stream, so a budget above the length is never used up.
  induction budget generalizing stream state with
  | zero => omega
  | succ budget ih =>
    cases hread : Frame.read true stream with
    | pending => exact absurd hread (Frame.read_ne_pending stream)
    | ended =>
      have hrun : runFrom true (.ofState t : Transform σ ε) (budget + 1) stream state
          = ⟨state, [], [], some .ended⟩ := by
        rw [runFrom, hread]
      rw [hrun]
      exact ⟨[], stream, .ended, .nil, ⟨rfl, rfl, rfl⟩, .inl (.ended hread)⟩
    | failed e =>
      have hrun : runFrom true (.ofState t : Transform σ ε) (budget + 1) stream state
          = ⟨state, [], stream, some (.ofError e)⟩ := by
        rw [runFrom, hread]
      rw [hrun]
      refine ⟨[], stream, .ofError e, .nil, ⟨rfl, rfl, rfl⟩, ?_⟩
      unfold Stop.ofError
      cases hbreach : e.isBreach with
      | true => exact .inl (.breached hread hbreach)
      | false => exact .inr ⟨e, hread, hbreach, rfl⟩
    | message body rest =>
      have hshorter := Frame.length_lt_of_read hread
      have hrest : rest.length < budget := by omega
      obtain ⟨bodies, tail, stop, hholds, hmore, hstop⟩ := ih hrest ((t body).run state).2
      refine ⟨body :: bodies, tail, stop, .cons hread hholds, ⟨?_, ?_, ?_⟩, hstop⟩
      · rw [runFrom, hread, mapM_cons_run]
        exact hmore.state_eq
      · rw [runFrom, hread, mapM_cons_run]
        exact congrArg (Frame.write ((t body).run state).1 ++ ·) hmore.output_eq
      · rw [runFrom, hread]
        exact hmore.stop_eq

/-- **How a pump ends.** On every closed stream a pump with a transform that never fails moves the
whole messages at the front, each once and in order, and stops behind them. It stops in good order,
at the end of the stream or at a breach of the framing rules, unless there is a body of negative
length or a line beyond the limit; then it fails, and so does reading. -/
theorem run_ends (t : List UInt8 → StateM σ (List UInt8)) (stream : List UInt8) (state : σ) :
    (∀ bytes, Frame.read true bytes ≠ .pending ∧
      ((∃ e, Frame.read true bytes = .failed e ∧ e.isBreach = false) ↔ Frame.Stray bytes)) ∧
    ∃ bodies tail stop, Frame.Holds stream bodies tail ∧
      Delivered t bodies stop state (run true (.ofState t : Transform σ ε) stream state) ∧
      (¬ Frame.Stray tail ∧ Trailing tail stop ∨ Frame.Stray tail ∧ ∃ e,
        stop = .failed (.frame e) ∧
          (e = .negativeLength ∨ e = .lineTooLong ∨ e = .lineUnended)) := by
  refine ⟨fun bytes => ⟨Frame.read_ne_pending bytes, Frame.read_unguarded_iff bytes⟩, ?_⟩
  obtain ⟨bodies, tail, stop, hholds, hdelivered, hstop⟩ :=
    runFrom_stops t (Nat.lt_succ_self stream.length) state
  refine ⟨bodies, tail, stop, hholds, hdelivered, ?_⟩
  rcases hstop with htrailing | ⟨e, hread, hbreach, rfl⟩
  · refine .inl ⟨fun hstray => ?_, htrailing⟩
    obtain ⟨e, hread, hbreach⟩ := (Frame.read_unguarded_iff tail).mpr hstray
    cases htrailing with
    | ended hend =>
      rw [hend] at hread
      cases hread
    | breached hend hsound =>
      rw [hend] at hread
      cases hread
      rw [hsound] at hbreach
      cases hbreach
  · exact .inr ⟨(Frame.read_unguarded_iff tail).mp ⟨e, hread, hbreach⟩, e, rfl,
      Frame.eq_of_not_isBreach hbreach⟩

/-- Behind a whole message comes a body of negative length, and the pump fails there. -/
theorem run_fails_negative_length :
    run true (.ofState fun body => pure body.reverse : Transform Unit Empty)
      (Utf8.ofString "Content-Length: 2\r\n\r\nabContent-Length: -1\r\n\r\n") ()
    = ⟨(), Utf8.ofString "Content-Length: 2\r\n\r\nba",
        Utf8.ofString "Content-Length: -1\r\n\r\n", some (.failed (.frame .negativeLength))⟩ := by
  decide

/-! ## Streams in pieces -/

theorem length_lt_of_read {closed : Bool} {stream body rest : List UInt8}
    (h : Frame.read closed stream = .message body rest) : rest.length < stream.length := by
  have whole := Frame.read_append true h []
  rw [List.append_nil, List.append_nil] at whole
  exact Frame.length_lt_of_read whole

theorem runFrom_congr (closed : Bool) (transform : Transform σ ε) {budget budget' : Nat}
    {stream : List UInt8} (h : stream.length < budget) (h' : stream.length < budget') (state : σ) :
    runFrom closed transform budget stream state
      = runFrom closed transform budget' stream state := by
  induction budget generalizing budget' stream state with
  | zero => omega
  | succ budget ih =>
    obtain ⟨budget', rfl⟩ := Nat.exists_eq_add_one.mpr (Nat.zero_lt_of_lt h')
    cases hread : Frame.read closed stream with
    | pending => simp only [runFrom, hread]
    | ended => simp only [runFrom, hread]
    | failed e => simp only [runFrom, hread]
    | message body rest =>
      have hshorter := length_lt_of_read hread
      have hsame : ∀ state, runFrom closed transform budget rest state
          = runFrom closed transform budget' rest state :=
        fun state => ih (by omega) (by omega) state
      simp only [runFrom, hread, hsame]

theorem run_of_message {closed : Bool} (transform : Transform σ ε) {stream body rest : List UInt8}
    (h : Frame.read closed stream = .message body rest) (state : σ) :
    run closed transform stream state =
      match transform body state with
      | (state, .error e) => ⟨state, [], rest, some (.failed (.transform e))⟩
      | (state, .ok out) =>
        { run closed transform rest state with
          output := Frame.write out ++ (run closed transform rest state).output } := by
  have hshorter := length_lt_of_read h
  have hsame : ∀ state, runFrom closed transform stream.length rest state
      = run closed transform rest state :=
    fun state => runFrom_congr closed transform hshorter (Nat.lt_succ_self _) state
  rw [run, runFrom, h]
  rcases htransform : transform body state with ⟨next, e | out⟩
  · simp only [htransform]
  · simp only [htransform, hsame]

/-- **A stream may come in pieces.** A pump that has not stopped goes on with what it has left over
and the next piece, and does in all what it would have done on both pieces at once. -/
theorem run_append (closed : Bool) (transform : Transform σ ε) (front back : List UInt8)
    (state : σ) (going : (run false transform front state).stop = none) :
    run closed transform (front ++ back) state =
      { run closed transform ((run false transform front state).rest ++ back)
          (run false transform front state).state with
        output := (run false transform front state).output
          ++ (run closed transform ((run false transform front state).rest ++ back)
            (run false transform front state).state).output } := by
  induction hlength : front.length using Nat.strongRecOn generalizing front state with
  | ind length ih =>
    cases hread : Frame.read false front with
    | pending =>
      have hrun : run false transform front state = ⟨state, [], front, none⟩ := by
        simp only [run, runFrom, hread]
      rw [hrun]
      rfl
    | ended =>
      have hrun : run false transform front state = ⟨state, [], [], some .ended⟩ := by
        simp only [run, runFrom, hread]
      rw [hrun] at going
      cases going
    | failed e =>
      have hrun : run false transform front state = ⟨state, [], front, some (.ofError e)⟩ := by
        simp only [run, runFrom, hread]
      rw [hrun] at going
      cases going
    | message body rest =>
      rw [run_of_message transform hread] at going ⊢
      rw [run_of_message transform (Frame.read_append closed hread back)]
      cases hout : transform body state with
      | mk state result =>
        rw [hout] at going
        cases result with
        | error e => cases going
        | ok out =>
          have hmore := ih rest.length (hlength ▸ length_lt_of_read hread) rest state going rfl
          simp only [hmore, List.append_assoc]

/-- Whatever the stream holds and whatever the transform does, what is written are whole frames,
each with a result of the transform. -/
theorem exists_output_eq (closed : Bool) (transform : Transform σ ε) (stream : List UInt8)
    (state : σ) :
    ∃ bodies : List (List UInt8),
      (run closed transform stream state).output = (bodies.map Frame.write).flatten ∧
      ∀ body ∈ bodies, ∃ raw before, (transform raw before).2 = .ok body := by
  unfold run
  generalize stream.length + 1 = budget
  induction budget generalizing stream state with
  | zero => exact ⟨[], rfl, by simp⟩
  | succ budget ih =>
    rw [runFrom]
    split
    next => exact ⟨[], rfl, by simp⟩
    next => exact ⟨[], rfl, by simp⟩
    next => exact ⟨[], rfl, by simp⟩
    next body rest _ =>
      split
      next => exact ⟨[], rfl, by simp⟩
      next after out hout =>
        obtain ⟨bodies, houtput, hbodies⟩ := ih rest after
        refine ⟨out :: bodies, ?_, ?_⟩
        · rw [List.map_cons, List.flatten_cons, ← houtput]
        · intro other hother
          rcases List.mem_cons.mp hother with rfl | hother
          · exact ⟨body, state, congrArg Prod.snd hout⟩
          · exact hbodies other hother

end SfcProxy.Pump

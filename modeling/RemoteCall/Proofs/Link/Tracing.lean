/-
  RemoteCall.Proofs.Link.Tracing
  ──────────────────────────────
  **WHAT EACH END OF A LINK HAS SEEN.**

  What is between the ends of a link is a queue, so each end has received a
  beginning of what the other has written (`Traced`): the worker a beginning of
  frames that the writer has taken, the reader a beginning of the responses.

  Main statements:
    • `Traced.move`, `Traced.read`, `Traced.serve` — one step,
    • `Run.traced`                                 — a run.
-/
import RemoteCall.Proofs.Link.Exchange

namespace RemoteCall.Exchange

variable {σ : Type} {service : Service σ} {limits : EndpointConfig} {config : PoolConfig}
  {effects : List Effect} {history : List (Worker.Moment σ)} {x : Exchange σ}

/-! ## §1. Between the ends. -/

/-- What was written, what has been received, and what is between. -/
structure Traced (max : Nat) (effects : List Effect) (history : List (Worker.Moment σ))
    (x : Exchange σ) : Prop where
  /-- The requests on the link are among those that the writer has taken. -/
  requests : ∃ put : List RequestFrame, put.Sublist (takenIn effects)
    ∧ put.flatMap (·.bytes) = Worker.receivedOf history ++ x.outgoing
  /-- The reader has read a beginning of the responses; the connection has looked at some. -/
  responses : ∃ (read : Bytes) (looked : List ResponseFrame),
    Worker.writtenOf history = read ++ x.incoming
    ∧ (looked ++ x.responses) <+: (ResponseFrame.drain max read).1
    ∧ (x.reading = true → ∀ tail, ResponseFrame.Taken max (read ++ tail) (looked ++ x.responses)
        (x.received ++ tail))

/-- Only what is between the ends matters. -/
theorem Traced.of_eq {max : Nat} (h : Traced max effects history x) {x' : Exchange σ}
    {more : List Effect} (houtgoing : x'.outgoing = x.outgoing)
    (hincoming : x'.incoming = x.incoming) (hreceived : x'.received = x.received)
    (hreading : x'.reading = x.reading) (hresponses : x'.responses = x.responses) :
    Traced max (effects ++ more) history x' := by
  refine ⟨?_, ?_⟩
  · obtain ⟨put, hsub, hbytes⟩ := h.requests
    rw [houtgoing, takenIn_append]
    exact ⟨put, hsub.trans (List.sublist_append_left _ _), hbytes⟩
  · rw [hincoming, hreceived, hreading, hresponses]
    exact h.responses

/-! ## §2. Writing. -/

/-- **The writer writes a frame**, or stops. -/
theorem write_eq (max : Nat) (x : Exchange σ) (frame : RequestFrame) :
    ∃ put : List RequestFrame, put.Sublist [frame]
      ∧ x.write max frame = { x with
          outgoing := x.outgoing ++ put.flatMap (·.bytes)
          writing := (x.write max frame).writing } := by
  unfold write
  by_cases hwriting : x.writing = true
  · rw [if_pos hwriting, RequestFrame.encode_eq]
    by_cases hmax : max < frame.bodyLength
    · rw [if_pos hmax]
      refine ⟨[], List.nil_sublist _, ?_⟩
      dsimp only
      rw [List.flatMap_nil, List.append_nil]
    · rw [if_neg hmax]
      refine ⟨[frame], .refl _, ?_⟩
      dsimp only
      rw [List.flatMap_singleton]
  · rw [if_neg hwriting]
    refine ⟨[], List.nil_sublist _, ?_⟩
    rw [List.flatMap_nil, List.append_nil]

/-- The writer writes some of the frames that it has taken. -/
theorem foldl_write_eq (max : Nat) (frames : List RequestFrame) (x : Exchange σ) :
    ∃ put : List RequestFrame, put.Sublist frames
      ∧ frames.foldl (write max) x = { x with
          outgoing := x.outgoing ++ put.flatMap (·.bytes)
          writing := (frames.foldl (write max) x).writing } := by
  induction frames generalizing x with
  | nil =>
    refine ⟨[], .slnil, ?_⟩
    rw [List.flatMap_nil, List.append_nil]
    rfl
  | cons frame frames ih =>
    obtain ⟨first, hfirst, hwrite⟩ := write_eq max x frame
    obtain ⟨put, hput, hfold⟩ := ih (x.write max frame)
    refine ⟨first ++ put, hfirst.append hput, ?_⟩
    rw [List.foldl_cons, hfold]
    rw [hwrite, List.flatMap_append, List.append_assoc]

/-- **The connection moves**, and the writer writes some of the frames that it has taken. -/
theorem move_eq (config : PoolConfig) (x : Exchange σ) (moved : Moved) :
    ∃ put : List RequestFrame, put.Sublist (takenIn moved.effects)
      ∧ (x.move config moved).1 = { x with
          caller := moved.connection
          ledger := moved.ledger
          outgoing := x.outgoing ++ put.flatMap (·.bytes)
          writing := (x.move config moved).1.writing } :=
  foldl_write_eq config.maxMessageSize (takenIn moved.effects)
    { x with caller := moved.connection, ledger := moved.ledger }

theorem caller_move (config : PoolConfig) (x : Exchange σ) (moved : Moved) :
    (x.move config moved).1.caller = moved.connection := by
  obtain ⟨put, -, hmove⟩ := move_eq config x moved
  rw [hmove]

theorem ledger_move (config : PoolConfig) (x : Exchange σ) (moved : Moved) :
    (x.move config moved).1.ledger = moved.ledger := by
  obtain ⟨put, -, hmove⟩ := move_eq config x moved
  rw [hmove]

theorem agent_move (config : PoolConfig) (x : Exchange σ) (moved : Moved) :
    (x.move config moved).1.agent = x.agent := by
  obtain ⟨put, -, hmove⟩ := move_eq config x moved
  rw [hmove]

/-- A move is traced. -/
theorem Traced.move (h : Traced config.maxMessageSize effects history x) (moved : Moved) :
    Traced config.maxMessageSize (effects ++ (x.move config moved).2) history
      (x.move config moved).1 := by
  obtain ⟨put, hput, hmove⟩ := move_eq config x moved
  obtain ⟨before, hbefore, hbytes⟩ := h.requests
  rw [hmove]
  refine ⟨⟨before ++ put, ?_, ?_⟩, h.responses⟩
  · rw [takenIn_append]
    exact hbefore.append hput
  · dsimp only
    rw [List.flatMap_append, hbytes, List.append_assoc]

/-! ## §3. Reading. -/

/-- **The reader reads some bytes.** -/
theorem Traced.read {max : Nat} (h : Traced max effects history x) (count : Nat) :
    Traced max effects history (x.read max count) := by
  unfold Exchange.read
  by_cases hreading : x.reading = true
  · rw [if_pos hreading]
    refine ⟨h.requests, ?_⟩
    obtain ⟨read, looked, hwritten, hinitial, htaken⟩ := h.responses
    have hchunk := htaken hreading (x.incoming.take count)
    cases hdrain : ResponseFrame.drain max (x.received ++ x.incoming.take count) with
    | mk frames rest =>
      obtain ⟨fault, left⟩ := rest
      dsimp only
      have hall : (ResponseFrame.drain max (read ++ x.incoming.take count)).1
          = looked ++ x.responses ++ frames := by
        unfold ResponseFrame.drain at hdrain ⊢
        -- the receive buffer and the chunk hold what the reader sees next
        rw [hchunk, hdrain]
      refine ⟨read ++ x.incoming.take count, looked, ?_, ?_, fun hgoes tail => ?_⟩
      · rw [hwritten, List.append_assoc, List.take_append_drop]
      · rewrite [hall, List.append_assoc]
        exact List.prefix_rfl
      · -- the reader goes on, so there was no fault
        have hfault : fault = none := Option.isNone_iff_eq_none.mp hgoes
        rw [hfault] at hdrain
        have hlonger := htaken hreading (x.incoming.take count ++ tail)
        rw [← List.append_assoc, ← List.append_assoc] at hlonger
        rw [← List.append_assoc]
        exact hlonger.trans (Frame.taken_of_drainWith hdrain tail)
  · rw [if_neg hreading]
    exact h

/-- The connection takes the oldest response. -/
theorem Traced.look {max : Nat} (h : Traced max effects history x) {frame : ResponseFrame}
    {later : List ResponseFrame} (hnext : x.responses = frame :: later) :
    Traced max effects history { x with responses := later } := by
  refine ⟨h.requests, ?_⟩
  obtain ⟨read, looked, hwritten, hinitial, htaken⟩ := h.responses
  -- the response moves from those that wait to those that were looked at
  have hmove : looked ++ x.responses = looked ++ [frame] ++ later := by
    rw [hnext, List.append_assoc]
    rfl
  rw [hmove] at hinitial htaken
  exact ⟨read, looked ++ [frame], hwritten, hinitial, htaken⟩

/-! ## §4. The agent, and a whole run. -/

/-- What the caller does is nothing to the agent. -/
theorem agent_act (config : PoolConfig) (x : Exchange σ) (act : Act) :
    (x.act config act).1.agent = x.agent := by
  cases act with
  | queued call => rfl
  | observed ledger => rfl
  | flushed env => exact agent_move config x _
  | expired env now => exact agent_move config x _
  | advanced env now => exact agent_move config x _
  | canceled env id =>
    unfold Exchange.act
    dsimp only
    split
    · exact agent_move config x _
    · rfl
  | looked =>
    unfold Exchange.act
    dsimp only
    split
    · exact agent_move config _ _
    · rfl
  | lost e => exact agent_move config x _
  | read count =>
    show (x.read config.maxMessageSize count).agent = x.agent
    unfold Exchange.read
    split <;> rfl

/-- **Something happens at the agent.** -/
theorem Traced.serve {max : Nat} (h : Traced max effects history x)
    (occurrence : Worker.Occurrence)
    (harrived : (⟨x.agent, occurrence⟩ : Worker.Moment σ).arrived <+: x.outgoing) :
    Traced max effects (history ++ [⟨x.agent, occurrence⟩])
      (x.serve service limits occurrence) := by
  refine ⟨?_, ?_⟩
  · obtain ⟨put, hput, hbytes⟩ := h.requests
    refine ⟨put, hput, ?_⟩
    rw [hbytes, Worker.receivedOf_concat, List.append_assoc]
    -- what has arrived is the front of what is between the ends
    congr 1
    exact (List.prefix_iff_eq_append.mp harrived).symm
  · obtain ⟨read, looked, hwritten, hinitial, htaken⟩ := h.responses
    refine ⟨read, looked, ?_, hinitial, htaken⟩
    rw [Worker.writtenOf_concat, hwritten, List.append_assoc]
    rfl

/-- **What each end has seen after a run.** -/
theorem Run.traced (run : Run service limits config effects history x) :
    Traced config.maxMessageSize effects history x := by
  induction run with
  | start c ledger peer link origin =>
    refine ⟨⟨[], .slnil, rfl⟩, ⟨[], [], rfl, List.nil_prefix, fun _ tail => ?_⟩⟩
    exact Frame.taken_nil tail
  | caller run act ih =>
    cases act with
    | queued call => exact ih.of_eq rfl rfl rfl rfl rfl
    | observed ledger => exact ih.of_eq rfl rfl rfl rfl rfl
    | flushed env => exact ih.move _
    | expired env now => exact ih.move _
    | advanced env now => exact ih.move _
    | canceled env id =>
      unfold Exchange.act
      dsimp only
      split
      · exact ih.move _
      · exact ih.of_eq rfl rfl rfl rfl rfl
    | looked =>
      unfold Exchange.act
      dsimp only
      split
      · next hnext => exact (ih.look hnext).move _
      · exact ih.of_eq rfl rfl rfl rfl rfl
    | lost e => exact ih.move _
    | read count =>
      dsimp only [Exchange.act]
      rw [List.append_nil]
      exact ih.read count
  | agent run occurrence _ harrived ih => exact ih.serve occurrence harrived

/-- The agent's part of a run. -/
theorem Run.served (run : Run service limits config effects history x) :
    Worker.Run service limits history x.agent := by
  induction run with
  | start c ledger peer link origin => exact .start origin
  | caller run act ih =>
    rw [agent_act]
    exact ih
  | agent run occurrence hadmits _ ih => exact ih.next occurrence hadmits

end RemoteCall.Exchange

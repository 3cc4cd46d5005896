/-
  RemoteCall.Proofs.Server.Taking
  ───────────────────────────────
  **FRAMES ARE TAKEN ONE AFTER ANOTHER.**

  What a frame may do to the calls of a worker is one of four things (`Took`),
  and it does nothing else to the worker that lasts:

      at fault    nothing
      a cancel    the answer to one call is no longer wanted
      a call      it is outstanding, under the next ticket
                  it is rejected, and its ticket is used up

  Frames are taken off the receive buffer at some moments (`Moment.pumps`), and
  a worker stops reading at such a moment exactly if it meets a protocol error
  (`Moment.fault?`).  A stream that is well formed and not at fault, in a
  version that the service speaks, brings none.

  Main statements:
    • `took`                   — one frame,
    • `Moment.worker_of_pumps`, `Moment.reading_iff` — one moment,
    • `Run.at_split`           — the moments of a run,
    • `Run.fault?_eq_none`     — which streams meet no protocol error.
-/
import RemoteCall.Proofs.Server.Transparency

namespace RemoteCall.Worker

variable {σ : Type} {service : Service σ} {limits : EndpointConfig} {shutdown : Bool}
  {version : UInt32} {w w' : Worker σ} {frame : RequestFrame}

/-! ## §1. One frame. -/

/-- What lasts when frames are taken: whether the worker reads, whether it has given up the
connection, and its receive buffer, from which the frames were copied. -/
structure Steady (w w' : Worker σ) : Prop where
  reading : w'.reading = w.reading
  abandoned : w'.abandoned = w.abandoned
  received : w'.received = w.received

theorem Steady.refl (w : Worker σ) : Steady w w := ⟨rfl, rfl, rfl⟩

theorem Steady.trans {w'' : Worker σ} (h : Steady w w') (h' : Steady w' w'') : Steady w w'' :=
  ⟨h'.reading.trans h.reading, h'.abandoned.trans h.abandoned, h'.received.trans h.received⟩

/-- To revoke a call is to add its ticket to those that are revoked. -/
theorem revoke_eq (w : Worker σ) (n : SequenceNumber) :
    w.revoke n = { w with revoked := (w.outstanding? n).toList ++ w.revoked } := by
  unfold revoke
  cases w.outstanding? n <;> rfl

theorem steady_revoke (w : Worker σ) (n : SequenceNumber) : Steady w (w.revoke n) := by
  rw [revoke_eq]
  exact ⟨rfl, rfl, rfl⟩

theorem steady_revokeAll (w : Worker σ) (ns : List SequenceNumber) :
    Steady w (w.revokeAll ns) := by
  unfold revokeAll
  induction ns generalizing w with
  | nil => exact .refl w
  | cons n ns ih => exact (steady_revoke w n).trans (ih (w.revoke n))

/-- What becomes of the calls of a worker that takes in a frame. -/
inductive Took (frame : RequestFrame) (w : Worker σ) (admitted : Admitted σ) : Prop where
  /-- The frame is at fault. -/
  | turned {e : Failure} : admitted.fault = some e →
    admitted.worker.outstanding = w.outstanding → admitted.worker.nextTicket = w.nextTicket →
    admitted.worker.revoked = w.revoked → Took frame w admitted
  /-- A call is cancelled, if it is outstanding. -/
  | cancelled : admitted.fault = none → frame.kind = .cancel →
    admitted.worker.outstanding = w.outstanding → admitted.worker.nextTicket = w.nextTicket →
    admitted.worker.revoked = (w.outstanding? frame.sequence).toList ++ w.revoked →
    Took frame w admitted
  /-- A call is outstanding. -/
  | accepted : admitted.fault = none → frame.kind = .call →
    w.outstanding? frame.sequence = none →
    admitted.worker.outstanding = w.outstanding ++ [(frame.sequence, w.nextTicket)] →
    admitted.worker.nextTicket = w.nextTicket + 1 → admitted.worker.revoked = w.revoked →
    Took frame w admitted
  /-- A call is rejected. -/
  | rejected : admitted.fault = none → frame.kind = .call →
    admitted.worker.outstanding = w.outstanding →
    admitted.worker.nextTicket = w.nextTicket + 1 → admitted.worker.revoked = w.revoked →
    Took frame w admitted

/-- The check of a version leaves the calls alone. -/
theorem checkVersion_calls (service : Service σ) (limits : EndpointConfig) (frame : RequestFrame)
    (w : Worker σ) :
    Steady w (w.checkVersion service limits frame).worker
      ∧ (w.checkVersion service limits frame).worker.outstanding = w.outstanding
      ∧ (w.checkVersion service limits frame).worker.nextTicket = w.nextTicket
      ∧ (w.checkVersion service limits frame).worker.revoked = w.revoked := by
  unfold checkVersion
  cases w.version with
  | some expected =>
    dsimp only
    split <;> exact ⟨.refl w, rfl, rfl, rfl⟩
  | none =>
    dsimp only
    split <;> exact ⟨⟨rfl, rfl, rfl⟩, rfl, rfl, rfl⟩

/-- A call is handed over, or its number is taken. -/
theorem took_dispatch (service : Service σ) (limits : EndpointConfig) (shutdown : Bool)
    (hkind : frame.kind = .call) (w : Worker σ) :
    Steady w (w.dispatch service limits shutdown frame).worker
      ∧ Took frame w (w.dispatch service limits shutdown frame) := by
  cases hfree : w.outstanding? frame.sequence with
  | some ticket =>
    unfold dispatch
    dsimp only
    rw [hfree]
    exact ⟨.refl w, .turned rfl rfl rfl rfl⟩
  | none =>
    rw [dispatch_eq hfree]
    dsimp only
    cases (w.dispatchOf service shutdown frame).verdict with
    | ok _ => exact ⟨⟨rfl, rfl, rfl⟩, .accepted rfl hkind hfree rfl rfl rfl⟩
    | error e =>
      exact ⟨⟨rfl, rfl, rfl⟩,
        .rejected rfl hkind (filter_outstanding_of_free hfree w.nextTicket) rfl rfl⟩

/-- **What a frame may do.** -/
theorem took (service : Service σ) (limits : EndpointConfig) (shutdown : Bool)
    (frame : RequestFrame) (w : Worker σ) :
    Steady w (w.takeIn service limits shutdown frame).worker
      ∧ Took frame w (w.takeIn service limits shutdown frame) := by
  obtain ⟨hsteady, houtstanding, hticket, hrevoked⟩ := checkVersion_calls service limits frame w
  unfold takeIn
  generalize w.checkVersion service limits frame = checked at *
  obtain ⟨w', fault, effects⟩ := checked
  dsimp only at hsteady houtstanding hticket hrevoked
  have hsame : ∀ n, w'.outstanding? n = w.outstanding? n := by
    intro n
    unfold outstanding?
    rw [houtstanding]
  cases fault with
  | some e => exact ⟨hsteady, .turned rfl houtstanding hticket hrevoked⟩
  | none =>
    cases hkind : frame.kind with
    | cancel =>
      dsimp only
      rw [revoke_eq, hsame, hrevoked]
      exact ⟨⟨hsteady.reading, hsteady.abandoned, hsteady.received⟩,
        .cancelled rfl hkind houtstanding hticket rfl⟩
    | call =>
      obtain ⟨hsteady', htook⟩ := took_dispatch service limits shutdown hkind w'
      refine ⟨hsteady.trans hsteady', ?_⟩
      -- what is said of the worker after the check is said of the worker before it
      cases htook with
      | turned hfault hsame' hticket' hrevoked' =>
        exact .turned hfault (hsame'.trans houtstanding) (hticket'.trans hticket)
          (hrevoked'.trans hrevoked)
      | cancelled _ hcancel =>
        rw [hkind] at hcancel
        cases hcancel
      | accepted hfault hcall hfree hsame' hticket' hrevoked' =>
        rw [hticket, houtstanding] at hsame'
        rw [hticket] at hticket'
        exact .accepted hfault hcall ((hsame _).symm.trans hfree) hsame' hticket'
          (hrevoked'.trans hrevoked)
      | rejected hfault hcall hsame' hticket' hrevoked' =>
        rw [hticket] at hticket'
        exact .rejected hfault hcall (hsame'.trans houtstanding) hticket' (hrevoked'.trans hrevoked)

/-! ## §2. The frames of a buffer. -/

/-- **Frames are taken off a buffer**: the worker goes on reading, whatever it meets. -/
theorem steady_pumpFrom (service : Service σ) (limits : EndpointConfig) (shutdown : Bool)
    (buffer : Bytes) (w : Worker σ) :
    Steady w (w.pumpFrom service limits shutdown buffer).worker := by
  induction hlength : buffer.length using Nat.strongRecOn generalizing buffer w with
  | ind n ih =>
    rw [Worker.pumpFrom]
    split
    · exact steady_revokeAll w _
    · split
      · exact .refl w
      · exact .refl w
      · next frame rest hframe =>
        have hfirst := (took service limits shutdown frame w).1
        generalize w.takeIn service limits shutdown frame = admitted at *
        obtain ⟨w', fault, effects⟩ := admitted
        cases fault with
        | some e => exact hfirst
        | none =>
          have hshorter : rest.length < n := hlength ▸ Frame.length_of_decodeWith hframe
          exact hfirst.trans (ih rest.length hshorter rest w' rfl)

/-- **A protocol error is what makes a worker stop** when it takes frames off its receive buffer. -/
theorem reading_pump (service : Service σ) (limits : EndpointConfig) (shutdown : Bool)
    (hreading : w.reading = true) :
    (w.pump service limits shutdown).1.reading
      = (w.pumpFrom service limits shutdown w.received).fault.isNone := by
  have hsteady := steady_pumpFrom service limits shutdown w.received w
  unfold pump
  generalize w.pumpFrom service limits shutdown w.received = pumped at *
  obtain ⟨w', buffer, fault, effects⟩ := pumped
  cases fault with
  | none => exact hsteady.reading.trans hreading
  | some e => rfl

/-- A worker that goes on reading is the one that has taken the frames. -/
theorem pump_of_fault?_eq_none {w : Worker σ}
    (h : (w.pumpFrom service limits shutdown w.received).fault = none) :
    (w.pump service limits shutdown).1
      = { (w.pumpFrom service limits shutdown w.received).worker with
          received := (w.pumpFrom service limits shutdown w.received).buffer } := by
  unfold pump
  dsimp only
  rw [h]

/-! ## §3. Moments. -/

/-- Whether frames are taken off the receive buffer at a moment: bytes have arrived, or a resolution
is taken up, which may make room. -/
def Moment.pumps (m : Moment σ) : Bool :=
  match m.occurrence with
  | .worked (.received _) => true
  | .worked .drained => !m.before.worker.completions.isEmpty && m.before.worker.reading
  | _ => false

/-- When a resolution is taken up, that comes before frames are taken. -/
theorem Moment.opening_drained {w : Worker σ} {shutdown : Bool} {held : List IncompleteCall}
    {done : Completed} {later : List Completed} (h : w.completions = done :: later)
    (limits : EndpointConfig) :
    (⟨⟨w, shutdown, held⟩, .worked .drained⟩ : Moment σ).opening limits
      = ({ w with completions := later } : Worker σ).complete limits done := by
  unfold Moment.opening
  dsimp only
  rw [h]

/-- **Before frames are taken nothing is done, unless a resolution is taken up.** -/
theorem Moment.opening_cases (limits : EndpointConfig) (m : Moment σ) :
    (m.opening limits).2 = [] ∨ ∃ done later, m.before.worker.completions = done :: later
      ∧ m.opening limits
        = ({ m.before.worker with completions := later } : Worker σ).complete limits done := by
  obtain ⟨⟨w, shutdown, held⟩, occurrence⟩ := m
  cases occurrence with
  | signalled => exact .inl rfl
  | resolved call outcome => exact .inl rfl
  | worked event =>
    cases event with
    | received _ | shutdown | lost | wrote _ | writeFailed => exact .inl rfl
    | drained =>
      cases hcompletions : w.completions with
      | nil =>
        left
        unfold Moment.opening
        dsimp only
        rw [hcompletions]
      | cons done later =>
        exact .inr ⟨done, later, rfl, Moment.opening_drained hcompletions limits⟩

/-- What the worker is when a resolution has been taken up. -/
theorem Moment.worker_drained {w : Worker σ} {shutdown : Bool} {held : List IncompleteCall}
    {done : Completed} {later : List Completed} (h : w.completions = done :: later)
    (service : Service σ) (limits : EndpointConfig) :
    (⟨⟨w, shutdown, held⟩, .worked .drained⟩ : Moment σ).worker service limits
      = if w.reading then
          ((({ w with completions := later } : Worker σ).complete limits done).1.pump service limits
            shutdown).1
        else (({ w with completions := later } : Worker σ).complete limits done).1 := by
  have hreads := (complete_same limits done { w with completions := later }).1
  unfold Moment.worker Scene.after step
  dsimp only
  rw [h]
  dsimp only
  rw [hreads]
  cases w.reading <;> rfl

/-- **At some moments frames are taken**, after everything else. -/
theorem Moment.worker_of_pumps {m : Moment σ} (h : m.pumps = true) :
    m.worker service limits
      = ((m.opening limits).1.pump service limits m.before.shutdown).1 := by
  obtain ⟨⟨w, shutdown, held⟩, occurrence⟩ := m
  cases occurrence with
  | signalled => cases h
  | resolved call outcome => cases h
  | worked event =>
    cases event with
    | received chunk => rfl
    | shutdown | lost | wrote _ | writeFailed => cases h
    | drained =>
      obtain ⟨hany, hreading⟩ := Bool.and_eq_true_iff.mp h
      cases hcompletions : w.completions with
      | nil => simp [hcompletions] at hany
      | cons done later =>
        rw [Moment.worker_drained hcompletions, Moment.opening_drained hcompletions, if_pos hreading]

/-- At the others none is, unless what is left is refused. -/
theorem Moment.worker_of_not_pumps {m : Moment σ} (h : m.pumps = false)
    (hgoes : m.occurrence ≠ .worked .shutdown) :
    m.worker service limits = (m.opening limits).1 := by
  obtain ⟨⟨w, shutdown, held⟩, occurrence⟩ := m
  cases occurrence with
  | signalled => rfl
  | resolved call outcome => rfl
  | worked event =>
    cases event with
    | received chunk => cases h
    | shutdown => exact absurd rfl hgoes
    | lost | wrote _ | writeFailed => rfl
    | drained =>
      cases hcompletions : w.completions with
      | nil =>
        unfold Moment.worker Moment.opening Scene.after step
        dsimp only
        rw [hcompletions]
      | cons done later =>
        have hstopped : ¬ w.reading = true := by simpa [Moment.pumps, hcompletions] using h
        rw [Moment.worker_drained hcompletions, Moment.opening_drained hcompletions,
          if_neg hstopped]

/-- What the worker does then. -/
theorem Moment.effects_of_pumps {m : Moment σ} (h : m.pumps = true) :
    m.effects service limits = (m.opening limits).2
      ++ ((m.opening limits).1.pump service limits m.before.shutdown).2 := by
  obtain ⟨⟨w, shutdown, held⟩, occurrence⟩ := m
  cases occurrence with
  | signalled => cases h
  | resolved call outcome => cases h
  | worked event =>
    cases event with
    | received chunk => rfl
    | shutdown | lost | wrote _ | writeFailed => cases h
    | drained =>
      obtain ⟨hany, hreading⟩ := Bool.and_eq_true_iff.mp h
      cases hcompletions : w.completions with
      | nil => simp [hcompletions] at hany
      | cons done later =>
        have hreads := (complete_same limits done { w with completions := later }).1.trans hreading
        rw [Moment.opening_drained hcompletions]
        unfold Moment.effects Scene.after step
        dsimp only
        rw [hcompletions]
        dsimp only
        rw [if_pos hreads]

/-- At the other moments it does nothing more, unless what is left is refused. -/
theorem Moment.effects_of_not_pumps {m : Moment σ} (h : m.pumps = false)
    (hgoes : m.occurrence ≠ .worked .shutdown) :
    m.effects service limits = (m.opening limits).2 := by
  obtain ⟨⟨w, shutdown, held⟩, occurrence⟩ := m
  cases occurrence with
  | signalled => rfl
  | resolved call outcome => rfl
  | worked event =>
    cases event with
    | received chunk => cases h
    | shutdown => exact absurd rfl hgoes
    | lost | wrote _ | writeFailed => rfl
    | drained =>
      cases hcompletions : w.completions with
      | nil =>
        unfold Moment.effects Moment.opening Scene.after step
        dsimp only
        rw [hcompletions]
      | cons done later =>
        have hstopped : ¬ w.reading = true := by simpa [Moment.pumps, hcompletions] using h
        have hreads := (complete_same limits done { w with completions := later }).1
        rw [Moment.opening_drained hcompletions]
        unfold Moment.effects Scene.after step
        dsimp only
        rw [hcompletions]
        dsimp only
        rw [if_neg (by rw [hreads]; exact hstopped)]

/-- A worker that takes frames is not told to shut down, and its peer is there. -/
theorem Moment.stays_of_pumps {m : Moment σ} (h : m.pumps = true) :
    m.occurrence ≠ .worked .shutdown ∧ m.isLoss = false := by
  obtain ⟨s, occurrence⟩ := m
  cases occurrence with
  | signalled => cases h
  | resolved call outcome => cases h
  | worked event =>
    cases event with
    | received _ | drained => exact ⟨nofun, rfl⟩
    | shutdown | lost | wrote _ | writeFailed => cases h

/-- Before frames are taken a worker goes on reading, unless it is told to shut down or its peer is
gone. -/
theorem Moment.reading_opening {m : Moment σ} (hreading : m.before.worker.reading = true) :
    (m.opening limits).1.reading = true
      ↔ m.occurrence ≠ .worked .shutdown ∧ m.isLoss = false := by
  obtain ⟨⟨w, shutdown, held⟩, occurrence⟩ := m
  cases occurrence with
  | signalled => exact iff_of_true hreading ⟨nofun, rfl⟩
  | resolved call outcome => exact iff_of_true hreading ⟨nofun, rfl⟩
  | worked event =>
    cases event with
    | received _ | wrote _ => exact iff_of_true hreading ⟨nofun, rfl⟩
    | shutdown => exact iff_of_false Bool.false_ne_true fun h => h.1 rfl
    | lost | writeFailed => exact iff_of_false Bool.false_ne_true fun h => nomatch h.2
    | drained =>
      refine iff_of_true ?_ ⟨nofun, rfl⟩
      cases hcompletions : w.completions with
      | nil =>
        unfold Moment.opening
        dsimp only
        rw [hcompletions]
        exact hreading
      | cons done later =>
        rw [Moment.opening_drained hcompletions]
        exact (complete_same limits done { w with completions := later }).1.trans hreading

/-- The protocol error that a worker meets at a moment: the fault of the frame at which it stops
taking frames off its receive buffer. -/
def Moment.fault? (service : Service σ) (limits : EndpointConfig) (m : Moment σ) :
    Option Failure :=
  let w := (m.opening limits).1
  if m.pumps then (w.pumpFrom service limits m.before.shutdown w.received).fault else none

/-- **A worker goes on reading** unless it is told to shut down, its peer is gone, or it meets a
protocol error. -/
theorem Moment.reading_iff {m : Moment σ} (hreading : m.before.worker.reading = true) :
    (m.worker service limits).reading = true
      ↔ m.occurrence ≠ .worked .shutdown ∧ m.isLoss = false
        ∧ m.fault? service limits = none := by
  unfold Moment.fault?
  dsimp only
  cases hpumps : m.pumps with
  | true =>
    obtain ⟨hgoes, hstays⟩ := Moment.stays_of_pumps hpumps
    have hopen : (m.opening limits).1.reading = true :=
      (Moment.reading_opening hreading).mpr ⟨hgoes, hstays⟩
    rw [Moment.worker_of_pumps hpumps, if_pos rfl, reading_pump service limits _ hopen,
      Option.isNone_iff_eq_none]
    exact ⟨fun hnone => ⟨hgoes, hstays, hnone⟩, fun h => h.2.2⟩
  | false =>
    rw [if_neg Bool.false_ne_true]
    by_cases hgoes : m.occurrence = .worked .shutdown
    · -- a worker that is told to shut down stops
      refine iff_of_false (fun hstill => ?_) fun h => h.1 hgoes
      obtain ⟨effects, -, hpumping⟩ := m.pumping service limits
      exact ((Moment.reading_opening hreading).mp (hpumping.reading hstill)).1 hgoes
    · rw [Moment.worker_of_not_pumps hpumps hgoes, Moment.reading_opening hreading]
      exact ⟨fun h => ⟨h.1, h.2, rfl⟩, fun h => ⟨h.1, h.2.1⟩⟩

/-! ## §4. Runs. -/

variable {history : List (Moment σ)} {s : Scene σ}

/-- **The moments of a run** are where it has stood, and what could happen there. -/
theorem Run.at_split (run : Run service limits history s) {past later : List (Moment σ)}
    {m : Moment σ} (hsplit : history = past ++ m :: later) :
    Run service limits past m.before ∧ m.before.Admits limits m.occurrence := by
  induction run generalizing later with
  | start peer => exact absurd hsplit (by simp)
  | @next history s run occurrence hadmits ih =>
    rcases List.eq_nil_or_concat later with rfl | ⟨later, last, rfl⟩
    · obtain ⟨rfl, hlast⟩ := List.append_inj' hsplit rfl
      cases hlast
      exact ⟨run, hadmits⟩
    · rw [List.concat_eq_append, ← List.cons_append, ← List.append_assoc] at hsplit
      exact ih (List.append_inj' hsplit rfl).1

/-- What has arrived at an earlier moment begins what has arrived. -/
theorem receivedOf_split (past later : List (Moment σ)) (m : Moment σ) :
    receivedOf (past ++ m :: later) = receivedOf (past ++ [m]) ++ receivedOf later := by
  simp [receivedOf]

/-- A worker that keeps its books meets no protocol error, if the stream is not at fault and the
service speaks its version. -/
theorem Desk.fault_pumpFrom {t : Tally} {received sent : Bytes}
    (h : Desk service limits version sent true t w) (hturned : t.turned = [])
    (hspoken : service.supports version = true)
    (hsound : (RequestFrame.drain limits.maxMessageSize received).2.1 = none)
    (hwell : WellFormed version (RequestFrame.drain limits.maxMessageSize received).1)
    (hahead : ∀ more, RequestFrame.Taken limits.maxMessageSize (received ++ more) t.taken
      (w.received ++ more)) (shutdown : Bool) :
    (w.pumpFrom service limits shutdown w.received).fault = none := by
  have hgoes := h.reads_pump hturned hspoken hsound hwell hahead shutdown
  rw [reading_pump service limits shutdown h.reads] at hgoes
  exact Option.isNone_iff_eq_none.mp hgoes

/-- **A stream that is well formed and not at fault meets no protocol error**, in a version that the
service speaks: whatever else happens, and whether or not the worker still reads. -/
theorem Run.fault?_eq_none (run : Run service limits history s)
    (hspoken : service.supports version = true)
    (hsound : (RequestFrame.drain limits.maxMessageSize (receivedOf history)).2.1 = none)
    (hwell : WellFormed version
      (RequestFrame.drain limits.maxMessageSize (receivedOf history)).1) :
    ∀ m ∈ history, m.fault? service limits = none := by
  intro m hmem
  obtain ⟨past, later, rfl⟩ := List.append_of_mem hmem
  obtain ⟨hrun, hadmits⟩ := run.at_split rfl
  rw [receivedOf_split, receivedOf_concat] at hsound hwell
  replace hsound := Frame.drainWith_sound hsound
  replace hwell := WellFormed.arrived hwell
  have hwell' := WellFormed.arrived hwell
  obtain ⟨taken, turned, h⟩ := hrun.stands hwell'
  unfold Moment.fault?
  dsimp only
  split
  · next hpumps =>
    obtain ⟨⟨w, shutdown, held⟩, occurrence⟩ := m
    cases occurrence with
    | signalled => cases hpumps
    | resolved call outcome => cases hpumps
    | worked event =>
      cases event with
      | shutdown | lost | wrote _ | writeFailed => cases hpumps
      | received chunk =>
        have hread := (Bool.and_eq_true_iff.mp hadmits.2).1
        have hreading : w.reading = true := (Bool.and_eq_true_iff.mp hread).1
        obtain ⟨-, hturned, -, hahead⟩ := h.reads hreading
        have hdesk : Desk service limits version (writtenOf past) true
            (tallyOf service limits past ⟨w, shutdown, held⟩ taken turned)
            { w with received := w.received ++ chunk } :=
          (h.desk hreading hwell').of_eq rfl rfl rfl rfl rfl rfl
        refine hdesk.fault_pumpFrom hturned hspoken hsound hwell (fun more => ?_) shutdown
        have hhere := hahead (chunk ++ more)
        rw [← List.append_assoc, ← List.append_assoc] at hhere
        exact hhere
      | drained =>
        obtain ⟨hany, hreading⟩ := Bool.and_eq_true_iff.mp hpumps
        dsimp only at hany hreading
        cases hcompletions : w.completions with
        | nil => simp [hcompletions] at hany
        | cons done later =>
          rw [Moment.opening_drained hcompletions]
          obtain ⟨-, -, hreceived, -⟩ :=
            complete_same limits done { w with completions := later }
          obtain ⟨-, hturned, -, hahead⟩ := h.reads hreading
          have hdesk := h.freed hcompletions hreading hwell'
          have hnothing : (⟨⟨w, shutdown, held⟩, .worked .drained⟩ : Moment σ).arrived = [] := rfl
          rw [hnothing, List.append_nil] at hsound
          refine hdesk.fault_pumpFrom hturned hspoken hsound hwell' (fun more => ?_) shutdown
          rw [hreceived]
          exact hahead more
  · rfl

end RemoteCall.Worker

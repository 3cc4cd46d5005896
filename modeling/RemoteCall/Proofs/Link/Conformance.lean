/-
  RemoteCall.Proofs.Link.Conformance
  ──────────────────────────────────
  **A CALLER GIVES THE AGENT NO CAUSE FOR COMPLAINT.**

  A worker that meets a protocol error stops reading, and all calls of the
  connection are lost.  A caller with checked requests never makes it do so:

      checked request  →  frame within the caller's limit
                       →  whole frame within the agent's limit
                       →  one version, fresh number
                       →  no protocol error

  The request of a call is checked once, when the call is issued.  It keeps its
  request through every retry, so each frame that asks for it fits, and so does
  each cancel, which is shorter.  Then the writer of the link never stops, and
  the stream that the worker receives is never at fault.

  Main statements:
    • `Pool.checked_of_call`            — whose requests are checked,
    • `Connection.Fits.flush`, …        — one transition of a connection,
    • `fits_act`, `writing_act`         — one act of the caller,
    • `CheckedRun.fits`, `CheckedRun.writing`, `CheckedRun.sound` — a run,
    • `checked_callers_meet_no_protocol_error` — the statement about exchanges.
-/
import RemoteCall.Pool.Basic
import RemoteCall.Proofs.Link.Onward
import RemoteCall.Proofs.Server.Taking

namespace RemoteCall

/-! ## §1. Checked requests. -/

/-- A request that is written within a limit. -/
def PendingCall.Fits (max : Nat) (call : PendingCall) : Prop :=
  requestHeaderLength + call.request.length ≤ max

/-- A call whose request has passed the check of a pool with these settings. -/
def PendingCall.Checked (config : PoolConfig) (call : PendingCall) : Prop :=
  ∃ p : Pool, p.config = config ∧ p.checkSize call.request = .ok ()

/-- **What has passed the check is written within the limit.** -/
theorem PendingCall.Checked.fits {config : PoolConfig} {call : PendingCall}
    (h : call.Checked config) : call.Fits config.maxMessageSize := by
  obtain ⟨p, rfl, hchecked⟩ := h
  unfold Pool.checkSize at hchecked
  dsimp only at hchecked
  split at hchecked
  · cases hchecked
  · next hfits => exact Nat.le_of_not_lt hfits

/-- **A call that is queued has been checked**, with the settings of its pool. -/
theorem Pool.checked_of_call {p : Pool} {key key' : ConnectionKey} {options : CallOptions}
    {request : Payload.Outgoing} {response : Payload.Shape} {call : PendingCall}
    (h : Command.call key' call ∈ (p.call key options request response).1.commands) :
    Command.call key' call ∈ p.commands ∨ call.Checked p.config := by
  unfold Pool.call at h
  dsimp only at h
  split at h
  · exact .inl h
  · next bytes _ =>
    split at h
    · exact .inl h
    · next hchecked =>
      unfold Pool.send at h
      cases haccepting : p.accepting with
      | true =>
        simp only [haccepting, if_true] at h
        rcases List.mem_append.mp h with hold | hnew
        · exact .inl hold
        · obtain ⟨rfl, rfl⟩ := Command.call.inj (List.mem_singleton.mp hnew)
          exact .inr ⟨_, rfl, hchecked⟩
      | false =>
        simp only [haccepting, Bool.false_eq_true, if_false] at h
        exact .inl h

/-! ## §2. One connection. -/

/-- All frames that are handed over are written within a limit. -/
def HandsWithin (max : Nat) (effects : List Effect) : Prop :=
  ∀ frame ∈ handedIn effects, frame.bodyLength ≤ max

theorem handsWithin_nil (max : Nat) : HandsWithin max [] :=
  fun _ hmem => absurd hmem List.not_mem_nil

theorem HandsWithin.append {max : Nat} {xs ys : List Effect} (h : HandsWithin max xs)
    (h' : HandsWithin max ys) : HandsWithin max (xs ++ ys) := by
  unfold HandsWithin
  rw [handedIn_append]
  exact fun frame hmem => (List.mem_append.mp hmem).elim (h frame) (h' frame)

namespace Connection

/-- All calls of a connection have requests that are written within a limit. -/
def Fits (max : Nat) (c : Connection) : Prop :=
  ∀ call ∈ c.calls, call.Fits max

variable {max : Nat} {c c' : Connection} {l : Ledger} {env : Surroundings} {config : PoolConfig}
  {now : Time}

/-- Calls may leave a connection. -/
theorem Fits.of_subset (h : c.Fits max) (hsub : c'.calls ⊆ c.calls) : c'.Fits max :=
  fun call hmem => h call (hsub hmem)

theorem handsWithin_leave (max : Nat) (c : Connection) : HandsWithin max c.leave := by
  unfold HandsWithin
  rw [handedIn_leave]
  exact handsWithin_nil max

/-- A link that keeps some of its calls. -/
theorem calls_subset_of_connected {live live' : Live} (hlive : c.phase = .connected live)
    (hsub : live'.inFlight ⊆ live.inFlight) :
    ({ c with phase := .connected live' } : Connection).calls ⊆ c.calls := by
  rw [calls_of_connected hlive]
  exact List.append_subset.mpr
    ⟨List.subset_append_of_subset_left _ (List.map_subset _ hsub), List.subset_append_right _ _⟩

theorem calls_subset_takeOut {live : Live} (hlive : c.phase = .connected live)
    (n : SequenceNumber) :
    ({ c with phase := .connected (live.takeOut n) } : Connection).calls ⊆ c.calls :=
  calls_subset_of_connected hlive (List.filter_subset_self live.inFlight)

end Connection

namespace Live

variable {env : Surroundings} {config : PoolConfig} {interface : UInt32} {live : Live}

/-- A cancel is not longer than the request of its call. -/
theorem bodyLength_cancel_le {max : Nat} {call : PendingCall} (h : call.Fits max)
    (interface : UInt32) (n : SequenceNumber) :
    (RequestFrame.cancel interface n).bodyLength ≤ max :=
  Nat.le_trans (Nat.le_add_right requestHeaderLength call.request.length) h

/-- Sending a call puts that call in flight, and no other. -/
theorem calls_transmit_subset (env : Surroundings) (config : PoolConfig) (interface : UInt32)
    (live : Live) (call : PendingCall) :
    (live.transmit env config interface call).1.calls ⊆ live.calls ++ [call] := by
  have hput : ∀ (other : Live) (n : SequenceNumber), other.inFlight = live.inFlight →
      (other.put n call).calls ⊆ live.calls ++ [call] := by
    intro other n hsame
    unfold Live.calls put
    rw [List.map_append, hsame]
    exact List.append_subset.mpr
      ⟨List.subset_append_of_subset_left _ (List.map_subset _ (List.filter_subset_self _)),
        List.subset_append_right _ _⟩
  cases hdup : env.duplicates config live.link live.next with
  | true =>
    rw [transmit_twice hdup]
    exact hput _ _ (inFlight_duplicate (live.advance) call)
  | false =>
    rw [transmit_once hdup]
    exact hput _ _ rfl

/-- **Sending the waiting calls** leaves no others in flight or waiting. -/
theorem calls_flush_subset {ledger : Ledger} {waiting : List PendingCall} :
    (live.flush env config interface ledger waiting).live.calls
        ++ (live.flush env config interface ledger waiting).waiting
      ⊆ live.calls ++ waiting := by
  induction waiting generalizing live with
  | nil => exact List.Subset.refl _
  | cons call rest ih =>
    cases hfin : ledger.isFinished call.id with
    | true =>
      rw [flush_finished hfin]
      refine List.Subset.trans ih (List.append_subset.mpr ⟨List.subset_append_left _ _, ?_⟩)
      exact List.subset_append_of_subset_right _ (List.subset_cons_self call rest)
    | false =>
      cases htakes : env.takes live.link (.call interface live.next call.request) with
      | true =>
        rw [flush_taken hfin htakes]
        refine List.Subset.trans ih (List.append_subset.mpr ⟨?_, ?_⟩)
        · refine List.Subset.trans (calls_transmit_subset env config interface live call) ?_
          exact List.append_subset.mpr ⟨List.subset_append_left _ _,
            fun other hother => List.mem_append_right _
              (List.mem_singleton.mp hother ▸ List.mem_cons_self)⟩
        · exact List.subset_append_of_subset_right _ (List.subset_cons_self call rest)
      | false =>
        rw [flush_refused hfin htakes]
        exact List.Subset.refl _

end Live

namespace Connection

variable {max : Nat} {c c' : Connection} {l : Ledger} {env : Surroundings} {config : PoolConfig}
  {now : Time}

/-- **The waiting calls are sent.** -/
theorem Fits.flush (h : c.Fits max) (env : Surroundings) (config : PoolConfig) (l : Ledger) :
    (c.flush env config l).1.Fits max ∧ HandsWithin max (c.flush env config l).2 := by
  cases hlive? : c.live? with
  | none =>
    rw [flush_of_live?_eq_none hlive?]
    exact ⟨h, handsWithin_nil max⟩
  | some live =>
    have hlive := phase_of_live? hlive?
    cases hdraining : live.draining with
    | true =>
      rw [flush_of_draining hlive hdraining]
      exact ⟨h, handsWithin_nil max⟩
    | false =>
      rw [flush_of_connected hlive hdraining]
      refine ⟨h.of_subset ?_, fun frame hmem => ?_⟩
      · rw [calls_of_connected hlive]
        exact Live.calls_flush_subset
      · obtain ⟨effect, heffect, hframe⟩ := List.mem_filterMap.mp hmem
        obtain ⟨call, hcall, -, n, taken, rfl⟩ := Live.of_mem_flush heffect
        cases hframe
        exact h call (List.mem_append_right _ hcall)

/-- **Calls time out**, and the agent is told. -/
theorem Fits.expire (h : c.Fits max) (env : Surroundings) (now : Time) (l : Ledger) :
    (c.expire env now l).connection.Fits max ∧ HandsWithin max (c.expire env now l).effects := by
  refine ⟨h.of_subset ?_, ?_⟩
  · rw [calls_expire]
    exact List.filter_subset_self _
  · unfold Connection.expire
    dsimp only
    split
    · next live hlive =>
      intro frame hmem
      obtain ⟨effect, heffect, hframe⟩ := List.mem_filterMap.mp hmem
      obtain ⟨⟨n, call⟩, hsettled, rfl⟩ := List.mem_map.mp heffect
      -- whatever is cancelled was in flight
      have hcall : call ∈ c.calls := by
        rw [calls_of_connected hlive]
        exact List.mem_append_left _ (List.mem_map_of_mem (List.mem_filter.mp hsettled).1)
      cases hframe
      exact Live.bodyLength_cancel_le (h call hcall) _ n
    · exact handsWithin_nil max

/-- **A call is let go of**, and the agent is told. -/
theorem Fits.cancel (h : c.Fits max) {id : CallId} {sent : List Effect}
    (hcancel : c.cancel? env id = some (c', sent)) : c'.Fits max ∧ HandsWithin max sent := by
  cases letGo hcancel with
  | waiting =>
    refine ⟨h.of_subset ?_, handsWithin_nil max⟩
    exact List.append_subset.mpr ⟨List.subset_append_left _ _,
      List.subset_append_of_subset_right _ List.eraseP_sublist.subset⟩
  | @inFlight live n call hphase hmem _ =>
    have hcall : call ∈ c.calls := by
      rw [calls_of_connected hphase]
      exact List.mem_append_left _ (List.mem_map_of_mem hmem)
    refine ⟨h.of_subset (calls_subset_takeOut hphase n), fun frame hframe => ?_⟩
    rw [List.mem_singleton.mp hframe]
    exact Live.bodyLength_cancel_le (h call hcall) _ n

/-- **The link is lost**: a call that is charged a retry keeps its request. -/
theorem Fits.lose (h : c.Fits max) (config : PoolConfig) (e : Failure) (l : Ledger) :
    (c.lose config e l).connection.Fits max ∧ HandsWithin max (c.lose config e l).effects := by
  refine ⟨fun call hmem => ?_, ?_⟩
  · have hwaits : (c.lose config e l).connection.calls
        = (c.lose config e l).connection.waiting := calls_of_live?_eq_none (live?_lose e l)
    rw [hwaits] at hmem
    have hcharged : ∀ {calls : List PendingCall}, calls ⊆ c.calls →
        call ∈ (Ledger.chargeAll config.callRetries e calls l).1 → call.Fits max := by
      intro calls hsub hkept
      obtain ⟨old, hold, rfl, -⟩ := Ledger.of_mem_chargeAll hkept
      exact h old (hsub hold)
    have hwaiting : ∀ {ledger : Ledger}, call ∈ ledger.unsettled c.waiting → call.Fits max :=
      fun hold => h call (List.mem_append_right _ (Ledger.mem_unsettled.mp hold).1)
    cases hlive? : c.live? with
    | none =>
      rw [lose_attempt hlive?] at hmem
      exact hcharged (List.subset_append_right _ _) hmem
    | some live =>
      have hlive := phase_of_live? hlive?
      cases hfault : e.isProtocol || e.isVersionRejection with
      | true =>
        rw [lose_at_fault hlive hfault] at hmem
        exact hwaiting hmem
      | false =>
        rw [lose_link hlive hfault] at hmem
        rcases List.mem_append.mp hmem with hkept | hold
        · exact hcharged (fun _ hin => List.mem_append_left _ (c.inFlightByAge_perm.subset hin)) hkept
        · exact hwaiting hold
  · rw [effects_lose]
    exact c.handsWithin_leave max

/-- **A response has arrived.** -/
theorem Fits.respond (h : c.Fits max) (config : PoolConfig) (frame : ResponseFrame) (l : Ledger) :
    (c.respond config frame l).connection.Fits max
      ∧ HandsWithin max (c.respond config frame l).effects := by
  -- a call that waits again is the one that was in flight, with the same request
  have hagain : ∀ {live : Live} {call : PendingCall}, c.Finds frame live call →
      ∀ (live' : Live) (call' : PendingCall) (retries : Nat), live'.inFlight ⊆ live.inFlight →
      call'.request = call.request →
      ({ c with
          phase := .connected live'
          waiting := c.waiting ++ [call']
          retries } : Connection).Fits max := by
    intro live call hfinds live' call' retries hsub hsame other hmem
    have hheld : call ∈ c.calls := by
      rw [calls_of_connected hfinds.phase]
      exact List.mem_append_left _ (List.mem_map_of_mem (mem_of_find?_key hfinds.found))
    rcases List.mem_append.mp hmem with hin | hwaits
    · exact h other (calls_subset_of_connected hfinds.phase hsub (List.mem_append_left _ hin))
    · rcases List.mem_append.mp hwaits with hold | hnew
      · exact h other (List.mem_append_right _ hold)
      · rw [List.mem_singleton.mp hnew]
        unfold PendingCall.Fits
        rw [hsame]
        exact h call hheld
  have hresponded := responded config frame c l
  generalize c.respond config frame l = moved at *
  cases hresponded with
  | ignored _ => exact ⟨h, handsWithin_nil max⟩
  | @dropped live hphase _ =>
    exact ⟨h.of_subset (calls_subset_of_connected hphase (List.Subset.refl _)),
      handsWithin_nil max⟩
  | delivered hfinds | unreadable hfinds | failed hfinds =>
    exact ⟨h.of_subset (calls_subset_takeOut hfinds.phase _), handsWithin_nil max⟩
  | @retried live call payload hfinds =>
    exact ⟨hagain hfinds (live.takeOut frame.sequence) call.charged (c.retries + 1)
      (List.filter_subset_self _) rfl, handsWithin_nil max⟩
  | @refused live call e hfinds =>
    exact ⟨hagain hfinds { live.takeOut frame.sequence with draining := true } call c.retries
      (List.filter_subset_self _) rfl, handsWithin_nil max⟩
  | rejected hfinds => exact (h.of_subset (calls_subset_takeOut hfinds.phase _)).lose config _ _

/-- **Whatever is due is done.** -/
theorem Fits.advance (h : c.Fits max) (env : Surroundings) (config : PoolConfig) (now : Time)
    (l : Ledger) :
    (c.advance env config now l).connection.Fits max
      ∧ HandsWithin max (c.advance env config now l).effects := by
  obtain ⟨hexpired, htold⟩ := h.expire env now l
  -- backing off and seeking hand nothing over and let go of no call
  have hrested : ((c.expire env now l).connection.backOff config now).Fits max := by
    unfold backOff
    split
    · exact hexpired.of_subset (List.subset_append_right _ _)
    · exact hexpired
  have hsought : (c.sought env config now l).1.Fits max
      ∧ HandsWithin max (c.sought env config now l).2 := by
    unfold sought
    dsimp only
    split
    · unfold seek
      split
      · exact ⟨hrested, handsWithin_nil max⟩
      · exact ⟨hrested.of_subset (List.subset_append_right _ _), handsWithin_nil max⟩
    · exact ⟨hrested, handsWithin_nil max⟩
  obtain ⟨hflushed, hsent⟩ := hsought.1.flush env config (c.expire env now l).ledger
  rw [advance_eq]
  refine ⟨hflushed.of_subset ?_, (htold.append hsought.2).append hsent⟩
  unfold noteDemand
  split <;> [skip; split] <;> exact List.Subset.refl _

end Connection

/-! ## §3. Exchanges with checked calls. -/

namespace Exchange

variable {σ : Type} {service : Service σ} {limits : EndpointConfig} {config : PoolConfig}
  {effects : List Effect} {history : List (Worker.Moment σ)} {x : Exchange σ}

/-- A call that joins those that wait has passed the check. -/
def Act.Checked (config : PoolConfig) : Act → Prop
  | .queued call => call.Checked config
  | _ => True

/-- An exchange has come this far, and only calls that have passed the check have taken part: those
that waited when the link was new, and those that have joined them. -/
inductive CheckedRun (service : Service σ) (limits : EndpointConfig) (config : PoolConfig) :
    List Effect → List (Worker.Moment σ) → Exchange σ → Prop where
  /-- The link is new. -/
  | start (c : Connection) (ledger : Ledger) (peer : PeerName) (link : LinkId) (origin : PeerName) :
    (∀ call ∈ c.waiting, call.Checked config) →
    CheckedRun service limits config [] []
      { caller := (c.attach peer link).1, ledger, agent := { worker := .new service origin } }
  /-- The caller does something. -/
  | caller {effects : List Effect} {history : List (Worker.Moment σ)} {x : Exchange σ}
    (run : CheckedRun service limits config effects history x) (act : Act) : act.Checked config →
    CheckedRun service limits config (effects ++ (x.act config act).2) history (x.act config act).1
  /-- Something happens at the agent. -/
  | agent {effects : List Effect} {history : List (Worker.Moment σ)} {x : Exchange σ}
    (run : CheckedRun service limits config effects history x) (occurrence : Worker.Occurrence) :
    x.agent.Admits limits occurrence →
    (⟨x.agent, occurrence⟩ : Worker.Moment σ).arrived <+: x.outgoing →
    CheckedRun service limits config effects (history ++ [⟨x.agent, occurrence⟩])
      (x.serve service limits occurrence)

/-- It is an exchange. -/
theorem CheckedRun.run (h : CheckedRun service limits config effects history x) :
    Run service limits config effects history x := by
  induction h with
  | start c ledger peer link origin _ => exact .start c ledger peer link origin
  | caller _ act _ ih => exact ih.caller act
  | agent _ occurrence hadmits harrived ih => exact ih.agent occurrence hadmits harrived

/-- **What the caller does keeps within the limit.** -/
theorem fits_act (h : x.caller.Fits config.maxMessageSize) {act : Act}
    (hchecked : act.Checked config) :
    (x.act config act).1.caller.Fits config.maxMessageSize
      ∧ HandsWithin config.maxMessageSize (x.act config act).2 := by
  obtain ⟨hcaller, -, heffects⟩ := act_eq config x act
  rw [hcaller, heffects]
  have hnothing := handsWithin_nil config.maxMessageSize
  cases act with
  | queued call =>
    refine ⟨fun other hmem => ?_, hnothing⟩
    rcases List.mem_append.mp hmem with hin | hwaits
    · exact h other (List.mem_append_left _ hin)
    · rcases List.mem_append.mp hwaits with hold | hnew
      · exact h other (List.mem_append_right _ hold)
      · rw [List.mem_singleton.mp hnew]
        exact PendingCall.Checked.fits hchecked
  | flushed env => exact h.flush env config x.ledger
  | expired env now => exact h.expire env now x.ledger
  | advanced env now => exact h.advance env config now x.ledger
  | canceled env id =>
    unfold moveOf
    dsimp only
    split
    · next hcancel => exact h.cancel hcancel
    · exact ⟨h, hnothing⟩
  | looked =>
    unfold moveOf
    dsimp only
    split
    · exact h.respond config _ x.ledger
    · exact ⟨h, hnothing⟩
  | lost e => exact h.lose config e x.ledger
  | observed _ | read _ => exact ⟨h, hnothing⟩

/-- **All frames that the connection hands over fit.** -/
theorem CheckedRun.fits (h : CheckedRun service limits config effects history x) :
    x.caller.Fits config.maxMessageSize ∧ HandsWithin config.maxMessageSize effects := by
  induction h with
  | start c ledger peer link origin hchecked =>
    exact ⟨fun call hmem => (hchecked call hmem).fits, handsWithin_nil _⟩
  | caller _ act hchecked ih =>
    obtain ⟨hcaller, hhanded⟩ := fits_act ih.1 hchecked
    exact ⟨hcaller, ih.2.append hhanded⟩
  | agent _ _ _ _ ih => exact ih

/-- A writer that is given a frame that fits goes on. -/
theorem writing_write {max : Nat} {frame : RequestFrame} (h : x.writing = true)
    (hfits : frame.bodyLength ≤ max) : (x.write max frame).writing = true := by
  unfold write
  rw [if_pos h, RequestFrame.encode_eq, if_neg (Nat.not_lt.mpr hfits)]
  exact h

/-- A writer that is given frames that fit goes on. -/
theorem writing_move (h : x.writing = true) {moved : Moved}
    (hfits : HandsWithin config.maxMessageSize moved.effects) :
    (x.move config moved).1.writing = true := by
  have hall : ∀ (frames : List RequestFrame), (∀ frame ∈ frames,
      frame.bodyLength ≤ config.maxMessageSize) → ∀ y : Exchange σ, y.writing = true →
      (frames.foldl (write config.maxMessageSize) y).writing = true := by
    intro frames
    induction frames with
    | nil => exact fun _ _ hy => hy
    | cons frame frames ih =>
      intro hframes y hy
      exact ih (fun other hother => hframes other (List.mem_cons_of_mem _ hother)) _
        (writing_write hy (hframes frame List.mem_cons_self))
  exact hall _ (fun frame hmem => hfits frame ((takenIn_sublist _).subset hmem)) _ h

/-- What the caller does leaves the writer alone, or gives it the frames of that act. -/
theorem writing_act (h : x.writing = true) {act : Act}
    (hfits : HandsWithin config.maxMessageSize (x.act config act).2) :
    (x.act config act).1.writing = true := by
  cases act with
  | queued call => exact h
  | observed ledger => exact h
  | flushed env => exact writing_move h hfits
  | expired env now => exact writing_move h hfits
  | advanced env now => exact writing_move h hfits
  | canceled env id =>
    unfold Exchange.act at hfits ⊢
    dsimp only at hfits ⊢
    cases hcancel : x.caller.cancel? env id with
    | none => exact h
    | some letGo =>
      rw [hcancel] at hfits
      exact writing_move h hfits
  | looked =>
    unfold Exchange.act at hfits ⊢
    dsimp only at hfits ⊢
    cases hnext : x.responses with
    | nil => exact h
    | cons frame later =>
      rw [hnext] at hfits
      exact writing_move (x := { x with responses := later }) h hfits
  | lost e => exact writing_move h hfits
  | read count =>
    show (x.read config.maxMessageSize count).writing = true
    unfold Exchange.read
    split <;> exact h

/-- **The writer of the link never stops.** -/
theorem CheckedRun.writing (h : CheckedRun service limits config effects history x) :
    x.writing = true := by
  induction h with
  | start c ledger peer link origin _ => rfl
  | caller run act hchecked ih => exact writing_act ih (fits_act run.fits.1 hchecked).2
  | agent _ _ _ _ ih => exact ih

/-- **The stream that the worker receives is not at fault**, as long as the numbers suffice and the
caller's limit is not above the agent's. -/
theorem CheckedRun.sound (h : CheckedRun service limits config effects history x)
    (hroom : Suffices effects) (hword : config.maxMessageSize < 2 ^ 32)
    (hmax : config.maxMessageSize ≤ limits.maxMessageSize) :
    (RequestFrame.drain limits.maxMessageSize (Worker.receivedOf history)).2.1 = none := by
  have hsaid := (h.run.dealt hroom).toSaid
  obtain ⟨put, hput, hbytes⟩ := h.run.traced.requests
  have hhanded := hput.trans (takenIn_sublist effects)
  -- what is written so far is whole frames, of which the worker has received a beginning
  have hwhole : RequestFrame.drain limits.maxMessageSize
      (Worker.receivedOf history ++ x.outgoing) = (put, none, []) := by
    rw [← hbytes]
    refine Frame.drainWith_flatMap_eq fun frame hmem rest => ?_
    have hmem' := hhanded.subset hmem
    have hfits := h.fits.2 frame hmem'
    exact RequestFrame.decode_bytes_of_le
      ⟨hsaid.size frame hmem', Nat.lt_of_le_of_lt hfits hword⟩ (Nat.le_trans hfits hmax) rest
  exact Frame.drainWith_sound (congrArg (·.2.1) hwhole)

end Exchange

/-! ## §4. No protocol error. -/

namespace Exchange

variable {σ : Type} {service : Service σ} {limits : EndpointConfig} {config : PoolConfig}
  {effects : List Effect} {history : List (Worker.Moment σ)} {x : Exchange σ}

/-- **A caller with checked requests never provokes a protocol error.**  The calls that take part
have passed the check of the pool; fewer than 2^64 numbers are used on the link; the caller's limit
is below 2³² bytes and not above the agent's; and the service speaks the version of the connection.
Writers may refuse frames, calls may be sent twice, time out, be let go of or be answered, and
bytes may arrive in any chunks.

Every frame that is handed over can be written under the caller's limit, so that the writer never
stops.  The stream that the worker receives is not at fault, and at no moment does the worker meet
a protocol error. -/
theorem checked_callers_meet_no_protocol_error
    (run : CheckedRun service limits config effects history x) (hroom : Suffices effects)
    (hword : config.maxMessageSize < 2 ^ 32)
    (hmax : config.maxMessageSize ≤ limits.maxMessageSize)
    (hspoken : service.supports x.caller.key.interface = true) :
    (∀ frame ∈ handedIn effects, ∃ bytes, frame.encode config.maxMessageSize = .ok bytes)
      ∧ x.writing = true
      ∧ (RequestFrame.drain limits.maxMessageSize (Worker.receivedOf history)).2.1 = none
      ∧ ∀ m ∈ history, m.fault? service limits = none := by
  have hsound := run.sound hroom hword hmax
  have hrequests : ∀ frame ∈ handedIn effects, frame.bodyLength < 2 ^ 32 :=
    fun frame hmem => Nat.lt_of_le_of_lt (run.fits.2 frame hmem) hword
  refine ⟨fun frame hmem => ⟨frame.bytes, ?_⟩, run.writing, hsound, ?_⟩
  · rw [RequestFrame.encode_eq, if_neg (Nat.not_lt.mpr (run.fits.2 frame hmem))]
  · exact run.run.served.fault?_eq_none hspoken hsound
      (run.run.wellFormed hroom hrequests limits.maxMessageSize)

/-- A call is sent and let go of; the worker takes both frames in two pieces, and goes on. -/
theorem checked_callers_meet_no_protocol_error_when_canceled :
    ∃ (effects : List Effect) (history : List (Worker.Moment Unit)) (x : Exchange Unit),
      CheckedRun Worker.keeper {} {} effects history x
      ∧ handedIn effects = [.call defaultVersion 0 [7], .cancel defaultVersion 0]
      ∧ Worker.receivedOf history = (handedIn effects).flatMap (·.bytes)
      ∧ x.writing = true ∧ x.agent.worker.reading = true
      ∧ (∀ m ∈ history, m.fault? Worker.keeper {} = none) := by
  have start : CheckedRun Worker.keeper {} {} [] [] _ :=
    .start oneWaits (({} : Ledger).issue 1 .u8) (.unix ⟨"/agent"⟩) 3 (.unix ⟨""⟩)
      fun call hmem => ⟨{ config := {}, subscription := .start {} }, rfl, by
        rw [List.mem_singleton.mp hmem]
        rfl⟩
  have sent := start.caller (.flushed openWriter) trivial
  have canceled := sent.caller (.canceled openWriter 1) trivial
  have first := canceled.agent
    (.worked (.received ((RequestFrame.call defaultVersion 0 [7]).bytes.take 10)))
    (by decide +kernel) (by decide +kernel)
  have second := first.agent
    (.worked (.received ((RequestFrame.call defaultVersion 0 [7]).bytes.drop 10
      ++ (RequestFrame.cancel defaultVersion 0).bytes))) (by decide +kernel) (by decide +kernel)
  obtain ⟨-, hwriting, -, hnone⟩ := checked_callers_meet_no_protocol_error second
    (by decide +kernel) (by decide +kernel) (Nat.le_refl _) (by decide +kernel)
  exact ⟨_, _, _, second, by decide +kernel, by decide +kernel, hwriting, by decide +kernel, hnone⟩

end Exchange

end RemoteCall

/-
  RemoteCall.Proofs.Pool.Cancelling
  ─────────────────────────────────
  **A POOL CANCELS THE ATTEMPTS THAT IT GIVES UP, AND NO OTHERS.**

  A call is in flight on a link under the number of its first frame.  It leaves
  flight

      given up   — its caller has aborted it, its deadline has come, or it is
                   found to have an outcome when deadlines are looked at
      answered   — a response has arrived under its number
      lost       — the link is lost

  and it is when it is given up that the agent is told, by one cancel frame
  under its number.  A call that is settled while it waits causes no frame.

  Main statements:
    • `Accounts.cancels_iff`      — a cancel frame means that a call is given up,
    • `Told.leaves`               — how a call leaves flight,
    • `Run.silent_when_waiting`   — calls that are settled while they wait,
    • `cancels_are_the_attempts_given_up` — the whole.
-/
import RemoteCall.Proofs.Pool.Telling

namespace RemoteCall.Pool

variable {config : PoolConfig} {history past later : List Moment} {effects : List Effect}
  {p : Pool} {m : Moment} {event : Event} {key : ConnectionKey} {link : LinkId} {generation : Nat}
  {c : Connection} {live live' : Live} {env : Surroundings} {now : Time} {l : Ledger}

/-! ## §1. The calls that are given up. -/

/-- **A call that has an outcome in the turn of its connection** had one before, or its deadline has
come. -/
theorem Accounts.finished_in_turn (h : Accounts history p)
    (hturn : InTurn (Connection.advance env p.config now) p c l) {call : PendingCall}
    (hcall : call ∈ c.calls) :
    (c.expire env now l).ledger.isFinished call.id = true
      ↔ call.isExpired now = true ∨ p.ledger.isFinished call.id = true := by
  have hc : c ∈ p.connections := by
    obtain ⟨before, after, hsplit, -⟩ := hturn
    rw [hsplit]
    exact List.mem_append_right _ List.mem_cons_self
  have hgrows := (hturn.grows (Connection.grows_advance env p.config now)).1
  rw [Connection.ledger_expire]
  constructor
  · intro hfin
    cases hopen : p.ledger.isFinished call.id with
    | true => exact .inr rfl
    | false =>
      refine .inl ?_
      have hturn' := (hturn.get? (fun c l _ => Connection.get?_advance c l) h hcall hopen).1
      -- a call with the number of this one has timed out
      have hmem : call.id ∈ ((c.waiting ++ c.inFlight).filter (·.isExpired now)).map (·.id) := by
        by_contra hno
        have hsame : (l.timeOut now (c.waiting ++ c.inFlight)).get? call.id = l.get? call.id :=
          Ledger.get?_failAll_of_notMem hno _ _
        rw [Ledger.isFinished_eq, hsame, hturn', ← Ledger.isFinished_eq, hopen] at hfin
        cases hfin
      obtain ⟨other, hother, hid⟩ := List.mem_map.mp hmem
      obtain ⟨hother, hexpired⟩ := List.mem_filter.mp hother
      have hheld : other ∈ c.calls := 
        (show (c.waiting ++ c.inFlight).Perm c.calls from List.perm_append_comm).subset hother
      have heq := h.eq_of_id (x := (c.key, call)) (y := (c.key, other))
        (mem_held.mpr ⟨c, hc, rfl, hcall⟩) (mem_held.mpr ⟨c, hc, rfl, hheld⟩) hopen hid
      rw [← (Prod.mk.inj heq).2]
      exact hexpired
  · rintro (hexpired | hfin)
    · have hmem : call.id ∈ ((c.waiting ++ c.inFlight).filter (·.isExpired now)).map (·.id) :=
        List.mem_map_of_mem (List.mem_filter.mpr ⟨List.perm_append_comm.subset hcall, hexpired⟩)
      exact Ledger.isFinished_failAll hmem _ (hgrows.knows (h.knows_of_mem hc hcall))
    · exact (Ledger.grows_timeOut l now _).isFinished (hgrows.isFinished hfin)

/-- **A call is cancelled when it is given up**, and only then: it was in flight under the number,
and is so no more. -/
theorem Accounts.cancels_iff (h : Accounts history m.before)
    (howns : Owns key link m.before.connections) (n : SequenceNumber) (call : PendingCall) :
    (∃ taken, .cancel n call taken ∈ m.handed link)
      ↔ m.before.InFlight key link n call ∧ ¬ m.after.InFlight key link n call
        ∧ GivenUp m call := by
  by_cases hhas : ∃ live, m.before.live? key = some live ∧ live.link = link
  · obtain ⟨live, hlive, rfl⟩ := hhas
    obtain ⟨c, hc, hphase⟩ := live?_eq_some.mp hlive
    obtain ⟨hmem, rfl⟩ := mem_of_connection? hc
    have hbefore : m.before.InFlight c.key live.link n call ↔ (n, call) ∈ live.inFlight := by
      constructor
      · rintro ⟨other, hother, -, hflight⟩
        rw [hlive] at hother
        cases hother
        exact hflight
      · exact fun hflight => ⟨live, hlive, rfl, hflight⟩
    have hnone : m.handed live.link = [] →
        ¬ ∃ taken, .cancel n call taken ∈ m.handed live.link := by
      rintro hhanded ⟨taken, hcancel⟩
      rw [hhanded] at hcancel
      exact absurd hcancel List.not_mem_nil
    rw [hbefore]
    cases h.tidy.link_cases howns hc hphase with
    | @advanced env now l hevent hturn hhanded =>
      rw [hhanded, Connection.mem_handed hphase]
      have hturned : (n, call) ∈ live.inFlight →
          ((c.expire env now l).ledger.isFinished call.id = true
            ↔ call.isExpired now = true ∨ m.before.ledger.isFinished call.id = true) := by
        intro hflight
        refine h.finished_in_turn hturn ?_
        rw [Connection.calls_of_connected hphase]
        exact List.mem_append_left _ (List.mem_map_of_mem hflight)
      constructor
      · rintro ⟨hflight, hfin⟩
        refine ⟨hflight, ?_, ?_⟩
        · rintro ⟨live', hlive', -, hstill⟩
          have hphase' := h.tidy.phase_of_advance hevent hturn hlive'
          rw [(Connection.inFlight_advance hphase hphase' hstill).1] at hfin
          cases hfin
        · exact ((hturned hflight).mp hfin).elim (.expired hevent) (.finished hevent)
      · rintro ⟨hflight, -, hgiven⟩
        refine ⟨hflight, (hturned hflight).mpr ?_⟩
        cases hgiven with
        | aborted hother =>
          rw [hevent] at hother
          cases hother
        | expired hother hexpired =>
          rw [hevent] at hother
          cases hother
          exact .inl hexpired
        | finished _ hfin => exact .inr hfin
    | @letGo env now k other taken hevent hflight hhanded hlive' =>
      constructor
      · rintro ⟨took, hcancel⟩
        rw [hhanded] at hcancel
        cases List.mem_singleton.mp hcancel
        refine ⟨hflight, ?_, .aborted hevent⟩
        rintro ⟨live', hafter, -, hstill⟩
        rw [hlive'] at hafter
        cases hafter
        simpa using (List.mem_filter.mp hstill).2
      · rintro ⟨hheld, hgone, -⟩
        -- the call that has left flight was under the number that is cancelled
        have hnumber : n = k := by
          by_contra hne
          exact hgone ⟨live.takeOut k, hlive', rfl, List.mem_filter.mpr ⟨hheld, by simpa using hne⟩⟩
        subst hnumber
        have hsame := List.inj_on_of_nodup_map (h.tidy.numbered c hmem live hphase).1 hheld hflight
          rfl
        rw [(Prod.mk.inj hsame).2]
        exact ⟨taken, hhanded ▸ List.mem_singleton_self _⟩
    | answered hevent hhanded _ _ _ =>
      refine iff_of_false (hnone hhanded) fun ⟨_, _, hgiven⟩ => ?_
      cases hgiven with
      | aborted hother | expired hother _ | finished hother _ =>
        rw [hevent] at hother
        cases hother
    | stays hhanded hlive' hgoes hsame =>
      refine iff_of_false (hnone hhanded) fun ⟨hflight, hgone, _⟩ => ?_
      exact hgone ⟨_, hlive', hgoes.link, hsame ▸ hflight⟩
    | lost hadvance habort hhanded _ =>
      refine iff_of_false (hnone hhanded) fun ⟨_, _, hgiven⟩ => ?_
      cases hgiven with
      | aborted hevent => exact habort _ _ _ hevent
      | expired hevent _ | finished hevent _ => exact hadvance _ _ hevent
  · rw [Moment.handed_of_others fun c hc live hphase hlink => ?_]
    · refine iff_of_false (fun ⟨_, hcancel⟩ => absurd hcancel List.not_mem_nil) ?_
      exact fun ⟨⟨live, hlive, hlink, _⟩, _⟩ => hhas ⟨live, hlive, hlink⟩
    · have hfind := connection?_of_mem h.tidy.keys hc
      rw [howns c hc live hphase hlink] at hfind
      exact hhas ⟨live, live?_eq_some.mpr ⟨c, hfind, hphase⟩, hlink⟩

/-- A connection that has a call in flight when what is due has been done is not removed. -/
theorem Tidy.stays_of_inFlight (h : Tidy effects m.before) (hevent : m.event = .advance env now)
    (hturn : InTurn (Connection.advance env m.before.config now) m.before c l)
    (hphase' : (c.advance env m.before.config now l).connection.phase = .connected live')
    {x : SequenceNumber × PendingCall} (hx : x ∈ live'.inFlight) :
    m.after.live? c.key = some live' := by
  have hkey := (Connection.moves_advance env m.before.config now c l).key
  obtain ⟨before, after, hsplit, rfl⟩ := hturn
  obtain ⟨hmoved, -⟩ := moveAll_between (Connection.advance env m.before.config now) before after c
    m.before.ledger
  rw [← hsplit] at hmoved
  have hkept : (c.advance env m.before.config now (moveAll (Connection.advance env m.before.config
      now) before m.before.ledger).2.1).connection ∈ (m.before.advance env now).1.connections := by
    refine List.mem_filter.mpr ⟨hmoved, ?_⟩
    rw [Bool.not_eq_true']
    by_contra hspent
    have hcalls := calls_of_spent_advance hmoved (by simpa using hspent)
    rw [Connection.calls_of_connected hphase'] at hcalls
    exact absurd (List.map_eq_nil_iff.mp (List.append_eq_nil_iff.mp hcalls).1)
      (List.ne_nil_of_mem hx)
  have hfind := connection?_of_mem (h.advance env now).2.keys hkept
  rw [hkey] at hfind
  refine live?_eq_some.mpr ⟨_, ?_, hphase'⟩
  rw [Moment.after, hevent]
  exact hfind

/-- **How a call leaves flight**: it is given up, or it is answered or its link is lost, and then
nothing is handed to the writer. -/
theorem Told.leaves (h : Told key link history m.before) (haccounts : Accounts history m.before)
    (howns : Owns key link m.before.connections)
    (hroom : (numbersOf (handedOn link (history ++ [m]))).length < 2 ^ 64) {n : SequenceNumber}
    {call : PendingCall} (hbefore : m.before.InFlight key link n call)
    (hgone : ¬ m.after.InFlight key link n call) :
    GivenUp m call
      ∨ m.handed link = []
        ∧ ((∃ env now generation frame,
            m.event = .look env now (.notice (.response key generation frame))
              ∧ frame.sequence = n)
          ∨ m.after.live? key = none) := by
  obtain ⟨live, hlive, rfl, hflight⟩ := hbefore
  obtain ⟨c, hc, hphase⟩ := live?_eq_some.mp hlive
  obtain ⟨-, rfl⟩ := mem_of_connection? hc
  have hroom' : (numbersOf (handedOn live.link history)).length < 2 ^ 64 := by
    rw [handedOn_concat, numbersOf_append, List.length_append] at hroom
    omega
  cases haccounts.tidy.link_cases howns hc hphase with
  | @advanced env now l hevent hturn hhanded =>
    refine .inl ?_
    cases hfin : (c.expire env now l).ledger.isFinished call.id with
    | true =>
      refine (haccounts.finished_in_turn hturn ?_ |>.mp hfin).elim (.expired hevent)
        (.finished hevent)
      rw [Connection.calls_of_connected hphase]
      exact List.mem_append_left _ (List.mem_map_of_mem hflight)
    | false =>
      -- as long as the numbers suffice, no call gives way to another
      rw [handedOn_concat, hhanded] at hroom
      have hphase' := Connection.phase_advance_of_connected hphase env m.before.config now l
      obtain ⟨-, hsub⟩ := Connection.counts_advance hphase (h.counts hroom' live hlive rfl) hroom
        hphase'
      have hstill := hsub (List.mem_filter.mpr ⟨hflight, by simp [hfin]⟩)
      refine absurd ⟨_, haccounts.tidy.stays_of_inFlight hevent hturn hphase' hstill, ?_, hstill⟩
        hgone
      split
      · rfl
      · exact Live.link_flush _ _ _ _ _ _
  | @letGo env now k other taken hevent hother hhanded hlive' =>
    refine .inl ?_
    have hnumber : n = k := by
      by_contra hne
      exact hgone ⟨live.takeOut k, hlive', rfl, List.mem_filter.mpr ⟨hflight, by simpa using hne⟩⟩
    subst hnumber
    have hdistinct := (haccounts.tidy.numbered c (mem_of_connection? hc).1 live hphase).1
    obtain rfl := (Prod.mk.inj (List.inj_on_of_nodup_map hdistinct hflight hother rfl)).2
    exact .aborted hevent
  | @answered env now frame live' hevent hhanded hlive' hgoes hsame =>
    refine .inr ⟨hhanded, .inl ⟨env, now, c.generation, frame, hevent, ?_⟩⟩
    by_contra hne
    refine hgone ⟨live', hlive', hgoes.link, ?_⟩
    rw [hsame]
    exact List.mem_filter.mpr ⟨hflight, by simpa using fun heq => hne heq.symm⟩
  | stays _ hlive' hgoes hsame => exact absurd ⟨_, hlive', hgoes.link, hsame ▸ hflight⟩ hgone
  | lost _ _ hhanded hlive' => exact .inr ⟨hhanded, .inr hlive'⟩

/-! ## §2. Calls that are settled while they wait. -/

/-- A frame that is no call frame is for a call in flight. -/
theorem inFlight_of_mem_effects {other : LinkId} {x : PendingCall} {frame : RequestFrame}
    {taken : Bool} (hmem : .send other x frame taken ∈ (p.after event).2)
    (hkind : frame.kind ≠ .call) :
    ∃ d ∈ p.connections, ∃ live, d.phase = .connected live ∧ x ∈ live.calls := by
  rcases eq_letGo_of_isFrame hmem rfl with ⟨env, now, rfl⟩ | ⟨env, now, id, rfl⟩
  · rcases List.mem_append.mp hmem with hmoved | hspent
    · obtain ⟨before, d, after, hsplit, heffect, -⟩ := of_mem_moveAll hmoved
      refine ⟨d, hsplit ▸ List.mem_append_right _ List.mem_cons_self, ?_⟩
      cases hlive? : d.live? with
      | none => cases Connection.isFrame_advance_of_live?_eq_none hlive? heffect
      | some live =>
        have hphase := Connection.phase_of_live? hlive?
        rw [Connection.effects_advance_of_connected hphase] at heffect
        obtain ⟨handed, hhanded, heq⟩ := List.mem_map.mp heffect
        cases handed with
        | original n call took =>
          cases heq
          exact absurd rfl hkind
        | duplicate n call took =>
          cases heq
          exact absurd rfl hkind
        | cancel n call took =>
          cases heq
          obtain ⟨hflight, -⟩ := (Connection.mem_handed hphase).mp ⟨_, hhanded⟩
          exact ⟨live, hphase, List.mem_map_of_mem hflight⟩
    · obtain ⟨d, -, hleave⟩ := List.mem_flatMap.mp hspent
      cases Connection.isFrame_leave hleave
  · replace hmem : .send other x frame taken ∈ (cancelIn env id p.connections).2 := hmem
    rcases effects_cancelIn env id p.connections with
      hnone | ⟨d, hd, live, n, call, hphase, hflight, -, hsent⟩
    · rw [hnone] at hmem
      exact absurd hmem List.not_mem_nil
    · rw [hsent] at hmem
      cases List.mem_singleton.mp hmem
      exact ⟨d, hd, live, hphase, List.mem_map_of_mem hflight⟩

/-- No call with the number is in flight. -/
def Grounded (id : CallId) (p : Pool) : Prop :=
  ∀ d ∈ p.connections, ∀ live, d.phase = .connected live → ∀ x ∈ live.calls, x.id ≠ id

/-- **A call that is settled and not in flight** is not put in flight, and causes no frame. -/
theorem Accounts.grounded_after (h : Accounts history p) {id : CallId}
    (hfin : (p.after event).1.ledger.isFinished id = true) (hgrounded : Grounded id p) :
    Grounded id (p.after event).1
      ∧ ∀ other x frame taken, .send other x frame taken ∈ (p.after event).2 → x.id ≠ id := by
  have hsilent : ∀ other x frame taken, .send other x frame taken ∈ (p.after event).2 →
      x.id ≠ id := by
    intro other x frame taken hmem
    by_cases hkind : frame.kind = .call
    · -- call frames are for calls that are open
      have hcall : (Effect.send other x frame taken).isCall = true := beq_iff_eq.mpr hkind
      obtain ⟨y, -, hopen, _, _, _, heq⟩ := h.of_mem_effects hmem hcall
      cases heq
      rintro rfl
      rw [hfin] at hopen
      cases hopen
    · obtain ⟨d, hd, live, hphase, hx⟩ := inFlight_of_mem_effects hmem hkind
      exact hgrounded d hd live hphase x hx
  refine ⟨?_, hsilent⟩
  intro d' hd' live' hphase' x hx
  obtain ⟨y, hy, rfl⟩ := List.mem_map.mp hx
  rcases succeeds_after h.tidy.keys event d' hd' with ⟨d, hd, hbecomes⟩ | hnew
  · obtain ⟨-, ⟨live, hphase, hfollows⟩ | ⟨peer, link, rfl, -⟩⟩ := hbecomes.connected live' hphase'
    · rcases hfollows.sent y hy with hold | hsent
      · exact hgrounded d hd live hphase _ (List.mem_map_of_mem hold)
      · exact hsilent _ _ _ _ hsent
    · exact absurd hy List.not_mem_nil
  · obtain ⟨t, ht⟩ := hnew.phase
    rw [ht] at hphase'
    cases hphase'

/-- An open call that waits is not in flight anywhere. -/
theorem Accounts.grounded_of_waiting (h : Accounts history p) (hc : c ∈ p.connections)
    {call : PendingCall} (hwaiting : call ∈ c.waiting)
    (hopen : p.ledger.isFinished call.id = false) : Grounded call.id p := by
  intro d hd live hphase x hx hid
  have hheld : x ∈ d.calls := by
    rw [Connection.calls_of_connected hphase]
    exact List.mem_append_left _ hx
  have hsame := h.eq_of_id (x := (c.key, call)) (y := (d.key, x))
    (mem_held.mpr ⟨c, hc, rfl, List.mem_append_right _ hwaiting⟩) (mem_held.mpr ⟨d, hd, rfl, hheld⟩)
    hopen hid
  obtain ⟨hkey, rfl⟩ := Prod.mk.inj hsame
  obtain rfl := h.tidy.eq_of_key (connection?_of_mem h.tidy.keys hc) hd hkey
  exact h.notMem_of_waiting hc hphase hwaiting hopen (List.mem_map_of_mem hx)

/-- **A call that is settled while it waits causes no frame**, then or later. -/
theorem Run.silent_when_waiting (run : Run config history p) (hsplit : history = past ++ m :: later)
    (hc : c ∈ m.before.connections) {call : PendingCall} (hwaiting : call ∈ c.waiting)
    (hopen : m.before.ledger.isFinished call.id = false)
    (hfin : m.after.ledger.isFinished call.id = true) :
    (p.ledger.isFinished call.id = true ∧ Grounded call.id p)
      ∧ ∀ other x frame taken, .send other x frame taken ∈ effectsOf (m :: later) →
        x.id ≠ call.id := by
  induction run generalizing later with
  | start _ => exact absurd hsplit (by simp)
  | @next history p run event hadmits ih =>
    rcases List.eq_nil_or_concat later with rfl | ⟨rest, last, rfl⟩
    · obtain ⟨-, hlast⟩ := List.append_inj' hsplit rfl
      cases hlast
      obtain ⟨hgrounded, hsilent⟩ := run.accounts.grounded_after hfin
        (run.accounts.grounded_of_waiting hc hwaiting hopen)
      refine ⟨⟨hfin, hgrounded⟩, fun other x frame taken hmem => ?_⟩
      exact (List.mem_append.mp hmem).elim (hsilent other x frame taken)
        fun hnone => absurd hnone List.not_mem_nil
    · rw [List.concat_eq_append, ← List.cons_append, ← List.append_assoc] at hsplit
      obtain ⟨hhistory, hlast⟩ := List.append_inj' hsplit rfl
      cases hlast
      obtain ⟨⟨hfin', hgrounded⟩, hsilent⟩ := ih hhistory
      have hstill := (run.accounts.balances hadmits).grows.isFinished hfin'
      obtain ⟨hgrounded', hsilent'⟩ := run.accounts.grounded_after hstill hgrounded
      refine ⟨⟨hstill, hgrounded'⟩, fun other x frame taken hmem => ?_⟩
      rw [List.concat_eq_append, ← List.cons_append, effectsOf_concat] at hmem
      rcases List.mem_append.mp hmem with hold | hnew
      · exact hsilent other x frame taken hold
      · exact hsilent' other x frame taken hnew

/-! ## §3. Runs. -/

/-- A link is told of the calls that are given up, and of nothing else. -/
structure TellsGivenUp (key : ConnectionKey) (link : LinkId) (history : List Moment) : Prop where
  /-- The frames are those of the pool, with what they are for. -/
  frames : ∀ m ∈ history,
    m.effects.filter (·.isOn link) = (m.handed link).map (·.effect link key.interface)
  /-- A call is cancelled when it is given up and leaves flight. -/
  exactly : ∀ past m later, history = past ++ m :: later → ∀ n call,
    (∃ taken, .cancel n call taken ∈ m.handed link)
      ↔ m.before.InFlight key link n call ∧ ¬ m.after.InFlight key link n call ∧ GivenUp m call
  /-- It was sent under the number by a frame that the writer has taken, and it has not been
  cancelled since. -/
  sent : Justified (handedOn link history)
  /-- A call that leaves flight otherwise is answered, or its link is lost, and nothing is handed to
  the writer. -/
  otherwise : handedOut link (effectsOf history) < 2 ^ 64 →
    ∀ past m later, history = past ++ m :: later → ∀ n call,
      m.before.InFlight key link n call → ¬ m.after.InFlight key link n call →
        GivenUp m call
          ∨ m.handed link = []
            ∧ ((∃ env now generation frame,
                m.event = .look env now (.notice (.response key generation frame))
                  ∧ frame.sequence = n)
              ∨ m.after.live? key = none)
  /-- No number is cancelled twice. -/
  once : handedOut link (effectsOf history) < 2 ^ 64 → (canceledIn (handedOn link history)).Nodup
  /-- The number of a duplicate is not cancelled. -/
  apart : handedOut link (effectsOf history) < 2 ^ 64 → ∀ n call taken,
    .duplicate n call taken ∈ handedOn link history → n ∉ canceledIn (handedOn link history)

/-- The call frames of a link are counted among the effects of the pool. -/
theorem handedOut_effectsOf
    (h : ∀ m ∈ history,
      m.effects.filter (·.isOn link) = (m.handed link).map (·.effect link key.interface)) :
    handedOut link (effectsOf history) = (numbersOf (handedOn link history)).length := by
  induction history with
  | nil => rfl
  | cons m rest ih =>
    have hfirst := congrArg (handedOut link) (h m List.mem_cons_self)
    rw [handedOut_filter, handedOut_map] at hfirst
    have hrest := ih fun m hm => h m (List.mem_cons_of_mem _ hm)
    show handedOut link (m.effects ++ effectsOf rest)
      = (numbersOf (m.handed link ++ handedOn link rest)).length
    rw [handedOut_append, numbersOf_append, List.length_append, hfirst, hrest]

/-- **A pool cancels the attempts that it gives up, and no others**; a call that is settled while it
waits causes no frame. -/
theorem cancels_are_the_attempts_given_up (run : Run config history p)
    (hstreams : AttachedOnce (effectsOf history))
    (hattach : .attach key generation link ∈ effectsOf history) :
    TellsGivenUp key link history
      ∧ ∀ past m later, history = past ++ m :: later →
        ∀ c ∈ m.before.connections, ∀ call ∈ c.waiting,
          m.before.ledger.isFinished call.id = false → m.after.ledger.isFinished call.id = true →
            ∀ other x frame taken, .send other x frame taken ∈ effectsOf (m :: later) →
              x.id ≠ call.id := by
  have hkey : ∀ other number, .attach other number link ∈ effectsOf history → other = key :=
    fun other number hmem => hstreams.key_eq hattach hmem
  -- whatever holds of the run holds of it up to any of its moments
  have huntil : ∀ past m later, history = past ++ m :: later → AttachedOnce (effectsOf past)
      ∧ ∀ other number, .attach other number link ∈ effectsOf past → other = key := by
    rintro past m later rfl
    rw [effectsOf_append] at hstreams hkey
    exact ⟨hstreams.of_append,
      fun other number hmem => hkey other number (List.mem_append_left _ hmem)⟩
  have hframes := run.filter_effects hkey
  have htold := run.told hstreams hkey
  have hnumbers : handedOut link (effectsOf history) < 2 ^ 64 →
      (numbersOf (handedOn link history)).Nodup := by
    intro hroom
    rw [handedOut_effectsOf hframes] at hroom
    rw [htold.numbers hroom]
    exact List.nodup_range
  refine ⟨⟨hframes, ?_, htold.justified, ?_, fun hroom => htold.justified.nodup (hnumbers hroom),
    fun hroom n call taken hmem => htold.justified.not_duplicate (hnumbers hroom) hmem⟩, ?_⟩
  · intro past m later hsplit n call
    have hbefore := (run.at_split hsplit).1
    exact hbefore.accounts.cancels_iff (hbefore.owns (huntil past m later hsplit).2) n call
  · intro hroom past m later hsplit n call hflight hgone
    obtain ⟨hstreams', hkey'⟩ := huntil past m later hsplit
    have hbefore := (run.at_split hsplit).1
    refine (hbefore.told hstreams' hkey').leaves hbefore.accounts (hbefore.owns hkey') ?_ hflight
      hgone
    rw [handedOut_effectsOf hframes, hsplit, List.append_cons] at hroom
    unfold handedOn at hroom ⊢
    rw [List.flatMap_append, numbersOf_append, List.length_append] at hroom
    omega
  · intro past m later hsplit c hc call hwaiting hopen hfin
    exact (run.silent_when_waiting hsplit hc hwaiting hopen hfin).2

section TwoCalls

/-- Two calls are in flight, and the caller of the first aborts it: the agent is told, and the
second goes on. -/
theorem cancels_are_the_attempts_given_up_when_one_is_aborted :
    ∃ (history : List Moment) (m : Moment) (p : Pool), Run {} (history ++ [m]) p
      ∧ AttachedOnce (effectsOf (history ++ [m])) ∧ TellsGivenUp oneAgent 9 (history ++ [m])
      ∧ canceledIn (handedOn 9 (history ++ [m])) = [0]
      ∧ m.before.InFlight oneAgent 9 0 oneCall ∧ GivenUp m oneCall
      ∧ p.InFlight oneAgent 9 1 otherCall := by
  have aborted := ((run_twoCallsSent.next (.settle 1 .aborted) fun _ => .inr (.inl rfl)).next
    (.send (.abort 1)) (show _ = true by decide +kernel)).next
      (.look oneAddress 0 (.command (.abort 1))) ⟨rfl, rfl⟩
  obtain ⟨history, m, p, run, hevent, honce, hcanceled, hfirst, hsecond⟩ :
      ∃ (history : List Moment) (m : Moment) (p : Pool), Run {} (history ++ [m]) p
        ∧ m.event = .look oneAddress 0 (.command (.abort 1))
        ∧ AttachedOnce (effectsOf (history ++ [m]))
        ∧ canceledIn (handedOn 9 (history ++ [m])) = [0]
        ∧ m.before.InFlight oneAgent 9 0 oneCall ∧ p.InFlight oneAgent 9 1 otherCall := by
    refine ⟨_, _, _, aborted, rfl, ?_, ?_, ⟨_, rfl, rfl, List.mem_cons_self⟩,
      ⟨_, rfl, rfl, List.mem_cons_self⟩⟩
    · unfold AttachedOnce
      decide +kernel
    · decide +kernel
  obtain ⟨live, hlive, hlink, -⟩ := id hsecond
  obtain ⟨c, hc, hphase⟩ := live?_eq_some.mp hlive
  obtain ⟨generation, hattach⟩ := run.attached hc hphase
  rw [hlink] at hattach
  exact ⟨history, m, p, run, honce, (cancels_are_the_attempts_given_up run honce hattach).1,
    hcanceled, hfirst, .aborted hevent, hsecond⟩

end TwoCalls

end RemoteCall.Pool

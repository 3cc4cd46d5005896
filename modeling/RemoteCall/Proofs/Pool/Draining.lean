/-
  RemoteCall.Proofs.Pool.Draining
  ───────────────────────────────
  **LINKS THAT DRAIN.**

  An agent that is shutting down refuses a call without having run it.  From
  then on the link drains:

      no call frame  is handed to its writer
      in flight      stays so until it is answered, or until the link is lost
      waiting        are the calls that were refused, and those asked for since;
                     they wait, as they are, until they are settled, or until
                     the link is lost

  When the link is lost, those in flight are charged or fail.  Those that wait
  go on waiting, as they are, and are sent on a later link.

  A stream is known by its number, so all this is said of runs in which no
  stream is attached twice (`AttachedOnce`).

  Main statements:
    • `sender_of_isCall`, `Run.attached_since` — which connection sends, and on which link,
    • `Accounts.drains`            — one step of a link that drains,
    • `Run.drains`                 — a link that drains, through a run,
    • `DrainsSince.sent_later`     — which calls are sent later, and on which link,
    • `refusals_drain_their_link`  — the whole.
-/
import RemoteCall.Proofs.Pool.Stepping

namespace RemoteCall

/-! ## §1. Streams. -/

/-- The stream that is attached. -/
def Effect.attached? : Effect → Option LinkId
  | .attach _ _ link => some link
  | _ => none

namespace Pool

/-- No stream is attached twice. -/
def AttachedOnce (effects : List Effect) : Prop :=
  (effects.filterMap (·.attached?)).Nodup

variable {config : PoolConfig} {history earlier since : List Moment} {p : Pool} {m : Moment}
  {event : Event} {key other : ConnectionKey} {c c' : Connection} {live : Live} {link : LinkId}
  {generation number : Nat} {xs ys : List Effect}

theorem AttachedOnce.of_append (h : AttachedOnce (xs ++ ys)) : AttachedOnce xs := by
  unfold AttachedOnce at h
  rw [List.filterMap_append] at h
  exact (List.nodup_append.mp h).1

/-- A stream that is attached is not attached again. -/
theorem AttachedOnce.not_again (h : AttachedOnce (xs ++ ys))
    (hmem : .attach key generation link ∈ xs) : .attach other number link ∉ ys := by
  intro hagain
  unfold AttachedOnce at h
  rw [List.filterMap_append] at h
  exact (List.nodup_append.mp h).2.2 link (List.mem_filterMap.mpr ⟨_, hmem, rfl⟩) link
    (List.mem_filterMap.mpr ⟨_, hagain, rfl⟩) rfl

/-- A stream belongs to one connection. -/
theorem AttachedOnce.key_eq (h : AttachedOnce xs) (hmem : .attach key generation link ∈ xs)
    (hother : .attach other number link ∈ xs) : other = key := by
  obtain ⟨before, after, rfl⟩ := List.append_of_mem hmem
  rcases List.mem_append.mp hother with hbefore | hrest
  · exact absurd List.mem_cons_self (h.not_again hbefore)
  · rcases List.mem_cons.mp hrest with heq | hafter
    · cases heq
      rfl
    · rw [List.append_cons] at h
      exact absurd hafter (h.not_again (List.mem_append_right _ (List.mem_singleton_self _)))

/-- **The link of a connection has been attached.** -/
theorem Run.attached (run : Run config history p) (hc : p.connection? key = some c)
    (hphase : c.phase = .connected live) :
    ∃ generation, .attach key generation live.link ∈ effectsOf history := by
  induction run generalizing c live with
  | start h =>
    rw [eq_of_new h] at hc
    cases hc
  | @next history p run event hadmits ih =>
    rw [effectsOf_concat]
    rcases run.accounts.tidy.connection?_after hc with ⟨old, hold, hbecomes⟩ | ⟨-, hnew⟩
    · obtain ⟨-, ⟨live₀, hphase₀, hfollows⟩ | ⟨peer, link, rfl, hmem⟩⟩ :=
        hbecomes.connected live hphase
      · obtain ⟨generation, hmem⟩ := ih hold hphase₀
        exact ⟨generation, List.mem_append_left _ (hfollows.link ▸ hmem)⟩
      · obtain ⟨-, rfl⟩ := mem_of_connection? hold
        exact ⟨_, List.mem_append_right _ hmem⟩
    · obtain ⟨t, ht⟩ := hnew.phase
      rw [ht] at hphase
      cases hphase

/-- The link of a connection was there at some moment, or has been attached since. -/
theorem Run.attached_since (run : Run config history p)
    (hsplit : history = earlier ++ m :: since) (hc : p.connection? key = some c)
    (hphase : c.phase = .connected live) :
    (∃ live₀, m.after.live? key = some live₀ ∧ live.link = live₀.link)
      ∨ ∃ generation, .attach key generation live.link ∈ effectsOf since := by
  refine run.follow key (fun since c => ∀ live, c.phase = .connected live →
    (∃ live₀, m.after.live? key = some live₀ ∧ live.link = live₀.link)
      ∨ ∃ generation, .attach key generation live.link ∈ effectsOf since) ?_ ?_ ?_ hsplit hc live
    hphase
  · exact fun c hc live hphase => .inl ⟨live, live?_eq_some.mpr ⟨c, hc, hphase⟩, rfl⟩
  · intro since m c c' hc hholds hbecomes live hphase
    rw [effectsOf_concat]
    obtain ⟨-, ⟨old, hold, hfollows⟩ | ⟨peer, link, rfl, hmem⟩⟩ := hbecomes.connected live hphase
    · rw [hfollows.link]
      exact (hholds old hold).imp_right
        fun ⟨generation, hmem⟩ => ⟨generation, List.mem_append_left _ hmem⟩
    · obtain ⟨-, rfl⟩ := mem_of_connection? hc
      exact .inr ⟨_, List.mem_append_right _ hmem⟩
  · intro since m c' _ hnew live hphase
    obtain ⟨t, ht⟩ := hnew.phase
    rw [ht] at hphase
    cases hphase

/-! ## §2. Which connection sends, and on which link. -/

/-- **A call frame goes to the writer of the connection that holds the call**, whose link does not
drain. -/
theorem Connection.sender_of_isCall {env : Surroundings} {now : Time} {l : Ledger}
    {effect : Effect} (h : effect ∈ (c.advance env config now l).effects)
    (hcall : effect.isCall = true) :
    ∃ live, c.phase = .connected live ∧ live.draining = false ∧ ∃ call ∈ c.calls,
      l.isFinished call.id = false ∧ ∃ frame taken, effect = .send live.link call frame taken := by
  obtain ⟨call, hheld, hopen, link, n, taken, rfl⟩ := Connection.of_mem_advance h hcall
  obtain ⟨live, hphase⟩ := Connection.connected_of_isCall h hcall
  have hopen' : l.isFinished call.id = false := Ledger.isOpen_iff.mp
    ((Connection.grows_advance env config now c l).isOpen (Ledger.isOpen_iff.mpr hopen))
  rw [Connection.advance_eq] at h
  rcases List.mem_append.mp h with hbefore | hflush
  · rcases List.mem_append.mp hbefore with hexpire | hsought
    · rw [Effect.isCall_of_isQuiet (Connection.isQuiet_expire hexpire)] at hcall
      cases hcall
    · rw [Connection.isCall_sought hsought] at hcall
      cases hcall
  · rw [Connection.sought_of_connected hphase] at hflush
    cases hdraining : (live.forget (c.expire env now l).ledger).draining with
    | true =>
      rw [Connection.flush_of_draining rfl hdraining] at hflush
      exact absurd hflush List.not_mem_nil
    | false =>
      rw [Connection.flush_of_connected rfl hdraining] at hflush
      obtain ⟨other, -, -, number, took, heq⟩ := Live.of_mem_flush hflush
      cases heq
      exact ⟨live, hphase, hdraining, call, hheld, hopen', _, _, rfl⟩

/-- The same for the whole pool. -/
theorem sender_of_isCall {effect : Effect} (hmem : effect ∈ (p.after event).2)
    (hcall : effect.isCall = true) :
    ∃ c ∈ p.connections, ∃ live, c.phase = .connected live ∧ live.draining = false
      ∧ ∃ call ∈ c.calls, p.ledger.isFinished call.id = false
        ∧ ∃ frame taken, effect = .send live.link call frame taken := by
  obtain ⟨env, now, rfl⟩ := eq_advance_of_isCall hmem hcall
  rcases List.mem_append.mp hmem with hmoved | hspent
  · obtain ⟨before, c, after, hsplit, heffect, -⟩ := of_mem_moveAll hmoved
    obtain ⟨live, hphase, hdraining, call, hheld, hopen, hsent⟩ :=
      Connection.sender_of_isCall heffect hcall
    -- a call that is open when the turn comes was open before
    have hbefore := grows_moveAll (Connection.grows_advance env p.config now) before p.ledger
    refine ⟨c, ?_, live, hphase, hdraining, call, hheld, ?_, hsent⟩
    · rw [hsplit]
      exact List.mem_append_right _ List.mem_cons_self
    · exact Ledger.isOpen_iff.mp (hbefore.isOpen (Ledger.isOpen_iff.mpr hopen))
  · obtain ⟨c, -, hleave⟩ := List.mem_flatMap.mp hspent
    rw [Effect.isCall_of_isQuiet (Connection.isQuiet_leave hleave)] at hcall
    cases hcall

/-- An open call that is held has been taken up, for the same connection. -/
theorem Accounts.issued_of_held (h : Accounts history p) {x : ConnectionKey × PendingCall}
    (hx : x ∈ held p.connections) (hopen : p.ledger.isFinished x.2.id = false) :
    issued x ∈ takenUp history :=
  (mem_stillOpen.mp (h.same.subset (List.mem_map_of_mem
    (mem_stillOpen.mpr ⟨hx, Ledger.isOpen_iff.mpr hopen⟩)))).1

/-- **A call stays with its connection.** -/
theorem Run.key_of_held (run : Run config history p) (hsplit : history = earlier ++ m :: since)
    {x y : ConnectionKey × PendingCall} (hx : x ∈ held m.after.connections)
    (hxopen : m.after.ledger.isFinished x.2.id = false) (hy : y ∈ held p.connections)
    (hyopen : p.ledger.isFinished y.2.id = false) (hid : y.2.id = x.2.id) : y.1 = x.1 := by
  obtain ⟨hbefore, hadmits⟩ := run.at_split hsplit
  have hafter := hbefore.next m.event hadmits
  have hxtaken : issued x ∈ takenUp history := by
    have htaken := hafter.accounts.issued_of_held hx hxopen
    rw [hsplit, List.append_cons]
    unfold takenUp
    rw [List.filterMap_append]
    exact List.mem_append_left _ htaken
  have hytaken := run.accounts.issued_of_held hy hyopen
  have heq := List.inj_on_of_nodup_map run.accounts.queue.takenUp_nodup hytaken hxtaken hid
  exact (Prod.mk.inj heq).1

end Pool

/-! ## §3. One step. -/

/-- The link goes on draining; a call that waits goes on waiting, unless it is settled. -/
structure Connection.Drains (live : Live) (c c' : Connection) (q : Pool) : Prop where
  phase : ∃ live', c'.phase = .connected live' ∧ live'.link = live.link ∧ live'.draining = true
  waiting : ∀ x ∈ c.waiting, x ∈ c'.waiting ∨ q.ledger.isFinished x.id = true

/-- The link is lost.  Those in flight are charged or fail; those that wait go on waiting behind
them, in order and as they were, and nothing is recorded for them. -/
structure Connection.Loses (live : Live) (c c' : Connection) (p q : Pool) : Prop where
  phase : ∃ e, c'.phase = .errored e
  waiting : ∃ kept, c'.waiting = kept ++ p.ledger.unsettled c.waiting
    ∧ ∀ y ∈ kept, ∃ x ∈ live.calls, y = x.charged
  inFlight : ∀ x ∈ live.calls, q.ledger.isFinished x.id = true ∨ x.charged ∈ c'.waiting
  untouched : ∀ x ∈ c.waiting, q.ledger.get? x.id = p.ledger.get? x.id

namespace Connection

variable {env : Surroundings} {config : PoolConfig} {now : Time} {c : Connection} {live : Live}
  {l : Ledger}

/-- **What a lost link leaves behind.** -/
theorem lose_of_connected (hphase : c.phase = .connected live) (e : Failure)
    (hk : ∀ x ∈ live.calls, l.knows x.id = true) :
    (∃ kept, (c.lose config e l).connection.waiting
          = kept ++ (c.lose config e l).ledger.unsettled c.waiting
        ∧ ∀ y ∈ kept, ∃ x ∈ live.calls, y = x.charged)
      ∧ (∀ x ∈ live.calls, (c.lose config e l).ledger.isFinished x.id = true
        ∨ x.charged ∈ (c.lose config e l).connection.waiting)
      ∧ ∀ {id}, id ∉ live.calls.map (·.id) → (c.lose config e l).ledger.get? id = l.get? id := by
  have hflight : c.inFlightByAge.Perm live.calls := by
    rw [← inFlight_of_connected hphase]
    exact inFlightByAge_perm c
  have haway : ∀ {id}, id ∉ live.calls.map (·.id) → id ∉ c.inFlightByAge.map (·.id) :=
    fun hid hmem => hid ((hflight.map (·.id)).subset hmem)
  cases he : e.isProtocol || e.isVersionRejection with
  | true =>
    rw [lose_at_fault hphase he]
    refine ⟨⟨[], rfl, fun _ hmem => absurd hmem List.not_mem_nil⟩, fun x hx => .inl ?_,
      fun hid => Ledger.get?_failAll_of_notMem (haway hid) e l⟩
    exact Ledger.isFinished_failAll (List.mem_map_of_mem (hflight.symm.subset hx)) e (hk x hx)
  | false =>
    rw [lose_link hphase he]
    refine ⟨⟨_, rfl, fun y hy => ?_⟩, fun x hx => ?_,
      fun hid => Ledger.get?_chargeAll_of_notMem (haway hid) l⟩
    · obtain ⟨x, hx, heq, -⟩ := Ledger.of_mem_chargeAll hy
      exact ⟨x, hflight.subset hx, heq⟩
    · -- a call that is open afterwards has been charged and given back
      have hcharged := Ledger.unsettled_chargeAll config.callRetries e (l := l)
        fun x hx => hk x (hflight.subset hx)
      cases hfin : (Ledger.chargeAll config.callRetries e c.inFlightByAge l).2.isFinished x.id with
      | true => exact .inl rfl
      | false =>
        have hmem := List.mem_map_of_mem (f := PendingCall.charged)
          (Ledger.mem_unsettled.mpr ⟨hflight.symm.subset hx, hfin⟩)
        rw [← hcharged] at hmem
        exact .inr (List.mem_append_left _ (Ledger.mem_unsettled.mp hmem).1)

/-- **A link that drains sends nothing** when what is due is done. -/
theorem advance_of_draining (hphase : c.phase = .connected live) (hdraining : live.draining = true)
    (env : Surroundings) (config : PoolConfig) (now : Time) (l : Ledger) :
    ∃ idleSince, (c.advance env config now l).connection
      = { c with
          waiting := (c.advance env config now l).ledger.unsettled c.waiting
          phase := .connected (live.forget (c.advance env config now l).ledger)
          idleSince } := by
  obtain ⟨idleSince, hnoted⟩ :=
    noteDemand_eq ((c.sought env config now l).1.flush env config (c.expire env now l).ledger).1 now
  refine ⟨idleSince, ?_⟩
  have hdrained : (live.forget (c.expire env now l).ledger).draining = true := hdraining
  rw [advance_eq, hnoted, sought_of_connected hphase, flush_of_draining rfl hdrained]

end Connection

namespace Pool

variable {config : PoolConfig} {history earlier since : List Moment} {p q : Pool} {m : Moment}
  {event : Event} {key : ConnectionKey} {c c' : Connection} {live : Live} {link : LinkId}

/-- A link that is lost in its turn leaves alone the calls that wait, before and after. -/
theorem loses_of_moved {moved : Moved} (hphase : ∃ e, moved.connection.phase = .errored e)
    (hwaiting : ∃ kept, moved.connection.waiting = kept ++ moved.ledger.unsettled c.waiting
      ∧ ∀ y ∈ kept, ∃ x ∈ live.calls, y = x.charged)
    (hflight : ∀ x ∈ live.calls, moved.ledger.isFinished x.id = true
      ∨ x.charged ∈ moved.connection.waiting)
    (hbefore : p.ledger.Grows moved.ledger) (hafter : moved.ledger.Grows q.ledger)
    (haway : ∀ x ∈ c.waiting, p.ledger.isFinished x.id = false →
      moved.ledger.get? x.id = p.ledger.get? x.id
        ∧ q.ledger.get? x.id = moved.ledger.get? x.id) :
    Connection.Loses live c moved.connection p q := by
  have hsame : ∀ x ∈ c.waiting, moved.ledger.get? x.id = p.ledger.get? x.id
      ∧ q.ledger.get? x.id = moved.ledger.get? x.id := by
    intro x hx
    cases hfin : p.ledger.isFinished x.id with
    | true =>
      exact ⟨hbefore.get?_of_isFinished hfin, hafter.get?_of_isFinished (hbefore.isFinished hfin)⟩
    | false => exact haway x hx hfin
  have hunsettled : moved.ledger.unsettled c.waiting = p.ledger.unsettled c.waiting := by
    refine List.filter_congr fun x hx => ?_
    rw [Ledger.isFinished_eq, (hsame x hx).1, ← Ledger.isFinished_eq]
  refine ⟨hphase, hunsettled ▸ hwaiting, fun x hx => ?_, fun x hx => ?_⟩
  · exact (hflight x hx).imp_left hafter.isFinished
  · exact (hsame x hx).2.trans (hsame x hx).1

/-- Calls in flight, and those that wait, are held. -/
theorem Accounts.knows_of_mem (h : Accounts history p) (hc : c ∈ p.connections)
    {call : PendingCall} (hcall : call ∈ c.calls) : p.ledger.knows call.id = true :=
  h.tidy.known (c.key, call) (mem_held.mpr ⟨c, hc, rfl, hcall⟩)

/-- The link is lost when the agent refuses the version. -/
theorem Accounts.loses_of_rejected (h : Accounts history p) (hc : c ∈ p.connections)
    {frame : ResponseFrame} {call : PendingCall} {e : Failure}
    (hfinds : c.Finds frame live call) {moved : Moved}
    (hmoved : moved = Connection.lose p.config e
      { c with phase := .connected (live.takeOut frame.sequence) } (p.ledger.fail call.id e))
    (hledger : q.ledger = moved.ledger) : Connection.Loses live c moved.connection p q := by
  subst hmoved
  have hfail := p.ledger.grows_fail call.id e
  have hcalls := Connection.calls_takeOut (h.tidy.numbered c hc live hfinds.phase).1
    (Connection.mem_of_callAt? hfinds.found)
  have hknown : ∀ x ∈ live.calls, p.ledger.knows x.id = true := fun x hx => by
    refine h.knows_of_mem hc ?_
    rw [Connection.calls_of_connected hfinds.phase]
    exact List.mem_append_left _ hx
  obtain ⟨⟨kept, hkept, hcharged⟩, hflight, hothers⟩ := Connection.lose_of_connected
    (c := { c with phase := .connected (live.takeOut frame.sequence) }) rfl e
    (l := p.ledger.fail call.id e) fun x hx =>
      hfail.knows (hknown x (hcalls.symm.subset (List.mem_cons_of_mem _ hx)))
  have hlost := Connection.grows_lose p.config e
    { c with phase := .connected (live.takeOut frame.sequence) } (p.ledger.fail call.id e)
  refine loses_of_moved ?_ ⟨kept, hkept, fun y hy => ?_⟩ (fun x hx => ?_) (hfail.trans hlost)
    (hledger ▸ Ledger.Grows.refl _) fun x hx hopen => ⟨?_, congrArg (·.get? x.id) hledger⟩
  · obtain ⟨waiting, retries, heq⟩ := Connection.lose_eq p.config e
      { c with phase := .connected (live.takeOut frame.sequence) } (p.ledger.fail call.id e)
    rw [heq]
    exact ⟨e, rfl⟩
  · obtain ⟨x, hx, heq⟩ := hcharged y hy
    exact ⟨x, hcalls.symm.subset (List.mem_cons_of_mem _ hx), heq⟩
  · -- the call that was answered has failed
    rcases List.mem_cons.mp (hcalls.subset hx) with rfl | hrest
    · exact .inl (hlost.isFinished (Ledger.isFinished_fail_of_knows (hknown x hx) e))
    · exact hflight x hrest
  · have haway := h.notMem_of_waiting hc hfinds.phase hx hopen
    have hids := (hcalls.map (·.id)).symm.subset
    rw [hothers fun hmem => haway (hids (List.mem_cons_of_mem _ hmem))]
    exact Ledger.get?_fail_of_ne p.ledger
      (fun heq => haway (hids (List.mem_cons.mpr (.inl heq)))) e

/-- The link is lost for another reason. -/
theorem Accounts.loses_of_lost (h : Accounts history p) (hc : c ∈ p.connections)
    (hphase : c.phase = .connected live) {e : Failure} {l : Ledger} (looking : Bool)
    (hbefore : p.ledger.Grows l)
    (hafter : (Connection.lose p.config e { c with looking } l).ledger.Grows q.ledger)
    (haway : ∀ x ∈ c.waiting, p.ledger.isFinished x.id = false →
      l.get? x.id = p.ledger.get? x.id
        ∧ q.ledger.get? x.id
          = (Connection.lose p.config e { c with looking } l).ledger.get? x.id) :
    Connection.Loses live c (Connection.lose p.config e { c with looking } l).connection p q := by
  have hknown : ∀ x ∈ live.calls, l.knows x.id = true := fun x hx => by
    refine hbefore.knows (h.knows_of_mem hc ?_)
    rw [Connection.calls_of_connected hphase]
    exact List.mem_append_left _ hx
  obtain ⟨hkept, hflight, hothers⟩ :=
    Connection.lose_of_connected (c := { c with looking }) hphase e hknown
  refine loses_of_moved ?_ hkept hflight
    (hbefore.trans (Connection.grows_lose p.config e { c with looking } l)) hafter
    fun x hx hopen => ?_
  · obtain ⟨waiting, retries, heq⟩ := Connection.lose_eq p.config e { c with looking } l
    rw [heq]
    exact ⟨e, rfl⟩
  · obtain ⟨hsame, hlater⟩ := haway x hx hopen
    exact ⟨(hothers (h.notMem_of_waiting hc hphase hx hopen)).trans hsame, hlater⟩

/-- **One step of a link that drains**: it goes on draining, or it is lost. -/
theorem Accounts.drains (h : Accounts history p) (hadmits : p.Admits history event)
    (hc : c ∈ p.connections) (hsteps : c.Steps p event c') (hphase : c.phase = .connected live)
    (hdraining : live.draining = true) :
    Connection.Drains live c c' (p.after event).1
      ∨ Connection.Loses live c c' p (p.after event).1 := by
  have hgrows : p.ledger.Grows (p.after event).1.ledger := (h.balances hadmits).grows
  have hsame : ∀ {d : Connection} {live' : Live}, d.phase = .connected live' →
      live'.link = live.link → live'.draining = true → (∃ more, d.waiting = c.waiting ++ more) →
      Connection.Drains live c d (p.after event).1 := by
    rintro d live' hphase hlink hdraining ⟨more, hwaiting⟩
    refine ⟨⟨live', hphase, hlink, hdraining⟩, fun x hx => .inl ?_⟩
    rw [hwaiting]
    exact List.mem_append_left _ hx
  have hnone : ∃ more, c.waiting = c.waiting ++ more := ⟨[], (List.append_nil _).symm⟩
  cases hsteps with
  | stays | kept _ => exact .inl (hsame hphase rfl hdraining hnone)
  | asked _ _ => exact .inl (hsame hphase rfl hdraining ⟨_, rfl⟩)
  | @letGo env now id c' sent hevent hcancel =>
    subst hevent
    cases Connection.letGo hcancel with
    | waiting =>
      refine .inl ⟨⟨live, hphase, rfl, hdraining⟩, fun x hx => ?_⟩
      by_cases hid : x.id = id
      · -- the call that is let go of is settled
        exact .inr (hgrows.isFinished
          (hid ▸ h.queue.aborts (List.mem_of_mem_head? hadmits.2)))
      · exact .inl ((List.mem_eraseP_of_neg (by simpa using hid)).mpr hx)
    | @inFlight live' n call hphase' _ _ =>
      rw [hphase] at hphase'
      cases hphase'
      exact .inl (hsame rfl rfl hdraining hnone)
  | attached _ hconnecting | attemptFailed _ hconnecting _ =>
    rw [hphase] at hconnecting
    cases hconnecting
  | @responded env now frame hevent hledger =>
    have hresponded := Connection.responded p.config frame c p.ledger
    generalize c.respond p.config frame p.ledger = moved at *
    cases hresponded with
    | ignored _ => exact .inl (hsame hphase rfl hdraining hnone)
    | dropped hphase' _ =>
      rw [hphase] at hphase'
      cases hphase'
      exact .inl (hsame rfl rfl hdraining hnone)
    | delivered hfinds | unreadable hfinds | failed hfinds =>
      cases hphase.symm.trans hfinds.phase
      exact .inl (hsame rfl rfl hdraining hnone)
    | retried hfinds =>
      cases hphase.symm.trans hfinds.phase
      exact .inl (hsame rfl rfl hdraining ⟨_, rfl⟩)
    | refused hfinds =>
      cases hphase.symm.trans hfinds.phase
      exact .inl (hsame rfl rfl rfl ⟨_, rfl⟩)
    | rejected hfinds =>
      cases hphase.symm.trans hfinds.phase
      exact .inr (h.loses_of_rejected hc hfinds rfl hledger)
  | linkFailed _ _ hledger =>
    refine .inr (h.loses_of_lost hc hphase c.looking (Ledger.Grows.refl _)
      (hledger ▸ Ledger.Grows.refl _) fun x _ _ => ⟨rfl, congrArg (·.get? x.id) hledger⟩)
  | @reconsidered env now directory l hevent hturn =>
    subst hevent
    obtain ⟨hbefore, hafter⟩ := hturn.grows (Connection.grows_reconsider env p.config now)
    have haway : ∀ x ∈ c.waiting, p.ledger.isFinished x.id = false → _ := fun x hx hopen =>
      hturn.get? Connection.get?_reconsider h (List.mem_append_right c.inFlight hx) hopen
    have hreconsidered := Connection.reconsidered env p.config now c l
    replace hafter : (c.reconsider env p.config now l).ledger.Grows
      (p.after (.look env now (.directory directory))).1.ledger := hafter
    generalize c.reconsider env p.config now l = moved at *
    cases hreconsidered with
    | kept _ => exact .inl (hsame hphase rfl hdraining hnone)
    | withdrawn hphase' _ =>
      cases hphase.symm.trans hphase'
      exact .inr (h.loses_of_lost hc hphase false hbefore hafter haway)
    | restarted hconnecting =>
      rw [hphase] at hconnecting
      cases hconnecting
  | @advanced env now l hevent hturn =>
    subst hevent
    obtain ⟨-, hafter⟩ := hturn.grows (Connection.grows_advance env p.config now)
    obtain ⟨idleSince, hadvanced⟩ :=
      Connection.advance_of_draining hphase hdraining env p.config now l
    refine .inl ⟨⟨live.forget (c.advance env p.config now l).ledger, ?_, rfl, hdraining⟩,
      fun x hx => ?_⟩
    · rw [hadvanced]
    · cases hfin : (c.advance env p.config now l).ledger.isFinished x.id with
      | true => exact .inr (hafter.isFinished hfin)
      | false =>
        rw [hadvanced]
        exact .inl (Ledger.mem_unsettled.mpr ⟨hx, hfin⟩)

/-! ## §4. Runs. -/

/-- An outcome that was there at some moment is there now. -/
theorem Run.isFinished_of_mem (run : Run config history p) (hm : m ∈ history) {id : CallId}
    (hfin : m.after.ledger.isFinished id = true) : p.ledger.isFinished id = true := by
  obtain ⟨earlier, later, hsplit⟩ := List.append_of_mem hm
  rw [Ledger.isFinished_eq, (run.settled_since hsplit hfin).1, ← Ledger.isFinished_eq]
  exact hfin

/-- **A link that drains goes on draining**, and a call that waits goes on waiting until it is
settled, for as long as the link is there. -/
theorem Run.drains (run : Run config history p) (hsplit : history = earlier ++ m :: since)
    (honce : AttachedOnce (effectsOf history)) {generation : Nat}
    (hattached : .attach key generation link ∈ effectsOf (earlier ++ [m])) {xs : List PendingCall}
    (hstart : ∀ c live, m.after.connection? key = some c → c.phase = .connected live →
      live.link = link → live.draining = true ∧ ∀ x ∈ xs, x ∈ c.waiting)
    (hc : p.connection? key = some c) (hphase : c.phase = .connected live)
    (hlink : live.link = link) :
    live.draining = true ∧ ∀ x ∈ xs, x ∈ c.waiting ∨ p.ledger.isFinished x.id = true := by
  have hholds := run.follow_steps key (fun since c =>
    AttachedOnce (effectsOf (earlier ++ m :: since)) → ∀ live, c.phase = .connected live →
      live.link = link → live.draining = true
        ∧ ∀ x ∈ xs, x ∈ c.waiting ∨ ∃ n ∈ since, n.after.ledger.isFinished x.id = true)
    ?_ ?_ ?_ hsplit hc (hsplit ▸ honce) live hphase hlink
  · refine hholds.imp_right fun hwaits x hx => (hwaits x hx).imp_right fun ⟨n, hn, hfin⟩ => ?_
    exact run.isFinished_of_mem
      (hsplit ▸ List.mem_append_right _ (List.mem_cons_of_mem _ hn)) hfin
  · intro c hc _ live hphase hlink
    exact (hstart c live hc hphase hlink).imp_right fun hwaits x hx => .inl (hwaits x hx)
  · intro since n c c' hrun hadmits hc hc' hholds hsteps honce live' hphase' hlink'
    rw [← List.cons_append, ← List.append_assoc, effectsOf_concat] at honce
    obtain ⟨old, hold, hbecomes⟩ :
        ∃ c, n.before.connection? key = some c ∧ c.Becomes n.effects c' := by
      rcases hrun.accounts.tidy.connection?_after hc' with hold | ⟨hnone, -⟩
      · exact hold
      · rw [hc] at hnone
        cases hnone
    cases hc.symm.trans hold
    obtain ⟨-, ⟨live, hphase, hfollows⟩ | ⟨peer, again, rfl, hmem⟩⟩ :=
      hbecomes.connected live' hphase'
    · obtain ⟨hdraining, hwaits⟩ :=
        hholds honce.of_append live hphase (hfollows.link.symm.trans hlink')
      rcases hrun.accounts.drains hadmits (mem_of_connection? hc).1 hsteps hphase hdraining
        with hdrains | hloses
      · obtain ⟨other, hother, -, hstill⟩ := hdrains.phase
        cases hphase'.symm.trans hother
        refine ⟨hstill, fun x hx => ?_⟩
        rcases hwaits x hx with hwaiting | ⟨n', hn', hfin⟩
        · exact (hdrains.waiting x hwaiting).imp_right fun hfin =>
            ⟨n, List.mem_append_right _ (List.mem_singleton_self n), hfin⟩
        · exact .inr ⟨n', List.mem_append_left _ hn', hfin⟩
      · obtain ⟨e, herrored⟩ := hloses.phase
        rw [hphase'] at herrored
        cases herrored
    · -- the stream was attached before, so it is not attached now
      obtain ⟨-, rfl⟩ := mem_of_connection? hc
      subst hlink'
      have hbefore : .attach c.key generation again ∈ effectsOf (earlier ++ m :: since) := by
        rw [List.append_cons, effectsOf_append]
        exact List.mem_append_left _ hattached
      exact absurd hmem (honce.not_again hbefore)
  · intro since n c' _ hnew _ live hphase
    obtain ⟨t, ht⟩ := hnew.phase
    rw [ht] at hphase
    cases hphase

/-- A link that drains goes with its connection only if no call on it is open. -/
theorem settled_of_removed (hc : p.connection? key = some c)
    (hphase : c.phase = .connected live) (hdraining : live.draining = true)
    (hgone : (p.after event).1.connection? key = none) :
    (∃ env now, event = .look env now .stop)
      ∨ ∀ x ∈ c.calls, (p.after event).1.ledger.isFinished x.id = true := by
  rcases removed_cases hc hgone with hstop | ⟨env, now, l, rfl, hturn, hspent⟩
  · exact .inl hstop
  · refine .inr fun x hx => ?_
    obtain ⟨-, hafter⟩ := hturn.grows (Connection.grows_advance env p.config now)
    refine hafter.isFinished ?_
    -- a call that is open would still be there
    have hnobody : (c.advance env p.config now l).connection.calls = [] := by
      rw [Connection.advance_eq] at hspent ⊢
      exact calls_of_isSpent_noteDemand hspent
    obtain ⟨idleSince, hadvanced⟩ :=
      Connection.advance_of_draining hphase hdraining env p.config now l
    cases hfin : (c.advance env p.config now l).ledger.isFinished x.id with
    | true => rfl
    | false =>
      refine absurd (a := x ∈ (c.advance env p.config now l).connection.calls) ?_ ?_
      · rw [hadvanced, Connection.calls_of_connected rfl]
        rw [Connection.calls_of_connected hphase] at hx
        rcases List.mem_append.mp hx with hflight | hwaiting
        · obtain ⟨sent, hsent, rfl⟩ := List.mem_map.mp hflight
          refine List.mem_append_left _ (List.mem_map_of_mem (f := Prod.snd) ?_)
          exact List.mem_filter.mpr ⟨hsent, by rw [hfin]; rfl⟩
        · exact List.mem_append_right _ (Ledger.mem_unsettled.mpr ⟨hwaiting, hfin⟩)
      · rw [hnobody]
        exact List.not_mem_nil

/-- A call that is taken up and is open waits at the end of its queue. -/
theorem Run.waits_of_asked {env : Surroundings} {now : Time} {x : PendingCall}
    (run : Run config (history ++ [m]) m.after)
    (hevent : m.event = .look env now (.command (.call key x)))
    (hopen : m.before.ledger.isFinished x.id = false) :
    ∃ c, m.after.connection? key = some c ∧ x ∈ c.waiting := by
  obtain ⟨d, hd, hkey⟩ := key_mem_withConnection
    { m.before with commands := m.before.commands.tail } now key
  have hafter : m.after
      = (({ m.before with commands := m.before.commands.tail } : Pool).withConnection now
        key).modify key fun c => { c with waiting := c.waiting ++ [x] } := by
    unfold Moment.after
    rw [hevent]
    show (({ m.before with commands := m.before.commands.tail } : Pool).command env now
      (.call key x)).1 = _
    unfold command
    dsimp only
    rw [hopen, if_neg Bool.false_ne_true]
  have hmem : { d with waiting := d.waiting ++ [x] } ∈ m.after.connections := by
    rw [hafter]
    exact List.mem_map.mpr ⟨d, hd, if_pos hkey⟩
  have hfind := connection?_of_mem run.accounts.tidy.keys hmem
  dsimp only at hfind
  rw [hkey] at hfind
  exact ⟨_, hfind, List.mem_append_right _ (List.mem_singleton_self x)⟩

/-! ## §5. Since the refusal. -/

section Since

variable {first : Moment} {middle later : List Moment}

/-- A link drains since some moment, and is not attached again. -/
structure DrainsSince (key : ConnectionKey) (link : LinkId) (earlier : List Moment)
    (first : Moment) (since : List Moment) : Prop where
  attached : ∃ generation, .attach key generation link ∈ effectsOf earlier
  draining : ∀ c live, first.after.connection? key = some c → c.phase = .connected live →
    live.link = link → live.draining = true
  once : AttachedOnce (effectsOf (earlier ++ first :: since))

/-- What comes between two moments, the later of which is not the first. -/
theorem split_since {n : Moment} {before after : List Moment}
    (hsplit : first :: since = middle ++ m :: (before ++ n :: after)) :
    ∃ between, since = between ++ n :: after ∧ first :: between = middle ++ m :: before := by
  cases middle with
  | nil =>
    obtain ⟨rfl, rfl⟩ := List.cons.inj hsplit
    exact ⟨before, rfl, rfl⟩
  | cons _ rest =>
    rw [List.cons_append] at hsplit
    obtain ⟨rfl, rfl⟩ := List.cons.inj hsplit
    exact ⟨rest ++ m :: before, by rw [List.append_assoc, List.cons_append], rfl⟩

/-- It was so at every moment in between. -/
theorem DrainsSince.of_append (h : DrainsSince key link earlier first (since ++ later)) :
    DrainsSince key link earlier first since := by
  refine ⟨h.attached, h.draining, ?_⟩
  have honce := h.once
  rw [← List.cons_append, ← List.append_assoc, effectsOf_append] at honce
  exact honce.of_append

/-- The run before one of the moments in between. -/
theorem DrainsSince.at_before (h : DrainsSince key link earlier first (since ++ m :: later))
    (run : Run config (earlier ++ first :: (since ++ m :: later)) p) :
    (Run config (earlier ++ first :: since) m.before
        ∧ m.before.Admits (earlier ++ first :: since) m.event)
      ∧ DrainsSince key link earlier first since :=
  ⟨run.at_split (by rw [List.append_assoc, List.cons_append]), h.of_append⟩

/-- The link that drains goes on draining. -/
theorem DrainsSince.draining_of_link (h : DrainsSince key link earlier first since)
    (run : Run config (earlier ++ first :: since) p) (hc : p.connection? key = some c)
    (hphase : c.phase = .connected live) (hlink : live.link = link) : live.draining = true := by
  obtain ⟨generation, hattached⟩ := h.attached
  have hbefore : .attach key generation link ∈ effectsOf (earlier ++ [first]) := by
    rw [effectsOf_append]
    exact List.mem_append_left _ hattached
  exact (run.drains rfl h.once hbefore (fun c live hc hphase hlink =>
    ⟨h.draining c live hc hphase hlink, fun _ (hmem : _ ∈ []) => absurd hmem List.not_mem_nil⟩)
    hc hphase hlink).1

end Since

/-! ## §6. The whole. -/

/-- A link has begun to drain at a moment of a run, when a call in flight on it was refused. -/
structure Drained (key : ConnectionKey) (c : Connection) (live : Live) (n : SequenceNumber)
    (call : PendingCall) (first : Moment) (since : List Moment) (p : Pool) : Prop where
  /-- The call waits again, as it was, behind those that wait; nothing is recorded for any call. -/
  refused : first.after.connection? key
      = some
        { c with
          phase := .connected { live.takeOut n with draining := true }
          waiting := c.waiting ++ [call] }
    ∧ first.after.ledger = first.before.ledger
  /-- No call frame is handed to the writer of the link any more. -/
  silent : ∀ other frame taken, .send live.link other frame taken ∈ effectsOf since →
    frame.kind ≠ .call
  /-- A call that is asked for and is open waits. -/
  asked : ∀ m ∈ since, ∀ env now x, m.event = .look env now (.command (.call key x)) →
    m.before.ledger.isFinished x.id = false →
      ∃ d, m.after.connection? key = some d ∧ x ∈ d.waiting
  /-- A call that waits goes on waiting, as it is, until it is settled, for as long as the link is
  there. -/
  waits : ∀ middle m later, first :: since = middle ++ m :: later → ∀ d,
    m.after.connection? key = some d → ∀ x ∈ d.waiting, ∀ d' live',
      p.connection? key = some d' → d'.phase = .connected live' → live'.link = live.link →
        x ∈ d'.waiting ∨ p.ledger.isFinished x.id = true
  /-- With each step the link goes on draining, or it is lost: then those in flight are charged or
  fail, and those that wait go on waiting, as they are. -/
  steps : ∀ middle m later, since = middle ++ m :: later → ∀ d live',
    m.before.connection? key = some d → d.phase = .connected live' → live'.link = live.link →
      ∀ d', m.after.connection? key = some d' →
        Connection.Drains live' d d' m.after ∨ Connection.Loses live' d d' m.before m.after
  /-- The connection is not removed, unless the pool stops or no call that it holds is open. -/
  removed : ∀ middle m later, since = middle ++ m :: later → ∀ d live',
    m.before.connection? key = some d → d.phase = .connected live' → live'.link = live.link →
      m.after.connection? key = none →
        (∃ env now, m.event = .look env now .stop)
          ∨ ∀ x ∈ d.calls, m.after.ledger.isFinished x.id = true
  /-- A call that waits is sent on another link, one that is attached after the refusal. -/
  later : ∀ middle m later, first :: since = middle ++ m :: later → ∀ d,
    m.after.connection? key = some d → ∀ x ∈ d.waiting, ∀ link other frame taken,
      .send link other frame taken ∈ effectsOf later → frame.kind = .call → other.id = x.id →
        link ≠ live.link ∧ ∃ generation, .attach key generation link ∈ effectsOf since

section Refused

variable {env : Surroundings} {now : Time} {frame : ResponseFrame} {call : PendingCall}
  {e : Failure} {first : Moment} {middle later : List Moment}

/-- **What a refusal does.** -/
theorem notice_of_refusal {q : Pool} (hfinds : c.Finds frame live call)
    (hfind : q.connection? c.key = some c) (hresult : frame.result = .error e)
    (he : e.isRefusal = true) :
    (q.notice (.response c.key c.generation frame)).1.connection? c.key
        = some
          { c with
            phase := .connected { live.takeOut frame.sequence with draining := true }
            waiting := c.waiting ++ [call] }
      ∧ (q.notice (.response c.key c.generation frame)).1.ledger = q.ledger := by
  rw [notice_response hfind, if_pos rfl, hfinds.respond_of_error hresult, if_pos he]
  exact ⟨(connection?_settle hfind _ rfl).1, rfl⟩

/-- The link that drains goes on draining, seen from each moment since. -/
theorem DrainsSince.draining_after (h : DrainsSince key link earlier first since)
    (run : Run config (earlier ++ first :: since) p)
    (hsplit : first :: since = middle ++ m :: later) (hc : m.after.connection? key = some c)
    (hphase : c.phase = .connected live) (hlink : live.link = link) : live.draining = true := by
  cases middle with
  | nil =>
    obtain ⟨rfl, rfl⟩ := List.cons.inj hsplit
    exact h.draining c live hc hphase hlink
  | cons _ rest =>
    rw [List.cons_append] at hsplit
    obtain ⟨rfl, rfl⟩ := List.cons.inj hsplit
    obtain ⟨⟨hrun, hadmits⟩, -⟩ := h.at_before run
    have hnext := hrun.next m.event hadmits
    rw [List.append_cons] at h
    rw [List.append_assoc, List.cons_append] at hnext
    exact h.of_append.draining_of_link hnext hc hphase hlink

/-- **A call that waits goes on waiting**, as it is, until it is settled or the link is lost. -/
theorem DrainsSince.waits (h : DrainsSince key link earlier first since)
    (run : Run config (earlier ++ first :: since) p)
    (hsplit : first :: since = middle ++ m :: later) (hc : m.after.connection? key = some c)
    (hc' : p.connection? key = some c') (hphase : c'.phase = .connected live)
    (hlink : live.link = link) :
    ∀ x ∈ c.waiting, x ∈ c'.waiting ∨ p.ledger.isFinished x.id = true := by
  have hwhole : earlier ++ first :: since = (earlier ++ middle) ++ m :: later := by
    rw [hsplit, List.append_assoc]
  obtain ⟨generation, hattached⟩ := h.attached
  have hbefore : .attach key generation link ∈ effectsOf (earlier ++ middle ++ [m]) := by
    rw [List.append_assoc, effectsOf_append]
    exact List.mem_append_left _ hattached
  refine (run.drains hwhole h.once hbefore ?_ hc' hphase hlink).2
  intro d live₀ hd hphase₀ hlink₀
  cases hc.symm.trans hd
  exact ⟨h.draining_after run hsplit hc hphase₀ hlink₀, fun _ hx => hx⟩

/-- **A link that drains since a refusal takes no calls.** -/
theorem DrainsSince.silent (h : DrainsSince key link earlier first since)
    (run : Run config (earlier ++ first :: since) p) {other : PendingCall} {frame : RequestFrame}
    {taken : Bool} (hmem : .send link other frame taken ∈ effectsOf since) :
    frame.kind ≠ .call := by
  intro hkind
  obtain ⟨m, hm, hsent⟩ := List.mem_flatMap.mp hmem
  obtain ⟨before, after, rfl⟩ := List.append_of_mem hm
  obtain ⟨⟨hrun, -⟩, hdrains⟩ := h.at_before run
  have hcall : (Effect.send link other frame taken).isCall = true := beq_iff_eq.mpr hkind
  obtain ⟨c, hc, live, hphase, hopen, _, -, -, _, _, heq⟩ := sender_of_isCall hsent hcall
  obtain ⟨rfl, -, -, -⟩ := Effect.send.inj heq
  -- the sender would be the connection for the key, and its link drains
  have hfind := connection?_of_mem hrun.accounts.tidy.keys hc
  obtain ⟨generation, hattached⟩ := h.attached
  obtain ⟨number, hown⟩ := hrun.attached hfind hphase
  have hkey : c.key = key := by
    have honce := hdrains.once
    rw [effectsOf_append] at honce hown
    exact honce.key_eq (List.mem_append_left _ hattached) hown
  rw [hkey] at hfind
  have hdraining := hdrains.draining_of_link hrun hfind hphase rfl
  rw [hopen] at hdraining
  cases hdraining

/-- **A call that waits at some moment** is sent by the connection for the key. -/
theorem Run.sender_of_waiting (run : Run config (earlier ++ m :: (middle ++ first :: later)) p)
    (hd : m.after.connection? key = some c) {x other : PendingCall} (hx : x ∈ c.waiting)
    {frame : RequestFrame} {taken : Bool} (hsent : .send link other frame taken ∈ first.effects)
    (hkind : frame.kind = .call) (hid : other.id = x.id) :
    ∃ d live, first.before.connection? key = some d ∧ d.phase = .connected live
      ∧ live.link = link := by
  have hcall : (Effect.send link other frame taken).isCall = true := beq_iff_eq.mpr hkind
  have hsplit : earlier ++ m :: (middle ++ first :: later)
      = (earlier ++ m :: middle) ++ first :: later := by
    rw [List.append_assoc, List.cons_append]
  obtain ⟨hrun, -⟩ := run.at_split hsplit
  obtain ⟨d, hmem, live, hphase, -, call, hheld, hopen, _, _, heq⟩ :=
    sender_of_isCall hsent hcall
  cases heq
  have hfind := connection?_of_mem hrun.accounts.tidy.keys hmem
  have hxopen : m.after.ledger.isFinished x.id = false := by
    refine Bool.eq_false_iff.mpr fun hfin => ?_
    refine (run.settled_since rfl hfin).2 live.link other frame taken ?_ hkind hid
    rw [effectsOf_append]
    exact List.mem_append_right _ (List.mem_append_left _ hsent)
  obtain ⟨hc, rfl⟩ := mem_of_connection? hd
  have hkey := hrun.key_of_held rfl (x := (c.key, x)) (y := (d.key, other))
    (mem_held.mpr ⟨c, hc, rfl, List.mem_append_right _ hx⟩) hxopen
    (mem_held.mpr ⟨d, hmem, rfl, hheld⟩) hopen hid
  rw [show d.key = c.key from hkey] at hfind
  exact ⟨d, live, hfind, hphase, rfl⟩

/-- **A call that waits is sent on a later link**, not on the one that drains. -/
theorem DrainsSince.sent_later (h : DrainsSince key link earlier first since)
    (run : Run config (earlier ++ first :: since) p)
    (hstart : ∀ c live, first.after.connection? key = some c → c.phase = .connected live →
      live.link = link)
    (hsplit : first :: since = middle ++ m :: later) (hc : m.after.connection? key = some c)
    {x other : PendingCall} (hx : x ∈ c.waiting) {another : LinkId} {frame : RequestFrame}
    {taken : Bool} (hmem : .send another other frame taken ∈ effectsOf later)
    (hkind : frame.kind = .call) (hid : other.id = x.id) :
    another ≠ link ∧ ∃ generation, .attach key generation another ∈ effectsOf since := by
  obtain ⟨n, hn, hsent⟩ := List.mem_flatMap.mp hmem
  obtain ⟨before, after, rfl⟩ := List.append_of_mem hn
  obtain ⟨between, rfl, hbetween⟩ := split_since hsplit
  have hwhole : earlier ++ first :: (between ++ n :: after)
      = (earlier ++ middle) ++ m :: (before ++ n :: after) := by
    rw [hsplit, List.append_assoc]
  obtain ⟨d, live, hd, hphase, rfl⟩ := (hwhole ▸ run).sender_of_waiting hc hx hsent hkind hid
  have haway : live.link ≠ link := by
    rintro rfl
    exact h.silent run (List.mem_flatMap.mpr
      ⟨n, List.mem_append_right _ List.mem_cons_self, hsent⟩) hkind
  refine ⟨haway, ?_⟩
  obtain ⟨⟨hrun, -⟩, -⟩ := h.at_before run
  rcases hrun.attached_since rfl hd hphase with ⟨live₀, hlive₀, hlink⟩ | ⟨number, hattached⟩
  · -- at first the link was the one that drains
    obtain ⟨c₀, hc₀, hphase₀⟩ := live?_eq_some.mp hlive₀
    exact absurd (hlink.trans (hstart c₀ live₀ hc₀ hphase₀)) haway
  · rw [effectsOf_append]
    exact ⟨number, List.mem_append_left _ hattached⟩

/-- **A link drains from the first refusal on.**  An agent that is shutting down has refused a call
that was in flight on the link. -/
theorem refusals_drain_their_link (run : Run config history p)
    (hsplit : history = earlier ++ first :: since)
    (hevent : first.event = .look env now (.notice (.response key c.generation frame)))
    (hc : first.before.connection? key = some c) (hfinds : c.Finds frame live call)
    (hresult : frame.result = .error e) (he : e.isRefusal = true)
    (honce : AttachedOnce (effectsOf history)) :
    Drained key c live frame.sequence call first since p := by
  subst hsplit
  obtain ⟨hfirst, hadmits⟩ := run.at_split rfl
  obtain ⟨-, rfl⟩ := mem_of_connection? hc
  have hafter : first.after
      = (({ first.before with notices := first.before.notices.tail } : Pool).notice
          (.response c.key c.generation frame)).1 := by
    unfold Moment.after
    rw [hevent]
    rfl
  have hrefused := notice_of_refusal
    (q := { first.before with notices := first.before.notices.tail }) hfinds hc hresult he
  rw [← hafter] at hrefused
  have hdrains : DrainsSince c.key live.link earlier first since := by
    refine ⟨hfirst.attached hc hfinds.phase, fun d live' hd hphase _ => ?_, honce⟩
    rw [hrefused.1] at hd
    cases hd
    cases hphase
    rfl
  exact
    { refused := hrefused
      silent := fun other frame taken hmem => hdrains.silent run hmem
      asked := by
        intro m hm env now x hevent hopen
        obtain ⟨middle, later, rfl⟩ := List.append_of_mem hm
        obtain ⟨⟨hrun, hadmits⟩, -⟩ := hdrains.at_before run
        exact (hrun.next m.event hadmits).waits_of_asked hevent hopen
      waits := by
        intro middle m later hsplit d hd x hx d' live' hd' hphase hlink
        exact hdrains.waits run hsplit hd hd' hphase hlink x hx
      steps := by
        rintro middle m later rfl d live' hd hphase hlink d' hd'
        obtain ⟨⟨hrun, hadmits⟩, hstill⟩ := hdrains.at_before run
        exact hrun.accounts.drains hadmits (mem_of_connection? hd).1
          (hrun.accounts.tidy.steps hd hd') hphase (hstill.draining_of_link hrun hd hphase hlink)
      removed := by
        rintro middle m later rfl d live' hd hphase hlink hgone
        obtain ⟨⟨hrun, -⟩, hstill⟩ := hdrains.at_before run
        exact settled_of_removed hd hphase (hstill.draining_of_link hrun hd hphase hlink) hgone
      later := by
        intro middle m later hsplit d hd x hx link other frame taken hmem hkind hid
        refine hdrains.sent_later run (fun d' live' hd' hphase' => ?_) hsplit hd hx hmem hkind hid
        rw [hrefused.1] at hd'
        cases hd'
        cases hphase'
        rfl }

end Refused

section TwoCalls

/-- The agent is shutting down, and refuses the first call. -/
def oneRefusal : ResponseFrame := ⟨11, 0, .error, [0, 5]⟩

/-- Two calls are in flight, and the first is refused.  Then the link is lost: the second is
charged, the first is not, and both are sent on the next link. -/
theorem refusals_drain_their_link_when_the_link_is_lost :
    ∃ (earlier since : List Moment) (first : Moment) (p : Pool) (c : Connection) (live : Live),
      Run {} (earlier ++ first :: since) p ∧ AttachedOnce (effectsOf (earlier ++ first :: since))
        ∧ first.before.connection? oneAgent = some c ∧ c.phase = .connected live
        ∧ live.link = 9 ∧ live.calls = [oneCall, otherCall]
        ∧ handedOut 9 (effectsOf since) = 0 ∧ handedOut 10 (effectsOf since) = 2
        ∧ Drained oneAgent c live 0 oneCall first since p := by
  have refused := (run_twoCallsSent.next (.report (.response oneAgent 1 oneRefusal)) trivial).next
    (.look oneAddress 0 (.notice (.response oneAgent 1 oneRefusal))) ⟨rfl, rfl⟩
  have lost := (refused.next (.report (.failed oneAgent 1 .connectionClosed)) trivial).next
    (.look oneAddress 0 (.notice (.failed oneAgent 1 .connectionClosed))) ⟨rfl, rfl⟩
  have sought := (lost.next (.advance oneAddress 0) trivial).next (.advance oneAddress 200) trivial
  have sent := ((sought.next (.report (.connected oneAgent 2 (.unix ⟨"/a"⟩) 10)) trivial).next
    (.look oneAddress 200 (.notice (.connected oneAgent 2 (.unix ⟨"/a"⟩) 10))) ⟨rfl, rfl⟩).next
      (.advance oneAddress 200) trivial
  simp only [List.append_assoc, List.cons_append, List.nil_append] at sent
  obtain ⟨earlier, since, first, p, c, live, run, hevent, hc, hfinds, honce, hlink, hcalls, hold,
      hnew⟩ :
      ∃ (earlier since : List Moment) (first : Moment) (p : Pool) (c : Connection) (live : Live),
        Run {} (earlier ++ first :: since) p
          ∧ first.event = .look oneAddress 0 (.notice (.response oneAgent c.generation oneRefusal))
          ∧ first.before.connection? oneAgent = some c ∧ c.Finds oneRefusal live oneCall
          ∧ AttachedOnce (effectsOf (earlier ++ first :: since))
          ∧ live.link = 9 ∧ live.calls = [oneCall, otherCall]
          ∧ handedOut 9 (effectsOf since) = 0 ∧ handedOut 10 (effectsOf since) = 2 := by
    rw [List.append_cons] at sent
    refine ⟨_, _, _, _, _, _, sent, rfl, rfl, ⟨rfl, rfl, rfl⟩, ?_, rfl, rfl, ?_, ?_⟩
    · unfold AttachedOnce
      decide +kernel
    · decide +kernel
    · decide +kernel
  exact ⟨earlier, since, first, p, c, live, run, honce, hc, hfinds.phase, hlink, hcalls, hold, hnew,
    refusals_drain_their_link run rfl hevent hc hfinds rfl rfl honce⟩

end TwoCalls

end Pool

end RemoteCall
